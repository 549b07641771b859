import DsdNexus.Dsdpipe.MetadataTags

/-! # The metadata of an album and its tracks -/

namespace DsdNexus.Dsdpipe

/-- `dsdpipe_metadata_t`, without its timing and its tags; a text that is NULL is `none`. -/
structure Metadata where
  albumTitle : Option CString := none
  albumArtist : Option CString := none
  albumPublisher : Option CString := none
  albumCopyright : Option CString := none
  catalogNumber : Option CString := none
  year : UInt16 := 0
  month : UInt8 := 0
  day : UInt8 := 0
  genre : Option CString := none
  trackTitle : Option CString := none
  trackPerformer : Option CString := none
  trackComposer : Option CString := none
  trackArranger : Option CString := none
  trackSongwriter : Option CString := none
  trackMessage : Option CString := none
  isrc : CString := emptyString
  isrc_fits : isrc.bytes.length < 13 := by decide
  trackNumber : UInt8 := 0
  trackTotal : UInt8 := 0
  discNumber : UInt16 := 0
  discTotal : UInt16 := 0
deriving DecidableEq

end DsdNexus.Dsdpipe
