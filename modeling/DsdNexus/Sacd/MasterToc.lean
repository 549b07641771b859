import DsdNexus.Sacd.AreaTocRead

/-! # Reading the master TOC

`sacd_master_toc_read` reads ten sectors: the master TOC itself, a sector of texts for each of
eight text channels, and the manufacturer information. Pointers in a text sector say where the
texts start; they are compared with the size of a sector with its header and trailer, and the
length of a text is that of a special string.
-/

namespace DsdNexus.Sacd.Master

open Attempt
open Area (be signature makeMarker64 ChannelInfo maxTextChannelCount)

/-! ## Status values -/

def invalidSignature : Int := 5

def invalidAreaPointer : Int := 6

/-! ## The sectors -/

/-- `sacd_sector_format_t` -/
inductive SectorFormat where
  | sector2048
  | sector2054
  | sector2064
  deriving DecidableEq, Repr

def SectorFormat.headerSize : SectorFormat → Nat
  | .sector2048 => 0
  | .sector2054 => 6
  | .sector2064 => 12

def SectorFormat.trailerSize : SectorFormat → Nat
  | .sector2048 => 0
  | .sector2054 => 0
  | .sector2064 => 4

def SectorFormat.sectorSize (format : SectorFormat) : Nat :=
  lsnSize + format.headerSize + format.trailerSize

/-- The ten sectors of a master TOC as they were read. -/
structure Sectors where
  format : SectorFormat
  buffer : Bytes
  buffer_length : buffer.length = 10 * format.sectorSize

/-- Where sector `s` starts behind its header. -/
def Sectors.start (b : Sectors) (s : Nat) : Nat := s * b.format.sectorSize + b.format.headerSize

/-- The 2048 bytes of sector `s` behind its header. -/
def Sectors.read (b : Sectors) (s : Nat) : Parse Bytes :=
  readBytes .outside b.buffer (b.start s) lsnSize

def masterTocSign : Bytes := makeMarker64 'S' 'A' 'C' 'D' 'M' 'T' 'O' 'C'

def masterTextSign : Bytes := makeMarker64 'S' 'A' 'C' 'D' 'T' 'e' 'x' 't'

def manufInfoSign : Bytes := makeMarker64 'S' 'A' 'C' 'D' '_' 'M' 'a' 'n'

/-! ## The fields of the first sector -/

/-- More than eight text channels count as none. -/
def textChannelCount (header : Bytes) : Nat :=
  if byteAt header 128 ≤ maxTextChannelCount then byteAt header 128 else 0

/-- `text_channels.info` -/
def channelInfo (header : Bytes) (channel : Nat) : ChannelInfo :=
  ⟨be header (136 + 4 * channel) 2, byteAt header (136 + 4 * channel + 2)⟩

/-- The two copies of a TOC are in one place, or both are there. -/
def PointersAgree (toc1 toc2 : Nat) : Prop := toc1 = toc2 ∨ (toc1 ≠ 0 ∧ toc2 ≠ 0)

instance (toc1 toc2 : Nat) : Decidable (PointersAgree toc1 toc2) :=
  inferInstanceAs (Decidable (_ ∨ _))

def PointersValid (header : Bytes) : Prop :=
  PointersAgree (be header 64 4) (be header 68 4) ∧ PointersAgree (be header 72 4) (be header 76 4)

instance (header : Bytes) : Decidable (PointersValid header) :=
  inferInstanceAs (Decidable (_ ∧ _))

/-- `master_toc_genre_t` -/
structure Genre where
  genreTable : Nat
  index : Nat
  deriving DecidableEq, Repr

def maxGenreCount : Nat := 4

/-- The genre codes from `p` on. -/
def genres (header : Bytes) (p : Nat) : List Genre :=
  (List.range maxGenreCount).map fun i => ⟨byteAt header (p + 4 * i), be header (p + 4 * i + 2) 2⟩

/-! ## Strings -/

/-- `sa_strlcpy` to a buffer of `n + 1` bytes. The length of the source, which it returns, is
used nowhere, but is taken. -/
def saStrlcpy : Nat → Bytes → Parse Bytes
  | _ + 1, [] => .error .outside
  | n + 1, b :: rest =>
    if b = 0 then do
      let _ ← strlen (b :: rest)
      .ok []
    else do
      let copied ← saStrlcpy n rest
      .ok (b :: copied)
  | 0, src => do
    let _ ← strlen src
    .ok []

def maxManufacturerInfo : Nat := 2040

def maxDiscWebLinkInfo : Nat := 128

def maxCatalogLength : Nat := 16

def maxTextTypeCount : Nat := 8

/-- The text of the pointer at `ptr` of a text sector. -/
def readText (convert : Convert) (b : Sectors) (channel code : Nat) (textSector : Bytes)
    (ptr : Nat) : Parse (Option Bytes) :=
  let textOffset := be textSector ptr 2
  if textOffset ≠ 0 ∧ textOffset < b.format.sectorSize % 65536 then
    specialStringToUtf8 convert b.buffer (b.start (channel + 1) + textOffset) code
  else .ok none

/-- The texts of eight pointers, in the order of their types. -/
def readTexts (convert : Convert) (b : Sectors) (channel code : Nat) (textSector : Bytes)
    (ptr : Nat) : Parse (List (Option Bytes)) :=
  collect (fun type => readText convert b channel code textSector (ptr + 2 * type))
    (List.range maxTextTypeCount)

/-- Where the pointers to the album texts stand. -/
def albumPtr : Nat := 16

/-- Where the pointers to the disc texts stand. -/
def discPtr : Nat := 32

/-- The album and the disc texts of a channel; an invalid one has none. -/
def readChannel (convert : Convert) (b : Sectors) (header : Bytes) (channel : Nat) :
    Parse (List (Option Bytes) × List (Option Bytes)) :=
  let info := channelInfo header channel
  if info.Invalid then .ok ([], [])
  else do
    let textSector ← b.read (channel + 1)
    let album ← readTexts convert b channel info.characterSetCode textSector albumPtr
    let disc ← readTexts convert b channel info.characterSetCode textSector discPtr
    .ok (album, disc)

/-! ## The master TOC -/

/-- `master_toc_info_t`, the texts by channel and type. -/
structure MasterTocInfo where
  catalogNum : Bytes
  text : List (List (Option Bytes))
  genre : List Genre
  deriving DecidableEq, Repr

/-- The text that is stored for a channel and a type, if there is one. -/
def MasterTocInfo.textAt (info : MasterTocInfo) (channel type : Nat) : Option Bytes :=
  (info.text.getD channel []).getD type none

/-- `master_toc_t` after a read. -/
structure MasterToc where
  version : Nat × Nat
  textChannelCount : Nat
  curTextChannel : Nat
  channelInfo : List ChannelInfo
  discInfo : MasterTocInfo
  albumInfo : MasterTocInfo
  mcTocArea1Start : Nat
  mcTocArea2Start : Nat
  mcTocAreaLength : Nat
  stTocArea1Start : Nat
  stTocArea2Start : Nat
  stTocAreaLength : Nat
  manufacturerInfo : Bytes
  discTypeHybrid : Bool
  albumSize : Nat
  albumSequence : Nat
  date : Nat × Nat × Nat
  webLinkInfo : Bytes
  deriving DecidableEq, Repr

/-- What is extracted once the checks have passed. -/
def extract (convert : Convert) (b : Sectors) (header : Bytes) : Parse MasterToc := do
  let manufacturerInfo ← saStrlcpy maxManufacturerInfo (b.buffer.drop (b.start 9 + 8))
  let webLinkInfo ← saStrlcpy maxDiscWebLinkInfo (b.buffer.drop (b.start 0 + 168))
  let discCatalogNum ← saStrlcpy maxCatalogLength (b.buffer.drop (b.start 0 + 88))
  let albumCatalogNum ← saStrlcpy maxCatalogLength (b.buffer.drop (b.start 0 + 24))
  let texts ← collect (readChannel convert b header) (List.range (textChannelCount header))
  .ok
    { version := (byteAt header 8, byteAt header 9)
      textChannelCount := textChannelCount header
      curTextChannel := 0
      channelInfo := (List.range (textChannelCount header)).map (channelInfo header)
      discInfo := ⟨discCatalogNum, texts.map Prod.snd, genres header 104⟩
      albumInfo := ⟨albumCatalogNum, texts.map Prod.fst, genres header 40⟩
      mcTocArea1Start := be header 72 4
      mcTocArea2Start := be header 76 4
      mcTocAreaLength := be header 86 2
      stTocArea1Start := be header 64 4
      stTocArea2Start := be header 68 4
      stTocAreaLength := be header 84 2
      manufacturerInfo := manufacturerInfo
      discTypeHybrid := decide (byteAt header 80 / 128 = 1)
      albumSize := be header 16 2
      albumSequence := be header 18 2
      date := (be header 120 2, byteAt header 122, byteAt header 123)
      webLinkInfo := webLinkInfo }

/-- `sacd_master_toc_read`, from where the ten sectors have been read. -/
def masterTocRead (convert : Convert) (b : Sectors) : Parse MasterToc := do
  let header ← b.read 0
  let manufInfo ← b.read 9
  if signature header ≠ masterTocSign ∨ signature manufInfo ≠ manufInfoSign then
    .error (.status invalidSignature)
  else
    let textSectors ← collect (fun channel => b.read (channel + 1))
      (List.range (textChannelCount header))
    if ∃ textSector ∈ textSectors, signature textSector ≠ masterTextSign then
      .error (.status invalidSignature)
    else if ¬ PointersValid header then .error (.status invalidAreaPointer)
    else extract convert b header

/-! ## What the texts should be -/

/-- The bytes of a character of the character set. -/
def width (code : Nat) : Nat := charsetWidth (codepageIndex code)

/-- A zero character of the character set. -/
def ZeroAt (mem : Bytes) (code p : Nat) : Prop := ∀ i < width code, mem[p + i]? = some 0

instance (mem : Bytes) (code p : Nat) : Decidable (ZeroAt mem code p) :=
  inferInstanceAs (Decidable (∀ i < width code, mem[p + i]? = some 0))

/-- The text at a place of its sector: whole characters, none of them zero, up to a terminator
or where the sector has no room for another character. -/
structure TextOf (sector : Bytes) (code p : Nat) (text : Bytes) : Prop where
  inside : p + text.length ≤ sector.length
  bytes : text = slice sector p text.length
  whole : width code ∣ text.length
  nonzero : ∀ k, k * width code < text.length → ¬ ZeroAt sector code (p + k * width code)
  ended : ZeroAt sector code (p + text.length) ∨ sector.length < p + text.length + width code

/-- The payload of sector `s`. -/
def Sectors.sector (b : Sectors) (s : Nat) : Bytes := slice b.buffer (b.start s) lsnSize

/-- The text stored for the pointer at `ptr` is the conversion of the text there. -/
def Converted (convert : Convert) (b : Sectors) (channel ptr : Nat) (stored : Option Bytes) :
    Prop :=
  ∀ text, stored = some text → ∃ source,
    TextOf (b.sector (channel + 1)) (channelInfo (b.sector 0) channel).characterSetCode
      (be (b.sector (channel + 1)) ptr 2) source ∧
    convert (codepageIndex (channelInfo (b.sector 0) channel).characterSetCode) source = some text

/-- Nothing outside the buffer is read, and the texts stored are those of their sectors. -/
structure Contained (convert : Convert) (b : Sectors) : Prop where
  inside : masterTocRead convert b ≠ .error .outside
  album : ∀ toc, masterTocRead convert b = .ok toc → ∀ channel type,
    Converted convert b channel (albumPtr + 2 * type) (toc.albumInfo.textAt channel type)
  disc : ∀ toc, masterTocRead convert b = .ok toc → ∀ channel type,
    Converted convert b channel (discPtr + 2 * type) (toc.discInfo.textAt channel type)

/-- The sectors pass the checks. -/
structure Accepted (b : Sectors) : Prop where
  header : signature (b.sector 0) = masterTocSign
  manufInfo : signature (b.sector 9) = manufInfoSign
  texts : ∀ channel < textChannelCount (b.sector 0),
    signature (b.sector (channel + 1)) = masterTextSign
  pointers : PointersValid (b.sector 0)

/-- The text of a pointer that is followed has a zero character that starts in its sector, or
where the sector ends. -/
def EndsInside (b : Sectors) (channel ptr : Nat) : Prop :=
  let code := (channelInfo (b.sector 0) channel).characterSetCode
  let textOffset := be (b.sector (channel + 1)) ptr 2
  textOffset ≠ 0 → textOffset < b.format.sectorSize →
    ∃ k, textOffset + k * width code ≤ lsnSize ∧
      ZeroAt b.buffer code (b.start (channel + 1) + (textOffset + k * width code))

/-- The texts of all channels in use end in their sectors, and the manufacturer information has
a terminator behind it. -/
structure Ends (b : Sectors) : Prop where
  manufInfo : 0 ∈ b.buffer.drop (b.start 9 + 8)
  texts : ∀ channel < textChannelCount (b.sector 0),
    ¬ (channelInfo (b.sector 0) channel).Invalid → ∀ type < maxTextTypeCount,
      EndsInside b channel (albumPtr + 2 * type) ∧ EndsInside b channel (discPtr + 2 * type)

end DsdNexus.Sacd.Master
