import DsdNexus.Dsdiff.RoundTrip

/-! # DSDIFF: a file is what it holds

The bytes of a finalized file of DSD audio, from what the file says once it is opened and its
audio: how the calls were cut and ordered cannot be told from them.
-/

namespace DsdNexus.Dsdiff

open Program FileProgram

/-! ## The bytes behind the audio -/

/-- What stands in DIIN. -/
def Contents.diinContents (c : Contents) : Bytes :=
  c.emid.elim [] emidChunk ++
    (c.markers.flatMap (fun entry => markChunk entry.marker) ++
    (c.discArtist.elim [] (countedTextChunk .diar) ++
    c.discTitle.elim [] (countedTextChunk .diti)))

def Contents.diinBytes (c : Contents) : Bytes :=
  if c.emid.isSome ∨ c.discArtist.isSome ∨ c.discTitle.isSome ∨ c.markers ≠ [] then
    chunkHead .diin c.diinContents.length ++ c.diinContents
  else []

def Contents.commentsBytes (c : Contents) : Bytes :=
  if c.commentCount ≠ 0 then comtChunk c.commentCount c.comments else []

def Contents.id3Bytes (c : Contents) : Bytes :=
  ((c.id3Tag :: c.trackId3Tags).filter fun tag => tag ≠ []).flatMap id3Chunk

def Contents.manufacturerBytes (c : Contents) : Bytes :=
  c.manufacturer.elim [] fun m => manfChunk m.1 m.2.1 m.2.2

def Contents.metadataBytes (c : Contents) : Bytes :=
  c.diinBytes ++ (c.commentsBytes ++ (c.id3Bytes ++ c.manufacturerBytes))

section Bytes

variable {p : Properties} {h : Handle} {size : Nat}

theorem textBytes_eq (has : Bool) (text : Option Bytes) (chunk : Bytes → Bytes) :
    textBytes has text chunk = (storedText has text).elim [] chunk := by
  cases has <;> rfl

theorem storedText_isSome (has : Bool) (text : Option Bytes) :
    (storedText has text).isSome = has := by
  cases has <;> rfl

theorem markChunk_stored (entry : MarkerEntry) (sampleRate : UInt32) :
    markChunk (entry.stored sampleRate).marker = markChunk entry.marker := by
  simp only [markChunk, MarkerEntry.marker, MarkerEntry.stored, cstring_cstring]

theorem diinContents_reopened :
    (h.reopened p size).diinContents = Dsdiff.diinContents h := by
  simp only [Contents.diinContents, Dsdiff.diinContents, textBytes_eq, Handle.reopened,
    List.flatMap_map, markChunk_stored]

theorem diinBytes_reopened : (h.reopened p size).diinBytes = Dsdiff.diinBytes h := by
  rw [Contents.diinBytes, diinContents_reopened, Dsdiff.diinBytes]
  simp only [Handle.reopened, storedText_isSome, ne_eq, List.map_eq_nil_iff]

theorem commentBytes_stored (comment : Comment) :
    commentBytes comment.stored = commentBytes comment ∧ comment.stored.size = comment.size := by
  simp only [commentBytes, Comment.size, Comment.stored, cstring_cstring, and_self]

theorem commentsBytes_reopened :
    (h.reopened p size).commentsBytes = Dsdiff.commentsBytes h := by
  have hcomments : (h.reopened p size).comments = h.comments.map Comment.stored := rfl
  have hcount : (h.reopened p size).commentCount = h.commentCount := rfl
  rw [Contents.commentsBytes, Dsdiff.commentsBytes, comtChunk, comtChunk, hcomments, hcount,
    ← List.map_take, List.map_map, List.flatMap_map]
  simp only [Function.comp_def, commentBytes_stored]

theorem id3Bytes_reopened : (h.reopened p size).id3Bytes = h.storedTags.flatMap id3Chunk := by
  have hsome : ∀ tag ∈ h.storedTags, tag ≠ [] := fun tag htag =>
    of_decide_eq_true (List.mem_filter.1 htag).2
  have htags : (h.reopened p size).id3Bytes =
      ((h.storedTags.headD [] :: h.storedTags.tail).filter fun tag => tag ≠ []).flatMap id3Chunk :=
    rfl
  rw [htags]
  generalize h.storedTags = tags at hsome
  rcases tags with _ | ⟨tag, tags⟩
  · rfl
  · exact congrArg (List.flatMap id3Chunk)
      (List.filter_eq_self.2 fun t ht => decide_eq_true (hsome t ht))

theorem manufacturerBytes_reopened :
    (h.reopened p size).manufacturerBytes = Dsdiff.manufacturerBytes h := by
  have hnoted : (h.reopened p size).manufacturer = noted h.hasManufacturer
      (h.manufacturerId, h.manufacturerData, h.manufacturerDataSize) := rfl
  rw [Contents.manufacturerBytes, hnoted, Dsdiff.manufacturerBytes]
  cases h.hasManufacturer <;> rfl

/-- What is written behind the audio is what the file says afterwards. -/
theorem metadataBytes_reopened (hdsd : h.isDstFormat = false) :
    (h.reopened p size).metadataBytes = Dsdiff.metadataBytes h := by
  rw [Contents.metadataBytes, diinBytes_reopened, commentsBytes_reopened, id3Bytes_reopened,
    manufacturerBytes_reopened, metadataBytes_dsd hdsd]

end Bytes

/-! ## The file -/

/-- The properties of a file of DSD audio that says this. -/
def Contents.properties (c : Contents) : Properties where
  version := c.version
  sampleRate := c.sampleRate
  channelIds := c.channelIds.getD []
  audioType := .dsd
  timecode := c.timecode
  loudspeaker := c.loudspeaker

/-- All chunks of the file. -/
def Contents.chunkBytes (c : Contents) (audio : Bytes) : Bytes :=
  fverBytes c.version ++ ((propHead (4 + c.properties.prop.length) ++ c.properties.prop) ++
    ((chunkHead .dsd audio.length ++ (audio ++ padBytes audio.length)) ++ c.metadataBytes))

/-- The file of DSD audio that says this and has this audio. -/
def Contents.fileBytes (c : Contents) (audio : Bytes) : Bytes :=
  frm8Head (4 + (c.chunkBytes audio).length) ++ c.chunkBytes audio

section File

variable {p : Properties} {held : Held} {h h' : Handle} {f g : ByteFile}

theorem properties_contents (hdsd : p.audioType = .dsd) :
    (held.contents p).properties = p.finalized := by
  cases p
  cases hdsd
  rfl

/-- A file that was finalized is the one that says what it holds. -/
theorem HeldBy.closed_eq (hw : HeldBy p held h f) (hdsd : p.audioType = .dsd)
    (hrun : finalize h f = (.ok h', g)) :
    ioClose h'.mode g = (held.contents p).fileBytes held.audio := by
  rw [hw.file_eq] at hrun
  obtain ⟨-, hcontent, hend, -⟩ := finalize_layout hw.writing hw.content hw.room hrun
  have hkind : h.isDstFormat = false := by
    rw [hw.writing.isDstFormat, hdsd]
    rfl
  have hbody : g.content = frm8Head (g.content.length - 12) ++
      (held.contents p).chunkBytes held.audio := by
    refine hcontent.trans ((finalizedFile_dsd hdsd hw.soundDataSize _).trans ?_)
    rw [Contents.chunkBytes, properties_contents hdsd, ← hw.reopened_eq,
      metadataBytes_reopened hkind]
    rfl
  have hlength : g.content.length - 12 =
      4 + ((held.contents p).chunkBytes held.audio).length := by
    have htotal := congrArg List.length hbody
    rw [List.length_append, frm8Head_length] at htotal
    omega
  rw [ioClose_at_end hend, Contents.fileBytes, ← hlength]
  exact hbody

theorem timecodeNormalize_twice (timecode : Timecode) (sampleRate : UInt32) :
    timecodeNormalize (timecodeNormalize timecode sampleRate) sampleRate =
      timecodeNormalize timecode sampleRate := by
  by_cases hrate : sampleRate = 0
  · rw [timecodeNormalize, if_pos hrate]
  · have hpos : 0 < sampleRate.toNat :=
      Nat.pos_of_ne_zero fun h => hrate (UInt32.toNat_inj.1 h)
    have hless : timecode.samples % sampleRate % sampleRate = timecode.samples % sampleRate := by
      rw [← UInt32.toNat_inj, UInt32.toNat_mod, UInt32.toNat_mod, Nat.mod_mod]
    have hnone : (timecode.samples % sampleRate / sampleRate).toNat = 0 := by
      rw [UInt32.toNat_div, UInt32.toNat_mod]
      exact Nat.div_eq_of_lt (Nat.mod_lt _ hpos)
    simp only [timecodeNormalize, if_neg hrate, hless, hnone, Nat.zero_add]
    generalize (timecode.samples / sampleRate).toNat + timecode.seconds.toNat = totalSeconds
    generalize totalSeconds / 60 + timecode.minutes.toNat = totalMinutes
    have hseconds : (UInt8.ofNat (totalSeconds % 60)).toNat = totalSeconds % 60 := by
      rw [UInt8.toNat_ofNat', Nat.mod_eq_of_lt (by omega)]
    have hminutes : (UInt8.ofNat (totalMinutes % 60)).toNat = totalMinutes % 60 := by
      rw [UInt8.toNat_ofNat', Nat.mod_eq_of_lt (by omega)]
    rw [hseconds, hminutes, Nat.div_eq_of_lt (Nat.mod_lt _ (by decide)), Nat.zero_add,
      Nat.div_eq_of_lt (Nat.mod_lt _ (by decide)), Nat.zero_add, Nat.mod_mod, Nat.mod_mod,
      UInt16.ofNat_toNat]

theorem finalized_twice (p : Properties) : p.finalized.finalized = p.finalized := by
  rw [Properties.finalized, Properties.finalized]
  dsimp only
  rw [Option.map_map]
  simp only [Function.comp_def, timecodeNormalize_twice]

/-- A finalized file can be written on. -/
theorem finalized_writing (hw : Writing p h) (endFilePos : Nat) :
    Writing p.finalized (finalizedHandle p h endFilePos) where
  mode := hw.mode
  version := hw.version
  sampleRate := hw.sampleRate
  channelCount := hw.channelCount
  channelIds := hw.channelIds
  isDstFormat := hw.isDstFormat
  propChunkSize := by rw [prop_finalized_length]; exact hw.propChunkSize
  channelChunkPos := hw.channelChunkPos
  hasTimecode := hw.hasTimecode.trans (Option.isSome_map ..).symm
  startTimecode := by
    intro timecode htimecode
    obtain ⟨first, hfirst, rfl⟩ := Option.map_eq_some_iff.1 htimecode
    obtain ⟨hsame, hplace⟩ := hw.startTimecode first hfirst
    have hhas : h.hasTimecode = true := by
      rw [hw.hasTimecode, hfirst]
      rfl
    refine ⟨?_, hplace⟩
    rw [finalizedHandle, if_pos hhas, hsame, hw.sampleRate]
  noTimecode := fun hnone => hw.noTimecode (Option.map_eq_none_iff.1 hnone)
  someChannels := hw.someChannels
  fewChannels := hw.fewChannels
  channels := hw.channels
  known := hw.known

/-- A chunk is not empty. -/
theorem chunkHead_append_ne_nil (type : ChunkType) (chunkSize : Nat) (contents : Bytes) :
    chunkHead type chunkSize ++ contents ≠ [] := by
  intro hnone
  have hlength := congrArg List.length hnone
  rw [chunkHead, List.length_append, List.length_append, Endian.toBe_length, List.length_nil]
    at hlength
  omega

/-- Nothing is to be behind the audio. -/
structure Held.Bare (held : Held) : Prop where
  comments : held.comments = []
  tags : ∀ tag ∈ held.id3Tag :: held.trackId3Tags, tag = []
  manufacturer : held.manufacturer = none
  emid : held.emid = none
  discArtist : held.discArtist = none
  discTitle : held.discTitle = none
  markers : held.markers = []

theorem storedText_eq_map {has : Bool} {text held : Option Bytes}
    (h : storedText has text = held.map cstring) : has = held.isSome := by
  rw [← storedText_isSome has text, h, Option.isSome_map]

/-- Nothing is written behind the audio exactly when nothing is to be there. -/
theorem HeldBy.metadataBytes_eq_nil_iff (hw : HeldBy p held h f) (hcounted : held.Counted)
    (hdsd : p.audioType = .dsd) : metadataBytes h = [] ↔ held.Bare := by
  have hkind : h.isDstFormat = false := by
    rw [hw.writing.isDstFormat, hdsd]
    rfl
  have hdiin : diinBytes h = [] ↔ held.emid = none ∧ held.discArtist = none ∧
      held.discTitle = none ∧ held.markers = [] := by
    rw [diinBytes, storedText_eq_map hw.emid, storedText_eq_map hw.discArtist,
      storedText_eq_map hw.discTitle, hw.markers]
    split
    · next hsome =>
      refine iff_of_false (chunkHead_append_ne_nil _ _ _) ?_
      rintro ⟨hemid, hartist, htitle, hmarkers⟩
      simp [hemid, hartist, htitle, hmarkers] at hsome
    · next hnone =>
      simpa using hnone
  have hcomments : commentsBytes h = [] ↔ held.comments = [] := by
    rw [commentsBytes, hw.commentCount]
    split
    · next hsome =>
      refine iff_of_false (chunkHead_append_ne_nil _ _ _) fun hnone => hsome ?_
      rw [hnone]
      rfl
    · next hnone =>
      have hzero := congrArg UInt16.toNat (not_not.1 hnone)
      rw [UInt16.toNat_ofNat', Nat.mod_eq_of_lt hcounted.1] at hzero
      exact iff_of_true rfl (List.eq_nil_of_length_eq_zero hzero)
  have htags : h.storedTags.flatMap id3Chunk = [] ↔
      ∀ tag ∈ held.id3Tag :: held.trackId3Tags, tag = [] := by
    have hnever : ∀ tag, id3Chunk tag ≠ [] := fun _ => chunkHead_append_ne_nil _ _ _
    rw [List.flatMap_eq_nil_iff, Handle.storedTags, hw.id3Tag, hw.trackId3Tags]
    simp only [hnever, imp_false, List.mem_filter, decide_eq_true_eq, not_and, not_not]
  have hmanufacturer : manufacturerBytes h = [] ↔ held.manufacturer = none := by
    have hnoted := congrArg Option.isNone hw.manufacturer
    rw [Option.isNone_map] at hnoted
    rw [manufacturerBytes, ← Option.isNone_iff_eq_none, ← hnoted]
    cases h.hasManufacturer
    · exact iff_of_true rfl rfl
    · exact iff_of_false (chunkHead_append_ne_nil _ _ _) Bool.false_ne_true
  rw [metadataBytes_dsd hkind]
  simp only [List.append_eq_nil_iff, hdiin, hcomments, htags, hmanufacturer]
  constructor
  · rintro ⟨⟨hemid, hartist, htitle, hmarkers⟩, hcomments, htags, hmanufacturer⟩
    exact ⟨hcomments, htags, hmanufacturer, hemid, hartist, htitle, hmarkers⟩
  · exact fun hbare => ⟨⟨hbare.emid, hbare.discArtist, hbare.discTitle, hbare.markers⟩,
      hbare.comments, hbare.tags, hbare.manufacturer⟩

/-- A file that is finalized again stays what it is when nothing stands behind its audio. -/
theorem HeldBy.again_iff {h'' : Handle} {k : ByteFile} (hw : HeldBy p held h f)
    (hrun : finalize h f = (.ok h', g)) (hagain : finalize h' g = (.ok h'', k)) :
    ioClose h''.mode k = ioClose h'.mode g ↔
      held.audio.length % 2 = 0 ∧ metadataBytes h = [] := by
  rw [hw.file_eq] at hrun
  obtain ⟨rfl, hcontent, hend, hroom⟩ := finalize_layout hw.writing hw.content hw.room hrun
  have hfile : g = ⟨g.content, g.content.length⟩ := by
    rw [← hend]
  have hbehind : g.content = p.finalized.head (g.content.length - 12) (4 + p.prop.length) ++
      (soundHead p.finalized.audioType h.soundDataSize h.dstFrameCount h.dstFrameRate ++
        (held.audio ++ (padBytes h.soundDataSize ++ metadataBytes h))) := hcontent
  rw [hfile] at hagain
  obtain ⟨rfl, hcontent', hend', -⟩ :=
    finalize_layout (finalized_writing hw.writing _) hbehind hroom hagain
  have hmore : k.content.length =
      (g.content ++ (padBytes h.soundDataSize ++ metadataBytes h)).length :=
    (congrArg List.length hcontent').trans (finalizedFile_length hbehind _)
  rw [List.length_append, List.length_append, hw.soundDataSize, padBytes_length] at hmore
  rw [ioClose_at_end hend, ioClose_at_end hend']
  constructor
  · intro hsame
    rw [hsame] at hmore
    exact ⟨by omega, List.eq_nil_of_length_eq_zero (by omega)⟩
  · rintro ⟨heven, hnone⟩
    have hlength : k.content.length = g.content.length := by
      rw [hmore, heven, hnone]
      rfl
    have hpad : padBytes h.soundDataSize = [] := by
      rw [hw.soundDataSize, padBytes, if_neg (by omega)]
    have hpad' : padBytes (finalizedHandle p h g.content.length).soundDataSize = [] := hpad
    have hnone' : metadataBytes (finalizedHandle p h g.content.length) = [] := hnone
    refine hcontent'.trans (Eq.trans ?_ hcontent.symm)
    rw [hlength, Properties.finalizedFile, Properties.finalizedFile, finalized_twice,
      prop_finalized_length, hpad, hnone, hpad', hnone']
    simp only [List.append_nil]
    rfl

end File

section Runs

variable {h₁ h₂ h₁' h₂' : Handle} {channelCount₁ channelCount₂ sampleBits₁ sampleBits₂ : UInt16}
  {sampleRate₁ sampleRate₂ : UInt32} {calls₁ calls₂ : List Call} {f₁ f₂ : ByteFile}

/-- Two files of DSD audio are the same exactly when they say the same and have the same audio,
whatever calls they were written with. -/
theorem same_file_iff (hprepared₁ : Prepared h₁) (hfine₁ : ∀ call ∈ calls₁, call.Fine)
    (hcounted₁ : ∀ before, before <+: calls₁ → (heldOf sampleRate₁ before).Counted)
    (hrun₁ : writeDsd h₁ channelCount₁ sampleBits₁ sampleRate₁ calls₁ ⟨[], 0⟩ = (.ok h₁', f₁))
    (hprepared₂ : Prepared h₂) (hfine₂ : ∀ call ∈ calls₂, call.Fine)
    (hcounted₂ : ∀ before, before <+: calls₂ → (heldOf sampleRate₂ before).Counted)
    (hrun₂ : writeDsd h₂ channelCount₂ sampleBits₂ sampleRate₂ calls₂ ⟨[], 0⟩ = (.ok h₂', f₂)) :
    ioClose h₁'.mode f₁ = ioClose h₂'.mode f₂ ↔
      (heldOf sampleRate₁ calls₁).contents (createdProperties h₁ .dsd channelCount₁ sampleRate₁) =
          (heldOf sampleRate₂ calls₂).contents
            (createdProperties h₂ .dsd channelCount₂ sampleRate₂) ∧
        (heldOf sampleRate₁ calls₁).audio = (heldOf sampleRate₂ calls₂).audio := by
  obtain ⟨written₁, g₁, hw₁, hp₁, hfinalize₁⟩ := writeDsd_held hprepared₁ hfine₁ hcounted₁ hrun₁
  obtain ⟨written₂, g₂, hw₂, hp₂, hfinalize₂⟩ := writeDsd_held hprepared₂ hfine₂ hcounted₂ hrun₂
  constructor
  · intro hsame
    have hname : ∀ pos : Nat, (compressionName .dsd).length ≤ (fun _ : Nat => 255) pos :=
      fun _ => (by decide : (compressionName .dsd).length ≤ 255)
    obtain ⟨fuel₁, s, hopen₁, hsays₁, hreads₁⟩ :=
      hw₁.opens (hcounted₁ calls₁ List.prefix_rfl) hp₁ rfl hname hfinalize₁
    obtain ⟨fuel₂, s', hopen₂, hsays₂, hreads₂⟩ :=
      hw₂.opens (hcounted₂ calls₂ List.prefix_rfl) hp₂ rfl hname hfinalize₂
    rw [← hsame] at hopen₂
    obtain rfl : s = s' := Except.ok.inj (dsdiffOpen_unique hopen₁ hopen₂)
    have hcontents := hsays₁.symm.trans hsays₂
    have hsize : (heldOf sampleRate₁ calls₁).audio.length =
        (heldOf sampleRate₂ calls₂).audio.length := congrArg Contents.soundDataSize hcontents
    refine ⟨hcontents, ?_⟩
    -- So many reads of one byte each deliver all of it.
    have hread := (hreads₁ (List.replicate (heldOf sampleRate₁ calls₁).audio.length 1)).symm.trans
      (hreads₂ (List.replicate (heldOf sampleRate₁ calls₁).audio.length 1))
    rw [List.map_replicate, List.sum_replicate_nat, show (1 : UInt32).toNat = 1 from rfl,
      Nat.mul_one, List.take_length] at hread
    rwa [hsize, List.take_length] at hread
  · rintro ⟨hcontents, haudio⟩
    rw [hw₁.closed_eq rfl hfinalize₁, hw₂.closed_eq rfl hfinalize₂, hcontents, haudio]

/-- The audio in one piece behind the rest, and the tag of the second track set for the first. -/
def reorderedCalls : List Call :=
  [.discTitle [84], .trackId3Tag 0 [9], .comment ⟨2005, 2, 3, 4, 5, 6, 7, 1, [33]⟩,
    .id3Tag [73, 68, 51], .marker secondMarker, .data [1, 2, 3, 4, 5, 6, 7, 8]]

/-- The file with these calls is the one with the others. -/
theorem same_file_iff_stereo : ∃ h₁' f₁ h₂' f₂,
    writeDsd new 2 1 2822400 stereoCalls ⟨[], 0⟩ = (.ok h₁', f₁) ∧
      writeDsd new 2 1 2822400 reorderedCalls ⟨[], 0⟩ = (.ok h₂', f₂) ∧
      ioClose h₁'.mode f₁ = ioClose h₂'.mode f₂ := by
  obtain ⟨h₁', f₁, hrun₁⟩ := exists_ok (show
    (writeDsd new 2 1 2822400 stereoCalls ⟨[], 0⟩).1.toBool = true by decide +kernel)
  obtain ⟨h₂', f₂, hrun₂⟩ := exists_ok (show
    (writeDsd new 2 1 2822400 reorderedCalls ⟨[], 0⟩).1.toBool = true by decide +kernel)
  have hfine : ∀ call ∈ reorderedCalls, call.Fine := by simp [reorderedCalls, Call.Fine]
  have hcounted : ∀ before, before <+: reorderedCalls → (heldOf 2822400 before).Counted :=
    fun before hbefore =>
      (by decide : ∀ before ∈ reorderedCalls.inits, (heldOf 2822400 before).Counted) before
        ((List.mem_inits before _).2 hbefore)
  exact ⟨h₁', f₁, h₂', f₂, hrun₁, hrun₂,
    (same_file_iff .new stereoCalls_fine (fun _ => stereoCalls_counted) hrun₁ .new hfine hcounted
      hrun₂).2 ⟨rfl, rfl⟩⟩

end Runs

/-- To finalize a file of DSD audio once more leaves it as it is exactly when its audio needs no
pad byte and nothing stands behind it. -/
theorem finalize_again_iff {h h' h'' : Handle} {channelCount sampleBits : UInt16}
    {sampleRate : UInt32} {calls : List Call} {f g : ByteFile} (hprepared : Prepared h)
    (hfine : ∀ call ∈ calls, call.Fine)
    (hcounted : ∀ before, before <+: calls → (heldOf sampleRate before).Counted)
    (hrun : writeDsd h channelCount sampleBits sampleRate calls ⟨[], 0⟩ = (.ok h', f))
    (hagain : finalize h' f = (.ok h'', g)) :
    ioClose h''.mode g = ioClose h'.mode f ↔
      (heldOf sampleRate calls).audio.length % 2 = 0 ∧ (heldOf sampleRate calls).Bare := by
  obtain ⟨written, k, hw, -, hfinalize⟩ := writeDsd_held hprepared hfine hcounted hrun
  rw [hw.again_iff hfinalize hagain,
    hw.metadataBytes_eq_nil_iff (hcounted calls List.prefix_rfl) rfl]

/-- The disc title is written once more. -/
theorem finalize_again_iff_stereo : ∃ h' f h'' g,
    writeDsd new 2 1 2822400 stereoCalls ⟨[], 0⟩ = (.ok h', f) ∧ finalize h' f = (.ok h'', g) ∧
      ioClose h''.mode g ≠ ioClose h'.mode f := by
  obtain ⟨h'', g, hruns⟩ := exists_ok (show
    (writeDsd new 2 1 2822400 stereoCalls >>= finalize) ⟨[], 0⟩ |>.1.toBool = true by
      decide +kernel)
  obtain ⟨h', f, hrun, hagain⟩ := bind_eq_ok hruns
  refine ⟨h', f, h'', g, hrun, hagain, fun hsame => ?_⟩
  obtain ⟨-, hbare⟩ := (finalize_again_iff .new stereoCalls_fine (fun _ => stereoCalls_counted)
    hrun hagain).1 hsame
  exact absurd hbare.discTitle (by decide)

end DsdNexus.Dsdiff
