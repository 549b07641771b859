import DsdNexus.Lib.Program
import DsdNexus.Util.Cstring

/-! # Selecting tracks by a string

`track_select.c` and the calls of `dsdpipe.c` that select tracks. A selection is a list of track
numbers that grows up to 255; a string selects all tracks, or a list of tracks and ranges of
them.
-/

namespace DsdNexus.Dsdpipe.TrackSelect

open Program

/-- The errors of a selection; `endless` stands for a loop that has not ended. -/
inductive SelectError where
  | invalidArg
  | invalidTrackSpec
  | trackNotFound
  | source
  | endless
  deriving DecidableEq, Repr

def maxTracks : Nat := 255

/-- `dsdpipe_track_selection_t`; the tracks are those in use. -/
structure TrackSelection where
  tracks : List UInt8
  capacity : Nat
  currentIdx : Nat
  capacity_pos : 0 < capacity
  capacity_le : capacity ≤ maxTracks

/-- `dsdpipe_track_selection_clear` -/
def TrackSelection.clear (sel : TrackSelection) : TrackSelection :=
  { sel with tracks := [], currentIdx := 0 }

/-- `dsdpipe_track_selection_ensure_capacity`, where there is memory. -/
def ensureCapacity : Program SelectError TrackSelection Unit := fun sel =>
  if sel.tracks.length < sel.capacity then (.ok (), sel)
  else if min (sel.capacity * 2) maxTracks ≤ sel.tracks.length then (.error .invalidArg, sel)
  else
    (.ok (), { sel with
      capacity := min (sel.capacity * 2) maxTracks
      capacity_pos := Nat.lt_min.2 ⟨Nat.mul_pos sel.capacity_pos Nat.zero_lt_two, by decide⟩
      capacity_le := Nat.min_le_right _ _ })

/-- `dsdpipe_track_selection_add` -/
def add (track : UInt8) : Program SelectError TrackSelection Unit := fun sel =>
  if track = 0 then (.error .invalidArg, sel)
  else if track ∈ sel.tracks then (.ok (), sel)
  else (ensureCapacity >>= fun _ =>
    modify fun sel => { sel with tracks := sel.tracks ++ [track] }) sel

/-- A loop that adds tracks and stops at the first error. -/
def addEach : List UInt8 → Program SelectError TrackSelection Unit
  | [] => pure ()
  | track :: tracks => add track >>= fun _ => addEach tracks

/-- The tracks of a loop with a `uint8_t` from 1 up to a limit; behind 255 comes 0, which is no
greater than any limit and cannot be added. -/
def countUp (limit : UInt8) : List UInt8 :=
  ((List.range 256).map fun i => UInt8.ofNat (i + 1)).takeWhile fun track => track ≤ limit

/-! ## Parsing -/

def comma : UInt8 := 0x2C

def dash : UInt8 := 0x2D

/-- `skip_whitespace` -/
def skipWhitespace (p : Bytes) : Bytes := p.dropWhile isSpace

/-- `parse_uint`: the number, an `unsigned int`, and where the digits end. -/
def parseUint (p : Bytes) : Option (UInt32 × Bytes) :=
  let p := skipWhitespace p
  let digits := p.takeWhile isDigit
  if digits = [] then none
  else some (digits.foldl (fun v c => v * 10 + UInt32.ofNat (c.toNat - 0x30)) 0,
    p.dropWhile isDigit)

/-- A number, which must be that of a track. -/
def parseTrack (maxTrack : UInt8) (p : Bytes) : Except SelectError (UInt32 × Bytes) :=
  match parseUint p with
  | none => .error .invalidTrackSpec
  | some (track, rest) =>
    if track = 0 ∨ maxTrack.toNat < track.toNat then .error .trackNotFound
    else .ok (track, rest)

/-- The tracks from one to another, upwards or downwards. -/
def rangeTracks (start stop : Nat) : List UInt8 :=
  if start ≤ stop then (List.range' start (stop + 1 - start)).map UInt8.ofNat
  else ((List.range' stop (start + 1 - stop)).map UInt8.ofNat).reverse

/-- A track or a range: the tracks to be added, and what stands behind it. -/
def parseItem (maxTrack : UInt8) (p : Bytes) : Except SelectError (List UInt8 × Bytes) := do
  let (start, p) ← parseTrack maxTrack p
  match skipWhitespace p with
  | [] => .ok ([UInt8.ofNat start.toNat], [])
  | c :: p =>
    if c = dash then do
      let (stop, p) ← parseTrack maxTrack (skipWhitespace p)
      .ok (rangeTracks start.toNat stop.toNat, skipWhitespace p)
    else .ok ([UInt8.ofNat start.toNat], c :: p)

/-- The loop over the items, for so many turns. -/
def parseItems (maxTrack : UInt8) : Nat → Bytes → Program SelectError TrackSelection Unit
  | 0, _ => fail .endless
  | n + 1, p =>
    if skipWhitespace p = [] then pure ()
    else
      match parseItem maxTrack (skipWhitespace p) with
      | .error e => fail e
      | .ok (tracks, rest) => addEach tracks >>= fun _ =>
        match rest with
        | [] => pure ()
        | c :: rest => if c = comma then parseItems maxTrack n rest else fail .invalidTrackSpec

/-- The word `all`, and nothing but white space behind it. -/
def isAll (p : Bytes) : Bool :=
  decide (p.take 3 = ascii "all") && decide (skipWhitespace (p.drop 3) = [])

/-- Some track must be selected. -/
def requireTracks : Program SelectError TrackSelection Unit := fun sel =>
  if sel.tracks = [] then (.error .invalidTrackSpec, sel) else (.ok (), sel)

/-- `dsdpipe_track_selection_parse` -/
def trackSelectionParse (str : Bytes) (maxTrack : UInt8) :
    Program SelectError TrackSelection Unit := do
  modify TrackSelection.clear
  let p := skipWhitespace str
  if isAll p then addEach (countUp maxTrack)
  else do
    parseItems maxTrack (p.length + 1) p
    requireTracks

/-- `dsdpipe_select_tracks_str`, with the track count the source gives. -/
def selectTracksStr (trackCount : Option UInt8) (selection : Bytes) :
    Program SelectError TrackSelection Unit :=
  match trackCount with
  | none => fail .source
  | some maxTrack => do
    modify TrackSelection.clear
    trackSelectionParse selection maxTrack

/-- `dsdpipe_select_all_tracks` -/
def selectAllTracks (trackCount : Option UInt8) : Program SelectError TrackSelection Unit :=
  match trackCount with
  | none => fail .source
  | some count => do
    modify TrackSelection.clear
    addEach (countUp count)

/-! ## What a string says -/

def Blank (w : Bytes) : Prop := ∀ c ∈ w, isSpace c = true

/-- A token with white space around it. -/
def Spaced (token : Bytes → Prop) (s : Bytes) : Prop :=
  ∃ before t after, s = before ++ (t ++ after) ∧ Blank before ∧ token t ∧ Blank after

/-- A decimal number of any length. -/
structure Number (n : Nat) (t : Bytes) : Prop where
  nonempty : t ≠ []
  digits : ∀ c ∈ t, isDigit c = true
  value : digitsValue t = n

/-- A track, or a range of tracks. -/
inductive Item where
  | single (n : Nat)
  | range (a b : Nat)
  deriving DecidableEq, Repr

def Item.Spells : Item → Bytes → Prop
  | .single n, s => Spaced (Number n) s
  | .range a b, s => ∃ x y, s = x ++ dash :: y ∧ Spaced (Number a) x ∧ Spaced (Number b) y

/-- The numbers are those of tracks. -/
def Item.Valid (maxTrack : UInt8) : Item → Prop
  | .single n => 1 ≤ n ∧ n ≤ maxTrack.toNat
  | .range a b => (1 ≤ a ∧ a ≤ maxTrack.toNat) ∧ 1 ≤ b ∧ b ≤ maxTrack.toNat

def Item.tracks : Item → List UInt8
  | .single n => [UInt8.ofNat n]
  | .range a b => rangeTracks a b

/-- Items with commas between them; there may be a comma behind the last. -/
inductive Listed : List Item → Bytes → Prop where
  | blank {s : Bytes} (h : Blank s) : Listed [] s
  | last {item : Item} {s : Bytes} (h : item.Spells s) : Listed [item] s
  | cons {item : Item} {items : List Item} {s rest : Bytes} (h : item.Spells s)
      (hrest : Listed items rest) : Listed (item :: items) (s ++ comma :: rest)

/-- Items at the start of a string, with commas between them. -/
inductive Begins : List Item → Bytes → Prop where
  | nil (s : Bytes) : Begins [] s
  | last {item : Item} {s rest : Bytes} (h : item.Spells s)
      (hrest : ∀ c ∈ rest.head?, isDigit c = false) : Begins [item] (s ++ rest)
  | cons {item : Item} {items : List Item} {s rest : Bytes} (h : item.Spells s)
      (hrest : Begins items rest) : Begins (item :: items) (s ++ comma :: rest)

def SpellsAll (s : Bytes) : Prop := Spaced (· = ascii "all") s

/-- The tracks of the items in the order in which they occur first. -/
def denoted (items : List Item) : List UInt8 := (items.flatMap Item.tracks).eraseDups

/-- The tracks from the first to the last. -/
def allTracks (maxTrack : UInt8) : List UInt8 := (List.range' 1 maxTrack.toNat).map UInt8.ofNat

/-- The items that a string lists, all of them of tracks there are. -/
structure Lists (maxTrack : UInt8) (items : List Item) (s : Bytes) : Prop where
  nonempty : items ≠ []
  listed : Listed items s
  valid : ∀ item ∈ items, item.Valid maxTrack

/-- What a selection by a string should come to. -/
structure Selects (maxTrack : UInt8) (s : Bytes) (result : Except SelectError Unit)
    (sel : TrackSelection) : Prop where
  accepts : result = .ok () ↔ SpellsAll s ∨ ∃ items, Lists maxTrack items s
  all : SpellsAll s → sel.tracks = allTracks maxTrack
  items : ∀ items, Lists maxTrack items s → sel.tracks = denoted items
  failed : result ≠ .ok () → ∃ items, Begins items s ∧ (∀ item ∈ items, item.Valid maxTrack) ∧
    sel.tracks = denoted items

/-- No run of digits is beyond an `unsigned int`. -/
def NumbersFit (s : Bytes) : Prop :=
  ∀ before digits after, s = before ++ (digits ++ after) → (∀ c ∈ digits, isDigit c = true) →
    digitsValue digits < 2 ^ 32

end DsdNexus.Dsdpipe.TrackSelect
