import DsdNexus.Lib.Program
import Mathlib.Algebra.Order.Ring.Nat

/-! # Messages of the network protocol

What the protocol-buffer library does on a socket: it reads the fields of a response until
the socket gives no more, and takes that for the end of the message where a field would
start. The source is what the socket will deliver before a receive fails; its elements are
the bytes together with whatever is known of them.
-/

namespace DsdNexus.Sacd

open Program

/-! ## The input stream -/

/-- `pb_istream_t` on a socket: a failed receive leaves no bytes to count on. -/
structure Istream (α : Type) where
  bytesLeft : Nat
  source : List α

/-- A part of the decoder; it stops with an error where it returns `false`. -/
abbrev Pb (α : Type) := Program Unit (Istream α)

variable {α β : Type} (value : α → UInt8)

def pbReadbyte : Pb α α := fun s =>
  if s.bytesLeft = 0 then (.error (), s)
  else
    match s.source with
    | [] => (.error (), { s with bytesLeft := 0 })
    | b :: rest => (.ok b, ⟨s.bytesLeft - 1, rest⟩)

def pbRead (count : Nat) : Pb α (List α) := fun s =>
  if count = 0 then (.ok [], s)
  else if s.bytesLeft < count then (.error (), s)
  else if s.source.length < count then (.error (), ⟨0, []⟩)
  else (.ok (s.source.take count), ⟨s.bytesLeft - count, s.source.drop count⟩)

/-- Without a buffer, the bytes are read away by sixteen. -/
def pbSkip (count : Nat) : Pb α Unit := do
  (List.range ((count - 1) / 16)).forM fun _ => do
    let _ ← pbRead 16
    pure ()
  let _ ← pbRead (count - (count - 1) / 16 * 16)
  pure ()

/-! ## Numbers -/

/-- The bytes of a `uint32_t` varint from the one at `bitpos` on. No varint gets as far as
sixty-four bits. -/
def pbVarint32Rest : Nat → Nat → Nat → Pb α Nat
  | 0, _, _ => fail ()
  | n + 1, bitpos, result => do
    let b ← pbReadbyte
    let byte := (value b).toNat
    if 32 ≤ bitpos then
      let signExtension := if bitpos < 63 then 0xFF else 0x01
      require (bitpos < 64 ∧ (byte % 128 = 0 ∨ result / 2 ^ 31 ≠ 0 ∧ byte = signExtension)) ()
      if 128 ≤ byte then pbVarint32Rest n (bitpos + 7) result else pure result
    else if bitpos = 28 then
      require (byte / 16 % 8 = 0 ∨ byte / 8 % 16 = 15) ()
      let result := result + byte % 16 * 2 ^ bitpos
      if 128 ≤ byte then pbVarint32Rest n (bitpos + 7) result else pure result
    else
      let result := result + byte % 128 * 2 ^ bitpos
      if 128 ≤ byte then pbVarint32Rest n (bitpos + 7) result else pure result

/-- What follows the first byte of a `uint32_t` varint. -/
def pbVarint32After (b : α) : Pb α Nat :=
  if (value b).toNat < 128 then pure (value b).toNat
  else pbVarint32Rest value 9 7 ((value b).toNat % 128)

def pbDecodeVarint32 : Pb α Nat := do
  let b ← pbReadbyte
  pbVarint32After value b

/-- The bytes of a `uint64_t` varint from the one at `bitpos` on. -/
def pbVarintRest : Nat → Nat → Nat → Pb α Nat
  | 0, _, _ => fail ()
  | n + 1, bitpos, result => do
    let b ← pbReadbyte
    let byte := (value b).toNat
    require (bitpos < 63 ∨ byte < 2) ()
    let result := result + byte % 128 * 2 ^ bitpos
    if 128 ≤ byte then pbVarintRest n (bitpos + 7) result else pure result

def pbDecodeVarint : Pb α Nat := pbVarintRest value 10 0 0

def pbSkipVarint : Nat → Pb α Unit
  | 0 => pure ()
  | n + 1 => do
    let b ← pbReadbyte
    if 128 ≤ (value b).toNat then pbSkipVarint n else pure ()

/-! ## Fields -/

/-- The field number and the wire type, or nothing where the stream ends first. -/
def pbDecodeTag : Pb α (Option (Nat × Nat)) := fun s =>
  match pbReadbyte s with
  | (.error _, s') => if s'.bytesLeft = 0 then (.ok none, s') else (.error (), s')
  | (.ok b, s') =>
    (do
      let temp ← pbVarint32After value b
      pure (some (temp / 8, temp % 8)) : Pb α (Option (Nat × Nat))) s'

def wtVarint : Nat := 0

def wt64bit : Nat := 1

def wtString : Nat := 2

def wt32bit : Nat := 5

def pbSkipField (wireType : Nat) : Pb α Unit := do
  let s ← get
  if wireType = wtVarint then pbSkipVarint value (s.source.length + 1)
  else if wireType = wt64bit then pbSkip 8
  else if wireType = wtString then do
    let length ← pbDecodeVarint32 value
    pbSkip length
  else if wireType = wt32bit then pbSkip 4
  else fail ()

/-- `ServerResponse`, and the required fields seen of it. -/
structure ServerResponse (α : Type) where
  type : Nat
  result : Int
  hasData : Bool
  data : List α
  seenType : Bool
  seenResult : Bool

/-- The defaults of the message. -/
def ServerResponse.init : ServerResponse α := ⟨1, 0, false, [], false, false⟩

/-- `max_size` of the data of a response. -/
def maxDataSize : Nat := 1024000

def int64OfVarint (n : Nat) : Int := if n < 2 ^ 63 then n else n - 2 ^ 64

/-- One field into the message. -/
def pbDecodeField (m : ServerResponse α) (tag wireType : Nat) : Pb α (ServerResponse α) :=
  if tag = 1 then do
    require (wireType = wtVarint) ()
    let n ← pbDecodeVarint value
    require (n < 2 ^ 32) ()
    pure { m with type := n, seenType := true }
  else if tag = 2 then do
    require (wireType = wtVarint) ()
    let n ← pbDecodeVarint value
    pure { m with result := int64OfVarint n, seenResult := true }
  else if tag = 3 then do
    require (wireType = wtString) ()
    let size ← pbDecodeVarint32 value
    require (size ≤ maxDataSize) ()
    let data ← pbRead size
    pure { m with hasData := true, data := data }
  else do
    pbSkipField value wireType
    pure m

/-- The loop of `pb_decode_inner`. Every field takes a byte at least, so that one turn more
than there are bytes is never taken. -/
def pbDecodeLoop : Nat → ServerResponse α → Pb α (ServerResponse α)
  | 0, _ => fail ()
  | n + 1, m => do
    let s ← get
    if s.bytesLeft = 0 then pure m
    else do
      let tag ← pbDecodeTag value
      match tag with
      | none => pure m
      | some (tag, wireType) => do
        require (tag ≠ 0) ()
        let m ← pbDecodeField value m tag wireType
        pbDecodeLoop n m

/-- `pb_decode` of a response from a stream that has all of its bytes left. -/
def pbDecode : Pb α (ServerResponse α) := do
  modify fun s => { s with bytesLeft := 2 ^ 64 - 1 }
  let s ← get
  let m ← pbDecodeLoop value (s.source.length + 1) .init
  require (m.seenType = true ∧ m.seenResult = true) ()
  pure m

/-- The response in what a socket delivers, and what is left of that. -/
def decodeResponse (source : List α) : Except Unit (ServerResponse α) × Istream α :=
  pbDecode value ⟨0, source⟩

/-! ## The decoder only goes on in its source -/

/-- What is left of the source. -/
def Consumes (s s' : Istream α) : Prop := s'.source <:+ s.source

instance : Std.Refl (Consumes (α := α)) := ⟨fun s => List.suffix_refl s.source⟩

instance : IsTrans (Istream α) Consumes := ⟨fun _ _ _ h h' => h'.trans h⟩

variable {value} {m : ServerResponse α}

theorem keeps_pbReadbyte : Keeps Consumes (pbReadbyte : Pb α α) := by
  intro s
  rw [Consumes, pbReadbyte]
  split
  · exact List.suffix_refl _
  · split
    · exact List.suffix_refl _
    · next b rest h =>
      rw [h]
      exact List.suffix_cons b rest

theorem keeps_pbRead (count : Nat) : Keeps Consumes (pbRead count : Pb α (List α)) := by
  intro s
  rw [Consumes, pbRead]
  split
  · exact List.suffix_refl _
  · split
    · exact List.suffix_refl _
    · split
      · exact List.nil_suffix
      · exact List.drop_suffix count s.source

theorem keeps_pbSkip (count : Nat) : Keeps Consumes (pbSkip count : Pb α Unit) := by
  have hchunks : ∀ xs : List Nat, Keeps Consumes
      (xs.forM fun _ => (do let _ ← pbRead 16; pure () : Pb α Unit)) := by
    intro xs
    induction xs with
    | nil => exact .pure ()
    | cons x xs ih => exact .bind (.bind (keeps_pbRead 16) fun _ => .pure ()) fun _ => ih
  exact .bind (hchunks _) fun _ => .bind (keeps_pbRead _) fun _ => .pure ()

theorem keeps_pbVarint32Rest (n bitpos result : Nat) :
    Keeps Consumes (pbVarint32Rest value n bitpos result) := by
  induction n generalizing bitpos result with
  | zero => exact .fail ()
  | succ n ih =>
    refine .bind keeps_pbReadbyte fun b => .ite (fun _ => ?_) fun _ => .ite (fun _ => ?_) fun _ => ?_
    · exact .bind (.require _ _) fun _ => .ite (fun _ => ih _ _) fun _ => .pure _
    · exact .bind (.require _ _) fun _ => .ite (fun _ => ih _ _) fun _ => .pure _
    · exact .ite (fun _ => ih _ _) fun _ => .pure _

theorem keeps_pbVarint32After (b : α) : Keeps Consumes (pbVarint32After value b) :=
  .ite (fun _ => .pure _) fun _ => keeps_pbVarint32Rest _ _ _

theorem keeps_pbDecodeVarint32 : Keeps Consumes (pbDecodeVarint32 value) :=
  .bind keeps_pbReadbyte fun _ => keeps_pbVarint32After _

theorem keeps_pbDecodeTag : Keeps Consumes (pbDecodeTag value) := by
  intro s
  have hbyte := keeps_pbReadbyte s
  rw [pbDecodeTag]
  cases hread : pbReadbyte s with
  | mk r s' =>
    rw [hread] at hbyte
    cases r with
    | error u =>
      simp only
      split <;> exact hbyte
    | ok b =>
      exact (Keeps.bind (keeps_pbVarint32After b) (fun _ => .pure _) s').trans hbyte

theorem keeps_pbVarintRest (n bitpos result : Nat) :
    Keeps Consumes (pbVarintRest value n bitpos result) := by
  induction n generalizing bitpos result with
  | zero => exact .fail ()
  | succ n ih =>
    exact .bind keeps_pbReadbyte fun _ => .bind (.require _ _) fun _ =>
      .ite (fun _ => ih _ _) fun _ => .pure _

theorem keeps_pbSkipVarint (n : Nat) : Keeps Consumes (pbSkipVarint value n) := by
  induction n with
  | zero => exact .pure ()
  | succ n ih => exact .bind keeps_pbReadbyte fun _ => .ite (fun _ => ih) fun _ => .pure ()

theorem keeps_pbSkipField (wireType : Nat) : Keeps Consumes (pbSkipField value wireType) :=
  .bind .get fun _ => .ite (fun _ => keeps_pbSkipVarint _) fun _ =>
    .ite (fun _ => keeps_pbSkip 8) fun _ =>
    .ite (fun _ => .bind keeps_pbDecodeVarint32 fun _ => keeps_pbSkip _) fun _ =>
    .ite (fun _ => keeps_pbSkip 4) fun _ => .fail ()

theorem keeps_pbDecodeField (tag wireType : Nat) :
    Keeps Consumes (pbDecodeField value m tag wireType) :=
  .ite (fun _ => .bind (.require _ _) fun _ => .bind (keeps_pbVarintRest _ _ _) fun _ =>
      .bind (.require _ _) fun _ => .pure _) fun _ =>
    .ite (fun _ => .bind (.require _ _) fun _ => .bind (keeps_pbVarintRest _ _ _) fun _ =>
      .pure _) fun _ =>
    .ite (fun _ => .bind (.require _ _) fun _ => .bind keeps_pbDecodeVarint32 fun _ =>
      .bind (.require _ _) fun _ => .bind (keeps_pbRead _) fun _ => .pure _) fun _ =>
    .bind (keeps_pbSkipField _) fun _ => .pure _

theorem pbReadbyte_ok {s s' : Istream α} {b : α} (h : pbReadbyte s = (.ok b, s')) :
    s.source = b :: s'.source := by
  rw [pbReadbyte] at h
  split at h
  · cases h
  · split at h
    · cases h
    · next c rest hsource =>
      cases h
      exact hsource

/-- A field number takes a byte at least. -/
theorem pbDecodeTag_some {s s' : Istream α} {tag : Nat × Nat}
    (h : pbDecodeTag value s = (.ok (some tag), s')) : s'.source.length < s.source.length := by
  rw [pbDecodeTag] at h
  cases hbyte : pbReadbyte s with
  | mk r t =>
    rw [hbyte] at h
    cases r with
    | error u =>
      simp only at h
      split at h <;> cases h
    | ok b =>
      obtain ⟨temp, t', htemp, hend⟩ := bind_eq_ok h
      cases hend
      have hrest := (@keeps_pbVarint32After _ value b t).length_le
      rw [htemp] at hrest
      rw [pbReadbyte_ok hbyte, List.length_cons]
      exact Nat.lt_succ_of_le hrest

/-- Two programs with the same start that go on alike. -/
theorem bind_congr_ok {γ : Type} {x : Pb α β} {k k' : β → Pb α γ} {s : Istream α}
    (h : ∀ a s', x s = (.ok a, s') → k a s' = k' a s') : (x >>= k) s = (x >>= k') s := by
  rw [bind_apply, bind_apply]
  cases hx : x s with
  | mk r s' =>
    cases r with
    | ok a => exact h a s' hx
    | error e => rfl

/-- One more turn than there are bytes is as good as any number. -/
theorem pbDecodeLoop_succ {n : Nat} {s : Istream α} (h : s.source.length < n) :
    pbDecodeLoop value n m s = pbDecodeLoop value (n + 1) m s := by
  induction n generalizing m s with
  | zero => exact absurd h (Nat.not_lt_zero _)
  | succ n ih =>
    rw [pbDecodeLoop, pbDecodeLoop]
    refine bind_congr_ok fun t s' hget => ?_
    cases hget
    split
    · rfl
    · refine bind_congr_ok fun tag s₁ htag => ?_
      cases tag with
      | none => rfl
      | some tag =>
        refine bind_congr_ok fun _ s₂ hrequire => ?_
        obtain ⟨-, rfl⟩ := require_eq_ok_iff.1 hrequire
        refine bind_congr_ok fun m' s₃ hfield => ih ?_
        have hshort := pbDecodeTag_some htag
        have hrest := (@keeps_pbDecodeField _ value m tag.1 tag.2 s₁).length_le
        rw [hfield] at hrest
        dsimp only at hrest
        omega

theorem pbRead_ok {s s' : Istream α} {count : Nat} {bs : List α}
    (h : pbRead count s = (.ok bs, s')) : bs ⊆ s.source := by
  rw [pbRead] at h
  split at h
  · cases h
    exact List.nil_subset _
  · split at h
    · cases h
    · split at h
      · cases h
      · cases h
        exact List.take_subset _ _

/-- The data a field leaves behind was there before, or comes from the source. -/
theorem pbDecodeField_data {s s' : Istream α} {m' : ServerResponse α} {tag wireType : Nat}
    {A : List α} (h : pbDecodeField value m tag wireType s = (.ok m', s')) (hm : m.data ⊆ A)
    (hs : s.source ⊆ A) : m'.data ⊆ A := by
  rw [pbDecodeField] at h
  split at h
  · obtain ⟨_, _, -, h⟩ := bind_eq_ok h
    obtain ⟨_, _, -, h⟩ := bind_eq_ok h
    obtain ⟨_, _, -, h⟩ := bind_eq_ok h
    cases h
    exact hm
  split at h
  · obtain ⟨_, _, -, h⟩ := bind_eq_ok h
    obtain ⟨_, _, -, h⟩ := bind_eq_ok h
    cases h
    exact hm
  split at h
  · obtain ⟨_, s₁, hwire, h⟩ := bind_eq_ok h
    obtain ⟨-, rfl⟩ := require_eq_ok_iff.1 hwire
    obtain ⟨size, s₂, hsize, h⟩ := bind_eq_ok h
    obtain ⟨_, s₃, hfits, h⟩ := bind_eq_ok h
    obtain ⟨-, rfl⟩ := require_eq_ok_iff.1 hfits
    obtain ⟨data, s₄, hdata, h⟩ := bind_eq_ok h
    cases h
    have hrest := (@keeps_pbDecodeVarint32 _ value s).subset
    rw [hsize] at hrest
    exact List.Subset.trans (pbRead_ok hdata) (List.Subset.trans hrest hs)
  · obtain ⟨_, _, -, h⟩ := bind_eq_ok h
    cases h
    exact hm

theorem pbDecodeLoop_data {n : Nat} {s s' : Istream α} {m' : ServerResponse α} {A : List α}
    (h : pbDecodeLoop value n m s = (.ok m', s')) (hm : m.data ⊆ A) (hs : s.source ⊆ A) :
    m'.data ⊆ A := by
  induction n generalizing m s with
  | zero => cases h
  | succ n ih =>
    rw [pbDecodeLoop] at h
    obtain ⟨_, _, hget, h⟩ := bind_eq_ok h
    cases hget
    split at h
    · cases h
      exact hm
    · obtain ⟨tag, s₁, htag, h⟩ := bind_eq_ok h
      cases tag with
      | none =>
        cases h
        exact hm
      | some tag =>
        obtain ⟨_, s₂, hrequire, h⟩ := bind_eq_ok h
        obtain ⟨-, rfl⟩ := require_eq_ok_iff.1 hrequire
        obtain ⟨m₁, s₃, hfield, h⟩ := bind_eq_ok h
        have hs₁ : s₁.source ⊆ A := by
          have hrest := (@keeps_pbDecodeTag _ value s).subset
          rw [htag] at hrest
          exact List.Subset.trans hrest hs
        have hs₃ := (@keeps_pbDecodeField _ value m tag.1 tag.2 s₁).subset
        rw [hfield] at hs₃
        exact ih h (pbDecodeField_data hfield hm hs₁) (List.Subset.trans hs₃ hs₁)

/-- The data of a message has been read from the source. -/
theorem decodeResponse_data {source : List α} {s' : Istream α} {m : ServerResponse α}
    (h : decodeResponse value source = (.ok m, s')) : m.data ⊆ source := by
  obtain ⟨_, _, hmodify, h⟩ := bind_eq_ok h
  cases hmodify
  obtain ⟨_, _, hget, h⟩ := bind_eq_ok h
  cases hget
  obtain ⟨m', s₁, hloop, h⟩ := bind_eq_ok h
  obtain ⟨_, s₂, hrequire, h⟩ := bind_eq_ok h
  cases h
  exact pbDecodeLoop_data hloop (List.nil_subset _) (List.Subset.refl _)

end DsdNexus.Sacd
