import DsdNexus.Lib.ByteFile
import DsdNexus.Lib.Program

/-! # Programs over a file

Reading, writing and seeking as programs that may fail. `Reads p bytes a` says that `p`
makes `a` of `bytes`, wherever they stand; `Emits p bytes` that `p` writes `bytes` and
nothing else; `Onward` that a program leaves the bytes alone and never goes back.
-/

namespace DsdNexus.FileProgram

open Program

variable {ε α β : Type}

/-- `fread` of exactly `n` bytes. -/
def readExact (e : ε) (n : Nat) : Program ε ByteFile (List UInt8) := fun f =>
  if (f.read n).1.length = n then (.ok (f.read n).1, (f.read n).2) else (.error e, (f.read n).2)

/-- `fwrite`; beyond the greatest offset it fails. -/
def emit (e : ε) (bytes : List UInt8) : Program ε ByteFile Unit := fun f =>
  if f.pos + bytes.length ≤ ByteFile.offMax then (.ok (), f.write bytes) else (.error e, f)

def tell : Program ε ByteFile Nat := fun f => (.ok f.pos, f)

/-- `fseeko`, from a place in the file. -/
def seek (e : ε) (offset : Int) (base : Nat) : Program ε ByteFile Unit := fun f =>
  match ByteFile.target offset base with
  | some p => (.ok (), { f with pos := p })
  | none => (.error e, f)

/-- From where the file stands. -/
def seekBy (e : ε) (offset : Int) : Program ε ByteFile Unit := fun f => seek e offset f.pos f

@[simp] theorem tell_apply (f : ByteFile) :
    (tell : Program ε ByteFile Nat) f = (.ok f.pos, f) := rfl

theorem seek_of_le (e : ε) {p : Nat} (h : p ≤ ByteFile.offMax) (f : ByteFile) :
    seek e p 0 f = (.ok (), { f with pos := p }) := by
  have htarget : ByteFile.target p 0 = some p := by
    have h0 : 0 + p ≤ ByteFile.offMax := by omega
    simpa using ByteFile.target_nat h0
  simp only [seek, htarget]

theorem seekBy_of_le (e : ε) {n : Nat} {f : ByteFile} (h : f.pos + n ≤ ByteFile.offMax) :
    seekBy e n f = (.ok (), { f with pos := f.pos + n }) := by
  simp only [seekBy, seek, ByteFile.target_nat h]

/-! ## Reading -/

/-- `m` makes `a` of the bytes, whatever stands before and behind them. -/
def Reads (m : Program ε ByteFile α) (bytes : List UInt8) (a : α) : Prop :=
  ∀ pre post, m ⟨pre ++ (bytes ++ post), pre.length⟩ =
    (.ok a, ⟨pre ++ (bytes ++ post), pre.length + bytes.length⟩)

variable {m : Program ε ByteFile α} {k : α → Program ε ByteFile β} {a : α} {b : β}
  {xs ys : List UInt8}

theorem Reads.pure (a : α) : Reads (pure a : Program ε ByteFile α) [] a := fun _ _ => rfl

theorem Reads.bind (hm : Reads m xs a) (hk : Reads (k a) ys b) :
    Reads (m >>= k) (xs ++ ys) b := by
  intro pre post
  have hfirst := hm pre (ys ++ post)
  have hrest := hk (pre ++ xs) post
  simp only [List.append_assoc, List.length_append] at hfirst hrest ⊢
  rw [bind_of_ok hfirst, hrest, Nat.add_assoc]

theorem Reads.map (hm : Reads m xs a) (f : α → β) :
    Reads (m >>= fun a => Pure.pure (f a)) xs (f a) := by
  have h := hm.bind (k := fun a => Pure.pure (f a)) (Reads.pure (f a))
  rwa [List.append_nil] at h

/-- Behind what is read stands the rest of the program, with the rest of the bytes. -/
theorem Reads.run (hm : Reads m xs a) (pre post : List UInt8) :
    (m >>= k) ⟨pre ++ (xs ++ post), pre.length⟩ =
      k a ⟨(pre ++ xs) ++ post, (pre ++ xs).length⟩ := by
  rw [bind_of_ok (hm pre post), List.append_assoc, List.length_append]

/-- A part that reads nothing and only looks at what was read. -/
theorem Reads.check {p : Prop} [Decidable p] {e : ε} {k : Unit → Program ε ByteFile β} (h : p)
    (hk : Reads (k ()) ys b) : Reads (require p e >>= k) ys b := by
  rw [require_of h]
  exact hk

theorem reads_exact (e : ε) (xs : List UInt8) : Reads (readExact e xs.length) xs xs := by
  intro pre post
  simp only [readExact, ByteFile.read_mid, if_true]

/-- Reading in the middle of a file, with the bytes before it counted. -/
theorem Reads.at (h : Reads m xs a) {f : ByteFile} {post : List UInt8}
    (hrest : f.rest = xs ++ post) (hpos : f.pos ≤ f.content.length) :
    m f = (.ok a, { f with pos := f.pos + xs.length }) := by
  have hpre : (f.content.take f.pos).length = f.pos := by
    rw [List.length_take]
    omega
  have hcontent : f.content.take f.pos ++ (xs ++ post) = f.content := by
    rw [← hrest]
    exact List.take_append_drop f.pos f.content
  have hread := h (f.content.take f.pos) post
  rwa [hcontent, hpre] at hread

/-! ## Writing -/

/-- `m` writes the bytes where the file stands, and does nothing else. -/
def Emits (m : Program ε ByteFile α) (bytes : List UInt8) : Prop :=
  ∀ f a f', m f = (.ok a, f') → f' = f.write bytes ∧ (bytes ≠ [] → f'.pos ≤ ByteFile.offMax)

theorem Emits.pure (a : α) : Emits (pure a : Program ε ByteFile α) [] := by
  intro f b f' h
  cases h
  exact ⟨rfl, fun hne => absurd rfl hne⟩

theorem emits_emit (e : ε) (xs : List UInt8) : Emits (emit e xs) xs := by
  intro f a f' h
  unfold emit at h
  split at h
  · next hle =>
    cases h
    exact ⟨rfl, fun _ => hle⟩
  · simp at h

theorem Emits.bind (hm : Emits m xs) (hk : ∀ a, Emits (k a) ys) : Emits (m >>= k) (xs ++ ys) := by
  intro f b f' h
  obtain ⟨a, g, hfirst, hrest⟩ := bind_eq_ok h
  obtain ⟨rfl, hxs⟩ := hm f a g hfirst
  obtain ⟨rfl, hys⟩ := hk a _ b f' hrest
  refine ⟨ByteFile.write_write f xs ys, fun hne => ?_⟩
  by_cases hys' : ys = []
  · subst hys'
    rw [ByteFile.write_nil]
    exact hxs (by simpa using hne)
  · exact hys hys'

/-- A part that writes nothing and only refuses. -/
theorem Emits.check {p : Prop} [Decidable p] {e : ε} {k : Unit → Program ε ByteFile β}
    (hk : Emits (k ()) ys) : Emits (require p e >>= k) ys := by
  intro f b f' h
  obtain ⟨u, g, hfirst, hrest⟩ := bind_eq_ok h
  obtain ⟨_, rfl⟩ := require_eq_ok hfirst
  exact hk g b f' hrest

theorem Emits.when {p : Prop} [Decidable p] {m : Program ε ByteFile Unit} (h : Emits m xs) :
    Emits (when p m) (if p then xs else []) := by
  by_cases hp : p
  · rw [when_of hp, if_pos hp]
    exact h
  · rw [when_of_not hp, if_neg hp]
    exact Emits.pure ()

/-- At the end of a file. -/
theorem Emits.at_end (h : Emits m xs) {pre : List UInt8} {f : ByteFile}
    (hrun : m ⟨pre, pre.length⟩ = (.ok a, f)) (hpre : pre.length ≤ ByteFile.offMax) :
    f = ⟨pre ++ xs, (pre ++ xs).length⟩ ∧ (pre ++ xs).length ≤ ByteFile.offMax := by
  obtain ⟨hwrite, hroom⟩ := h _ _ _ hrun
  rw [ByteFile.write_at_end, ← List.length_append] at hwrite
  refine ⟨hwrite, ?_⟩
  by_cases hxs : xs = []
  · rwa [hxs, List.append_nil]
  · rw [hwrite] at hroom
    exact hroom hxs

/-- `m` writes the bytes and makes `a`, wherever there is room for them. -/
def Writes (m : Program ε ByteFile α) (bytes : List UInt8) (a : α) : Prop :=
  ∀ f, f.pos + bytes.length ≤ ByteFile.offMax → m f = (.ok a, f.write bytes)

theorem Writes.pure (a : α) : Writes (pure a : Program ε ByteFile α) [] a := fun _ _ => rfl

theorem writes_emit (e : ε) (xs : List UInt8) : Writes (emit e xs) xs () :=
  fun _ h => if_pos h

theorem Writes.bind (hm : Writes m xs a) (hk : Writes (k a) ys b) :
    Writes (m >>= k) (xs ++ ys) b := by
  intro f h
  rw [List.length_append] at h
  have hfirst := hm f (by omega)
  have hrest := hk (f.write xs) (by rw [ByteFile.write_pos]; omega)
  rw [bind_of_ok hfirst, hrest, ByteFile.write_write]

theorem Writes.check {p : Prop} [Decidable p] {e : ε} {k : Unit → Program ε ByteFile β} (h : p)
    (hk : Writes (k ()) ys b) : Writes (require p e >>= k) ys b := by
  rw [require_of h]
  exact hk

/-- At the end of a file. -/
theorem Writes.at_end (h : Writes m xs a) (pre : List UInt8)
    (hroom : pre.length + xs.length ≤ ByteFile.offMax) :
    m ⟨pre, pre.length⟩ = (.ok a, ⟨pre ++ xs, (pre ++ xs).length⟩) := by
  rw [h _ hroom, ByteFile.write_at_end, List.length_append]

/-- Over as many bytes as are written. -/
theorem Writes.over (h : Writes m xs a) (pre : List UInt8) {old : List UInt8}
    (post : List UInt8) (hold : old.length = xs.length)
    (hroom : pre.length + xs.length ≤ ByteFile.offMax) :
    m ⟨pre ++ (old ++ post), pre.length⟩ =
      (.ok a, ⟨pre ++ (xs ++ post), pre.length + xs.length⟩) := by
  rw [h _ hroom, ByteFile.write_mid pre old xs post hold]

/-- `m` writes the bytes and makes `a`, and where there is no room for them it fails. -/
def Prints (m : Program ε ByteFile α) (bytes : List UInt8) (a : α) : Prop :=
  ∀ f, f.pos ≤ ByteFile.offMax →
    (f.pos + bytes.length ≤ ByteFile.offMax → m f = (.ok a, f.write bytes)) ∧
      (ByteFile.offMax < f.pos + bytes.length → ∃ e f', m f = (.error e, f'))

theorem Prints.pure (a : α) : Prints (pure a : Program ε ByteFile α) [] a :=
  fun _ h => ⟨fun _ => rfl, fun hlt => absurd h (by simpa using hlt)⟩

theorem prints_emit (e : ε) (xs : List UInt8) : Prints (emit e xs) xs () :=
  fun f _ => ⟨fun hle => if_pos hle, fun hlt => ⟨e, f, if_neg (Nat.not_le.2 hlt)⟩⟩

theorem Prints.bind (hm : Prints m xs a) (hk : Prints (k a) ys b) :
    Prints (m >>= k) (xs ++ ys) b := by
  intro f hf
  obtain ⟨hfits, hfails⟩ := hm f hf
  rw [List.length_append]
  by_cases hxs : f.pos + xs.length ≤ ByteFile.offMax
  · obtain ⟨hrest, hrestFails⟩ := hk (f.write xs) hxs
    rw [ByteFile.write_pos, Nat.add_assoc] at hrest hrestFails
    refine ⟨fun hle => ?_, fun hlt => ?_⟩
    · rw [bind_of_ok (hfits hxs), hrest hle, ByteFile.write_write]
    · obtain ⟨e, f', hrun⟩ := hrestFails hlt
      exact ⟨e, f', (bind_of_ok (hfits hxs)).trans hrun⟩
  · refine ⟨fun hle => absurd hle (by omega), fun _ => ?_⟩
    obtain ⟨e, f', hrun⟩ := hfails (Nat.lt_of_not_le hxs)
    exact ⟨e, f', bind_of_error hrun⟩

theorem Prints.check {p : Prop} [Decidable p] {e : ε} {k : Unit → Program ε ByteFile β} (h : p)
    (hk : Prints (k ()) ys b) : Prints (require p e >>= k) ys b := by
  rw [require_of h]
  exact hk

theorem Prints.when {p : Prop} [Decidable p] {m : Program ε ByteFile Unit}
    (h : p → Prints m xs ()) : Prints (when p m) (if p then xs else []) () := by
  by_cases hp : p
  · rw [when_of hp, if_pos hp]
    exact h hp
  · rw [when_of_not hp, if_neg hp]
    exact Prints.pure ()

theorem Prints.writes (h : Prints m xs a) : Writes m xs a :=
  fun f hroom => (h f (by omega)).1 hroom

theorem Prints.emits (h : Prints m xs a) {f : ByteFile} {c : α} {g : ByteFile}
    (hf : f.pos ≤ ByteFile.offMax) (hrun : m f = (.ok c, g)) :
    c = a ∧ g = f.write xs ∧ f.pos + xs.length ≤ ByteFile.offMax := by
  by_cases hroom : f.pos + xs.length ≤ ByteFile.offMax
  · rw [(h f hf).1 hroom] at hrun
    cases hrun
    exact ⟨rfl, rfl, hroom⟩
  · obtain ⟨e, f', hfail⟩ := (h f hf).2 (Nat.lt_of_not_le hroom)
    rw [hfail] at hrun
    cases hrun

/-- A program that has written its bytes at the end of a file has found room for them. -/
theorem Prints.at_end (h : Prints m xs a) {pre : List UInt8} (hpre : pre.length ≤ ByteFile.offMax)
    {c : α} {f : ByteFile} (hrun : m ⟨pre, pre.length⟩ = (.ok c, f)) :
    c = a ∧ f = ⟨pre ++ xs, (pre ++ xs).length⟩ ∧ (pre ++ xs).length ≤ ByteFile.offMax := by
  obtain ⟨rfl, rfl, hroom⟩ := h.emits (f := ⟨pre, pre.length⟩) hpre hrun
  rw [ByteFile.write_at_end, List.length_append]
  exact ⟨rfl, rfl, hroom⟩

/-! ## Never going back -/

/-- The bytes are the same and the position is not before where it was. -/
def Onward (f g : ByteFile) : Prop := g.content = f.content ∧ f.pos ≤ g.pos

instance : Std.Refl Onward := ⟨fun _ => ⟨rfl, Nat.le_refl _⟩⟩

instance : IsTrans ByteFile Onward :=
  ⟨fun _ _ _ h h' => ⟨h'.1.trans h.1, Nat.le_trans h.2 h'.2⟩⟩

theorem onward_readExact (e : ε) (n : Nat) : Keeps Onward (readExact e n) := by
  intro f
  unfold readExact
  split <;> exact ⟨rfl, Nat.le_add_right _ _⟩

theorem onward_tell : Keeps Onward (tell : Program ε ByteFile Nat) :=
  fun f => Std.Refl.refl f

/-- The bytes are the same; the position may be any. -/
def SameBytes (f g : ByteFile) : Prop := g.content = f.content

instance : Std.Refl SameBytes := ⟨fun _ => rfl⟩

instance : IsTrans ByteFile SameBytes := ⟨fun _ _ _ h h' => Eq.trans h' h⟩

theorem Onward.sameBytes {m : Program ε ByteFile α} (h : Keeps Onward m) : Keeps SameBytes m :=
  fun f => (h f).1

theorem sameBytes_seek (e : ε) (offset : Int) (base : Nat) :
    Keeps SameBytes (seek e offset base) := by
  intro f
  unfold seek
  split <;> rfl

theorem sameBytes_seekBy (e : ε) (offset : Int) : Keeps SameBytes (seekBy e offset) :=
  fun f => sameBytes_seek e offset f.pos f

end DsdNexus.FileProgram
