import DsdNexus.Overlay.Mounts
import Mathlib.Data.List.Basic

/-! # When a mount lives as long as it is used

Runs in which no open takes a context that a cleanup has condemned, none lets the mount
idle out before it counts its handle, and no count is written between another open's
load and store. Such runs keep an invariant from which the counts are right and no
context is destroyed while it is used.
-/

namespace DsdNexus.Overlay

open Transition

/-! ## What one step of a session does -/

/-- The steps of a session as a relation. -/
inductive SessionStep (clock created : Nat) (mount : Mount) :
    Session → SessionEvent → Session → Mount → Nat → Prop
  | isDir (m : Nat) : SessionStep clock created mount (.found m) .isDir .idle mount created
  | reuse (m v : Nat) (opens : Bool) (h : mount.vfs = some v) :
    SessionStep clock created mount (.found m) (.ensure opens) (.ensured m v)
      { mount with lastAccess := clock } created
  | create (m : Nat) (h : mount.vfs = none) :
    SessionStep clock created mount (.found m) (.ensure true) (.ensured m created)
      { mount with vfs := some created, lastAccess := clock } (created + 1)
  | notMounted (m : Nat) (h : mount.vfs = none) :
    SessionStep clock created mount (.found m) (.ensure false) .idle
      { mount with lastAccess := clock } created
  | openFile (m v : Nat) :
    SessionStep clock created mount (.ensured m v) (.openFile true) (.opened m v) mount created
  | notOpened (m v : Nat) :
    SessionStep clock created mount (.ensured m v) (.openFile false) .idle mount created
  | load (m v : Nat) :
    SessionStep clock created mount (.opened m v) .load (.loaded m v mount.refCount) mount created
  | store (m v n : Nat) :
    SessionStep clock created mount (.loaded m v n) .store (.stored m v)
      { mount with refCount := n + 1 } created
  | touch (m v : Nat) :
    SessionStep clock created mount (.stored m v) .touch (.handle m v)
      { mount with lastAccess := clock } created
  | closeFile (m v : Nat) :
    SessionStep clock created mount (.handle m v) .closeFile (.closing m v) mount created
  | release (m v : Nat) :
    SessionStep clock created mount (.closing m v) .release .idle
      { mount with refCount := mount.refCount - 1 } created

variable {clock created created' : Nat} {mount mount' : Mount} {x x' : Session} {e : SessionEvent}

theorem SessionStep.of_eq
    (h : sessionStep clock created mount x e = some (x', mount', created')) :
    SessionStep clock created mount x e x' mount' created' := by
  unfold sessionStep at h
  split at h
  case h_2 =>
    split at h
    · next hsome =>
      cases h
      exact .reuse _ _ _ hsome
    · next hnone =>
      cases h
      exact .create _ hnone
    · next hnone =>
      cases h
      exact .notMounted _ hnone
  all_goals
    cases h
    try constructor

namespace SessionStep

variable {m : Nat} (h : SessionStep clock created mount x e x' mount' created')
include h

/-- The context of a mount changes only where there was none. -/
theorem vfs_eq : mount'.vfs = mount.vfs ∨ mount.vfs = none := by
  cases h with
  | create m hnone => exact Or.inr hnone
  | _ => exact Or.inl rfl

/-- A session has the context of its mount, if it had it before. -/
theorem uses_eq (hmount : x.mount = some m)
    (huses : ∀ v, x.uses = some (m, v) → mount.vfs = some v) {k v : Nat}
    (hx' : x'.uses = some (k, v)) : k = m ∧ mount'.vfs = some v := by
  cases h with
  | isDir | notMounted | notOpened | release => cases hx'
  | reuse m' v' opens hsome =>
    cases hx'
    cases hmount
    exact ⟨rfl, hsome⟩
  | create m' hnone =>
    cases hx'
    cases hmount
    exact ⟨rfl, rfl⟩
  | openFile | load | store | touch | closeFile =>
    cases hx'
    cases hmount
    exact ⟨rfl, huses _ rfl⟩

/-- Only `ensure` makes a session use a context. -/
theorem uses_of_uses (hmount : x.mount = some m) {v : Nat} (hx' : x'.uses = some (m, v)) :
    (∃ opens, e = .ensure opens) ∨ x.uses = some (m, v) := by
  cases h with
  | isDir | notMounted | notOpened | release => cases hx'
  | reuse | create => exact Or.inl ⟨_, rfl⟩
  | openFile | load | store | touch | closeFile =>
    cases hx'
    exact Or.inr rfl

/-- An open that has a context obtained it in this step or before. -/
theorem opening_eq (hmount : x.mount = some m) {k : Nat} (hx' : x'.opening = some k) :
    k = m ∧ (mount'.lastAccess = clock ∨
      (x.opening = some m ∧ mount'.lastAccess = mount.lastAccess)) := by
  cases h with
  | isDir | notMounted | notOpened | release | store | touch | closeFile => cases hx'
  | reuse | create =>
    cases hx'
    cases hmount
    exact ⟨rfl, Or.inl rfl⟩
  | openFile | load =>
    cases hx'
    cases hmount
    exact ⟨rfl, Or.inr ⟨rfl, rfl⟩⟩

theorem lastAccess_eq : mount'.lastAccess = clock ∨ mount'.lastAccess = mount.lastAccess := by
  cases h with
  | reuse | create | notMounted | touch => exact Or.inl rfl
  | _ => exact Or.inr rfl

/-- What is between load and store read the count as it is. -/
theorem counting_eq (hmount : x.mount = some m) {k v n : Nat} (hx' : x' = .loaded k v n) :
    k = m ∧ n = mount'.refCount ∧ e = .load := by
  cases h with
  | load =>
    cases hx'
    cases hmount
    exact ⟨rfl, rfl, rfl⟩
  | _ => cases hx'

/-- The count changes only in a store and in a release. -/
theorem refCount_eq (hmount : x.mount = some m) :
    mount'.refCount = mount.refCount ∨ x.counting = some m ∨ e = .release := by
  cases h with
  | store =>
    cases hmount
    exact Or.inr (Or.inl rfl)
  | release => exact Or.inr (Or.inr rfl)
  | _ => exact Or.inl rfl

/-- Handles and count change together, if what was loaded is still the count. -/
theorem handles_eq (hmount : x.mount = some m)
    (hloaded : ∀ v n, x = .loaded m v n → n = mount.refCount)
    (hpos : x.handleOn = some m → 0 < mount.refCount) :
    mount'.refCount + (if x.handleOn = some m then 1 else 0) =
      mount.refCount + (if x'.handleOn = some m then 1 else 0) := by
  cases h with
  | store m' v n =>
    cases hmount
    have hn : n = mount.refCount := hloaded v n rfl
    simp [Session.handleOn, hn]
  | release m' v =>
    cases hmount
    have hcount : 0 < mount.refCount := hpos rfl
    simp only [Session.handleOn, if_true]
    simp
    omega
  | touch | closeFile =>
    cases hmount
    simp [Session.handleOn]
  | _ => simp [Session.handleOn]

/-- A session does not leave its mount for another. -/
theorem handleOn_eq (hmount : x.mount = some m) {k : Nat} (hk : k ≠ m) :
    x.handleOn ≠ some k ∧ x'.handleOn ≠ some k := by
  cases h with
  | store | touch | closeFile | release =>
    cases hmount
    simp [Session.handleOn, hk.symm]
  | _ => simp [Session.handleOn]

end SessionStep

theorem Session.counting_eq_some {m : Nat} (h : x.counting = some m) :
    ∃ v n, x = .loaded m v n := by
  cases x with
  | loaded m' v n =>
    cases h
    exact ⟨v, n, rfl⟩
  | _ => cases h

theorem Session.opening_or_handleOn {m v : Nat} (h : x.uses = some (m, v)) :
    x.opening = some m ∨ x.handleOn = some m := by
  cases x with
  | idle | found => cases h
  | ensured | opened | loaded =>
    cases h
    exact Or.inl rfl
  | stored | handle | closing =>
    cases h
    exact Or.inr rfl

/-! ## The invariant -/

namespace MountTable

variable {s s' : MountTable}

/-- The open handles on a mount. -/
def handles (s : MountTable) (m : Nat) : Nat :=
  s.sessions.countP fun x => decide (x.handleOn = some m)

/-- The count of a mount is the number of its handles, and what a session uses is there. -/
structure Live (s : MountTable) : Prop where
  counted : ∀ m, (s.mounts m).refCount = s.handles m
  alive : ∀ x ∈ s.sessions, ∀ m v, x.uses = some (m, v) → (s.mounts m).vfs = some v

/-- No session uses a context of the mount. -/
def Unused (s : MountTable) (m : Nat) : Prop := ∀ x ∈ s.sessions, ∀ v, x.uses ≠ some (m, v)

/-- A step of a cleanup destroys only what no session uses. -/
def DestroysUnused (s : MountTable) (e : MountEvent) : Prop :=
  e = .destroy → ∀ m, s.cleaner.condemned = some m → s.Unused m

/-- The steps a run may take: time passes only while no mount an open has a context of
has idled out, no open takes a context that a cleanup has condemned, and no count is read
or released while another open is between its load and its store. -/
def Calm (s : MountTable) : MountEvent → Prop
  | .tick => ∀ x ∈ s.sessions, ∀ m ∈ x.opening,
    s.clock < (s.mounts m).lastAccess + s.cacheTimeout
  | .session i (.ensure _) => ∀ x ∈ s.sessions[i]?, x.mount ≠ s.cleaner.condemned
  | .session i .load | .session i .release => ∀ x ∈ s.sessions[i]?, ∀ m ∈ x.mount,
    ∀ y ∈ s.sessions, y.counting ≠ some m
  | _ => True

instance (s : MountTable) (e : MountEvent) : Decidable (s.Calm e) := by
  unfold Calm
  split <;> infer_instance

structure Invariant (s : MountTable) : Prop extends Live s where
  loaded : ∀ x ∈ s.sessions, ∀ m v n, x = .loaded m v n → n = (s.mounts m).refCount
  /-- One open at a time is between load and store. -/
  counting : ∀ (i j : Nat) (x y : Session) (m : Nat), s.sessions[i]? = some x →
    s.sessions[j]? = some y → x.counting = some m → y.counting = some m → i = j
  opening : ∀ x ∈ s.sessions, ∀ m, x.opening = some m →
    s.clock ≤ (s.mounts m).lastAccess + s.cacheTimeout
  stale : ∀ now, s.cleaner.startedAt = some now → now ≤ s.clock
  condemned : ∀ m, s.cleaner.condemned = some m → s.Unused m

theorem step_session {i : Nat} {e : SessionEvent} (h : s.step (.session i e) = some s') :
    ∃ x m x' mount' created', s.sessions[i]? = some x ∧ x.mount = some m ∧
      SessionStep s.clock s.created (s.mounts m) x e x' mount' created' ∧
      s' = { (s.setMount m mount').setSession i x' with created := created' } := by
  simp only [step, Option.bind_eq_bind, Option.bind_eq_some_iff] at h
  obtain ⟨x, hx, m, hm, ⟨x', mount', created'⟩, hstep, heq⟩ := h
  exact ⟨x, m, x', mount', created', hx, hm, .of_eq hstep, (Option.some.inj heq).symm⟩

theorem countP_set_add {p : Session → Bool} {xs : List Session} {i : Nat} {x : Session}
    (hx : xs[i]? = some x) (x' : Session) :
    (xs.set i x').countP p + (if p x then 1 else 0) = xs.countP p + (if p x' then 1 else 0) := by
  obtain ⟨hlt, hget⟩ := List.getElem?_eq_some_iff.1 hx
  have hle := List.boole_getElem_le_countP (p := p) hlt
  rw [List.countP_set hlt, hget]
  rw [hget] at hle
  omega

theorem getElem?_set_cases {xs : List Session} {i j : Nat} {x' y : Session}
    (h : (xs.set i x')[j]? = some y) : (j = i ∧ y = x') ∨ (j ≠ i ∧ xs[j]? = some y) := by
  rw [List.getElem?_set] at h
  split at h
  · next hij =>
    split at h
    · cases h
      exact Or.inl ⟨hij.symm, rfl⟩
    · cases h
  · next hij => exact Or.inr ⟨Ne.symm hij, h⟩

/-! ## Steps of a session -/

section Session

variable {i m : Nat} {x x' : Session} {mount' : Mount} {created' : Nat} {e : SessionEvent}

/-- The count of the mount follows the handles. -/
theorem Invariant.counted_session (hinv : s.Invariant) (hx : s.sessions[i]? = some x)
    (hmount : x.mount = some m)
    (hstep : SessionStep s.clock s.created (s.mounts m) x e x' mount' created') (k : Nat) :
    ((s.setMount m mount').mounts k).refCount =
      (s.sessions.set i x').countP fun y => decide (y.handleOn = some k) := by
  have hmem : x ∈ s.sessions := List.mem_of_getElem? hx
  have hcount := hinv.counted k
  have hset := countP_set_add (p := fun y => decide (y.handleOn = some k)) hx x'
  simp only [decide_eq_true_eq] at hset
  simp only [setMount]
  split
  · next hk =>
    subst hk
    have hpos : x.handleOn = some k → 0 < (s.mounts k).refCount := by
      intro hon
      rw [hcount, handles, List.countP_pos_iff]
      exact ⟨x, hmem, by simpa using hon⟩
    have hboth := hstep.handles_eq hmount (fun v n => hinv.loaded x hmem k v n) hpos
    rw [handles] at hcount
    omega
  · next hk =>
    obtain ⟨hnot, hnot'⟩ := hstep.handleOn_eq hmount hk
    rw [if_neg hnot, if_neg hnot'] at hset
    rw [hcount, handles]
    omega

/-- What a session uses stays where it is. -/
theorem Invariant.alive_session (hinv : s.Invariant) (hx : s.sessions[i]? = some x)
    (hmount : x.mount = some m)
    (hstep : SessionStep s.clock s.created (s.mounts m) x e x' mount' created')
    {y : Session} (hy : y ∈ s.sessions.set i x') {k v : Nat} (huses : y.uses = some (k, v)) :
    ((s.setMount m mount').mounts k).vfs = some v := by
  simp only [setMount]
  rcases List.mem_or_eq_of_mem_set hy with hold | rfl
  · have halive := hinv.alive y hold k v huses
    split
    · next hk =>
      subst hk
      rcases hstep.vfs_eq with heq | hnone
      · rw [heq, halive]
      · rw [hnone] at halive
        cases halive
    · exact halive
  · obtain ⟨hk, hvfs⟩ := hstep.uses_eq hmount
      (fun w => hinv.alive x (List.mem_of_getElem? hx) m w) huses
    rw [if_pos hk, hvfs]

/-- Only one open is between load and store after the step. -/
theorem Invariant.counting_session (hinv : s.Invariant) (hcalm : s.Calm (.session i e))
    (hx : s.sessions[i]? = some x) (hmount : x.mount = some m)
    (hstep : SessionStep s.clock s.created (s.mounts m) x e x' mount' created')
    {j k : Nat} {y z : Session} {l : Nat} (hy : (s.sessions.set i x')[j]? = some y)
    (hz : (s.sessions.set i x')[k]? = some z) (hyl : y.counting = some l)
    (hzl : z.counting = some l) : j = k := by
  -- a session that starts counting finds no other at it
  have hfirst : ∀ w ∈ s.sessions, x'.counting = some l → w.counting ≠ some l := by
    intro w hw hx'l
    obtain ⟨v, n, hloaded⟩ := x'.counting_eq_some hx'l
    obtain ⟨hl, -, rfl⟩ := hstep.counting_eq hmount hloaded
    rw [hl]
    exact hcalm x hx m hmount w hw
  rcases getElem?_set_cases hy with ⟨rfl, rfl⟩ | ⟨-, hyold⟩
  · rcases getElem?_set_cases hz with ⟨rfl, rfl⟩ | ⟨-, hzold⟩
    · rfl
    · exact absurd hzl (hfirst z (List.mem_of_getElem? hzold) hyl)
  · rcases getElem?_set_cases hz with ⟨rfl, rfl⟩ | ⟨-, hzold⟩
    · exact absurd hyl (hfirst y (List.mem_of_getElem? hyold) hzl)
    · exact hinv.counting j k y z l hyold hzold hyl hzl

/-- An open that has read the count still has it. -/
theorem Invariant.loaded_session (hinv : s.Invariant) (hcalm : s.Calm (.session i e))
    (hx : s.sessions[i]? = some x) (hmount : x.mount = some m)
    (hstep : SessionStep s.clock s.created (s.mounts m) x e x' mount' created')
    {j : Nat} {y : Session} (hy : (s.sessions.set i x')[j]? = some y) {k v n : Nat}
    (hloaded : y = .loaded k v n) : n = ((s.setMount m mount').mounts k).refCount := by
  simp only [setMount]
  rcases getElem?_set_cases hy with ⟨-, rfl⟩ | ⟨hji, hold⟩
  · obtain ⟨hk, hn, -⟩ := hstep.counting_eq hmount hloaded
    rw [if_pos hk, hn]
  · have hmem : y ∈ s.sessions := List.mem_of_getElem? hold
    have hn := hinv.loaded y hmem k v n hloaded
    have hcounting : y.counting = some k := by rw [hloaded]; rfl
    split
    · next hk =>
      subst hk
      rcases hstep.refCount_eq hmount with heq | hx' | rfl
      · rw [heq, hn]
      · exact absurd (hinv.counting i j x y k hx hold hx' hcounting) (Ne.symm hji)
      · exact absurd hcounting (hcalm x hx k hmount y hmem)
    · exact hn

/-- An open in progress is within the timeout of the last access. -/
theorem Invariant.opening_session (hinv : s.Invariant) (hx : s.sessions[i]? = some x)
    (hmount : x.mount = some m)
    (hstep : SessionStep s.clock s.created (s.mounts m) x e x' mount' created')
    {y : Session} (hy : y ∈ s.sessions.set i x') {k : Nat} (hopening : y.opening = some k) :
    s.clock ≤ ((s.setMount m mount').mounts k).lastAccess + s.cacheTimeout := by
  simp only [setMount]
  rcases List.mem_or_eq_of_mem_set hy with hold | rfl
  · have hle := hinv.opening y hold k hopening
    split
    · next hk =>
      subst hk
      rcases hstep.lastAccess_eq with heq | heq
      · omega
      · omega
    · exact hle
  · obtain ⟨hk, hlast⟩ := hstep.opening_eq hmount hopening
    rw [if_pos hk]
    rcases hlast with heq | ⟨hxo, heq⟩
    · omega
    · have hle := hinv.opening x (List.mem_of_getElem? hx) m hxo
      omega

/-- No session starts to use what a cleanup has condemned. -/
theorem Invariant.condemned_session (hinv : s.Invariant) (hcalm : s.Calm (.session i e))
    (hx : s.sessions[i]? = some x) (hmount : x.mount = some m)
    (hstep : SessionStep s.clock s.created (s.mounts m) x e x' mount' created')
    {k : Nat} (hcondemned : s.cleaner.condemned = some k) {y : Session}
    (hy : y ∈ s.sessions.set i x') (v : Nat) : y.uses ≠ some (k, v) := by
  rcases List.mem_or_eq_of_mem_set hy with hold | rfl
  · exact hinv.condemned k hcondemned y hold v
  · intro huses
    have hmem := List.mem_of_getElem? hx
    obtain ⟨rfl, -⟩ := hstep.uses_eq hmount (fun w => hinv.alive x hmem m w) huses
    rcases hstep.uses_of_uses hmount huses with ⟨opens, rfl⟩ | hbefore
    · exact hcalm x hx (hmount.trans hcondemned.symm)
    · exact hinv.condemned k hcondemned x hmem v hbefore

theorem Invariant.session (hinv : s.Invariant) (hcalm : s.Calm (.session i e))
    (h : s.step (.session i e) = some s') : s'.Invariant := by
  obtain ⟨x, m, x', mount', created', hx, hmount, hstep, rfl⟩ := step_session h
  constructor
  · constructor
    · exact hinv.counted_session hx hmount hstep
    · intro y hy k v huses
      exact hinv.alive_session hx hmount hstep hy huses
  · intro y hy k v n hloaded
    obtain ⟨j, hj⟩ := List.mem_iff_getElem?.1 hy
    exact hinv.loaded_session hcalm hx hmount hstep hj hloaded
  · intro j k y z l hy hz hyl hzl
    exact hinv.counting_session hcalm hx hmount hstep hy hz hyl hzl
  · intro y hy k hopening
    exact hinv.opening_session hx hmount hstep hy hopening
  · exact hinv.stale
  · intro k hcondemned y hy v
    exact hinv.condemned_session hcalm hx hmount hstep hcondemned hy v

end Session

/-! ## The other steps -/

theorem Invariant.tick (hinv : s.Invariant) (hcalm : s.Calm .tick)
    (h : s.step .tick = some s') : s'.Invariant := by
  cases h
  refine ⟨⟨hinv.counted, hinv.alive⟩, hinv.loaded, hinv.counting, ?_, ?_, hinv.condemned⟩
  · intro x hx m hopening
    exact hcalm x hx m hopening
  · intro now hnow
    exact Nat.le_succ_of_le (hinv.stale now hnow)

theorem Invariant.find (hinv : s.Invariant) {i m : Nat} (h : s.step (.find i m) = some s') :
    s'.Invariant := by
  simp only [step] at h
  split at h
  case isFalse => cases h
  next hguard =>
  obtain ⟨hidle, -, -⟩ := hguard
  cases h
  have hold : ∀ {y : Session}, y ∈ s.sessions.set i (.found m) → y ∈ s.sessions ∨ y = .found m :=
    List.mem_or_eq_of_mem_set
  constructor
  · constructor
    · intro k
      have hset := countP_set_add (p := fun y => decide (y.handleOn = some k)) hidle (.found m)
      have hcount := hinv.counted k
      have hfound : (Session.found m).handleOn = none := rfl
      have hnone : Session.idle.handleOn = none := rfl
      simp only [hfound, hnone, reduceCtorEq, decide_false, Bool.false_eq_true, if_false] at hset
      rw [handles] at hcount
      simp only [setSession, handles]
      omega
    · intro y hy k v huses
      rcases hold hy with hmem | rfl
      · exact hinv.alive y hmem k v huses
      · cases huses
  · intro y hy k v n hloaded
    rcases hold hy with hmem | rfl
    · exact hinv.loaded y hmem k v n hloaded
    · cases hloaded
  · intro j k y z l hy hz hyl hzl
    rcases getElem?_set_cases hy with ⟨-, rfl⟩ | ⟨-, hyold⟩
    · cases hyl
    rcases getElem?_set_cases hz with ⟨-, rfl⟩ | ⟨-, hzold⟩
    · cases hzl
    exact hinv.counting j k y z l hyold hzold hyl hzl
  · intro y hy k hopening
    rcases hold hy with hmem | rfl
    · exact hinv.opening y hmem k hopening
    · cases hopening
  · exact hinv.stale
  · intro k hcondemned y hy v
    rcases hold hy with hmem | rfl
    · exact hinv.condemned k hcondemned y hmem v
    · nofun

/-- A cleanup that condemns nothing leaves the invariant to its reading of the clock. -/
theorem Invariant.setCleaner (hinv : s.Invariant) {cleaner : Cleaner}
    (hstale : ∀ now, cleaner.startedAt = some now → now ≤ s.clock)
    (hcondemned : ∀ m, cleaner.condemned = some m → s.Unused m) :
    Invariant { s with cleaner := cleaner } :=
  ⟨⟨hinv.counted, hinv.alive⟩, hinv.loaded, hinv.counting, hinv.opening, hstale, hcondemned⟩

/-- A mount that has idled out is used by no session. -/
theorem Invariant.unused_of_isIdle (hinv : s.Invariant) {now m : Nat} (hnow : now ≤ s.clock)
    (hidle : s.isIdle now m = true) : s.Unused m := by
  simp only [isIdle, Bool.and_eq_true, decide_eq_true_eq] at hidle
  obtain ⟨⟨-, hzero⟩, hlate⟩ := hidle
  intro x hx v huses
  rcases x.opening_or_handleOn huses with hopening | hon
  · have hle := hinv.opening x hx m hopening
    omega
  · have hpos : 0 < s.handles m := by
      rw [handles, List.countP_pos_iff]
      exact ⟨x, hx, by simpa using hon⟩
    have hcount := hinv.counted m
    omega

theorem Invariant.cleanup (hinv : s.Invariant) {now : Nat}
    (h : s.step (.cleanup now) = some s') : s'.Invariant := by
  simp only [step] at h
  split at h
  · next hguard =>
    cases h
    refine hinv.setCleaner ?_ nofun
    rintro _ ⟨⟩
    exact hguard.2.1
  · cases h

theorem Invariant.test (hinv : s.Invariant) (h : s.step .test = some s') : s'.Invariant := by
  simp only [step] at h
  split at h
  case h_2 => cases h
  next now i hcleaner =>
  have hnow : now ≤ s.clock := hinv.stale now (by rw [hcleaner]; rfl)
  split at h
  case isFalse => cases h
  cases h
  cases hidle : s.isIdle now i with
  | true =>
    refine hinv.setCleaner ?_ ?_
    · rintro _ ⟨⟩
      exact hnow
    · rintro _ ⟨⟩
      exact hinv.unused_of_isIdle hnow hidle
  | false =>
    refine hinv.setCleaner ?_ nofun
    rintro _ ⟨⟩
    exact hnow

theorem Invariant.destroy (hinv : s.Invariant) (h : s.step .destroy = some s') :
    s'.Invariant := by
  simp only [step] at h
  split at h
  case h_2 => cases h
  next now i hcleaner =>
  have hnow : now ≤ s.clock := hinv.stale now (by rw [hcleaner]; rfl)
  have hunused : s.Unused i := hinv.condemned i (by rw [hcleaner]; rfl)
  cases h
  have hcount : ∀ k, ((s.setMount i { s.mounts i with vfs := none }).mounts k).refCount =
      (s.mounts k).refCount := by
    intro k
    simp only [setMount]
    split
    · next hk => rw [hk]
    · rfl
  have hlast : ∀ k, ((s.setMount i { s.mounts i with vfs := none }).mounts k).lastAccess =
      (s.mounts k).lastAccess := by
    intro k
    simp only [setMount]
    split
    · next hk => rw [hk]
    · rfl
  constructor
  · constructor
    · intro k
      rw [hcount]
      exact hinv.counted k
    · intro x hx k v huses
      have hne : k ≠ i := by
        rintro rfl
        exact hunused x hx v huses
      simp only [setMount, if_neg hne]
      exact hinv.alive x hx k v huses
  · intro x hx k v n hloaded
    rw [hcount]
    exact hinv.loaded x hx k v n hloaded
  · exact hinv.counting
  · intro x hx k hopening
    rw [hlast]
    exact hinv.opening x hx k hopening
  · rintro _ ⟨⟩
    exact hnow
  · nofun

theorem Invariant.leave (hinv : s.Invariant) (h : s.step .leave = some s') : s'.Invariant := by
  simp only [step] at h
  split at h
  case h_2 => cases h
  split at h
  · cases h
    exact hinv.setCleaner nofun nofun
  · cases h

/-- What a calm step keeps. -/
theorem Invariant.step (hinv : s.Invariant) {e : MountEvent} (hcalm : s.Calm e)
    (h : s.step e = some s') : s'.Invariant := by
  cases e with
  | tick => exact hinv.tick hcalm h
  | find i m => exact hinv.find h
  | session i e => exact hinv.session hcalm h
  | cleanup now => exact hinv.cleanup h
  | test => exact hinv.test h
  | destroy => exact hinv.destroy h
  | leave => exact hinv.leave h

theorem start_invariant (cacheTimeout isoCount threads : Nat) :
    (start cacheTimeout isoCount threads).Invariant := by
  have hidle : ∀ x ∈ (start cacheTimeout isoCount threads).sessions, x = .idle :=
    fun x hx => List.eq_of_mem_replicate hx
  constructor
  · constructor
    · intro m
      simp [start, handles, List.countP_replicate, Session.handleOn]
    · intro x hx m v huses
      rw [hidle x hx] at huses
      cases huses
  · intro x hx m v n hloaded
    rw [hidle x hx] at hloaded
    cases hloaded
  · intro i j x y m hx _ hxm _
    rw [hidle x (List.mem_of_getElem? hx)] at hxm
    cases hxm
  · intro x hx m hopening
    rw [hidle x hx] at hopening
    cases hopening
  · nofun
  · nofun

/-! ## Runs -/

/-- In a run of calm steps the counts are right and the contexts in use are there in every
state, and no cleanup destroys a context in use. -/
theorem mounts_live (cacheTimeout isoCount threads : Nat) (es : List MountEvent)
    (hcalm : Along MountTable.step Calm (start cacheTimeout isoCount threads) es) :
    (∀ s, run MountTable.step (start cacheTimeout isoCount threads) es = some s → s.Live) ∧
      Along MountTable.step DestroysUnused (start cacheTimeout isoCount threads) es := by
  have hstart := start_invariant cacheTimeout isoCount threads
  constructor
  · intro s hrun
    have hinv := run_invariant (I := Invariant) (fun _ _ _ hi hp hs => hi.step hp hs) hstart
      hcalm hrun
    exact hinv.toLive
  · refine Along.of_invariant (I := Invariant) (fun _ _ _ hi hp hs => hi.step hp hs) ?_ hstart hcalm
    intro s e hinv _ _ m hm
    exact hinv.condemned m hm

/-! ## A context taken on its way out -/

/-- The first open mounts the ISO and fails to open its file; after two seconds a cleanup
finds the mount idle, and a second open takes the context before it is destroyed. -/
def lateEnsure : List MountEvent :=
  [.find 0 0, .session 0 (.ensure true), .session 0 (.openFile false), .tick, .tick,
    .find 0 0, .cleanup 2, .test, .session 0 (.ensure true), .destroy]

/-- The second open is left with a destroyed context. -/
theorem lateEnsure_not_live :
    ¬ ((∀ s, run MountTable.step (start 1 1 1) lateEnsure = some s → s.Live) ∧
      Along MountTable.step DestroysUnused (start 1 1 1) lateEnsure) := by
  rintro ⟨hlive, -⟩
  have hlast := (hlive _ rfl).alive (.ensured 0 0) (by decide) 0 0 rfl
  exact absurd hlast (by decide)

/-- Two opens and their closes around a cleanup that destroys the context in between. -/
def openCloseTwice : List MountEvent :=
  [.find 0 0, .session 0 (.ensure true), .session 0 (.openFile true), .session 0 .load,
    .session 0 .store, .session 0 .touch, .tick, .tick, .find 1 0, .session 1 (.ensure true),
    .session 0 .closeFile, .session 1 (.openFile true), .session 1 .load, .session 1 .store,
    .session 1 .touch, .session 0 .release, .session 1 .closeFile, .session 1 .release,
    .tick, .tick, .cleanup 4, .test, .destroy, .leave]

theorem mounts_live_openCloseTwice :
    (∀ s, run MountTable.step (start 1 1 2) openCloseTwice = some s → s.Live) ∧
      Along MountTable.step DestroysUnused (start 1 1 2) openCloseTwice :=
  mounts_live 1 1 2 openCloseTwice (by decide)

end MountTable

end DsdNexus.Overlay
