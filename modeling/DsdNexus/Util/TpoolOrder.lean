import DsdNexus.Lib.Transition
import DsdNexus.Util.Tpool
import Mathlib.Data.List.Perm.Basic
import Mathlib.Data.List.Nodup

/-! # The order of the results

Any number of threads dispatch to one queue, take results from it and reset it while
workers run its jobs. A job carries the number of its call since the last reset, and the
results go out by these numbers, as long as no call takes its number before a reset ends
and enters the queue after it.
-/

namespace DsdNexus.Util

open Transition
open scoped List

/-! ## Histories -/

/-- Where a `sa_tpool_process_reset` is between two of its sections. -/
inductive ResetPhase where
  | cleared | flushing | flushed
  deriving DecidableEq, Repr

inductive PoolEvent (α : Type) where
  | dispatch (arg : α) (nonblock : Nonblock)
  /-- A dispatch that waits looks again. -/
  | resume (i : Nat)
  | take
  | finish (i : Nat)
  | next
  | wake
  | resetClear
  | resetNext (i : Nat)
  deriving DecidableEq, Repr

/-- The queue, the calls that are under way and what has happened since the last reset. -/
structure PoolRun (α β : Type) where
  q : TpoolProcess α β
  /-- The jobs of the dispatches that wait for room. -/
  waiting : List (TpoolJob α)
  resets : List ResetPhase
  /-- A reset has cleared the queue and none has ended since. -/
  cleared : Bool
  /-- The jobs of the dispatches since the last reset that have not failed. -/
  calls : List (TpoolJob α)
  returned : List β
  deriving DecidableEq, Repr

namespace PoolRun

variable {α β : Type}

def start (qsize : Nat) : PoolRun α β where
  q := tpoolProcessInit qsize
  waiting := []
  resets := []
  cleared := false
  calls := []
  returned := []

/-- The jobs successfully dispatched since the last reset, in the order of the calls. -/
def dispatched (s : PoolRun α β) : List (TpoolJob α) :=
  s.calls.filter fun j => j.serial ∉ s.waiting.map (·.serial)

section Step

variable [DecidableEq β] (func : α → β)

def dispatch (s : PoolRun α β) (arg : α) (nonblock : Nonblock) : PoolRun α β :=
  match s.q.dispatchEnter arg nonblock with
  | none => s
  | some (j, q) =>
    match q.dispatchFinish j nonblock with
    | none => { s with q := q, waiting := s.waiting ++ [j], calls := s.calls ++ [j] }
    | some (true, q') => { s with q := q', calls := s.calls ++ [j] }
    | some (false, q') => { s with q := q' }

def resume (s : PoolRun α β) (i : Nat) (j : TpoolJob α) : PoolRun α β :=
  match s.q.dispatchFinish j .wait with
  | none => s
  | some (true, q) => { s with q := q, waiting := s.waiting.eraseIdx i }
  | some (false, q) =>
    { s with
      q := q
      waiting := s.waiting.eraseIdx i
      calls := s.calls.filter fun k => k.serial ≠ j.serial }

/-- `sa_tpool_next_result` and a look of `sa_tpool_next_result_wait`. -/
def next (s : PoolRun α β) : PoolRun α β :=
  match s.q.nextResult with
  | none => s
  | some (r, q) => { s with q := q, returned := s.returned ++ [r.data] }

/-- The sections of `sa_tpool_process_reset` after the first. -/
def resetNext (s : PoolRun α β) (i : Nat) : ResetPhase → Option (PoolRun α β)
  | .cleared => some { s with q := s.q.flushRoom, resets := s.resets.set i .flushing }
  | .flushing => if s.q.Drained then some { s with resets := s.resets.set i .flushed } else none
  | .flushed =>
    some { s with
      q := s.q.resetFinish
      resets := s.resets.eraseIdx i
      cleared := false
      calls := []
      returned := [] }

def step (s : PoolRun α β) : PoolEvent α → Option (PoolRun α β)
  | .dispatch arg nonblock => some (s.dispatch arg nonblock)
  | .resume i => s.waiting[i]?.map (s.resume i)
  | .take => s.q.workerTake.map fun q => { s with q := q }
  | .finish i => (s.q.addResult func i).map fun q => { s with q := q }
  | .next => some s.next
  | .wake => some { s with q := s.q.wake }
  | .resetClear =>
    some { s with q := s.q.resetClear, resets := s.resets ++ [.cleared], cleared := true }
  | .resetNext i => s.resets[i]?.bind (s.resetNext i)

end Step

/-- The results since the last reset are those of the first jobs dispatched since. -/
def InOrder (func : α → β) (s : PoolRun α β) : Prop :=
  s.returned <+: s.dispatched.map fun j => func j.arg

instance [DecidableEq β] (func : α → β) (s : PoolRun α β) : Decidable (InOrder func s) :=
  inferInstanceAs (Decidable (_ <+: _))

/-- A reset ends when no dispatch waits and nothing is left in the queue, and no result
asked for while a reset is under way carries the number the reset looks for. -/
def Calm (s : PoolRun α β) : PoolEvent α → Prop
  | .resetNext i => s.resets[i]? = some .flushed → s.q.Drained ∧ s.waiting = []
  | .next => s.cleared = true → ∀ r ∈ s.q.output, r.serial ≠ intMax
  | _ => True

instance : ∀ (s : PoolRun α β) (e : PoolEvent α), Decidable (Calm s e)
  | s, .resetNext i =>
    inferInstanceAs (Decidable (s.resets[i]? = some .flushed → s.q.Drained ∧ s.waiting = []))
  | s, .next => inferInstanceAs (Decidable (s.cleared = true → ∀ r ∈ s.q.output, r.serial ≠ intMax))
  | _, .dispatch _ _ | _, .resume _ | _, .take | _, .finish _ | _, .wake | _, .resetClear =>
    isTrue trivial

end PoolRun

/-! ## The numbers in the queue -/

namespace TpoolProcess

variable {α β : Type} {q q' : TpoolProcess α β}

/-- The numbers of all jobs and results of the queue. -/
def serials (q : TpoolProcess α β) : List Nat :=
  q.input.map (·.serial) ++ (q.processing.map (·.serial) ++ q.output.map (·.serial))

theorem serials_append (j : TpoolJob α) : (q.append j).serials ~ j.serial :: q.serials := by
  simp only [serials, append, List.map_append, List.map_cons, List.map_nil, List.append_assoc]
  exact List.perm_middle

theorem serials_workerTake (h : q.workerTake = some q') : q'.serials ~ q.serials := by
  obtain ⟨j, rest, hinput, rfl⟩ := workerTake_some h
  simp only [serials, hinput, List.map_append, List.map_cons, List.map_nil, List.append_assoc,
    List.cons_append, List.nil_append]
  exact (List.perm_middle.append_left _).trans List.perm_middle

/-- Only a destroyed or stopped queue refuses a job. -/
theorem dispatchFinish_ne_refused {j : TpoolJob α} {nonblock : Nonblock}
    (hinput : q.noMoreInput = false) (hshutdown : q.shutdown = false) :
    q.dispatchFinish j nonblock ≠ some (false, q') := by
  unfold TpoolProcess.dispatchFinish
  simp only [hinput, hshutdown, Bool.false_eq_true, or_self, if_false]
  split
  · split
    · simp
    · simp
  · simp

theorem addResult_getElem? {func : α → β} {i : Nat} (h : q.addResult func i = some q') :
    ∃ j, q.processing[i]? = some j ∧ q' = { q with
      processing := q.processing.eraseIdx i
      output := q.output ++ [⟨j.serial, func j.arg⟩] } := by
  unfold TpoolProcess.addResult at h
  split at h
  · cases h
  · next j hj =>
    cases h
    exact ⟨j, hj, rfl⟩

theorem serials_addResult {func : α → β} {i : Nat} (h : q.addResult func i = some q') :
    q'.serials ~ q.serials := by
  obtain ⟨j, hj, rfl⟩ := addResult_getElem? h
  obtain ⟨hi, rfl⟩ := List.getElem?_eq_some_iff.1 hj
  have hperm := (List.getElem_cons_eraseIdx_perm hi).map (·.serial)
  simp only [serials, List.map_append, List.map_cons, List.map_nil]
  refine List.Perm.append_left _ ?_
  calc (q.processing.eraseIdx i).map (·.serial) ++ (q.output.map (·.serial) ++ [q.processing[i].serial])
      = (q.processing.eraseIdx i).map (·.serial) ++ q.output.map (·.serial) ++
          [q.processing[i].serial] := by rw [List.append_assoc]
    _ ~ q.processing[i].serial ::
          ((q.processing.eraseIdx i).map (·.serial) ++ q.output.map (·.serial)) :=
        List.perm_append_singleton _ _
    _ ~ q.processing.map (·.serial) ++ q.output.map (·.serial) := hperm.append_right _

/-- What a taken result was, and what is left. -/
theorem nextResult_some [DecidableEq β] {r : TpoolResult β} (h : q.nextResult = some (r, q')) :
    r ∈ q.output ∧ r.serial = q.nextSerial ∧ q.shutdown = false ∧
      q' = { q with output := q.output.erase r, nextSerial := q.nextSerial + 1 } := by
  unfold TpoolProcess.nextResult at h
  split at h
  · cases h
  · next hshutdown =>
    split at h
    · cases h
    · next r' hfind =>
      cases h
      refine ⟨List.mem_of_find?_eq_some hfind, ?_, by simpa using hshutdown, rfl⟩
      simpa using List.find?_some hfind

theorem serials_nextResult [DecidableEq β] {r : TpoolResult β}
    (h : q.nextResult = some (r, q')) : q.serials ~ r.serial :: q'.serials := by
  obtain ⟨hr, -, -, rfl⟩ := nextResult_some h
  have hperm := (List.perm_cons_erase hr).map (·.serial)
  simp only [serials]
  calc q.input.map (·.serial) ++ (q.processing.map (·.serial) ++ q.output.map (·.serial))
      ~ q.input.map (·.serial) ++ (q.processing.map (·.serial) ++
          (r.serial :: (q.output.erase r).map (·.serial))) :=
        (hperm.append_left _).append_left _
    _ ~ q.input.map (·.serial) ++ (r.serial :: (q.processing.map (·.serial) ++
          (q.output.erase r).map (·.serial))) := List.perm_middle.append_left _
    _ ~ r.serial :: (q.input.map (·.serial) ++ (q.processing.map (·.serial) ++
          (q.output.erase r).map (·.serial))) := List.perm_middle

theorem serials_resetClear : q.resetClear.serials.Sublist q.serials := by
  simp only [serials, resetClear, List.map_nil, List.nil_append, List.append_nil]
  exact (List.sublist_append_left _ _).trans (List.sublist_append_right _ _)

end TpoolProcess

/-! ## What a step keeps -/

namespace PoolRun

variable {α β : Type} {func : α → β} {s s' : PoolRun α β}

/-- The numbers of all jobs and results that are under way. -/
def serials (s : PoolRun α β) : List Nat := s.waiting.map (·.serial) ++ s.q.serials

/-- The jobs carry the numbers of their calls, each number is under way at most once, and
the results that went out are those of the first numbers. -/
structure OrderInv (func : α → β) (s : PoolRun α β) : Prop where
  noMoreInput : s.q.noMoreInput = false
  shutdown : s.q.shutdown = false
  numbered : s.calls.map (·.serial) = List.range s.q.currSerial
  waiting : ∀ j ∈ s.waiting, j ∈ s.calls
  input : ∀ j ∈ s.q.input, j ∈ s.calls
  processing : ∀ j ∈ s.q.processing, j ∈ s.calls
  output : ∀ r ∈ s.q.output, ∃ j ∈ s.calls, r = ⟨j.serial, func j.arg⟩
  nodup : s.serials.Nodup
  ahead : ∀ k ∈ s.serials, s.returned.length ≤ k
  returned : s.returned <+: s.calls.map fun j => func j.arg
  expected : s.cleared = false → s.q.nextSerial = s.returned.length
  hidden : s.cleared = true → s.q.nextSerial = intMax

theorem OrderInv.start (func : α → β) (qsize : Nat) : OrderInv func (start qsize) where
  noMoreInput := rfl
  shutdown := rfl
  numbered := rfl
  waiting := nofun
  input := nofun
  processing := nofun
  output := nofun
  nodup := List.nodup_nil
  ahead := nofun
  returned := List.prefix_refl _
  expected := fun _ => rfl
  hidden := nofun

theorem OrderInv.calls_length (h : OrderInv func s) : s.calls.length = s.q.currSerial := by
  have hlen := congrArg List.length h.numbered
  simpa using hlen

/-- A job of a call is the one of its number. -/
theorem OrderInv.calls_getElem? (h : OrderInv func s) {j : TpoolJob α} (hj : j ∈ s.calls) :
    s.calls[j.serial]? = some j := by
  obtain ⟨i, hi⟩ := List.mem_iff_getElem?.1 hj
  have hserial : (s.calls.map (·.serial))[i]? = some j.serial := by simp [hi]
  rw [h.numbered] at hserial
  obtain ⟨hlt, hat⟩ := List.getElem?_eq_some_iff.1 hserial
  rw [List.getElem_range] at hat
  rw [← hat]
  exact hi

/-- A reorder of what is under way. -/
theorem OrderInv.ahead_perm (h : OrderInv func s) {ks : List Nat} (hperm : ks ~ s.serials) :
    ks.Nodup ∧ ∀ k ∈ ks, s.returned.length ≤ k :=
  ⟨hperm.nodup_iff.2 h.nodup, fun k hk => h.ahead k (hperm.mem_iff.1 hk)⟩

theorem OrderInv.serials_lt (h : OrderInv func s) {k : Nat} (hk : k ∈ s.serials) :
    k < s.q.currSerial := by
  have hcall : ∀ j ∈ s.calls, j.serial < s.q.currSerial := by
    intro j hj
    have hmem : j.serial ∈ s.calls.map (·.serial) := List.mem_map_of_mem hj
    rw [h.numbered] at hmem
    exact List.mem_range.1 hmem
  simp only [serials, TpoolProcess.serials, List.mem_append, List.mem_map] at hk
  rcases hk with ⟨j, hj, rfl⟩ | ⟨j, hj, rfl⟩ | ⟨j, hj, rfl⟩ | ⟨r, hr, rfl⟩
  · exact hcall j (h.waiting j hj)
  · exact hcall j (h.input j hj)
  · exact hcall j (h.processing j hj)
  · obtain ⟨j, hj, rfl⟩ := h.output r hr
    exact hcall j hj

/-- A call takes its number and waits. -/
theorem OrderInv.call (h : OrderInv func s) (arg : α) :
    OrderInv func { s with
      q := { s.q with currSerial := s.q.currSerial + 1 }
      waiting := s.waiting ++ [⟨s.q.currSerial, arg⟩]
      calls := s.calls ++ [⟨s.q.currSerial, arg⟩] } where
  noMoreInput := h.noMoreInput
  shutdown := h.shutdown
  numbered := by rw [List.map_append, h.numbered, List.range_succ]; rfl
  waiting := by
    intro j hj
    rcases List.mem_append.1 hj with hj | hj
    · exact List.mem_append_left _ (h.waiting j hj)
    · exact List.mem_append_right _ hj
  input := fun j hj => List.mem_append_left _ (h.input j hj)
  processing := fun j hj => List.mem_append_left _ (h.processing j hj)
  output := by
    intro r hr
    obtain ⟨j, hj, heq⟩ := h.output r hr
    exact ⟨j, List.mem_append_left _ hj, heq⟩
  nodup := by
    have hperm : (s.waiting ++ [(⟨s.q.currSerial, arg⟩ : TpoolJob α)]).map (·.serial) ++
        s.q.serials ~ s.q.currSerial :: s.serials := by
      simp only [List.map_append, List.map_cons, List.map_nil, List.append_assoc]
      exact List.perm_middle
    refine hperm.nodup_iff.2 (List.nodup_cons.2 ⟨fun hmem => ?_, h.nodup⟩)
    exact absurd (h.serials_lt hmem) (Nat.lt_irrefl _)
  ahead := by
    intro k hk
    simp only [serials, List.map_append, List.map_cons, List.map_nil, List.mem_append,
      List.mem_singleton] at hk
    rcases hk with (hk | rfl) | hk
    · exact h.ahead k (List.mem_append_left _ hk)
    · have hle := h.returned.length_le
      rw [List.length_map, h.calls_length] at hle
      exact hle
    · exact h.ahead k (List.mem_append_right _ hk)
  returned := by
    rw [List.map_append]
    exact h.returned.trans (List.prefix_append _ _)
  expected := h.expected
  hidden := h.hidden

/-- A dispatch that waited enters the queue. -/
theorem OrderInv.enter (h : OrderInv func s) {i : Nat} {j : TpoolJob α} (woken : Bool)
    (hj : s.waiting[i]? = some j) :
    OrderInv func { s with
      q := { s.q.append j with wakeDispatch := woken }
      waiting := s.waiting.eraseIdx i } := by
  obtain ⟨hi, rfl⟩ := List.getElem?_eq_some_iff.1 hj
  have hperm : (s.waiting.eraseIdx i).map (·.serial) ++ (s.q.append s.waiting[i]).serials ~
      s.serials := by
    calc (s.waiting.eraseIdx i).map (·.serial) ++ (s.q.append s.waiting[i]).serials
        ~ (s.waiting.eraseIdx i).map (·.serial) ++ s.waiting[i].serial :: s.q.serials :=
          (TpoolProcess.serials_append _).append_left _
      _ ~ s.waiting[i].serial :: ((s.waiting.eraseIdx i).map (·.serial) ++ s.q.serials) :=
          List.perm_middle
      _ ~ s.waiting.map (·.serial) ++ s.q.serials :=
          ((List.getElem_cons_eraseIdx_perm hi).map (·.serial)).append_right _
  have hahead := h.ahead_perm hperm
  exact { h with
    waiting := fun k hk => h.waiting k (List.mem_of_mem_eraseIdx hk)
    input := by
      intro k hk
      rcases List.mem_append.1 hk with hk | hk
      · exact h.input k hk
      · rw [List.mem_singleton.1 hk]
        exact h.waiting _ (List.getElem_mem hi)
    nodup := hahead.1
    ahead := hahead.2 }

theorem OrderInv.dispatch (h : OrderInv func s) (arg : α) (nonblock : Nonblock) :
    OrderInv func (s.dispatch arg nonblock) := by
  unfold PoolRun.dispatch
  split
  · exact h
  · next j q henter =>
    obtain ⟨rfl, rfl⟩ := TpoolProcess.dispatchEnter_some henter
    have hcall := h.call arg
    split
    · exact hcall
    · next q' hfinish =>
      rcases TpoolProcess.dispatchFinish_cases hfinish with ⟨-, woken, rfl⟩ | ⟨hrefused, -⟩
      · have hlast : (s.waiting ++ [(⟨s.q.currSerial, arg⟩ : TpoolJob α)])[s.waiting.length]? =
            some ⟨s.q.currSerial, arg⟩ := by simp
        have herase : (s.waiting ++ [(⟨s.q.currSerial, arg⟩ : TpoolJob α)]).eraseIdx
            s.waiting.length = s.waiting := by
          rw [List.eraseIdx_append_of_length_le (Nat.le_refl _)]
          simp
        have henter' := hcall.enter woken hlast
        simp only [herase] at henter'
        exact henter'
      · cases hrefused
    · next q' hfinish =>
      exact absurd hfinish
        (TpoolProcess.dispatchFinish_ne_refused hcall.noMoreInput hcall.shutdown)

theorem OrderInv.resume (h : OrderInv func s) {i : Nat} {j : TpoolJob α}
    (hj : s.waiting[i]? = some j) : OrderInv func (s.resume i j) := by
  unfold PoolRun.resume
  split
  · exact h
  · next q' hfinish =>
    rcases TpoolProcess.dispatchFinish_cases hfinish with ⟨-, woken, rfl⟩ | ⟨hrefused, -⟩
    · exact h.enter woken hj
    · cases hrefused
  · next q' hfinish =>
    exact absurd hfinish (TpoolProcess.dispatchFinish_ne_refused h.noMoreInput h.shutdown)

theorem OrderInv.take {q' : TpoolProcess α β} (h : OrderInv func s)
    (htake : s.q.workerTake = some q') : OrderInv func { s with q := q' } := by
  have hahead := h.ahead_perm ((TpoolProcess.serials_workerTake htake).append_left _)
  obtain ⟨j, rest, hinput, rfl⟩ := TpoolProcess.workerTake_some htake
  exact { h with
    input := fun k hk => h.input k (hinput ▸ List.mem_cons_of_mem j hk)
    processing := by
      intro k hk
      rcases List.mem_append.1 hk with hk | hk
      · exact h.processing k hk
      · rw [List.mem_singleton.1 hk]
        exact h.input j (hinput ▸ List.mem_cons_self)
    nodup := hahead.1
    ahead := hahead.2 }

theorem OrderInv.finish {q' : TpoolProcess α β} {i : Nat} (h : OrderInv func s)
    (hadd : s.q.addResult func i = some q') : OrderInv func { s with q := q' } := by
  have hahead := h.ahead_perm ((TpoolProcess.serials_addResult hadd).append_left _)
  obtain ⟨j, hj, rfl⟩ := TpoolProcess.addResult_getElem? hadd
  exact { h with
    processing := fun k hk => h.processing k (List.mem_of_mem_eraseIdx hk)
    output := by
      intro r hr
      rcases List.mem_append.1 hr with hr | hr
      · exact h.output r hr
      · exact ⟨j, h.processing j (List.mem_of_getElem? hj), List.mem_singleton.1 hr⟩
    nodup := hahead.1
    ahead := hahead.2 }

/-- The result that goes out is the one of the next call. -/
theorem OrderInv.next [DecidableEq β] (h : OrderInv func s)
    (hcalm : s.cleared = true → ∀ r ∈ s.q.output, r.serial ≠ intMax) :
    OrderInv func s.next := by
  unfold PoolRun.next
  split
  · exact h
  · next r q' hnext =>
    have hperm := (TpoolProcess.serials_nextResult hnext).append_left (s.waiting.map (·.serial))
    obtain ⟨hr, hserial, -, rfl⟩ := TpoolProcess.nextResult_some hnext
    have hcleared : s.cleared = false := by
      cases hc : s.cleared with
      | false => rfl
      | true => exact absurd (hserial.trans (h.hidden hc)) (hcalm hc r hr)
    have hnumber : r.serial = s.returned.length := hserial.trans (h.expected hcleared)
    obtain ⟨j, hj, rfl⟩ := h.output r hr
    have hcall : s.calls[s.returned.length]? = some j := hnumber ▸ h.calls_getElem? hj
    have hnodup := (hperm.trans List.perm_middle).nodup_iff.1 h.nodup
    rw [List.nodup_cons] at hnodup
    exact { h with
      output := fun r' hr' => h.output r' (List.mem_of_mem_erase hr')
      nodup := hnodup.2
      ahead := by
        intro k hk
        have hmem : k ∈ s.serials := by
          refine (hperm.trans List.perm_middle).mem_iff.2 (List.mem_cons_of_mem _ hk)
        have hne : k ≠ s.returned.length := fun heq => hnodup.1 (by rw [hnumber, ← heq]; exact hk)
        have hle := h.ahead k hmem
        rw [List.length_append, List.length_singleton]
        omega
      returned := by
        obtain ⟨rest, hrest⟩ := h.returned
        have hmap : (s.calls.map fun j => func j.arg)[s.returned.length]? = some (func j.arg) := by
          simp [hcall]
        rw [← hrest, List.getElem?_append_right (Nat.le_refl _), Nat.sub_self] at hmap
        cases rest with
        | nil => cases hmap
        | cons x rest =>
          cases hmap
          exact ⟨rest, by rw [← hrest, List.append_assoc]; rfl⟩
      expected := by
        intro _
        rw [h.expected hcleared, List.length_append, List.length_singleton]
      hidden := by
        intro hc
        rw [hcleared] at hc
        cases hc }

theorem OrderInv.resetClear (h : OrderInv func s) :
    OrderInv func { s with
      q := s.q.resetClear, resets := s.resets ++ [.cleared], cleared := true } := by
  have hsub : s.waiting.map (·.serial) ++ s.q.resetClear.serials <+ s.serials :=
    TpoolProcess.serials_resetClear.append_left _
  exact { h with
    input := nofun
    output := nofun
    nodup := h.nodup.sublist hsub
    ahead := fun k hk => h.ahead k (hsub.subset hk)
    expected := nofun
    hidden := fun _ => rfl }

/-- The end of a reset: with nothing under way all numbers begin again. -/
theorem OrderInv.resetFinish (h : OrderInv func s) (hdrained : s.q.Drained) (hwaiting : s.waiting = [])
    (resets : List ResetPhase) :
    OrderInv func { s with
      q := s.q.resetFinish, resets := resets, cleared := false, calls := [], returned := [] } := by
  obtain ⟨hinput, hprocessing⟩ := hdrained
  have hserials : s.waiting.map (·.serial) ++ s.q.resetFinish.serials = [] := by
    simp [TpoolProcess.serials, TpoolProcess.resetFinish, hinput, hprocessing, hwaiting]
  constructor
  case noMoreInput => exact h.noMoreInput
  case shutdown => exact h.shutdown
  case numbered => rfl
  case waiting => simp [hwaiting]
  case input => simp [TpoolProcess.resetFinish, hinput]
  case processing => simp [TpoolProcess.resetFinish, hprocessing]
  case output => exact nofun
  case nodup =>
    unfold PoolRun.serials
    rw [hserials]
    exact List.nodup_nil
  case ahead => exact fun _ _ => Nat.zero_le _
  case returned => exact List.prefix_refl _
  case expected => exact fun _ => rfl
  case hidden => exact nofun

theorem OrderInv.resetNext {i : Nat} {phase : ResetPhase} (h : OrderInv func s)
    (hcalm : phase = .flushed → s.q.Drained ∧ s.waiting = [])
    (hstep : s.resetNext i phase = some s') : OrderInv func s' := by
  cases phase with
  | cleared =>
    cases hstep
    exact { h with }
  | flushing =>
    simp only [PoolRun.resetNext] at hstep
    split at hstep
    · cases hstep
      exact { h with }
    · cases hstep
  | flushed =>
    cases hstep
    exact h.resetFinish (hcalm rfl).1 (hcalm rfl).2 _

theorem OrderInv.step [DecidableEq β] {e : PoolEvent α} (h : OrderInv func s)
    (hcalm : Calm s e) (hstep : s.step func e = some s') : OrderInv func s' := by
  cases e with
  | dispatch arg nonblock =>
    cases hstep
    exact h.dispatch arg nonblock
  | resume i =>
    obtain ⟨j, hj, rfl⟩ := Option.map_eq_some_iff.1 hstep
    exact h.resume hj
  | take =>
    obtain ⟨q', htake, rfl⟩ := Option.map_eq_some_iff.1 hstep
    exact h.take htake
  | finish i =>
    obtain ⟨q', hadd, rfl⟩ := Option.map_eq_some_iff.1 hstep
    exact h.finish hadd
  | next =>
    cases hstep
    exact h.next hcalm
  | wake =>
    cases hstep
    exact { h with }
  | resetClear =>
    cases hstep
    exact h.resetClear
  | resetNext i =>
    obtain ⟨phase, hphase, hstep⟩ := Option.bind_eq_some_iff.1 hstep
    exact h.resetNext (fun hflushed => hcalm (hflushed ▸ hphase)) hstep

/-- The calls whose results went out wait no longer. -/
theorem OrderInv.inOrder (h : OrderInv func s) : InOrder func s := by
  obtain ⟨rest, hrest⟩ := h.returned
  have hsplit := List.take_append_drop s.returned.length s.calls
  have hreturned : s.returned = (s.calls.take s.returned.length).map fun j => func j.arg := by
    rw [List.map_take, ← hrest, List.take_left']
    rfl
  have hfirst : (s.calls.take s.returned.length).filter
      (fun j => j.serial ∉ s.waiting.map (·.serial)) = s.calls.take s.returned.length := by
    rw [List.filter_eq_self]
    intro j hj
    have hserial : j.serial < s.returned.length := by
      have hmem : j.serial ∈ (s.calls.take s.returned.length).map (·.serial) :=
        List.mem_map_of_mem hj
      rw [List.map_take, h.numbered, List.take_range] at hmem
      have hlt := List.mem_range.1 hmem
      omega
    rw [decide_eq_true_eq]
    intro hmem
    have hle := h.ahead j.serial (List.mem_append_left _ hmem)
    omega
  unfold InOrder dispatched
  rw [← hsplit, List.filter_append, hfirst, List.map_append, ← hreturned]
  exact List.prefix_append _ _

/-- Along a calm history the results since the last reset are those of the first jobs
dispatched since, in order and each once. -/
theorem results_in_order [DecidableEq β] (func : α → β) (qsize : Nat)
    (events : List (PoolEvent α)) (s : PoolRun α β)
    (hcalm : Along (PoolRun.step func) Calm (start qsize) events)
    (hrun : run (PoolRun.step func) (start qsize) events = some s) : InOrder func s :=
  OrderInv.inOrder
    (run_invariant (fun _ _ _ h hc hst => h.step hc hst) (OrderInv.start func qsize) hcalm hrun)

/-- Two workers finish out of order, and a reset comes while a job is running. -/
theorem results_in_order_reset :
    InOrder (fun n : Nat => n + 1)
      ⟨{ tpoolProcessInit 2 with currSerial := 1, nextSerial := 1 }, [], [], false,
        [⟨0, 30⟩], [31]⟩ := by
  refine results_in_order (fun n => n + 1) 2
    [.dispatch 10 .wait, .dispatch 20 .wait, .take, .take, .finish 1, .next, .resetClear,
      .resetNext 0, .finish 0, .next, .resetNext 0, .resetNext 0, .dispatch 30 .fail, .take,
      .finish 0, .next] _ ?_ ?_
  · decide
  · decide

/-- A dispatch waits while the queue is reset: its job keeps the number it had, and its
result goes out after the reset. -/
theorem waitingDispatch_not_inOrder :
    ∃ s, run (PoolRun.step fun n : Nat => n) (start 2)
      [.dispatch 10 .wait, .dispatch 11 .wait, .dispatch 12 .wait, .resetClear, .resetNext 0,
        .resetNext 0, .resetNext 0, .resume 0, .take, .finish 0, .dispatch 20 .wait, .take,
        .finish 0, .next, .dispatch 21 .wait, .take, .finish 0, .next, .next] = some s ∧
      s.returned = [20, 21, 12] ∧ s.dispatched.map (·.arg) = [20, 21] ∧
      ¬ InOrder (fun n : Nat => n) s :=
  ⟨_, rfl, by decide, by decide, by decide⟩

end PoolRun

end DsdNexus.Util
