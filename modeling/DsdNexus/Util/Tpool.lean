import Mathlib.Data.List.Basic
import Mathlib.Tactic.Common

/-! # The process queue of the thread pool

One `sa_tpool_process`. Every definition is one section of the source under the
lock of the pool: a dispatch takes its serial in one and enters the queue in
another, a reset clears the queue in one and renumbers in another, when the
workers have finished what they had begun.
-/

namespace DsdNexus.Util

/-- `sa_tpool_job`. -/
structure TpoolJob (α : Type) where
  serial : Nat
  arg : α
  deriving DecidableEq, Repr

/-- `sa_tpool_result`. -/
structure TpoolResult (β : Type) where
  serial : Nat
  data : β
  deriving DecidableEq, Repr

/-- `sa_tpool_process`; `n_input`, `n_processing` and `n_output` are the lengths. -/
structure TpoolProcess (α β : Type) where
  qsize : Nat
  input : List (TpoolJob α)
  processing : List (TpoolJob α)
  output : List (TpoolResult β)
  nextSerial : Nat
  currSerial : Nat
  noMoreInput : Bool
  shutdown : Bool
  wakeDispatch : Bool
  deriving DecidableEq, Repr

/-- `INT_MAX`, which no job carries. -/
def intMax : Nat := 2147483647

/-- The third argument of `sa_tpool_dispatch3`: 0 waits for room, 1 fails
without, -1 enters a full queue. -/
inductive Nonblock where
  | wait | fail | force
  deriving DecidableEq, Repr

variable {α β : Type}

/-- `sa_tpool_process_init`. -/
def tpoolProcessInit (qsize : Nat) : TpoolProcess α β :=
  { qsize := qsize
    input := []
    processing := []
    output := []
    nextSerial := 0
    currSerial := 0
    noMoreInput := false
    shutdown := false
    wakeDispatch := false }

namespace TpoolProcess

variable (q : TpoolProcess α β)

/-- The queue takes no job now. -/
def Full : Prop := q.noMoreInput = true ∨ q.qsize ≤ q.input.length

instance : Decidable q.Full := inferInstanceAs (Decidable (_ ∨ _))

/-! ## Dispatch -/

/-- `sa_tpool_dispatch3` up to the wait: the job and its serial, or `EAGAIN`. -/
def dispatchEnter (arg : α) (nonblock : Nonblock) : Option (TpoolJob α × TpoolProcess α β) :=
  if q.Full ∧ nonblock = .fail then none
  else some (⟨q.currSerial, arg⟩, { q with currSerial := q.currSerial + 1 })

def append (j : TpoolJob α) : TpoolProcess α β := { q with input := q.input ++ [j] }

/-- The condition under which a blocking dispatch goes on waiting. -/
def Waits : Prop := q.Full ∧ q.shutdown = false ∧ q.wakeDispatch = false

instance : Decidable q.Waits := inferInstanceAs (Decidable (_ ∧ _))

/-- `sa_tpool_dispatch3` from the wait on: the job is in the queue or refused;
`none` is still waiting. -/
def dispatchFinish (j : TpoolJob α) (nonblock : Nonblock) : Option (Bool × TpoolProcess α β) :=
  if nonblock = .wait then
    if q.Waits then none
    else if q.noMoreInput ∨ q.shutdown then some (false, q)
    else some (true, { q.append j with wakeDispatch := false })
  else some (true, q.append j)

/-- `sa_tpool_wake_dispatch`. -/
def wake : TpoolProcess α β := { q with wakeDispatch := true }

/-- `sa_tpool_process_shutdown`. -/
def shutDown : TpoolProcess α β := { q with shutdown := true }

/-! ## Workers -/

/-- A worker takes the first job where there is room for its result. -/
def workerTake : Option (TpoolProcess α β) :=
  match q.input with
  | [] => none
  | j :: rest =>
    if q.processing.length < q.qsize - q.output.length ∧ ¬ q.shutdown then
      some { q with input := rest, processing := q.processing ++ [j] }
    else none

/-- `sa_tpool_add_result` for the job a worker has at place `i`. -/
def addResult (func : α → β) (i : Nat) : Option (TpoolProcess α β) :=
  match q.processing[i]? with
  | none => none
  | some j =>
    some { q with
      processing := q.processing.eraseIdx i
      output := q.output ++ [⟨j.serial, func j.arg⟩] }

/-! ## Results -/

/-- `sa_tpool_next_result_locked`. -/
def nextResult [DecidableEq β] : Option (TpoolResult β × TpoolProcess α β) :=
  if q.shutdown then none
  else match q.output.find? fun r => r.serial = q.nextSerial with
    | none => none
    | some r => some (r, { q with output := q.output.erase r, nextSerial := q.nextSerial + 1 })

/-! ## Reset -/

/-- The first section of `sa_tpool_process_reset`. -/
def resetClear : TpoolProcess α β := { q with nextSerial := intMax, input := [], output := [] }

/-- The room `sa_tpool_process_flush` makes. -/
def flushRoom : TpoolProcess α β :=
  { q with qsize := max q.qsize (q.output.length + q.input.length + q.processing.length) }

/-- What `sa_tpool_process_flush` waits for. -/
def Drained : Prop := q.input = [] ∧ q.processing = []

instance : Decidable q.Drained :=
  decidable_of_iff (q.input.isEmpty = true ∧ q.processing.isEmpty = true) (by simp [Drained])

/-- The last section of `sa_tpool_process_reset`. -/
def resetFinish : TpoolProcess α β := { q with output := [], nextSerial := 0, currSerial := 0 }

/-! ## What is in the queue -/

/-- Every job and every result of the queue meets a predicate. -/
structure All (P : α → Prop) (R : β → Prop) : Prop where
  input : ∀ j ∈ q.input, P j.arg
  processing : ∀ j ∈ q.processing, P j.arg
  output : ∀ r ∈ q.output, R r.data

variable {q} {q' : TpoolProcess α β} {P : α → Prop} {R : β → Prop}

theorem dispatchEnter_some {arg : α} {nonblock : Nonblock} {j : TpoolJob α}
    (henter : q.dispatchEnter arg nonblock = some (j, q')) :
    j = ⟨q.currSerial, arg⟩ ∧ q' = { q with currSerial := q.currSerial + 1 } := by
  unfold TpoolProcess.dispatchEnter at henter
  split at henter
  · cases henter
  · cases henter
    exact ⟨rfl, rfl⟩

theorem All.dispatchEnter (h : q.All P R) {arg : α} {nonblock : Nonblock} {j : TpoolJob α}
    (henter : q.dispatchEnter arg nonblock = some (j, q')) : q'.All P R := by
  obtain ⟨-, rfl⟩ := dispatchEnter_some henter
  exact ⟨h.input, h.processing, h.output⟩

theorem All.append (h : q.All P R) {j : TpoolJob α} (hj : P j.arg) : (q.append j).All P R := by
  refine ⟨fun k hk => ?_, h.processing, h.output⟩
  rcases List.mem_append.mp hk with hk | hk
  · exact h.input k hk
  · rw [List.mem_singleton.mp hk]
    exact hj

/-- A finished dispatch has put the job in the queue or left the queue as it was. -/
theorem dispatchFinish_cases {j : TpoolJob α} {nonblock : Nonblock} {ok : Bool}
    (hfinish : q.dispatchFinish j nonblock = some (ok, q')) :
    (ok = true ∧ ∃ woken, q' = { q.append j with wakeDispatch := woken }) ∨
      (ok = false ∧ q' = q) := by
  unfold TpoolProcess.dispatchFinish at hfinish
  split at hfinish
  · split at hfinish
    · cases hfinish
    · split at hfinish
      · cases hfinish
        exact Or.inr ⟨rfl, rfl⟩
      · cases hfinish
        exact Or.inl ⟨rfl, false, rfl⟩
  · cases hfinish
    exact Or.inl ⟨rfl, q.wakeDispatch, rfl⟩

theorem All.dispatchFinish (h : q.All P R) {j : TpoolJob α} {nonblock : Nonblock} {ok : Bool}
    (hj : P j.arg) (hfinish : q.dispatchFinish j nonblock = some (ok, q')) : q'.All P R := by
  rcases dispatchFinish_cases hfinish with ⟨-, woken, rfl⟩ | ⟨-, rfl⟩
  · have happend := h.append hj
    exact ⟨happend.input, happend.processing, happend.output⟩
  · exact h

theorem workerTake_some (htake : q.workerTake = some q') : ∃ j rest, q.input = j :: rest ∧
    q' = { q with input := rest, processing := q.processing ++ [j] } := by
  unfold TpoolProcess.workerTake at htake
  split at htake
  · cases htake
  · next j rest hinput =>
    split at htake
    · cases htake
      exact ⟨j, rest, hinput, rfl⟩
    · cases htake

theorem All.workerTake (h : q.All P R) (htake : q.workerTake = some q') : q'.All P R := by
  obtain ⟨j, rest, hinput, rfl⟩ := workerTake_some htake
  refine ⟨fun k hk => h.input k (by rw [hinput]; exact List.mem_cons_of_mem _ hk), fun k hk => ?_,
    h.output⟩
  rcases List.mem_append.mp hk with hk | hk
  · exact h.processing k hk
  · rw [List.mem_singleton.mp hk]
    exact h.input j (by rw [hinput]; exact List.mem_cons_self)

theorem addResult_some {func : α → β} {i : Nat} (hadd : q.addResult func i = some q') :
    ∃ j ∈ q.processing, q' = { q with
      processing := q.processing.eraseIdx i
      output := q.output ++ [⟨j.serial, func j.arg⟩] } := by
  unfold TpoolProcess.addResult at hadd
  split at hadd
  · cases hadd
  · next j hj =>
    cases hadd
    exact ⟨j, List.mem_of_getElem? hj, rfl⟩

theorem All.addResult {func : α → β} (hfunc : ∀ a, P a → R (func a)) (h : q.All P R) {i : Nat}
    (hadd : q.addResult func i = some q') : q'.All P R := by
  obtain ⟨j, hj, rfl⟩ := addResult_some hadd
  refine ⟨h.input, fun k hk => h.processing k (List.mem_of_mem_eraseIdx hk), fun r hr => ?_⟩
  rcases List.mem_append.mp hr with hr | hr
  · exact h.output r hr
  · rw [List.mem_singleton.mp hr]
    exact hfunc _ (h.processing j hj)

theorem nextResult_same [DecidableEq β] {r : TpoolResult β} (hnext : q.nextResult = some (r, q')) :
    q'.input = q.input ∧ q'.processing = q.processing := by
  unfold TpoolProcess.nextResult at hnext
  split at hnext
  · cases hnext
  · split at hnext
    · cases hnext
    · cases hnext
      exact ⟨rfl, rfl⟩

theorem All.nextResult [DecidableEq β] (h : q.All P R) {r : TpoolResult β}
    (hnext : q.nextResult = some (r, q')) : q'.All P R := by
  unfold TpoolProcess.nextResult at hnext
  split at hnext
  · cases hnext
  · split at hnext
    · cases hnext
    · cases hnext
      exact ⟨h.input, h.processing, fun k hk => h.output k (List.mem_of_mem_erase hk)⟩

end TpoolProcess

end DsdNexus.Util
