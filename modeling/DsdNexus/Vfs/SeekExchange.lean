import DsdNexus.Vfs.Handshake

/-! # What a seek finds when it returns

The command of a seek is answered once, after a reset; so the queue holds jobs
made since. The first of them is for the frame of the seek as long as the reader
leaves `current_frame` alone from the moment the seek has written it until the
seek has copied it.
-/

namespace DsdNexus.Vfs

open Util Transition

variable {t : Track} {s s' : Handshake}

/-! ## The moves of the reader -/

/-- What one statement of the reader can do. -/
inductive ReaderMove (t : Track) (s : Handshake) : Handshake → Prop where
  | test (hpc : s.reader = .loopTest) (hlt : s.currentFrame < t.endFrame) :
      ReaderMove t s { s with reader := .checkCommand }
  | testEnd (hpc : s.reader = .loopTest) (hge : t.endFrame ≤ s.currentFrame) :
      ReaderMove t s { s with reader := .sentinel s.currentFrame false }
  | goOn (hpc : s.reader = .checkCommand) : ReaderMove t s { s with reader := .getSoundData }
  | exit : ReaderMove t s { s with reader := .exited }
  | notice (place : Noticed) (hseek : s.command = .seek) :
      ReaderMove t s { s with reader := .resetClear place }
  | unread (hpc : s.reader = .getSoundData) : ReaderMove t s (s.giveUp s.currentFrame)
  | read (hpc : s.reader = .getSoundData) (data : Bytes)
      (hdata : t.soundData s.currentFrame = some data) :
      ReaderMove t s { s with reader := .makeJob s.currentFrame data }
  | unmade (readAt : Nat) (data : Bytes) (hpc : s.reader = .makeJob readAt data) :
      ReaderMove t s (s.giveUp readAt)
  | make (readAt : Nat) (data : Bytes) (hpc : s.reader = .makeJob readAt data) :
      ReaderMove t s
        { s with reader := .dispatch ⟨Job.frame s.currentFrame data, readAt, false, s.resets⟩ }
  | enter (d : Dispatched) (hpc : s.reader = .dispatch d) (j : TpoolJob Dispatched)
      (q : TpoolProcess Dispatched Dispatched)
      (henter : s.process.dispatchEnter d .wait = some (j, q)) :
      ReaderMove t s { s with process := q, reader := .enqueue j }
  | refused (d : Dispatched) (hpc : s.reader = .dispatch d) :
      ReaderMove t s { s with reader := .dispatchFailed d.readAt }
  | enqueue (j : TpoolJob Dispatched) (hpc : s.reader = .enqueue j)
      (q : TpoolProcess Dispatched Dispatched)
      (hfinish : s.process.dispatchFinish j .wait = some (true, q)) :
      ReaderMove t s
        { s with process := q, reader := .increment, dispatched := s.dispatched ++ [j.arg] }
  | closed (j : TpoolJob Dispatched) (hpc : s.reader = .enqueue j)
      (q : TpoolProcess Dispatched Dispatched)
      (hfinish : s.process.dispatchFinish j .wait = some (false, q)) :
      ReaderMove t s { s with process := q, reader := .dispatchFailed j.arg.readAt }
  | undispatched (readAt : Nat) (hpc : s.reader = .dispatchFailed readAt) :
      ReaderMove t s (s.giveUp readAt)
  | increment (hpc : s.reader = .increment) :
      ReaderMove t s { s with currentFrame := s.currentFrame + 1, reader := .loopTest }
  | sentinel (stoppedAt : Nat) (failed : Bool) (hpc : s.reader = .sentinel stoppedAt failed)
      (j : TpoolJob Dispatched) (q : TpoolProcess Dispatched Dispatched)
      (henter : s.process.dispatchEnter ⟨Job.sentinel, stoppedAt, failed, s.resets⟩ .force =
        some (j, q)) :
      ReaderMove t s { s with process := q, reader := .enqueueSentinel j }
  | noSentinel (stoppedAt : Nat) (failed : Bool) (hpc : s.reader = .sentinel stoppedAt failed) :
      ReaderMove t s { s with reader := .wait }
  | enqueueSentinel (j : TpoolJob Dispatched) (hpc : s.reader = .enqueueSentinel j) (ok : Bool)
      (q : TpoolProcess Dispatched Dispatched)
      (hfinish : s.process.dispatchFinish j .force = some (ok, q)) :
      ReaderMove t s
        { s with process := q, reader := .wait, dispatched := s.dispatched ++ [j.arg] }
  | resetClear (place : Noticed) (hpc : s.reader = .resetClear place) :
      ReaderMove t s { s with process := s.process.resetClear, reader := .resetFlush place }
  | resetFlush (place : Noticed) (hpc : s.reader = .resetFlush place) :
      ReaderMove t s { s with process := s.process.flushRoom, reader := .resetWait place }
  | resetWait (place : Noticed) (hpc : s.reader = .resetWait place) (hdrained : s.process.Drained) :
      ReaderMove t s { s with reader := .resetFinish place }
  | resetFinish (place : Noticed) (hpc : s.reader = .resetFinish place) :
      ReaderMove t s
        { s with
          process := s.process.resetFinish
          reader := .restart place
          resets := s.resets + 1
          dispatched := [] }
  | restart (place : Noticed) (hpc : s.reader = .restart place) :
      ReaderMove t s
        { s with currentFrame := s.mtSeekFrame, command := .seekDone, reader := .loopTest }

theorem obey_cases (place : Noticed) (next : Handshake) :
    s.obey place next = { s with reader := .exited } ∨
      (s.command = .seek ∧ s.obey place next = { s with reader := .resetClear place }) ∨
      s.obey place next = next := by
  unfold Handshake.obey
  cases s.command with
  | none => exact Or.inr (Or.inr rfl)
  | seek => exact Or.inr (Or.inl ⟨rfl, rfl⟩)
  | seekDone => exact Or.inr (Or.inr rfl)
  | close => exact Or.inl rfl

theorem readerStep_move {ok : Bool} (h : s.readerStep t ok = some s') : ReaderMove t s s' := by
  unfold Handshake.readerStep at h
  cases hpc : s.reader with
  | loopTest =>
    simp only [hpc] at h
    cases h
    by_cases hlt : s.currentFrame < t.endFrame
    · rw [if_pos hlt]
      exact .test hpc hlt
    · rw [if_neg hlt]
      exact .testEnd hpc (Nat.le_of_not_lt hlt)
  | checkCommand =>
    simp only [hpc] at h
    cases h
    rcases obey_cases (s := s) .loopHead { s with reader := .getSoundData } with he | ⟨hc, he⟩ | he
    · rw [he]; exact .exit
    · rw [he]; exact .notice _ hc
    · rw [he]; exact .goOn hpc
  | getSoundData =>
    simp only [hpc] at h
    cases hdata : t.soundData s.currentFrame with
    | none =>
      simp only [hdata] at h
      cases h
      exact .unread hpc
    | some data =>
      simp only [hdata] at h
      cases h
      exact .read hpc data hdata
  | makeJob readAt data =>
    simp only [hpc] at h
    cases ok with
    | true => cases h; exact .make readAt data hpc
    | false => cases h; exact .unmade readAt data hpc
  | dispatch d =>
    simp only [hpc] at h
    cases ok with
    | true =>
      obtain ⟨⟨j, q⟩, henter, rfl⟩ := Option.map_eq_some_iff.mp h
      exact .enter d hpc j q henter
    | false => cases h; exact .refused d hpc
  | enqueue j =>
    simp only [hpc] at h
    obtain ⟨⟨done, q⟩, hfinish, rfl⟩ := Option.map_eq_some_iff.mp h
    cases done with
    | true => exact .enqueue j hpc q hfinish
    | false => exact .closed j hpc q hfinish
  | dispatchFailed readAt =>
    simp only [hpc] at h
    cases h
    rcases obey_cases (s := s) .failedDispatch (s.giveUp readAt) with he | ⟨hc, he⟩ | he
    · rw [he]; exact .exit
    · rw [he]; exact .notice _ hc
    · rw [he]; exact .undispatched readAt hpc
  | increment =>
    simp only [hpc] at h
    cases h
    exact .increment hpc
  | sentinel stoppedAt failed =>
    simp only [hpc] at h
    cases ok with
    | true =>
      obtain ⟨⟨j, q⟩, henter, rfl⟩ := Option.map_eq_some_iff.mp h
      exact .sentinel stoppedAt failed hpc j q henter
    | false => cases h; exact .noSentinel stoppedAt failed hpc
  | enqueueSentinel j =>
    simp only [hpc] at h
    obtain ⟨⟨done, q⟩, hfinish, rfl⟩ := Option.map_eq_some_iff.mp h
    exact .enqueueSentinel j hpc done q hfinish
  | wait =>
    simp only [hpc] at h
    split at h
    · cases h
      exact .exit
    · next hseek =>
      cases h
      exact .notice _ hseek
    · cases h
    · cases h
  | resetClear place =>
    simp only [hpc] at h
    cases h
    exact .resetClear place hpc
  | resetFlush place =>
    simp only [hpc] at h
    cases h
    exact .resetFlush place hpc
  | resetWait place =>
    simp only [hpc] at h
    split at h
    · next hdrained =>
      cases h
      exact .resetWait place hpc hdrained
    · cases h
  | resetFinish place =>
    simp only [hpc] at h
    cases h
    exact .resetFinish place hpc
  | restart place =>
    simp only [hpc] at h
    cases h
    exact .restart place hpc
  | exited =>
    simp only [hpc] at h
    cases h

/-! ## Commands and answers -/

/-- The reader has noticed a seek and not answered it. -/
def ReaderPc.resetting : ReaderPc → Bool
  | .resetClear _ | .resetFlush _ | .resetWait _ | .resetFinish _ | .restart _ => true
  | _ => false

/-- The seek waits for its answer. -/
def MainPc.waitsFor (target : Nat) (m : MainPc) : Prop := m = .wake target ∨ m = .await target

/-- A command is pending or answered exactly while a seek waits, and the reader
resets only while it is pending. -/
structure Protocol (s : Handshake) : Prop where
  awaited : s.command = .seek ∨ s.command = .seekDone → ∃ target, s.main.waitsFor target
  pending : ∀ target, s.main.waitsFor target → s.command = .seek ∨ s.command = .seekDone
  resetting : s.reader.resetting = true → s.command = .seek
  unsought : s.command = .seek ∨ s.command = .seekDone → s.sought = none

theorem Protocol.reader (h : Protocol s) (hmove : ReaderMove t s s') : Protocol s' := by
  cases hmove with
  | notice place hseek => exact ⟨h.awaited, h.pending, fun _ => hseek, h.unsought⟩
  | resetClear place hpc =>
    exact ⟨h.awaited, h.pending, fun _ => h.resetting (by rw [hpc]; rfl), h.unsought⟩
  | resetFlush place hpc =>
    exact ⟨h.awaited, h.pending, fun _ => h.resetting (by rw [hpc]; rfl), h.unsought⟩
  | resetWait place hpc =>
    exact ⟨h.awaited, h.pending, fun _ => h.resetting (by rw [hpc]; rfl), h.unsought⟩
  | resetFinish place hpc =>
    exact ⟨h.awaited, h.pending, fun _ => h.resetting (by rw [hpc]; rfl), h.unsought⟩
  | restart place hpc =>
    have hseek : s.command = .seek := h.resetting (by rw [hpc]; rfl)
    exact ⟨fun _ => h.awaited (Or.inl hseek), fun _ _ => Or.inr rfl,
      fun hr => absurd hr Bool.false_ne_true, fun _ => h.unsought (Or.inl hseek)⟩
  | _ => exact ⟨h.awaited, h.pending, fun hr => absurd hr Bool.false_ne_true, h.unsought⟩

/-- The frame a seek has assigned and not yet published. -/
def MainPc.writing : MainPc → Option Nat
  | .compare target | .clamp target | .publish target => some target
  | _ => none

/-- What the main thread can do in a seek. -/
inductive MainMove (t : Track) (s : Handshake) : Handshake → Prop where
  | assign (frame : Nat) (clamped : Bool) (hpc : s.main = .assign frame clamped) :
      MainMove t s
        { s with
          currentFrame := frame
          main := if clamped then .compare frame else .publish frame }
  | compare (target : Nat) (hpc : s.main = .compare target) :
      MainMove t s
        { s with main := if t.endFrame < s.currentFrame then .clamp target else .publish target }
  | clamp (target : Nat) (hpc : s.main = .clamp target) :
      MainMove t s { s with currentFrame := t.endFrame, main := .publish target }
  | publish (target : Nat) (hpc : s.main = .publish target) :
      MainMove t s
        { s with
          mtSeekFrame := s.currentFrame
          command := .seek
          main := .wake target
          sought := none }
  | wake (target : Nat) (hpc : s.main = .wake target) :
      MainMove t s { s with process := s.process.wake, main := .await target }
  | await (target : Nat) (hpc : s.main = .await target) (hdone : s.command = .seekDone) :
      MainMove t s { s with command := .none, main := .idle, sought := some target }
  | closing (hpc : s.main = .closing) :
      MainMove t s { s with process := s.process.wake, main := .shutting }
  | shutting (hpc : s.main = .shutting) :
      MainMove t s { s with process := s.process.shutDown, main := .closed }

theorem mainStep_move (h : s.mainStep t = some s') : MainMove t s s' := by
  unfold Handshake.mainStep at h
  cases hpc : s.main with
  | idle | closed =>
    simp only [hpc] at h
    cases h
  | assign frame clamped =>
    simp only [hpc] at h
    cases h
    exact .assign frame clamped hpc
  | compare target =>
    simp only [hpc] at h
    cases h
    exact .compare target hpc
  | clamp target =>
    simp only [hpc] at h
    cases h
    exact .clamp target hpc
  | publish target =>
    simp only [hpc] at h
    split at h
    · cases h
    · cases h
      exact .publish target hpc
  | wake target =>
    simp only [hpc] at h
    cases h
    exact .wake target hpc
  | await target =>
    simp only [hpc] at h
    split at h
    · cases h
    · split at h
      · next hdone =>
        cases h
        exact .await target hpc hdone
      · cases h
  | closing =>
    simp only [hpc] at h
    cases h
    exact .closing hpc
  | shutting =>
    simp only [hpc] at h
    cases h
    exact .shutting hpc

/-- A call of `sacd_vfs_file_seek` moves the position and knows its first assignment,
or does nothing. -/
theorem beginSeek_cases (t : Track) (s : Handshake) (offset : Int) (whence : Whence) :
    s.beginSeek t offset whence = s ∨ ∃ newPos, s.beginSeek t offset whence =
      { s with
        position := newPos
        main := .assign (seekAssign (sacdVfsFileOpen t) newPos).1
          (seekAssign (sacdVfsFileOpen t) newPos).2 } := by
  unfold Handshake.beginSeek
  split
  · exact Or.inl rfl
  · next newPos _ =>
    split
    · exact Or.inl rfl
    · split
      · exact Or.inl rfl
      · exact Or.inr ⟨newPos.toNat, rfl⟩

/-- No seek waits for an answer. -/
theorem Protocol.quiet (h : Protocol s) (hmain : ∀ target, ¬ s.main.waitsFor target) :
    s.command ≠ .seek ∧ s.command ≠ .seekDone := by
  constructor
  · intro hc
    obtain ⟨target, hw⟩ := h.awaited (Or.inl hc)
    exact hmain target hw
  · intro hc
    obtain ⟨target, hw⟩ := h.awaited (Or.inr hc)
    exact hmain target hw

/-- Outside of an exchange the main thread may go anywhere outside of it. -/
theorem Protocol.moveMain (h : Protocol s) {m : MainPc} (hfrom : ∀ target, ¬ s.main.waitsFor target)
    (hto : ∀ target, ¬ m.waitsFor target) (hs : s'.command = s.command) (hm : s'.main = m)
    (hr : s'.reader = s.reader) : Protocol s' := by
  obtain ⟨hseek, hdone⟩ := h.quiet hfrom
  rw [← hs] at hseek hdone
  refine ⟨fun hc => (hc.elim hseek hdone).elim, fun target hw => ?_, fun hreset => ?_,
    fun hc => (hc.elim hseek hdone).elim⟩
  · rw [hm] at hw
    exact (hto target hw).elim
  · rw [hr] at hreset
    rw [hs]
    exact h.resetting hreset

theorem not_waitsFor {m : MainPc} (hwake : ∀ target, m ≠ .wake target)
    (hawait : ∀ target, m ≠ .await target) (target : Nat) : ¬ m.waitsFor target :=
  fun h => h.elim (hwake target) (hawait target)

theorem Protocol.main (h : Protocol s) (hmove : MainMove t s s') : Protocol s' := by
  cases hmove with
  | assign frame clamped hpc =>
    refine h.moveMain (not_waitsFor ?_ ?_) (not_waitsFor ?_ ?_) rfl rfl rfl <;> intro target <;>
      first | (rw [hpc]; simp) | (split <;> simp)
  | compare target hpc =>
    refine h.moveMain (not_waitsFor ?_ ?_) (not_waitsFor ?_ ?_) rfl rfl rfl <;> intro target <;>
      first | (rw [hpc]; simp) | (split <;> simp)
  | clamp target hpc =>
    refine h.moveMain (not_waitsFor ?_ ?_) (not_waitsFor ?_ ?_) rfl rfl rfl <;> intro target <;>
      simp [hpc]
  | publish target hpc =>
    refine ⟨fun _ => ⟨target, Or.inl rfl⟩, fun _ _ => Or.inl rfl, fun _ => rfl, fun _ => rfl⟩
  | wake target hpc =>
    exact ⟨fun _ => ⟨target, Or.inr rfl⟩, fun _ _ => h.pending target (Or.inl hpc),
      h.resetting, h.unsought⟩
  | await target hpc hdone =>
    refine ⟨fun hc => ?_, fun _ hw => ?_, fun hreset => ?_, fun hc => ?_⟩
    · exact hc.elim nofun nofun
    · exact hw.elim nofun nofun
    · have hseek := h.resetting hreset
      rw [hdone] at hseek
      cases hseek
    · exact hc.elim nofun nofun
  | closing hpc =>
    refine h.moveMain (not_waitsFor ?_ ?_) (not_waitsFor ?_ ?_) rfl rfl rfl <;> intro target <;>
      simp [hpc]
  | shutting hpc =>
    refine h.moveMain (not_waitsFor ?_ ?_) (not_waitsFor ?_ ?_) rfl rfl rfl <;> intro target <;>
      simp [hpc]

theorem Protocol.step (h : Protocol s) {l : Label} (hstep : s.step t l = some s') : Protocol s' := by
  have hidle : s.main = .idle → ∀ target, ¬ s.main.waitsFor target := by
    intro hpc
    apply not_waitsFor <;> intro target <;> simp [hpc]
  cases l with
  | seek offset whence =>
    simp only [Handshake.step] at hstep
    split at hstep
    · next hpc =>
      cases hstep
      rcases beginSeek_cases t s offset whence with he | ⟨newPos, he⟩
      · rw [he]
        exact h
      · rw [he]
        exact h.moveMain (hidle hpc) (not_waitsFor (by simp) (by simp)) rfl rfl rfl
    · cases hstep
  | main => exact h.main (mainStep_move hstep)
  | advance n =>
    simp only [Handshake.step] at hstep
    split at hstep
    · cases hstep
      exact ⟨h.awaited, h.pending, h.resetting, h.unsought⟩
    · cases hstep
  | nextResult =>
    simp only [Handshake.step] at hstep
    split at hstep
    · obtain ⟨r, -, rfl⟩ := Option.map_eq_some_iff.mp hstep
      exact ⟨h.awaited, h.pending, h.resetting, h.unsought⟩
    · cases hstep
  | close =>
    simp only [Handshake.step] at hstep
    split at hstep
    · next hpc =>
      cases hstep
      obtain ⟨hseek, -⟩ := h.quiet (hidle hpc.1)
      exact ⟨fun hc => hc.elim nofun nofun, fun _ hw => hw.elim nofun nofun,
        fun hreset => absurd (h.resetting hreset) hseek, fun hc => hc.elim nofun nofun⟩
    · cases hstep
  | reader ok => exact h.reader (readerStep_move hstep)
  | workerTake =>
    obtain ⟨q, -, rfl⟩ := Option.map_eq_some_iff.mp hstep
    exact ⟨h.awaited, h.pending, h.resetting, h.unsought⟩
  | workerDone i =>
    obtain ⟨q, -, rfl⟩ := Option.map_eq_some_iff.mp hstep
    exact ⟨h.awaited, h.pending, h.resetting, h.unsought⟩

/-! ## Jobs since the last reset -/

/-- The job the reader has in hand. -/
def ReaderPc.carries : ReaderPc → Option Dispatched
  | .dispatch d => some d
  | .enqueue j | .enqueueSentinel j => some j.arg
  | _ => none

/-- The reader has cleared the queue and not yet renumbered it. -/
def ReaderPc.cleared : ReaderPc → Bool
  | .resetFlush _ | .resetWait _ | .resetFinish _ => true
  | _ => false

/-- The jobs of the queue were made since the last reset. -/
def Handshake.Recent (s : Handshake) : Prop :=
  s.process.All (fun d => d.resets = s.resets) (fun d => d.resets = s.resets)

structure Stamped (s : Handshake) : Prop where
  recent : s.Recent
  carried : ∀ d, s.reader.carries = some d → d.resets = s.resets
  empty : s.reader.cleared = true → s.process.input = []
  drained : ∀ place, s.reader = .resetFinish place → s.process.processing = []

/-- Moves that put nothing in the queue and clear nothing. -/
theorem Stamped.stay (h : Stamped s) {pc : ReaderPc} (hcarries : pc.carries = none)
    (hcleared : pc.cleared = false) (hp : s'.process = s.process) (hr : s'.reader = pc)
    (hn : s'.resets = s.resets) : Stamped s' := by
  refine ⟨?_, fun d hd => ?_, fun hc => ?_, fun place hfinish => ?_⟩
  · rw [Handshake.Recent, hp, hn]
    exact h.recent
  · rw [hr, hcarries] at hd
    cases hd
  · rw [hr, hcleared] at hc
    cases hc
  · rw [hr] at hfinish
    rw [hfinish] at hcleared
    cases hcleared

theorem Stamped.reader (h : Stamped s) (hmove : ReaderMove t s s') : Stamped s' := by
  cases hmove with
  | make readAt data hpc =>
    exact ⟨h.recent, fun d hd => by cases hd; rfl, nofun, nofun⟩
  | enter d hpc j q henter =>
    have hd : d.resets = s.resets := h.carried d (by rw [hpc]; rfl)
    obtain ⟨rfl, -⟩ := TpoolProcess.dispatchEnter_some henter
    exact ⟨h.recent.dispatchEnter henter, fun e he => by cases he; exact hd, nofun, nofun⟩
  | enqueue j hpc q hfinish =>
    have hj : j.arg.resets = s.resets := h.carried j.arg (by rw [hpc]; rfl)
    exact ⟨h.recent.dispatchFinish hj hfinish, nofun, nofun, nofun⟩
  | closed j hpc q hfinish =>
    have hj : j.arg.resets = s.resets := h.carried j.arg (by rw [hpc]; rfl)
    exact ⟨h.recent.dispatchFinish hj hfinish, nofun, nofun, nofun⟩
  | sentinel stoppedAt failed hpc j q henter =>
    obtain ⟨rfl, -⟩ := TpoolProcess.dispatchEnter_some henter
    exact ⟨h.recent.dispatchEnter henter, fun e he => by cases he; rfl, nofun, nofun⟩
  | enqueueSentinel j hpc ok q hfinish =>
    have hj : j.arg.resets = s.resets := h.carried j.arg (by rw [hpc]; rfl)
    exact ⟨h.recent.dispatchFinish hj hfinish, nofun, nofun, nofun⟩
  | resetClear place hpc =>
    exact ⟨⟨nofun, h.recent.processing, nofun⟩, nofun, fun _ => rfl, nofun⟩
  | resetFlush place hpc =>
    have hempty : s.process.input = [] := h.empty (by rw [hpc]; rfl)
    exact ⟨⟨h.recent.input, h.recent.processing, h.recent.output⟩, nofun, fun _ => hempty, nofun⟩
  | resetWait place hpc hdrained =>
    exact ⟨h.recent, nofun, fun _ => hdrained.1, fun _ _ => hdrained.2⟩
  | resetFinish place hpc =>
    have hempty : s.process.input = [] := h.empty (by rw [hpc]; rfl)
    have hdone : s.process.processing = [] := h.drained place hpc
    refine ⟨⟨fun j hj => ?_, fun j hj => ?_, nofun⟩, nofun, nofun, nofun⟩
    · change j ∈ s.process.input at hj
      rw [hempty] at hj
      cases hj
    · change j ∈ s.process.processing at hj
      rw [hdone] at hj
      cases hj
  | _ => exact h.stay rfl rfl rfl rfl rfl

/-- What other threads do to the queue keeps its jobs, takes some or finishes some. -/
theorem Stamped.queue (h : Stamped s) {q : TpoolProcess Dispatched Dispatched}
    (hall : q.All (fun d => d.resets = s.resets) (fun d => d.resets = s.resets))
    (hempty : s.process.input = [] → q.input = [])
    (hdone : s.process.input = [] → s.process.processing = [] → q.processing = [])
    (hp : s'.process = q) (hr : s'.reader = s.reader) (hn : s'.resets = s.resets) : Stamped s' := by
  refine ⟨?_, fun d hd => ?_, fun hc => ?_, fun place hfinish => ?_⟩
  · rw [Handshake.Recent, hp, hn]
    exact hall
  · rw [hr] at hd
    rw [hn]
    exact h.carried d hd
  · rw [hr] at hc
    rw [hp]
    exact hempty (h.empty hc)
  · rw [hr] at hfinish
    rw [hp]
    exact hdone (h.empty (by rw [hfinish]; rfl)) (h.drained place hfinish)

theorem Stamped.main (h : Stamped s) (hmove : MainMove t s s') : Stamped s' := by
  have hall := h.recent
  cases hmove with
  | wake target hpc | closing hpc =>
    exact h.queue (q := s.process.wake) ⟨hall.input, hall.processing, hall.output⟩ id
      (fun _ => id) rfl rfl rfl
  | shutting hpc =>
    exact h.queue (q := s.process.shutDown) ⟨hall.input, hall.processing, hall.output⟩ id
      (fun _ => id) rfl rfl rfl
  | _ => exact h.queue hall id (fun _ => id) rfl rfl rfl

theorem Stamped.step (h : Stamped s) {l : Label} (hstep : s.step t l = some s') : Stamped s' := by
  have hall := h.recent
  cases l with
  | seek offset whence =>
    simp only [Handshake.step] at hstep
    split at hstep
    · cases hstep
      rcases beginSeek_cases t s offset whence with he | ⟨newPos, he⟩
      · rw [he]
        exact h
      · rw [he]
        exact h.queue hall id (fun _ => id) rfl rfl rfl
    · cases hstep
  | main => exact h.main (mainStep_move hstep)
  | advance n =>
    simp only [Handshake.step] at hstep
    split at hstep
    · cases hstep
      exact h.queue hall id (fun _ => id) rfl rfl rfl
    · cases hstep
  | nextResult =>
    simp only [Handshake.step] at hstep
    split at hstep
    · obtain ⟨⟨r, q⟩, hnext, rfl⟩ := Option.map_eq_some_iff.mp hstep
      obtain ⟨hinput, hprocessing⟩ := TpoolProcess.nextResult_same hnext
      exact h.queue (hall.nextResult hnext) (fun he => by rw [hinput, he])
        (fun _ he => by rw [hprocessing, he]) rfl rfl rfl
    · cases hstep
  | close =>
    simp only [Handshake.step] at hstep
    split at hstep
    · cases hstep
      exact h.queue hall id (fun _ => id) rfl rfl rfl
    · cases hstep
  | reader ok => exact h.reader (readerStep_move hstep)
  | workerTake =>
    obtain ⟨q, htake, rfl⟩ := Option.map_eq_some_iff.mp hstep
    obtain ⟨j, rest, hinput, -⟩ := TpoolProcess.workerTake_some htake
    refine h.queue (hall.workerTake htake) (fun he => ?_) (fun he => ?_) rfl rfl rfl
    · rw [he] at hinput
      cases hinput
    · rw [he] at hinput
      cases hinput
  | workerDone i =>
    obtain ⟨q, hadd, rfl⟩ := Option.map_eq_some_iff.mp hstep
    obtain ⟨j, hj, hq⟩ := TpoolProcess.addResult_some hadd
    have hdecode : ∀ d : Dispatched, d.resets = s.resets → (d.decode t).resets = s.resets :=
      fun _ hd => hd
    refine h.queue (hall.addResult hdecode hadd) (fun he => ?_) (fun _ he => ?_) rfl rfl rfl
    · rw [hq]
      exact he
    · rw [he] at hj
      cases hj

/-! ## The frame of the seek -/

theorem seekAssign_openedOn {f : VfsFile} (h : f.OpenedOn t) (newPos : Nat) :
    seekAssign f newPos =
      if newPos < (generateDsfHeader t.info).length then (t.startFrame, false)
      else if newPos < t.info.metadataOffset then
        (t.startFrame + (newPos - (generateDsfHeader t.info).length) /
          outputPerAlignment t.channelCount * frameBlockAlignment, true)
      else (t.endFrame, false) := by
  unfold seekAssign
  rw [h.headerSize, h.info, h.start, h.stop]
  rfl

/-- The first statement on `current_frame` already writes the frame the seek is
after: inside the track an aligned frame never lies behind the last one. -/
theorem seekAssign_lt {f : VfsFile} (h : f.OpenedOn t) (newPos : Nat)
    (hclamped : (seekAssign f newPos).2 = true) : (seekAssign f newPos).1 < t.endFrame := by
  have hmeta := t.info_metadataOffset
  rw [seekAssign_openedOn h] at hclamped ⊢
  by_cases hhead : newPos < (generateDsfHeader t.info).length
  · rw [if_pos hhead] at hclamped
    cases hclamped
  · rw [if_neg hhead] at hclamped ⊢
    by_cases haudio : newPos < t.info.metadataOffset
    · rw [if_pos haudio]
      exact Nat.add_lt_add_left (alignedFrame_lt (by omega)) t.startFrame
    · rw [if_neg haudio] at hclamped
      cases hclamped

/-- It is the frame a handle without threads goes on from. -/
theorem seekAssign_frame {f : VfsFile} (h : f.OpenedOn t) (newPos : Nat) :
    (repositionAudio f newPos).currentFrame = (seekAssign f newPos).1 := by
  rw [seekAssign_openedOn h]
  rcases repositionAudio_cases h newPos with ⟨hhead, hr⟩ | ⟨hhead, haudio, g, rfl, -, hr⟩ | ⟨hmeta, hr⟩
  · rw [if_pos hhead]
    exact hr.currentFrame
  · rw [if_neg (Nat.not_lt_of_le hhead), if_pos haudio]
    exact hr.currentFrame
  · have hhead := t.info_metadataOffset
    rw [if_neg (by omega), if_neg (by omega)]
    exact hr.currentFrame

/-! ## Aiming -/

/-- The reader goes on alike from either frame. -/
def Leads (t : Track) (n target : Nat) : Prop := n = target ∨ (t.endFrame ≤ n ∧ t.endFrame ≤ target)

theorem Leads.eq {n target : Nat} (h : Leads t n target) (hn : n < t.endFrame) : n = target :=
  h.elim id fun hend => absurd hend.1 (Nat.not_le_of_lt hn)

theorem Leads.ends {n target : Nat} (h : Leads t n target) (hn : t.endFrame ≤ n) :
    t.endFrame ≤ target := h.elim (fun he => he ▸ hn) fun hend => hend.2

/-- The data of the frame. -/
def IsFrameOf (t : Track) (target : Nat) (d : Dispatched) : Prop :=
  d.job.isEof = false ∧ d.readAt = target ∧ t.soundData target = some d.job.compressedData

/-- The frame of the seek, or the sentinel where the track has ended there or the
frame was not to be had. -/
def IsFirst (t : Track) (target : Nat) (d : Dispatched) : Prop :=
  IsFrameOf t target d ∨
    (d.job.isEof = true ∧ (t.endFrame ≤ target ∨ (d.failed = true ∧ d.readAt = target)))

/-- Before anything is in the queue the reader is on its way to the frame. -/
def Ahead (t : Track) (s : Handshake) (target : Nat) : Prop :=
  match s.reader with
  | .loopTest => s.main.writing = none → Leads t s.currentFrame target
  | .checkCommand | .getSoundData =>
    target < t.endFrame ∧ (s.main.writing = none → Leads t s.currentFrame target)
  | .makeJob readAt data => readAt = target ∧ t.soundData target = some data
  | .dispatch d => IsFrameOf t target d
  | .enqueue j => IsFrameOf t target j.arg
  | .dispatchFailed readAt => readAt = target
  | .increment => False
  | .sentinel stoppedAt failed => t.endFrame ≤ target ∨ (failed = true ∧ stoppedAt = target)
  | .enqueueSentinel j => IsFirst t target j.arg
  | .wait | .exited | .resetClear _ | .resetFlush _ | .resetWait _ | .resetFinish _
  | .restart _ => True

/-- The seek for this frame was the last to be answered. -/
def Handshake.Answered (s : Handshake) (target : Nat) : Prop :=
  s.sought = some target ∨ (s.command = .seekDone ∧ s.main.waitsFor target)

theorem Handshake.Answered.sought {target : Nat} (h : s.Answered target)
    (hmain : ¬ s.main.waitsFor target) : s.sought = some target :=
  h.elim id fun hdone => absurd hdone.2 hmain

/-- The first job since the last reset is for the frame, or the reader is on its way. -/
structure Tracks (t : Track) (s : Handshake) (target : Nat) : Prop where
  first : ∀ d, s.dispatched.head? = some d → IsFirst t target d
  ahead : s.dispatched = [] → Ahead t s target

structure Aimed (t : Track) (s : Handshake) : Prop where
  assigned : ∀ frame, s.main = .assign frame true → frame < t.endFrame
  compared : ∀ target, s.main = .compare target → target < t.endFrame
  unclamped : ∀ target, s.main ≠ .clamp target
  written : ∀ target, s.main.writing = some target → Leads t s.currentFrame target
  published : ∀ target, s.main.waitsFor target → s.command = .seek → Leads t s.mtSeekFrame target
  started : s.reader = .increment → s.dispatched ≠ []
  restarted : ∀ place, s.reader = .restart place → s.dispatched = []
  tracks : ∀ target, s.Answered target → Tracks t s target

/-- The reader leaves `current_frame` alone while a seek has written it and not yet
copied it: it does not count on towards another frame, nor take the first frame
after an earlier seek from it. -/
def Quiet (t : Track) (s : Handshake) : Label → Prop
  | .reader _ => ∀ target, s.main.writing = some target →
      (s.reader = .increment → t.endFrame ≤ target) ∧
        (s.sought ≠ none → s.dispatched = [] → s.reader ≠ .loopTest ∧ s.reader ≠ .getSoundData)
  | _ => True

instance (t : Track) (s : Handshake) (l : Label) : Decidable (Quiet t s l) := by
  cases l with
  | reader ok =>
    exact inferInstanceAs (Decidable (∀ target ∈ s.main.writing,
      (s.reader = .increment → t.endFrame ≤ target) ∧
        (s.sought ≠ none → s.dispatched = [] → s.reader ≠ .loopTest ∧ s.reader ≠ .getSoundData)))
  | _ => exact inferInstanceAs (Decidable True)

theorem MainPc.waitsFor.not_writing {m : MainPc} {target : Nat} (h : m.waitsFor target) :
    m.writing = none := by
  rcases h with rfl | rfl <;> rfl

/-- Where the reader takes a frame for the first time no seek has written another. -/
theorem not_writing {ok : Bool} (hq : Quiet t s (.reader ok)) {target : Nat}
    (ha : s.Answered target) (hnone : s.dispatched = [])
    (hpc : s.reader = .loopTest ∨ s.reader = .getSoundData) : s.main.writing = none := by
  cases hw : s.main.writing with
  | none => rfl
  | some other =>
    rcases ha with hsought | ⟨-, hwaits⟩
    · obtain ⟨htest, hread⟩ := (hq other hw).2 (by rw [hsought]; exact nofun) hnone
      exact (hpc.elim htest hread).elim
    · rw [hwaits.not_writing] at hw
      cases hw

/-- What the reader is about to do depends on the main thread through the frame only. -/
theorem Ahead.move {target : Nat} (h : Ahead t s target) (hr : s'.reader = s.reader)
    (hlead : (s.main.writing = none → Leads t s.currentFrame target) →
      s'.main.writing = none → Leads t s'.currentFrame target) : Ahead t s' target := by
  unfold Ahead at h ⊢
  rw [hr]
  cases hpc : s.reader with
  | loopTest =>
    simp only [hpc] at h
    exact hlead h
  | checkCommand | getSoundData =>
    simp only [hpc] at h
    exact ⟨h.1, hlead h.2⟩
  | increment => simp only [hpc] at h
  | _ =>
    simp only [hpc] at h
    exact h

theorem Tracks.append {target : Nat} (h : Tracks t s target) {d : Dispatched}
    (hd : s.dispatched = [] → IsFirst t target d) (hs : s'.dispatched = s.dispatched ++ [d]) :
    Tracks t s' target := by
  refine ⟨fun e he => ?_, fun hnone => ?_⟩
  · rw [hs] at he
    cases hlist : s.dispatched with
    | nil =>
      rw [hlist] at he
      cases he
      exact hd hlist
    | cons first rest =>
      rw [hlist] at he
      exact h.first e (by rw [hlist]; exact he)
  · rw [hs] at hnone
    exact absurd hnone (by simp)

/-- A move of the reader that leaves the frames and the command as they are. -/
theorem Aimed.onward (h : Aimed t s) {pc : ReaderPc} (hr : s'.reader = pc)
    (hm : s'.main = s.main) (hc : s'.command = s.command) (hf : s'.currentFrame = s.currentFrame)
    (hp : s'.mtSeekFrame = s.mtSeekFrame) (hs : s'.sought = s.sought)
    (hstarted : pc = .increment → s'.dispatched ≠ [])
    (hrestarted : ∀ place, pc = .restart place → s'.dispatched = [])
    (htracks : ∀ target, s.Answered target → Tracks t s target → Tracks t s' target) :
    Aimed t s' := by
  refine ⟨?_, ?_, ?_, ?_, ?_, ?_, ?_, ?_⟩
  · rw [hm]
    exact h.assigned
  · rw [hm]
    exact h.compared
  · rw [hm]
    exact h.unclamped
  · rw [hm, hf]
    exact h.written
  · rw [hm, hc, hp]
    exact h.published
  · rw [hr]
    exact hstarted
  · rw [hr]
    exact hrestarted
  · intro target ha
    have ha' : s.Answered target := by
      unfold Handshake.Answered at ha ⊢
      rw [hs, hc, hm] at ha
      exact ha
    exact htracks target ha' (h.tracks target ha')

/-- A move of the reader that puts nothing in the queue. -/
theorem Aimed.approach (h : Aimed t s) {pc : ReaderPc} (hr : s'.reader = pc)
    (hm : s'.main = s.main) (hc : s'.command = s.command) (hf : s'.currentFrame = s.currentFrame)
    (hp : s'.mtSeekFrame = s.mtSeekFrame) (hs : s'.sought = s.sought)
    (hd : s'.dispatched = s.dispatched) (hincrement : pc ≠ .increment)
    (hrestart : ∀ place, pc ≠ .restart place)
    (hahead : ∀ target, s.Answered target → s.dispatched = [] → Ahead t s target →
      Ahead t s' target) : Aimed t s' := by
  refine h.onward hr hm hc hf hp hs (fun he => absurd he hincrement)
    (fun place he => absurd he (hrestart place)) fun target ha htracks => ⟨?_, fun hnone => ?_⟩
  · rw [hd]
    exact htracks.first
  · rw [hd] at hnone
    exact hahead target ha hnone (htracks.ahead hnone)

theorem Aimed.reader (h : Aimed t s) (hp : Protocol s) {ok : Bool} (hq : Quiet t s (.reader ok))
    (hmove : ReaderMove t s s') : Aimed t s' := by
  cases hmove with
  | test hpc hlt =>
    refine h.approach rfl rfl rfl rfl rfl rfl rfl nofun nofun fun target ha hnone hahead => ?_
    simp only [Ahead, hpc] at hahead
    have hlead := hahead (not_writing hq ha hnone (Or.inl hpc))
    exact ⟨hlead.eq hlt ▸ hlt, fun _ => hlead⟩
  | testEnd hpc hge =>
    refine h.approach rfl rfl rfl rfl rfl rfl rfl nofun nofun fun target ha hnone hahead => ?_
    simp only [Ahead, hpc] at hahead
    exact Or.inl ((hahead (not_writing hq ha hnone (Or.inl hpc))).ends hge)
  | goOn hpc =>
    refine h.approach rfl rfl rfl rfl rfl rfl rfl nofun nofun fun target ha hnone hahead => ?_
    simp only [Ahead, hpc] at hahead
    exact hahead
  | exit => exact h.approach rfl rfl rfl rfl rfl rfl rfl nofun nofun fun _ _ _ _ => trivial
  | notice place hseek =>
    exact h.approach rfl rfl rfl rfl rfl rfl rfl nofun nofun fun _ _ _ _ => trivial
  | unread hpc =>
    refine h.approach rfl rfl rfl rfl rfl rfl rfl nofun nofun fun target ha hnone hahead => ?_
    simp only [Ahead, hpc] at hahead
    have hlead := hahead.2 (not_writing hq ha hnone (Or.inr hpc))
    rcases hlead with heq | hends
    · exact Or.inr ⟨rfl, heq⟩
    · exact Or.inl hends.2
  | read hpc data hdata =>
    refine h.approach rfl rfl rfl rfl rfl rfl rfl nofun nofun fun target ha hnone hahead => ?_
    simp only [Ahead, hpc] at hahead
    have hlead := hahead.2 (not_writing hq ha hnone (Or.inr hpc))
    have heq : s.currentFrame = target :=
      hlead.elim id fun hends => absurd hends.2 (Nat.not_le_of_lt hahead.1)
    exact ⟨heq, heq ▸ hdata⟩
  | unmade readAt data hpc =>
    refine h.approach rfl rfl rfl rfl rfl rfl rfl nofun nofun fun target ha hnone hahead => ?_
    simp only [Ahead, hpc] at hahead
    exact Or.inr ⟨rfl, hahead.1⟩
  | make readAt data hpc =>
    refine h.approach rfl rfl rfl rfl rfl rfl rfl nofun nofun fun target ha hnone hahead => ?_
    simp only [Ahead, hpc] at hahead
    exact ⟨rfl, hahead.1, hahead.2⟩
  | enter d hpc j q henter =>
    obtain ⟨rfl, -⟩ := TpoolProcess.dispatchEnter_some henter
    refine h.approach rfl rfl rfl rfl rfl rfl rfl nofun nofun fun target ha hnone hahead => ?_
    simp only [Ahead, hpc] at hahead
    exact hahead
  | refused d hpc =>
    refine h.approach rfl rfl rfl rfl rfl rfl rfl nofun nofun fun target ha hnone hahead => ?_
    simp only [Ahead, hpc] at hahead
    exact hahead.2.1
  | enqueue j hpc q hfinish =>
    refine h.onward rfl rfl rfl rfl rfl rfl (fun _ => by simp) nofun fun target ha htracks => ?_
    refine htracks.append (fun hnone => ?_) rfl
    have hahead := htracks.ahead hnone
    simp only [Ahead, hpc] at hahead
    exact Or.inl hahead
  | closed j hpc q hfinish =>
    refine h.approach rfl rfl rfl rfl rfl rfl rfl nofun nofun fun target ha hnone hahead => ?_
    simp only [Ahead, hpc] at hahead
    exact hahead.2.1
  | undispatched readAt hpc =>
    refine h.approach rfl rfl rfl rfl rfl rfl rfl nofun nofun fun target ha hnone hahead => ?_
    simp only [Ahead, hpc] at hahead
    exact Or.inr ⟨rfl, hahead⟩
  | increment hpc =>
    have hsome := h.started hpc
    refine ⟨h.assigned, h.compared, h.unclamped, fun target hw => ?_, h.published, nofun, nofun,
      fun target ha => ⟨(h.tracks target ha).first, fun hnone => absurd hnone hsome⟩⟩
    have hend := (hq target hw).1 hpc
    have hlead := h.written target hw
    have hcur : t.endFrame ≤ s.currentFrame := hlead.elim (fun heq => heq ▸ hend) And.left
    exact Or.inr ⟨Nat.le_succ_of_le hcur, hend⟩
  | sentinel stoppedAt failed hpc j q henter =>
    obtain ⟨rfl, -⟩ := TpoolProcess.dispatchEnter_some henter
    refine h.approach rfl rfl rfl rfl rfl rfl rfl nofun nofun fun target ha hnone hahead => ?_
    simp only [Ahead, hpc] at hahead
    exact Or.inr ⟨rfl, hahead⟩
  | noSentinel stoppedAt failed hpc =>
    exact h.approach rfl rfl rfl rfl rfl rfl rfl nofun nofun fun _ _ _ _ => trivial
  | enqueueSentinel j hpc ok q hfinish =>
    refine h.onward rfl rfl rfl rfl rfl rfl nofun nofun fun target ha htracks => ?_
    refine htracks.append (fun hnone => ?_) rfl
    have hahead := htracks.ahead hnone
    simp only [Ahead, hpc] at hahead
    exact hahead
  | resetClear place hpc =>
    exact h.approach rfl rfl rfl rfl rfl rfl rfl nofun nofun fun _ _ _ _ => trivial
  | resetFlush place hpc =>
    exact h.approach rfl rfl rfl rfl rfl rfl rfl nofun nofun fun _ _ _ _ => trivial
  | resetWait place hpc hdrained =>
    exact h.approach rfl rfl rfl rfl rfl rfl rfl nofun nofun fun _ _ _ _ => trivial
  | resetFinish place hpc =>
    exact h.onward rfl rfl rfl rfl rfl rfl nofun (fun _ _ => rfl) fun target ha htracks =>
      ⟨nofun, fun _ => trivial⟩
  | restart place hpc =>
    have hseek : s.command = .seek := hp.resetting (by rw [hpc]; rfl)
    have hnone : s.dispatched = [] := h.restarted place hpc
    obtain ⟨waiting, hwaiting⟩ := hp.awaited (Or.inl hseek)
    refine ⟨h.assigned, h.compared, h.unclamped, fun target hw => ?_, nofun, nofun, nofun,
      fun target ha => ⟨fun d hd => ?_, fun _ _ => ?_⟩⟩
    · rw [show s.main.writing = none from hwaiting.not_writing] at hw
      cases hw
    · change s.dispatched.head? = some d at hd
      rw [hnone] at hd
      cases hd
    · rcases ha with hsought | ⟨-, hwaits⟩
      · change s.sought = some target at hsought
        rw [hp.unsought (Or.inl hseek)] at hsought
        cases hsought
      · exact h.published target hwaits hseek

/-- Nothing the exchange is about changes. -/
theorem Aimed.same (h : Aimed t s) (hm : s'.main = s.main) (hc : s'.command = s.command)
    (hf : s'.currentFrame = s.currentFrame) (hp : s'.mtSeekFrame = s.mtSeekFrame)
    (hr : s'.reader = s.reader) (hd : s'.dispatched = s.dispatched) (hs : s'.sought = s.sought) :
    Aimed t s' := by
  refine h.onward hr hm hc hf hp hs (fun he => ?_) (fun place he => ?_) fun target _ htracks =>
    ⟨?_, fun hnone => ?_⟩
  · rw [hd]
    exact h.started he
  · rw [hd]
    exact h.restarted place he
  · rw [hd]
    exact htracks.first
  · rw [hd] at hnone
    exact (htracks.ahead hnone).move hr fun hlead hw => by
      rw [hm] at hw
      rw [hf]
      exact hlead hw

theorem Tracks.move {target : Nat} (h : Tracks t s target) (hr : s'.reader = s.reader)
    (hd : s'.dispatched = s.dispatched)
    (hlead : (s.main.writing = none → Leads t s.currentFrame target) →
      s'.main.writing = none → Leads t s'.currentFrame target) : Tracks t s' target := by
  refine ⟨?_, fun hnone => ?_⟩
  · rw [hd]
    exact h.first
  · rw [hd] at hnone
    exact (h.ahead hnone).move hr hlead

theorem Aimed.main (h : Aimed t s) (hmove : MainMove t s s') : Aimed t s' := by
  cases hmove with
  | assign frame clamped hpc =>
    cases clamped with
    | true =>
      refine ⟨nofun, fun target he => ?_, nofun, fun target hw => ?_, fun target hw => ?_,
        h.started, h.restarted, fun target ha => ?_⟩
      · cases he
        exact h.assigned frame hpc
      · cases hw
        exact Or.inl rfl
      · exact hw.elim nofun nofun
      · exact (h.tracks target (Or.inl (ha.sought (by simp [MainPc.waitsFor])))).move rfl rfl nofun
    | false =>
      refine ⟨nofun, nofun, nofun, fun target hw => ?_, fun target hw => ?_,
        h.started, h.restarted, fun target ha => ?_⟩
      · cases hw
        exact Or.inl rfl
      · exact hw.elim nofun nofun
      · exact (h.tracks target (Or.inl (ha.sought (by simp [MainPc.waitsFor])))).move rfl rfl nofun
  | compare target hpc =>
    have hlt := h.compared target hpc
    have hlead := h.written target (by rw [hpc]; rfl)
    have hcur : ¬ t.endFrame < s.currentFrame := fun hgt =>
      absurd (hlead.ends (Nat.le_of_lt hgt)) (Nat.not_le_of_lt hlt)
    rw [if_neg hcur]
    refine ⟨nofun, nofun, nofun, fun other hw => ?_, fun other hw => ?_, h.started, h.restarted,
      fun other ha => ?_⟩
    · cases hw
      exact hlead
    · exact hw.elim nofun nofun
    · exact (h.tracks other (Or.inl (ha.sought (by simp [MainPc.waitsFor])))).move rfl rfl nofun
  | clamp target hpc => exact absurd hpc (h.unclamped target)
  | publish target hpc =>
    refine ⟨nofun, nofun, nofun, nofun, fun other hw _ => ?_, h.started, h.restarted,
      fun other ha => ?_⟩
    · rcases hw with he | he
      · cases he
        exact h.written target (by rw [hpc]; rfl)
      · cases he
    · exact ha.elim nofun fun hdone => nomatch hdone.1
  | wake target hpc =>
    have hwaits : ∀ other, (MainPc.await target).waitsFor other → s.main.waitsFor other := by
      intro other hw
      rcases hw with he | he
      · cases he
      · cases he
        exact Or.inl hpc
    refine ⟨nofun, nofun, nofun, nofun, fun other hw hseek => h.published other (hwaits other hw) hseek,
      h.started, h.restarted, fun other ha => ?_⟩
    exact (h.tracks other (ha.imp id fun hw => ⟨hw.1, hwaits other hw.2⟩)).move rfl rfl
      fun hlead _ => hlead (by rw [hpc]; rfl)
  | await target hpc hdone =>
    refine ⟨nofun, nofun, nofun, nofun, fun other hw => ?_, h.started, h.restarted,
      fun other ha => ?_⟩
    · exact hw.elim nofun nofun
    · rcases ha with hsought | hw
      · cases hsought
        exact (h.tracks target (Or.inr ⟨hdone, Or.inr hpc⟩)).move rfl rfl
          fun hlead _ => hlead (by rw [hpc]; rfl)
      · exact absurd hw.2 (by simp [MainPc.waitsFor])
  | closing hpc | shutting hpc =>
    refine ⟨nofun, nofun, nofun, nofun, fun other hw => ?_, h.started, h.restarted,
      fun other ha => ?_⟩
    · exact hw.elim nofun nofun
    · exact (h.tracks other (Or.inl (ha.sought (by simp [MainPc.waitsFor])))).move rfl rfl
        fun hlead _ => hlead (by rw [hpc]; rfl)

theorem Aimed.step (h : Aimed t s) (hp : Protocol s) {l : Label} (hq : Quiet t s l)
    (hstep : s.step t l = some s') : Aimed t s' := by
  cases l with
  | seek offset whence =>
    simp only [Handshake.step] at hstep
    split at hstep
    · next hpc =>
      cases hstep
      rcases beginSeek_cases t s offset whence with he | ⟨newPos, he⟩
      · rw [he]
        exact h
      · rw [he]
        refine ⟨fun frame ha => ?_, nofun, nofun, nofun, fun target hw => ?_, h.started,
          h.restarted, fun target ha => ?_⟩
        · have hlt := seekAssign_lt (sacdVfsFileOpen_openedOn t) newPos
          simp only [MainPc.assign.injEq] at ha
          rw [ha.1] at hlt
          exact hlt ha.2
        · exact hw.elim nofun nofun
        · exact (h.tracks target (Or.inl (ha.sought (by simp [MainPc.waitsFor])))).move rfl rfl
            fun hlead _ => hlead (by rw [hpc]; rfl)
    · cases hstep
  | main => exact h.main (mainStep_move hstep)
  | advance n =>
    simp only [Handshake.step] at hstep
    split at hstep
    · cases hstep
      exact h.same rfl rfl rfl rfl rfl rfl rfl
    · cases hstep
  | nextResult =>
    simp only [Handshake.step] at hstep
    split at hstep
    · obtain ⟨r, -, rfl⟩ := Option.map_eq_some_iff.mp hstep
      exact h.same rfl rfl rfl rfl rfl rfl rfl
    · cases hstep
  | close =>
    simp only [Handshake.step] at hstep
    split at hstep
    · next hpc =>
      cases hstep
      refine ⟨nofun, nofun, nofun, nofun, fun target hw => ?_, h.started, h.restarted,
        fun target ha => ?_⟩
      · exact hw.elim nofun nofun
      · exact (h.tracks target (Or.inl (ha.sought (by simp [MainPc.waitsFor])))).move rfl rfl
          fun hlead _ => hlead (by rw [hpc.1]; rfl)
    · cases hstep
  | reader ok => exact h.reader hp hq (readerStep_move hstep)
  | workerTake =>
    obtain ⟨q, -, rfl⟩ := Option.map_eq_some_iff.mp hstep
    exact h.same rfl rfl rfl rfl rfl rfl rfl
  | workerDone i =>
    obtain ⟨q, -, rfl⟩ := Option.map_eq_some_iff.mp hstep
    exact h.same rfl rfl rfl rfl rfl rfl rfl

/-! ## Runs -/

/-- After a seek that has returned: the queue holds jobs made since the reset, and
the first of these is for the frame of the seek. -/
def Handshake.Sought (t : Track) (s : Handshake) : Prop :=
  ∀ target, s.sought = some target →
    s.Recent ∧ ∀ d, s.dispatched.head? = some d → IsFirst t target d

/-- In every run in which the reader leaves a written frame alone, seeks find what
they asked for. -/
theorem seeks_find_target (t : Track) (qsize : Nat) (ls : List Label) (s : Handshake)
    (hquiet : Along (Handshake.step t) (Quiet t) (Handshake.start t qsize) ls)
    (hrun : run (Handshake.step t) (Handshake.start t qsize) ls = some s) : s.Sought t := by
  have hprotocol : Protocol (Handshake.start t qsize) :=
    ⟨fun hc => hc.elim nofun nofun, fun _ hw => hw.elim nofun nofun, nofun, fun _ => rfl⟩
  have hstamped : Stamped (Handshake.start t qsize) := ⟨⟨nofun, nofun, nofun⟩, nofun, nofun, nofun⟩
  have haimed : Aimed t (Handshake.start t qsize) :=
    ⟨nofun, nofun, nofun, nofun, fun _ hw => hw.elim nofun nofun, nofun, nofun,
      fun _ ha => ha.elim nofun fun hw => nomatch hw.1⟩
  have hall := run_invariant (P := Quiet t)
    (I := fun s => Protocol s ∧ Stamped s ∧ Aimed t s)
    (fun s l s' hI hq hstep => ⟨hI.1.step hstep, hI.2.1.step hstep, hI.2.2.step hI.1 hq hstep⟩)
    ⟨hprotocol, hstamped, haimed⟩ hquiet hrun
  intro target hsought
  exact ⟨hall.2.1.recent, (hall.2.2.tracks target (Or.inl hsought)).first⟩

/-- Two stereo DST frames. -/
def twoFrameTrack : Track :=
  { channelCount := 2
    channelCount_pos := Nat.zero_lt_two
    sampleRate := 2822400
    frameFormat := .dst
    startFrame := 0
    frameCount := 2
    soundData := fun _ => some [1]
    dstDecode := fun _ => none
    id3Tag := none }

/-- The reader dispatches frame 0, notices a seek to it and dispatches it again. -/
def calmSeek : List Label :=
  List.replicate 7 (.reader true) ++ [.seek 92 .set, .main, .main, .main, .main] ++
    List.replicate 7 (.reader true) ++ [.main] ++ List.replicate 6 (.reader true)

theorem seeks_find_target_calm : ∃ s : Handshake, s.sought = some 0 ∧ s.dispatched ≠ [] ∧
    s.Sought twoFrameTrack :=
  ⟨(run (Handshake.step twoFrameTrack) (Handshake.start twoFrameTrack 8) calmSeek).get (by decide),
    by decide, by decide, seeks_find_target twoFrameTrack 8 calmSeek _ (by decide) (by simp)⟩

/-- The same calls, with the reader counting on between the assignment of the seek
and its copy. -/
def racedSeek : List Label :=
  List.replicate 6 (.reader true) ++ [.seek 92 .set, .main, .reader true, .main, .main, .main] ++
    List.replicate 7 (.reader true) ++ [.main] ++ List.replicate 6 (.reader true)

/-- The seek to frame 0 returns and the first job is for frame 1. -/
theorem seeks_find_other_frame :
    ¬ ∀ t qsize ls s, run (Handshake.step t) (Handshake.start t qsize) ls = some s → s.Sought t := by
  intro h
  have hrun := Option.some_get (x := run (Handshake.step twoFrameTrack)
    (Handshake.start twoFrameTrack 8) racedSeek) (by decide)
  obtain ⟨-, hfirst⟩ := h twoFrameTrack 8 racedSeek _ hrun.symm 0 (by decide)
  rcases hfirst ⟨Job.frame 1 [1], 1, false, 1⟩ (by decide) with ⟨-, hread, -⟩ | ⟨heof, -⟩
  · cases hread
  · cases heof

end DsdNexus.Vfs
