import DsdNexus.Lib.Transition
import DsdNexus.Util.Tpool
import DsdNexus.Vfs.Pipeline
import DsdNexus.Vfs.RandomAccess

/-! # The exchange of a seek with the reader thread

The main thread in `sacd_vfs_file_seek` and the reader in `_vfs_reader_thread`
step one statement, or one block under a lock, at a time over the fields they
share; the workers take and finish jobs in between. The seek writes
`current_frame` before it takes the lock and copies it under the lock, and the
reader goes on counting the same field until it notices the command.
-/

namespace DsdNexus.Vfs

open Util Transition

/-! ## The shared state -/

/-- `vfs_mt_cmd_t`. -/
inductive Command where
  | none | seek | seekDone | close
  deriving DecidableEq, Repr

/-- A job of the reader, with the frame the reader was at, whether it is the
sentinel after a failure there, and the number of resets before it was made. -/
structure Dispatched where
  job : Job
  readAt : Nat
  failed : Bool
  resets : Nat
  deriving DecidableEq, Repr

/-- What a worker makes of it. -/
def Dispatched.decode (t : Track) (d : Dispatched) : Dispatched :=
  { d with job := vfsDstDecodeFunc t d.job }

/-- The next statement of the main thread; from the assignment on the seek knows
the frame it is after. -/
inductive MainPc where
  | idle
  | assign (frame : Nat) (clamped : Bool)
  | compare (target : Nat)
  | clamp (target : Nat)
  | publish (target : Nat)
  | wake (target : Nat)
  | await (target : Nat)
  | closing
  | shutting
  | closed
  deriving DecidableEq, Repr

/-- Where the reader noticed the command. -/
inductive Noticed where
  | loopHead | failedDispatch | eofWait
  deriving DecidableEq, Repr

/-- The next statement of the reader thread. -/
inductive ReaderPc where
  | loopTest
  | checkCommand
  | getSoundData
  | makeJob (readAt : Nat) (data : Bytes)
  | dispatch (d : Dispatched)
  | enqueue (j : TpoolJob Dispatched)
  | dispatchFailed (readAt : Nat)
  | increment
  | sentinel (stoppedAt : Nat) (failed : Bool)
  | enqueueSentinel (j : TpoolJob Dispatched)
  | wait
  | resetClear (place : Noticed)
  | resetFlush (place : Noticed)
  | resetWait (place : Noticed)
  | resetFinish (place : Noticed)
  | restart (place : Noticed)
  | exited
  deriving DecidableEq, Repr

/-- The fields the threads share and where they are. The last three record what
happened: the resets, the jobs put in the queue since the last of them, and the
frame of the last seek that returned, until the next one is published. -/
structure Handshake where
  position : Nat
  currentFrame : Nat
  mtSeekFrame : Nat
  command : Command
  process : TpoolProcess Dispatched Dispatched
  main : MainPc
  reader : ReaderPc
  resets : Nat
  dispatched : List Dispatched
  sought : Option Nat
  deriving DecidableEq, Repr

inductive Label where
  | seek (offset : Int) (whence : Whence)
  | main
  | advance (n : Nat)
  | nextResult
  | close
  | reader (ok : Bool)
  | workerTake
  | workerDone (i : Nat)
  deriving DecidableEq, Repr

/-- The reader waits for commands with the command lock held, and resets under it. -/
def ReaderPc.holdsCommand : ReaderPc → Bool
  | .resetClear .eofWait | .resetFlush .eofWait | .resetWait .eofWait | .resetFinish .eofWait
  | .restart .eofWait => true
  | _ => false

/-! ## The main thread -/

def Track.endFrame (t : Track) : Nat := t.startFrame + t.frameCount

/-- The first value the seek assigns to `current_frame`, and whether the
comparison with `end_frame` follows. -/
def seekAssign (f : VfsFile) (newPos : Nat) : Nat × Bool :=
  if newPos < f.dsfHeaderSize then (f.startFrame, false)
  else if newPos < f.info.metadataOffset then
    (f.startFrame + (newPos - f.dsfHeaderSize) / outputPerAlignment f.info.channelCount *
      frameBlockAlignment, true)
  else (f.endFrame, false)

/-- `sacd_vfs_file_seek` up to the first statement on a shared field. -/
def Handshake.beginSeek (t : Track) (s : Handshake) (offset : Int) (whence : Whence) : Handshake :=
  match seekTarget s.position t.info.totalSize offset whence with
  | none => s
  | some newPos =>
    if newPos < 0 then s
    else if newPos.toNat = s.position then s
    else
      let first := seekAssign (sacdVfsFileOpen t) newPos.toNat
      { s with position := newPos.toNat, main := .assign first.1 first.2 }

/-- The next statement of the main thread, in a seek or a close. -/
def Handshake.mainStep (t : Track) (s : Handshake) : Option Handshake :=
  match s.main with
  | .idle | .closed => none
  | .assign frame clamped =>
    some { s with
      currentFrame := frame
      main := if clamped then .compare frame else .publish frame }
  | .compare target =>
    some { s with main := if t.endFrame < s.currentFrame then .clamp target else .publish target }
  | .clamp target => some { s with currentFrame := t.endFrame, main := .publish target }
  | .publish target =>
    if s.reader.holdsCommand then none
    else some { s with
      mtSeekFrame := s.currentFrame
      command := .seek
      main := .wake target
      sought := none }
  | .wake target => some { s with process := s.process.wake, main := .await target }
  | .await target =>
    if s.reader.holdsCommand then none
    else if s.command = .seekDone then
      some { s with command := .none, main := .idle, sought := some target }
    else none
  | .closing => some { s with process := s.process.wake, main := .shutting }
  | .shutting => some { s with process := s.process.shutDown, main := .closed }

/-! ## The reader thread -/

/-- The loop of `_vfs_reader_thread` is left at a failure. -/
def Handshake.giveUp (s : Handshake) (frame : Nat) : Handshake :=
  { s with reader := .sentinel frame true }

/-- A command is looked at where it was noticed; without one the reader goes on to `next`. -/
def Handshake.obey (s : Handshake) (place : Noticed) (next : Handshake) : Handshake :=
  match s.command with
  | .close => { s with reader := .exited }
  | .seek => { s with reader := .resetClear place }
  | .none | .seekDone => next

/-- The next statement of the reader; `ok` is false where an allocation in it fails. -/
def Handshake.readerStep (t : Track) (s : Handshake) (ok : Bool) : Option Handshake :=
  match s.reader with
  | .loopTest =>
    some { s with
      reader := if s.currentFrame < t.endFrame then .checkCommand
        else .sentinel s.currentFrame false }
  | .checkCommand => some (s.obey .loopHead { s with reader := .getSoundData })
  | .getSoundData =>
    match t.soundData s.currentFrame with
    | none => some (s.giveUp s.currentFrame)
    | some data => some { s with reader := .makeJob s.currentFrame data }
  | .makeJob readAt data =>
    if ok then
      some { s with
        reader := .dispatch ⟨Job.frame s.currentFrame data, readAt, false, s.resets⟩ }
    else some (s.giveUp readAt)
  | .dispatch d =>
    if ok then
      (s.process.dispatchEnter d .wait).map fun r =>
        { s with process := r.2, reader := .enqueue r.1 }
    else some { s with reader := .dispatchFailed d.readAt }
  | .enqueue j =>
    (s.process.dispatchFinish j .wait).map fun r =>
      if r.1 then
        { s with process := r.2, reader := .increment, dispatched := s.dispatched ++ [j.arg] }
      else { s with process := r.2, reader := .dispatchFailed j.arg.readAt }
  | .dispatchFailed readAt => some (s.obey .failedDispatch (s.giveUp readAt))
  | .increment => some { s with currentFrame := s.currentFrame + 1, reader := .loopTest }
  | .sentinel stoppedAt failed =>
    if ok then
      (s.process.dispatchEnter ⟨Job.sentinel, stoppedAt, failed, s.resets⟩ .force).map fun r =>
        { s with process := r.2, reader := .enqueueSentinel r.1 }
    else some { s with reader := .wait }
  | .enqueueSentinel j =>
    (s.process.dispatchFinish j .force).map fun r =>
      { s with process := r.2, reader := .wait, dispatched := s.dispatched ++ [j.arg] }
  | .wait =>
    match s.command with
    | .close => some { s with reader := .exited }
    | .seek => some { s with reader := .resetClear .eofWait }
    | .none | .seekDone => none
  | .resetClear place => some { s with process := s.process.resetClear, reader := .resetFlush place }
  | .resetFlush place => some { s with process := s.process.flushRoom, reader := .resetWait place }
  | .resetWait place =>
    if s.process.Drained then some { s with reader := .resetFinish place } else none
  | .resetFinish place =>
    some { s with
      process := s.process.resetFinish
      reader := .restart place
      resets := s.resets + 1
      dispatched := [] }
  | .restart _ =>
    some { s with currentFrame := s.mtSeekFrame, command := .seekDone, reader := .loopTest }
  | .exited => none

/-! ## All threads -/

/-- One step of one thread. -/
def Handshake.step (t : Track) (s : Handshake) : Label → Option Handshake
  | .seek offset whence => if s.main = .idle then some (s.beginSeek t offset whence) else none
  | .main => s.mainStep t
  | .advance n => if s.main = .idle then some { s with position := s.position + n } else none
  | .nextResult =>
    if s.main = .idle then s.process.nextResult.map fun r => { s with process := r.2 } else none
  | .close =>
    if s.main = .idle ∧ s.reader.holdsCommand = false then
      some { s with command := .close, main := .closing }
    else none
  | .reader ok => s.readerStep t ok
  | .workerTake => s.process.workerTake.map fun p => { s with process := p }
  | .workerDone i =>
    (s.process.addResult (Dispatched.decode t) i).map fun p => { s with process := p }

/-- The threads as `sacd_vfs_file_open_mt` starts them. -/
def Handshake.start (t : Track) (qsize : Nat) : Handshake :=
  { position := 0
    currentFrame := t.startFrame
    mtSeekFrame := 0
    command := .none
    process := tpoolProcessInit qsize
    main := .idle
    reader := .loopTest
    resets := 0
    dispatched := []
    sought := none }

end DsdNexus.Vfs
