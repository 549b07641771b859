import DsdNexus.Lib.Transition

/-! # The life of a mount

`sacd_overlay_open`, `sacd_overlay_close` and `sacd_overlay_cleanup_idle` over the table
of mounts. A step is a section under a lock, or what lies between two of them; the
reference count of a mount is incremented outside its lock, by a load and a store.
-/

namespace DsdNexus.Overlay

open Transition

/-- `iso_mount_t`. A context is named by the order of its creation. -/
structure Mount where
  vfs : Option Nat
  refCount : Nat
  lastAccess : Nat
  deriving DecidableEq, Repr

/-- How far an open, the handle it returns or the close of the handle has got; `m` is the
mount and `v` the context of the file. -/
inductive Session where
  | idle
  /-- `_overlay_find_iso_by_vpath` has returned. -/
  | found (m : Nat)
  /-- `_overlay_ensure_iso_mounted` has returned. -/
  | ensured (m v : Nat)
  /-- The file is open and the handle is made. -/
  | opened (m v : Nat)
  /-- The open has read the count. -/
  | loaded (m v n : Nat)
  /-- The open has written it. -/
  | stored (m v : Nat)
  /-- The caller has the handle. -/
  | handle (m v : Nat)
  /-- The close has flushed the handle and closed its file. -/
  | closing (m v : Nat)
  deriving DecidableEq, Repr

inductive SessionEvent where
  /-- The path names the ISO folder itself. -/
  | isDir
  | ensure (opens : Bool)
  | openFile (opens : Bool)
  | load
  | store
  | touch
  | closeFile
  | release
  deriving DecidableEq, Repr

/-- Where a cleanup is: at mount `i`, or past the idle test of mount `i`. -/
inductive Cleaner where
  | idle
  | testing (now i : Nat)
  | doomed (now i : Nat)
  deriving DecidableEq, Repr

/-- The mount a cleanup has found idle and will destroy. -/
def Cleaner.condemned : Cleaner → Option Nat
  | doomed _ i => some i
  | _ => none

/-- When the cleanup has read the clock. -/
def Cleaner.startedAt : Cleaner → Option Nat
  | idle => none
  | testing now _ | doomed now _ => some now

/-- `sacd_overlay_ctx_t` and the threads. The cleanup holds the lock of the table, so
there is one at a time. -/
structure MountTable where
  clock : Nat
  cacheTimeout : Nat
  isoCount : Nat
  mounts : Nat → Mount
  created : Nat
  sessions : List Session
  cleaner : Cleaner

namespace Session

def mount : Session → Option Nat
  | idle => none
  | found m | ensured m _ | opened m _ | loaded m _ _ | stored m _ | handle m _ | closing m _ =>
    some m

/-- The mount and the context the session uses. -/
def uses : Session → Option (Nat × Nat)
  | idle | found _ => none
  | ensured m v | opened m v | loaded m v _ | stored m v | handle m v | closing m v => some (m, v)

/-- The mount of an open that has obtained a context and not counted its handle. -/
def opening : Session → Option Nat
  | ensured m _ | opened m _ | loaded m _ _ => some m
  | _ => none

/-- The mount whose count an open has read and not written. -/
def counting : Session → Option Nat
  | loaded m _ _ => some m
  | _ => none

/-- The mount of an open handle. -/
def handleOn : Session → Option Nat
  | stored m _ | handle m _ | closing m _ => some m
  | _ => none

end Session

/-- The steps of a session, over its mount. -/
def sessionStep (clock created : Nat) (mount : Mount) :
    Session → SessionEvent → Option (Session × Mount × Nat)
  | .found _, .isDir => some (.idle, mount, created)
  | .found m, .ensure opens =>
    match mount.vfs, opens with
    | some v, _ => some (.ensured m v, { mount with lastAccess := clock }, created)
    | none, true =>
      some (.ensured m created, { mount with vfs := some created, lastAccess := clock },
        created + 1)
    | none, false => some (.idle, { mount with lastAccess := clock }, created)
  | .ensured m v, .openFile true => some (.opened m v, mount, created)
  | .ensured _ _, .openFile false => some (.idle, mount, created)
  | .opened m v, .load => some (.loaded m v mount.refCount, mount, created)
  | .loaded m v n, .store => some (.stored m v, { mount with refCount := n + 1 }, created)
  | .stored m v, .touch => some (.handle m v, { mount with lastAccess := clock }, created)
  | .handle m v, .closeFile => some (.closing m v, mount, created)
  | .closing _ _, .release => some (.idle, { mount with refCount := mount.refCount - 1 }, created)
  | _, _ => none

inductive MountEvent where
  | tick
  | find (i m : Nat)
  | session (i : Nat) (e : SessionEvent)
  /-- A cleanup has read the clock at `now` and takes the lock of the table. -/
  | cleanup (now : Nat)
  | test
  | destroy
  | leave
  deriving DecidableEq, Repr

namespace MountTable

def setMount (s : MountTable) (m : Nat) (mount : Mount) : MountTable :=
  { s with mounts := fun k => if k = m then mount else s.mounts k }

def setSession (s : MountTable) (i : Nat) (x : Session) : MountTable :=
  { s with sessions := s.sessions.set i x }

/-- The idle test of `sacd_overlay_cleanup_idle`. -/
def isIdle (s : MountTable) (now i : Nat) : Bool :=
  (s.mounts i).vfs.isSome && (s.mounts i).refCount = 0 &&
    decide ((s.mounts i).lastAccess + s.cacheTimeout < now)

def step (s : MountTable) : MountEvent → Option MountTable
  | .tick => some { s with clock := s.clock + 1 }
  | .find i m =>
    if s.sessions[i]? = some .idle ∧ m < s.isoCount ∧ s.cleaner = .idle then
      some (s.setSession i (.found m))
    else none
  | .session i e => do
    let x ← s.sessions[i]?
    let m ← x.mount
    let (x', mount, created) ← sessionStep s.clock s.created (s.mounts m) x e
    some { (s.setMount m mount).setSession i x' with created := created }
  | .cleanup now =>
    if 0 < s.cacheTimeout ∧ now ≤ s.clock ∧ s.cleaner = .idle then
      some { s with cleaner := .testing now 0 }
    else none
  | .test =>
    match s.cleaner with
    | .testing now i =>
      if i < s.isoCount then
        some { s with cleaner := if s.isIdle now i then .doomed now i else .testing now (i + 1) }
      else none
    | _ => none
  | .destroy =>
    match s.cleaner with
    | .doomed now i =>
      some { s.setMount i { s.mounts i with vfs := none } with cleaner := .testing now (i + 1) }
    | _ => none
  | .leave =>
    match s.cleaner with
    | .testing _ i => if s.isoCount ≤ i then some { s with cleaner := .idle } else none
    | _ => none

/-- No mount is mounted and no call is under way. -/
def start (cacheTimeout isoCount threads : Nat) : MountTable where
  clock := 0
  cacheTimeout := cacheTimeout
  isoCount := isoCount
  mounts := fun _ => ⟨none, 0, 0⟩
  created := 0
  sessions := List.replicate threads .idle
  cleaner := .idle

end MountTable

end DsdNexus.Overlay
