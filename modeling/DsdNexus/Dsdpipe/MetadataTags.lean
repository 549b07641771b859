import DsdNexus.Util.Cstring
import DsdNexus.Util.Tree
import Mathlib.Data.List.Lex
import Mathlib.Order.Lex

/-! # Metadata tags

Containers of keys with values. The entries are on the heap, each owned by one container, and
a tree of a container holds their addresses. A result of `none` is the use of an entry that is
not there.
-/

namespace DsdNexus.Dsdpipe

/-- A string of C, without its terminator. -/
structure CString where
  bytes : Bytes
  noNul : 0 ∉ bytes
deriving DecidableEq

/-- `strcmp`, on the bytes before the terminators. -/
def strcmp : Bytes → Bytes → Int
  | [], [] => 0
  | [], b :: _ => -b.toNat
  | a :: _, [] => a.toNat
  | a :: as, b :: bs => if a = b then strcmp as bs else a.toNat - b.toNat

/-- `metadata_tag_entry_t` -/
structure TagEntry where
  key : CString
  value : CString

/-- The entries that are allocated; nothing has been allocated from `fresh` on. -/
structure TagHeap where
  entries : Nat → Option TagEntry
  fresh : Nat

/-- `metadata_tags_t` -/
structure MetadataTags where
  root : AVTree Nat
  count : Nat

def emptyString : CString := ⟨[], by simp⟩

namespace TagHeap

/-- `entry->key` -/
def key (h : TagHeap) (entry : Nat) : CString :=
  match h.entries entry with
  | some e => e.key
  | none => emptyString

/-- `tag_entry_cmp` -/
def tagEntryCmp (h : TagHeap) (a b : Nat) : Int := strcmp (h.key a).bytes (h.key b).bytes

/-- `tag_entry_create` -/
def create (h : TagHeap) (key value : CString) : TagHeap :=
  ⟨fun a => if a = h.fresh then some ⟨key, value⟩ else h.entries a, h.fresh + 1⟩

/-- A new `value` of an entry. -/
def setValue (h : TagHeap) (entry : Nat) (value : CString) : TagHeap :=
  { h with entries := fun a =>
      if a = entry then (h.entries a).map fun e => { e with value := value } else h.entries a }

/-- `tag_entry_free` -/
def free (h : TagHeap) (entry : Nat) : TagHeap :=
  { h with entries := fun a => if a = entry then none else h.entries a }

end TagHeap

namespace MetadataTags

/-- `metadata_tags_create` -/
def create : MetadataTags := ⟨.nil, 0⟩

/-- The search by a key on the stack. -/
def find (h : TagHeap) (tags : MetadataTags) (key : CString) : Option Nat :=
  (tags.root.saTreeFind (fun entry => strcmp key.bytes (h.key entry).bytes) fun _ => none).1

/-- `metadata_tags_set` -/
def set (h : TagHeap) (tags : MetadataTags) (key value : CString) :
    Option (Int × TagHeap × MetadataTags) :=
  if key.bytes = [] then some (-1, h, tags)
  else
    match tags.find h key with
    | some existing => some (0, h.setValue existing value, tags)
    | none =>
      let entry := h.fresh
      let h := h.create key value
      (tags.root.saTreeInsert h.tagEntryCmp entry true).map fun (root, _, node) =>
        if node then (-1, h.free entry, { tags with root := root })
        else (0, h, ⟨root, tags.count + 1⟩)

/-- `metadata_tags_get` -/
def get (h : TagHeap) (tags : MetadataTags) (key : CString) : Option CString :=
  if key.bytes = [] then none
  else (tags.find h key).bind fun found => (h.entries found).map TagEntry.value

/-- `metadata_tags_has` -/
def has (h : TagHeap) (tags : MetadataTags) (key : CString) : Bool := (tags.get h key).isSome

/-- `metadata_tags_remove` -/
def remove (h : TagHeap) (tags : MetadataTags) (key : CString) :
    Option (Int × TagHeap × MetadataTags) :=
  if key.bytes = [] then some (-1, h, tags)
  else
    match tags.find h key with
    | none => some (-1, h, tags)
    | some found =>
      (tags.root.saTreeInsert h.tagEntryCmp found false).map fun (root, _, _) =>
        (0, h.free found, ⟨root, tags.count - 1⟩)

/-- `destroy_enum_cb` for all the entries of a tree. -/
def freeAll (h : TagHeap) (root : AVTree Nat) : Option TagHeap :=
  root.saTreeEnumerate (fun _ => 0) (fun h entry => some (h.free entry)) h

/-- `metadata_tags_clear` -/
def clear (h : TagHeap) (tags : MetadataTags) : Option (TagHeap × MetadataTags) :=
  if tags.root.isNil then some (h, { tags with count := 0 })
  else (freeAll h tags.root).map fun h => (h, ⟨.nil, 0⟩)

/-- `enum_user_cb`, on what the callback sees and leaves and whether it has stopped. -/
def enumUserCb {σ : Type*} (h : TagHeap) (callback : σ → CString → CString → σ × Int)
    (ctx : σ × Bool) (entry : Nat) : Option (σ × Bool) :=
  if ctx.2 then some ctx
  else
    (h.entries entry).map fun e =>
      let r := callback ctx.1 e.key e.value
      (r.1, decide (r.2 ≠ 0))

/-- `metadata_tags_enumerate` -/
def enumerate {σ : Type*} (h : TagHeap) (tags : MetadataTags) (ctx : σ)
    (callback : σ → CString → CString → σ × Int) : Option σ :=
  if tags.root.isNil then some ctx
  else
    (tags.root.saTreeEnumerate (fun _ => 0) (enumUserCb h callback) (ctx, false)).map Prod.fst

end MetadataTags

/-- The heap and the containers on it, in the order they were made. -/
structure TagStore where
  heap : TagHeap
  containers : List MetadataTags

namespace TagStore

/-- Before the first container. -/
def empty : TagStore := ⟨⟨fun _ => none, 0⟩, []⟩

/-- `metadata_tags_set` on a container, where no container is NULL. -/
def set (s : TagStore) (i : Nat) (key value : CString) : Option (Int × TagStore) :=
  match s.containers[i]? with
  | none => some (-1, s)
  | some tags =>
    (tags.set s.heap key value).map fun (ret, heap, tags) =>
      (ret, ⟨heap, s.containers.set i tags⟩)

/-- `metadata_tags_remove` -/
def remove (s : TagStore) (i : Nat) (key : CString) : Option (Int × TagStore) :=
  match s.containers[i]? with
  | none => some (-1, s)
  | some tags =>
    (tags.remove s.heap key).map fun (ret, heap, tags) =>
      (ret, ⟨heap, s.containers.set i tags⟩)

/-- `metadata_tags_clear` -/
def clear (s : TagStore) (i : Nat) : Option TagStore :=
  match s.containers[i]? with
  | none => some s
  | some tags =>
    (tags.clear s.heap).map fun (heap, tags) => ⟨heap, s.containers.set i tags⟩

/-- `metadata_tags_has` -/
def has (s : TagStore) (i : Nat) (key : CString) : Bool :=
  match s.containers[i]? with
  | none => false
  | some tags => tags.has s.heap key

/-- `merge_enum_cb`, with the error in its context. -/
def mergeEnumCb (dest : Nat) (overwrite : Bool) (ctx : TagStore × Int) (entry : Nat) :
    Option (TagStore × Int) :=
  (ctx.1.heap.entries entry).bind fun e =>
    if ¬ overwrite ∧ ctx.1.has dest e.key then some ctx
    else
      (ctx.1.set dest e.key e.value).map fun (ret, s) => (s, if ret < 0 then -1 else ctx.2)

/-- `metadata_tags_merge` -/
def merge (s : TagStore) (dest src : Nat) (overwrite : Bool) : Option (Int × TagStore) :=
  match s.containers[dest]?, s.containers[src]? with
  | some _, some tags =>
    if tags.root.isNil then some (0, s)
    else
      (tags.root.saTreeEnumerate (fun _ => 0) (mergeEnumCb dest overwrite) (s, 0)).map
        fun (s, error) => (error, s)
  | _, _ => some (-1, s)

/-- `copy_enum_cb` -/
def copyEnumCb (dest : Nat) (ctx : TagStore × Int) (entry : Nat) : Option (TagStore × Int) :=
  (ctx.1.heap.entries entry).bind fun e =>
    (ctx.1.set dest e.key e.value).map fun (ret, s) => (s, if ret < 0 then -1 else ctx.2)

/-- The last container is destroyed. -/
def destroyLast (s : TagStore) : Option TagStore :=
  match s.containers.getLast? with
  | none => some s
  | some tags =>
    (MetadataTags.freeAll s.heap tags.root).map fun heap => ⟨heap, s.containers.dropLast⟩

/-- `metadata_tags_copy`: the container that is made. -/
def copy (s : TagStore) (src : Nat) : Option (Option Nat × TagStore) :=
  match s.containers[src]? with
  | none => some (none, s)
  | some tags =>
    let dest := s.containers.length
    let s := { s with containers := s.containers ++ [.create] }
    (if tags.root.isNil then some (s, 0)
    else tags.root.saTreeEnumerate (fun _ => 0) (copyEnumCb dest) (s, 0)).bind
      fun (s, error) =>
        if error ≠ 0 then s.destroyLast.map fun s => (none, s)
        else some (some dest, s)

end TagStore

/-- A call on the containers, by their places in the store. -/
inductive TagCall where
  | create
  | set (i : Nat) (key value : CString)
  | remove (i : Nat) (key : CString)
  | clear (i : Nat)
  | copy (src : Nat)
  | merge (dest src : Nat) (overwrite : Bool)

/-- What a call returns. -/
inductive TagAnswer where
  | void
  | code (ret : Int)
  | container (i : Option Nat)

def TagCall.run (s : TagStore) : TagCall → Option (TagAnswer × TagStore)
  | create =>
    some (.container (some s.containers.length),
      { s with containers := s.containers ++ [.create] })
  | set i key value => (s.set i key value).map fun r => (.code r.1, r.2)
  | remove i key => (s.remove i key).map fun r => (.code r.1, r.2)
  | clear i => (s.clear i).map fun s => (.void, s)
  | copy src => (s.copy src).map fun r => (.container r.1, r.2)
  | merge dest src overwrite => (s.merge dest src overwrite).map fun r => (.code r.1, r.2)

/-- A run of calls, with the answers. -/
def runTagCalls (s : TagStore) : List TagCall → Option (List TagAnswer × TagStore)
  | [] => some ([], s)
  | call :: calls =>
    (call.run s).bind fun r => (runTagCalls r.2 calls).map fun rest => (r.1 :: rest.1, rest.2)

end DsdNexus.Dsdpipe
