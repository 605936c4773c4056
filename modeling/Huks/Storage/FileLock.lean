import Huks.Common.Types
import Huks.Lib.LinkedList

namespace Huks

open LinkedList

-- The address of a lock.
abbrev LockId := Nat

-- A lock without the pointer to the next one and without the lock that its users take.
structure HksStorageFileLock where
  path : Bytes
  ref  : UInt32
  deriving DecidableEq, Repr

-- The memory, `g_lockListFirst` and `g_lockListLast`.
structure LockRegistry where
  heap  : Heap LockId HksStorageFileLock := fun _ => none
  first : Option LockId := none
  last  : Option LockId := none

namespace LockRegistry

-- The loops over the list run for at most `fuel` rounds and give `none` when that is too short.
def findFileLock (r : LockRegistry) (fuel : Nat) (path : Bytes) : Option (Option LockId) :=
  (walk r.heap (fun _ lock => path = lock.path) fuel r.first none).map (·.map Prod.fst)

-- `address` is where the allocator finds room, and `none` when an allocation fails.
def allocFileLock (r : LockRegistry) (path : Bytes) (address : Option LockId) :
    Option LockId × LockRegistry :=
  match address with
  | none   => (none, r)
  | some a => (some a, { r with heap := Function.update r.heap a (some ⟨⟨path, 1⟩, none⟩) })

def addRef (r : LockRegistry) (lock : LockId) : LockRegistry :=
  { r with heap := setValue r.heap lock fun l => { l with ref := l.ref + 1 } }

def appendFileLock (r : LockRegistry) (lock : LockId) : LockRegistry :=
  match r.first, r.last with
  | none, _           => { heap := setNext r.heap lock none, first := some lock, last := some lock }
  | some _, some last =>
    { r with heap := setNext (setNext r.heap last (some lock)) lock none, last := some lock }
  | some _, none      => r

def hksStorageFileLockCreate (r : LockRegistry) (fuel : Nat) (path : Bytes)
    (address : Option LockId) : Option (Option LockId × LockRegistry) := do
  match ← r.findFileLock fuel path with
  | some lock => return (some lock, r.addRef lock)
  | none      =>
    let (lock, r) := r.allocFileLock path address
    return (lock, lock.elim r r.appendFileLock)

def isLockInList (r : LockRegistry) (fuel : Nat) (lock : LockId) : Option Bool :=
  (walk r.heap (fun iter _ => lock = iter) fuel r.first none).map Option.isSome

-- Takes the lock out of the list behind `previous` and frees it.
def unlink (r : LockRegistry) (lock : LockId) (previous : Option LockId) : LockRegistry where
  heap  := Function.update (previous.elim r.heap fun p => setNext r.heap p next) lock none
  first := previous.elim next fun _ => r.first
  last  := if r.last = some lock then previous else r.last
where
  next : Option LockId := (r.heap lock).bind Cell.next

def release (r : LockRegistry) (fuel : Nat) (lock : LockId) : Option LockRegistry := do
  match ← walk r.heap (fun iter _ => lock = iter) fuel r.first none with
  | none               => return r
  | some (_, previous) =>
    let r := { r with heap := setValue r.heap lock fun l => { l with ref := l.ref - 1 } }
    if (r.heap lock).any (·.value.ref = 0) then
      return r.unlink lock previous
    else
      return r

def hksStorageFileLockRelease (r : LockRegistry) (fuel : Nat) (lock : LockId) :
    Option LockRegistry := do
  if ← r.isLockInList fuel lock then r.release fuel lock else return r

end LockRegistry

-- A lock that a thread got for a path and has not released yet.
structure LockHandle where
  thread : Nat
  path   : Bytes
  lock   : LockId
  deriving DecidableEq, Repr

structure LockSystem where
  registry : LockRegistry := {}
  handles  : List LockHandle := []

namespace LockSystem

-- One call of one thread, which holds `g_lockListLock` from its start to its end.
inductive Step (s : LockSystem) : LockSystem → Prop
  | create {thread fuel : Nat} {path : Bytes} {address : Option LockId} {lock : LockId}
      {registry : LockRegistry} (free : ∀ a ∈ address, s.registry.heap a = none)
      (call : s.registry.hksStorageFileLockCreate fuel path address = some (some lock, registry)) :
    Step s ⟨registry, ⟨thread, path, lock⟩ :: s.handles⟩
  | refuse {fuel : Nat} {path : Bytes} {address : Option LockId} {registry : LockRegistry}
      (free : ∀ a ∈ address, s.registry.heap a = none)
      (call : s.registry.hksStorageFileLockCreate fuel path address = some (none, registry)) :
    Step s ⟨registry, s.handles⟩
  | release {fuel : Nat} {handle : LockHandle} {registry : LockRegistry} (held : handle ∈ s.handles)
      (call : s.registry.hksStorageFileLockRelease fuel handle.lock = some registry) :
    Step s ⟨registry, s.handles.erase handle⟩

-- The number of handles to a lock.
def outstanding (s : LockSystem) (lock : LockId) : Nat := s.handles.countP (·.lock = lock)

end LockSystem

end Huks
