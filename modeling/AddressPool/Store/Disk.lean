import AddressPool.Journal.Recovery
import AddressPool.Journal.Writer
import AddressPool.Network
import AddressPool.Snapshot
import AddressPool.Store

/-! The store on disk, one folder for each network. Taking the lock rebuilds the table
from the snapshot and the journal, and giving it back drops the table, since another
instance may change the files in between. A change is journaled before it is made. The
sync of the journal commits; compaction comes after it and may fail without harm.

The loaded state is there exactly while the lock is held, and the handle until the store is closed.
A journal of `threshold` entries or more is folded into a snapshot at the unlock. One entry frees all
addresses of an owner, so that replay frees all of them or none. -/
namespace AddressPool
open Journal (Writer SyncPolicy)

structure StoreSettings where
  policy : SyncPolicy := .everyWrite
  threshold : Nat := 256
  deriving DecidableEq, Repr

structure LockedState where
  table : Table
  writer : Writer
  deriving DecidableEq

structure DiskStore where
  path : String
  settings : StoreSettings
  handle : Option Folder.LockHandle
  locked : Option LockedState
  deriving DecidableEq

namespace DiskStore

def ofFolder (path : String) (settings : StoreSettings) (d : Folder) :
    Except Fault DiskStore × Folder :=
  match d.make with
  | (.error fault, d) => (.error (.os fault), d)
  | (.ok (), d) =>
      match d.openLock with
      | (.error fault, d) => (.error (.os fault), d)
      | (.ok handle, d) => (.ok ⟨path, settings, some handle, none⟩, d)

def recoverJournal (path : String) (d : Folder) :
    Except Fault (Option Journal.Recovery) × Folder :=
  match d.find .journal with
  | .error _ | .ok none => (.ok none, d)
  | .ok (some node) =>
      match d.read .journal with
      | .error fault => (.error (.os fault), d)
      | .ok bytes =>
          match Journal.recover (FileName.journal.path path) (bytes.getD []) with
          | .error fault => (.error fault, d)
          | .ok found =>
              if found.truncated then
                match d.cutTo .repair .syncRepair node found.validLength with
                | (.error fault, d) => (.error (.os fault), d)
                | (.ok (), d) => (.ok (some found), d)
              else (.ok (some found), d)

def verifyJournal (path : String) (d : Folder) :
    Except Fault (Option Journal.Recovery) × Folder :=
  match d.find .journal with
  | .error _ | .ok none => (.ok none, d)
  | .ok (some _) =>
      match d.read .journal with
      | .error fault => (.error (.os fault), d)
      | .ok bytes =>
          match Journal.recover (FileName.journal.path path) (bytes.getD []) with
          | .error fault => (.error fault, d)
          | .ok found => (.ok (some found), d)

def rebuild (snapshot : Snapshot) (found : Option Journal.Recovery) : Table :=
  let entries := (found.map Journal.Recovery.entries).getD []
  snapshot.table.applyAll
    ((entries.filter fun e => snapshot.lastLsn < e.lsn).map Journal.Entry.operation)

def load (path : String) (policy : SyncPolicy) (d : Folder) : Except Fault LockedState × Folder :=
  match Snapshot.load d with
  | .error fault => (.error fault, d)
  | .ok snapshot =>
      let snapshot := snapshot.getD .empty
      match recoverJournal path d with
      | (.error fault, d) => (.error fault, d)
      | (.ok found, d) =>
          let lsn := max snapshot.lastLsn ((found.map Journal.Recovery.lastLsn).getD 0)
          let count := ((found.map Journal.Recovery.entries).getD []).length
          match Writer.ofFolder policy lsn count d with
          | (.error fault, d) => (.error fault, d)
          | (.ok writer, d) => (.ok ⟨rebuild snapshot found, writer⟩, d)

def compact (s : LockedState) (d : Folder) : Except Fault Unit × Folder :=
  match (Snapshot.mk s.table s.writer.written.lsn).save d with
  | (.error fault, d) => (.error fault, d)
  | (.ok _, d) =>
      match s.writer.truncate d with
      | (result, _, d) => (result, d)

def persist (threshold : Nat) (s : LockedState) (d : Folder) : Except Fault Unit × Folder :=
  match s.writer.sync d with
  | (.error fault, _, d) => (.error fault, d)
  | (.ok (), writer, d) =>
      if threshold ≤ writer.written.count then (.ok (), (compact { s with writer } d).2)
      else (.ok (), d)

end DiskStore

structure Disk where
  store : DiskStore
  folder : Folder

namespace Disk

def isLocked (s : Disk) : Bool := s.store.locked.isSome

def withLocked (s : Disk) (locked : Option LockedState) (folder : Folder) : Disk :=
  ⟨{ s.store with locked }, folder⟩

def lock (s : Disk) : Except Fault Unit × Disk :=
  if s.isLocked then (.ok (), s)
  else match s.store.handle with
    | none => (.error .closed, s)
    | some handle =>
        match s.folder.takeLock handle with
        | (false, _) => (.error .held, s)
        | (true, d) =>
            match DiskStore.load s.store.path s.store.settings.policy d with
            | (.ok locked, d) => (.ok (), s.withLocked (some locked) d)
            | (.error fault, d) => (.error fault, s.withLocked none (d.dropLock handle))

def unlock (s : Disk) : Except Fault Unit × Disk :=
  match s.store.locked with
  | none => (.ok (), s)
  | some locked =>
      let (result, d) := DiskStore.persist s.store.settings.threshold locked s.folder
      let d := match s.store.handle with
        | some handle => d.dropLock handle
        | none => d
      (result, s.withLocked none d)

/-- Rebuilds the table after a failed append, whose roll back may have undone earlier
changes too; if that fails the old state stays. -/
def reload (s : Disk) : Disk :=
  match DiskStore.load s.store.path s.store.settings.policy s.folder with
  | (.ok locked, d) => s.withLocked (some locked) d
  | (.error _, d) => { s with folder := d }

def record (s : Disk) (locked : LockedState) (operation : Operation) (changed : Table) :
    Except Fault Unit × Disk :=
  match locked.writer.append operation s.folder with
  | (.ok _, writer, d) => (.ok (), s.withLocked (some ⟨changed, writer⟩) d)
  | (.error fault, writer, d) =>
      (.error fault, (s.withLocked (some { locked with writer }) d).reload)

def reserve (owner : String) (a : Address) (s : Disk) : Except Fault Bool × Disk :=
  match s.store.locked with
  | none => (.error (.notLocked .reserve), s)
  | some locked =>
      match locked.table.tryReserve owner a with
      | (false, _) => (.ok false, s)
      | (true, changed) =>
          match s.record locked (.reserve a owner) changed with
          | (.ok (), s) => (.ok true, s)
          | (.error fault, s) => (.error fault, s)

def releaseOwner (owner : String) (s : Disk) : Except Fault Unit × Disk :=
  match s.store.locked with
  | none => (.error (.notLocked .releaseOwner), s)
  | some locked =>
      match locked.table.addressesOf owner with
      | [] => (.ok (), s)
      | addresses => s.record locked (.release owner addresses) (locked.table.freeAll addresses)

def lastReserved (s : Disk) : Except Fault (Option Address) × Disk :=
  match s.store.locked with
  | none => (.error (.notLocked .lastReserved), s)
  | some locked => (.ok locked.table.marker, s)

def close (s : Disk) : Except Fault Unit × Disk :=
  let (result, s) := s.unlock
  (result, { s with store := { s.store with handle := none } })

instance : Store Disk := ⟨lock, unlock, reserve, releaseOwner, lastReserved, close⟩

def reservations (s : Disk) : Except Fault (List (Address × String)) :=
  match s.store.locked with
  | none => .error (.notLocked .reservations)
  | some locked => .ok locked.table.toList

def journalLength (s : Disk) : Except Fault Nat :=
  match s.store.locked with
  | none => .error (.notLocked .journalLength)
  | some locked => .ok locked.writer.written.count

end Disk
end AddressPool
