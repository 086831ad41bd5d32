import AddressPool.Journal.Entry
import AddressPool.Medium

/-! Appending to a journal. An entry counts once it is synced: when a write or a sync
fails, the file is cut back to what the last good sync covered, and the writer's own
account with it. A cut that fails is passed over, since recovery drops a torn end. -/
namespace AddressPool.Journal

inductive SyncPolicy where
  | everyWrite
  | onUnlock
  deriving DecidableEq, Repr

structure Mark where
  length : Nat
  lsn : Nat
  count : Nat
  deriving DecidableEq, Repr

structure Writer where
  node : Nat
  policy : SyncPolicy
  written : Mark
  unsynced : Nat
  committed : Mark
  deriving DecidableEq, Repr

namespace Writer

def ofFolder (policy : SyncPolicy) (lsn count : Nat) (d : Folder) : Except Fault Writer × Folder :=
  match d.openNode .openJournal .journal with
  | (.error fault, d) => (.error (.os fault), d)
  | (.ok node, d) =>
      let mark : Mark := ⟨d.lengthOf node, lsn, count⟩
      (.ok ⟨node, policy, mark, 0, mark⟩, d)

def rollBack (w : Writer) (d : Folder) : Writer × Folder :=
  let (_, d) := d.cutTo .rollBack .syncRollBack w.node w.committed.length
  ({ w with written := w.committed, unsynced := 0 }, d)

def sync (w : Writer) (d : Folder) : Except Fault Unit × Writer × Folder :=
  if w.unsynced = 0 then (.ok (), w, d)
  else match d.sync .syncEntries w.node with
    | (.ok (), d) => (.ok (), { w with unsynced := 0, committed := w.written }, d)
    | (.error fault, d) => (.error (.os fault), w.rollBack d)

/-- The number of the next entry. It has eight bytes, so that zero follows the last one. -/
def next (w : Writer) : Nat := (w.written.lsn + 1) % Bytes.space 8

def append (w : Writer) (operation : Operation) (d : Folder) :
    Except Fault Nat × Writer × Folder :=
  let lsn := w.next
  match (Entry.mk lsn operation d.clock).write with
  | .error fault => (.error (.payload fault), w, d)
  | .ok bytes =>
      match d.append .appendEntry w.node bytes with
      | (.error fault, d) => (.error (.os fault), w.rollBack d)
      | (.ok (), d) =>
          let w := { w with
            written := ⟨w.written.length + bytes.length, lsn, w.written.count + 1⟩
            unsynced := w.unsynced + 1 }
          match w.policy with
          | .onUnlock => (.ok lsn, w, d)
          | .everyWrite =>
              match w.sync d with
              | (.ok (), w, d) => (.ok lsn, w, d)
              | (.error fault, w, d) => (.error fault, w, d)

def truncate (w : Writer) (d : Folder) : Except Fault Unit × Writer × Folder :=
  match d.cutTo .emptyJournal .syncEmptied w.node 0 with
  | (.error fault, d) => (.error (.os fault), w, d)
  | (.ok (), d) =>
      let mark : Mark := ⟨0, w.written.lsn, 0⟩
      (.ok (), { w with written := mark, unsynced := 0, committed := mark }, d)

end Writer
end AddressPool.Journal
