import AddressPool.Journal.Writer
import AddressPool.Proofs.Journal.Entry

/-! What an append comes to, case by case. The entry is told by the writer, its operation and the
time of day; the number it goes by is one above the last, or zero where that was the last of all. -/
namespace AddressPool.Journal.Writer
open Bytes

variable {w v : Writer} {d e : Folder} {operation : Operation}

theorem nextFew (few : w.written.lsn + 1 < space 8) : w.next = w.written.lsn + 1 :=
  Nat.mod_eq_of_lt few

theorem nextLast (last : w.written.lsn + 1 = space 8) : w.next = 0 := by
  rw [next, last, Nat.mod_self]

def fresh (w : Writer) (operation : Operation) (time : Nat) : Entry :=
  ⟨w.next, operation, time % space 8⟩

@[simp] theorem freshNumber (w : Writer) (operation : Operation) (time : Nat) :
    (w.fresh operation time).lsn = w.next := rfl

theorem freshSound (fits : operation.Fits) (time : Nat) : (w.fresh operation time).Sound :=
  ⟨fits, Nat.mod_lt _ (spacePos 8), Nat.mod_lt _ (spacePos 8)⟩

theorem freshWritten (fits : operation.Fits) (time : Nat) :
    (Entry.mk w.next operation time).write = .ok (w.fresh operation time).bytes := by
  rw [Entry.writeFitting fits, Entry.bytesStamped, fresh]

def grown (w : Writer) (e : Entry) : Writer :=
  { w with
    written := ⟨w.written.length + e.bytes.length, e.lsn, w.written.count + 1⟩
    unsynced := w.unsynced + 1 }

def flushed (w : Writer) : Writer := { w with unsynced := 0, committed := w.written }

theorem appendTooLarge (w : Writer) (d : Folder) (large : ¬ operation.Fits) :
    w.append operation d =
      (.error (.payload (.tooLarge ((writeOperation operation).length + 8) payloadLimit)), w, d) := by
  simp only [append, Entry.writeTooLarge (e := ⟨_, operation, d.clock⟩) large, Entry.payloadLength]

section Fitting

variable (fits : operation.Fits)
include fits

theorem appendFailed {fault : OsFault} (failed : d.append .appendEntry w.node
      (w.fresh operation d.clock).bytes = (.error fault, e)) :
    w.append operation d = (.error (.os fault), w.rollBack e) := by
  simp only [append, freshWritten fits, failed]

variable (added : d.append .appendEntry w.node (w.fresh operation d.clock).bytes = (.ok (), e))
include added

theorem appendLater (policy : w.policy = .onUnlock) :
    w.append operation d = (.ok w.next, w.grown (w.fresh operation d.clock), e) := by
  simp only [append, freshWritten fits, added, policy, grown, freshNumber]

theorem appendNow (policy : w.policy = .everyWrite) {result : Except Fault Unit} {f : Folder}
    (flushed : (w.grown (w.fresh operation d.clock)).sync e = (result, v, f)) :
    w.append operation d = (result.map fun _ => w.next, v, f) := by
  simp only [grown, freshNumber, policy] at flushed
  simp only [append, freshWritten fits, added, policy, flushed]
  cases result <;> rfl

end Fitting

end AddressPool.Journal.Writer
