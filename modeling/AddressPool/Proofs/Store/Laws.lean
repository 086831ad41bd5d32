import AddressPool.Proofs.Store.Disk
import AddressPool.Store.Memory

/-! What an allocator may rely on, of any store that keeps the table of the operations made so
far: while the lock is held a call answers from that table, and a change is either made or
refused with nothing changed. Both stores keep it, the one on disk as long as no call on its
folder fails. -/
namespace AddressPool
open Journal Bytes

def tableOf (log : List Operation) : Table := Table.empty.applyAll log

theorem tableOfInverse (log : List Operation) : (tableOf log).Inverse :=
  Table.inverseApplyAll Table.inverseEmpty log

theorem tableOfReserve {log : List Operation} {a : Address} (owner : String)
    (unowned : (tableOf log).owner? a = none) :
    tableOf (log ++ [.reserve a owner]) = (tableOf log).put a owner := by
  rw [tableOf, Table.applyAllLast]
  exact Table.applyReserve unowned owner

theorem tableOfRelease (log : List Operation) (owner : String) :
    tableOf (log ++ [.release owner ((tableOf log).addressesOf owner)]) =
      (tableOf log).freeAll ((tableOf log).addressesOf owner) := by
  rw [tableOf, Table.applyAllLast]
  exact Table.applyRelease (tableOfInverse log) owner

structure Laws (σ : Type) [Store σ] (free held : List Operation → σ → Prop)
    (room : List Operation → Prop) (takes : Operation → Prop) : Prop where
  lock : ∀ {log s}, free log s → ∃ t, Store.lock s = (.ok (), t) ∧ held log t
  unlock : ∀ {log s}, held log s → ∃ t, Store.unlock s = (.ok (), t) ∧ free log t
  marker : ∀ {log s}, held log s → Store.lastReserved s = (.ok (tableOf log).marker, s)
  owned : ∀ {log s}, held log s → ∀ owner a, (tableOf log).owner? a ≠ none →
    Store.reserve owner a s = (.ok false, s)
  reserve : ∀ {log s}, held log s → room log → ∀ owner a, (tableOf log).owner? a = none →
    (∃ t, Store.reserve owner a s = (.ok true, t) ∧ held (log ++ [.reserve a owner]) t) ∨
      ¬ takes (.reserve a owner) ∧
        ∃ fault t, Store.reserve owner a s = (.error fault, t) ∧ held log t
  release : ∀ {log s}, held log s → room log → ∀ owner,
    (∃ t longer, Store.releaseOwner owner s = (.ok (), t) ∧ held longer t ∧
      longer.length ≤ log.length + 1 ∧
      tableOf longer = (tableOf log).freeAll ((tableOf log).addressesOf owner)) ∨
      ∃ fault t, Store.releaseOwner owner s = (.error fault, t) ∧ held log t

namespace Memory

def Idle (log : List Operation) (s : Memory) : Prop := s = ⟨false, false, tableOf log⟩

def Busy (log : List Operation) (s : Memory) : Prop := s = ⟨true, true, tableOf log⟩

theorem laws : Laws Memory Idle Busy (fun _ => True) fun _ => True where
  lock := by
    rintro log _ rfl
    exact ⟨_, rfl, rfl⟩
  unlock := by
    rintro log _ rfl
    exact ⟨_, rfl, rfl⟩
  marker := by
    rintro log _ rfl
    rfl
  owned := by
    rintro log _ rfl owner a owned
    simp [Store.reserve, reserve, Table.tryReserveOwned owned, withTable]
  reserve := by
    rintro log _ rfl _ owner a unowned
    refine .inl ⟨⟨true, true, tableOf (log ++ [Operation.reserve a owner])⟩, ?_, rfl⟩
    rw [tableOfReserve owner unowned]
    simp [Store.reserve, reserve, Table.tryReserveFree unowned, withTable]
  release := by
    rintro log _ rfl _ owner
    refine .inl ⟨_, log ++ [.release owner ((tableOf log).addressesOf owner)], rfl, ?_, ?_,
      tableOfRelease log owner⟩
    · simp [Busy, tableOfRelease, withTable]
    · simp

end Memory

namespace Disk

def Idle (base : Folder) (handle : Folder.LockHandle) (log : List Operation) (s : Disk) : Prop :=
  Free s handle log 0 ∧ s.folder.Obeys ∧ base.Follows s.folder

def Busy (base : Folder) (handle : Folder.LockHandle) (log : List Operation) (s : Disk) : Prop :=
  (∃ locked, Holds s handle locked log 0) ∧ s.folder.Obeys ∧ base.Follows s.folder

theorem obeyedRecord {base : Folder} {handle : Folder.LockHandle} {log : List Operation}
    {s : Disk} {locked : LockedState} (holds : Holds s handle locked log 0)
    (obeys : s.folder.Obeys) (follows : base.Follows s.folder) (few : log.length + 1 < space 8)
    (operation : Operation) {changed : Table}
    (applied : changed = (tableOf log).apply operation) :
    (∃ t, s.record locked operation changed = (.ok (), t) ∧
      Busy base handle (log ++ [operation]) t) ∨
    ¬ operation.Fits ∧
      ∃ fault t, s.record locked operation changed = (.error fault, t) ∧ Busy base handle log t := by
  rcases recordSpec holds obeys.halting few operation applied with
    ⟨_, next, t, recorded, after, moved, _⟩ | ⟨large, next, t, refused, after, moved⟩ |
      ⟨fault, t, failed, broken⟩
  · exact .inl ⟨t, recorded, ⟨next, after⟩, obeys.same moved.fate, follows.trans moved⟩
  · exact .inr ⟨large, _, t, refused, ⟨next, after⟩, obeys.same moved.fate, follows.trans moved⟩
  · exact absurd broken.halted (obeys.same broken.follows.fate).notHalted

theorem laws (base : Folder) (handle : Folder.LockHandle) :
    Laws Disk (Idle base handle) (Busy base handle) (fun log => log.length + 1 < space 8)
      Operation.Fits where
  lock {log s} := by
    rintro ⟨free, obeys, follows⟩
    rcases lockFree free obeys.halting with
      ⟨locked, t, taken, holds, moved⟩ | ⟨fault, t, failed, broken⟩
    · exact ⟨t, taken, ⟨locked, holds⟩, obeys.same moved.fate, follows.trans moved⟩
    · exact absurd broken.halted (obeys.same broken.follows.fate).notHalted
  unlock {log s} := by
    rintro ⟨⟨locked, holds⟩, obeys, follows⟩
    rcases unlockHeld holds obeys.halting with
      ⟨t, given, free, moved⟩ | ⟨fault, t, failed, _, broken⟩
    · exact ⟨t, given, free, obeys.same moved.fate, follows.trans moved⟩
    · exact absurd broken.halted (obeys.same broken.follows.fate).notHalted
  marker {log s} := by
    rintro ⟨⟨locked, holds⟩, _, _⟩
    simp only [Store.lastReserved, Disk.lastReserved, holds.loaded, holds.ready.table]
    rfl
  owned {log s} := by
    rintro ⟨⟨locked, holds⟩, _, _⟩ owner a owned
    have owned : locked.table.owner? a ≠ none := by
      rw [holds.ready.table]
      exact owned
    simp only [Store.reserve, Disk.reserve, holds.loaded, Table.tryReserveOwned owned]
  reserve {log s} := by
    rintro ⟨⟨locked, holds⟩, obeys, follows⟩ few owner a unowned
    have free : locked.table.owner? a = none := by
      rw [holds.ready.table]
      exact unowned
    have made : locked.table.put a owner = (tableOf log).apply (.reserve a owner) := by
      rw [← Table.applyReserve free owner, holds.ready.table]
      rfl
    rcases obeyedRecord holds obeys follows few (.reserve a owner) made with
      ⟨t, recorded, busy⟩ | ⟨large, fault, t, refused, busy⟩
    · refine .inl ⟨t, ?_, busy⟩
      simp only [Store.reserve, Disk.reserve, holds.loaded, Table.tryReserveFree free, recorded]
    · refine .inr ⟨large, fault, t, ?_, busy⟩
      simp only [Store.reserve, Disk.reserve, holds.loaded, Table.tryReserveFree free, refused]
  release {log s} := by
    rintro ⟨⟨locked, holds⟩, obeys, follows⟩ few owner
    have table : locked.table = tableOf log := holds.ready.table
    cases owned : (tableOf log).addressesOf owner with
    | nil =>
      refine .inl ⟨s, log, ?_, ⟨⟨locked, holds⟩, obeys, follows⟩, Nat.le_succ _, rfl⟩
      simp only [Store.releaseOwner, Disk.releaseOwner, holds.loaded, table, owned]
    | cons a rest =>
      have made : (tableOf log).freeAll (a :: rest) =
          (tableOf log).apply (.release owner (a :: rest)) := by
        rw [← owned]
        exact (Table.applyRelease (tableOfInverse log) owner).symm
      have called : Store.releaseOwner owner s =
          s.record locked (.release owner (a :: rest)) ((tableOf log).freeAll (a :: rest)) := by
        simp only [Store.releaseOwner, Disk.releaseOwner, holds.loaded, table, owned]
      rw [called]
      rcases obeyedRecord holds obeys follows few (.release owner (a :: rest)) made with
        ⟨t, recorded, busy⟩ | ⟨_, fault, t, refused, busy⟩
      · refine .inl ⟨t, _, recorded, busy, by simp, ?_⟩
        rw [← owned]
        exact tableOfRelease log owner
      · exact .inr ⟨fault, t, refused, busy⟩

end Disk
end AddressPool
