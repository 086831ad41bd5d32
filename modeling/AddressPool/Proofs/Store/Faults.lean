import AddressPool.Allocator
import AddressPool.Proofs.Store.Sparing

/-! What a disk store answers when it fails. Whatever its files hold and however the calls to the
folder end, the fault is one of the store. A request refuses by faults of its own and passes on those
of the store, so that it never answers with a fault of the configuration. -/
namespace AddressPool

def FaultsIn {α : Type} (kind : Fault → Bool) (result : Except Fault α) : Prop :=
  ∀ fault, result = .error fault → kind fault = true

def Fault.isLater (fault : Fault) : Bool := !fault.isConfigurationFault

theorem FaultsIn.later {α : Type} {result : Except Fault α}
    (own : FaultsIn Fault.isStoreFault result) : FaultsIn Fault.isLater result := by
  intro fault failed
  have kind := own fault failed
  cases fault <;> first | rfl | cases kind

namespace Journal

theorem Entry.ofPartsFaults (h : Header) (payload : Bytes) :
    FaultsIn Fault.isStoreFault (Entry.ofParts h payload) := by
  intro fault failed
  simp only [Entry.ofParts] at failed
  split at failed
  · split at failed <;> cases failed
    rfl
  · cases failed
    rfl

theorem frontFault {offset : Nat} {bytes : Bytes} {fault : Fault}
    (refused : front offset bytes = .refused fault) : fault.isStoreFault = true := by
  unfold front at refused
  split at refused
  · cases refused
  · split at refused
    · cases refused
    · split at refused
      · split at refused <;> cases refused
        rfl
      · split at refused
        · cases refused
        · split at refused <;> cases refused
          next failed => exact Entry.ofPartsFaults _ _ _ failed

theorem walkFault {offset : Nat} {bytes : Bytes} {fault : Fault}
    (refused : (walkFrom offset bytes).ending = .refused fault) : fault.isStoreFault = true := by
  rw [walkFrom] at refused
  split at refused
  · cases refused
  · exact walkFault refused
  · cases refused
  · cases refused
  · next found =>
    cases refused
    exact frontFault found
termination_by bytes.length
decreasing_by exact frontShrinks ‹_›

theorem recoverFaults (path : String) (bytes : Bytes) :
    FaultsIn Fault.isStoreFault (recover path bytes) := by
  intro fault failed
  simp only [recover] at failed
  split at failed
  · cases failed
    rfl
  · split at failed
    · cases failed
    · cases failed
    · split at failed <;> cases failed
      rfl
    · next refused =>
      cases failed
      exact walkFault refused

end Journal

namespace DiskStore
open Journal (Writer SyncPolicy)

theorem recoverJournalFaults (path : String) (d : Folder) :
    FaultsIn Fault.isStoreFault (recoverJournal path d).1 := by
  intro fault failed
  unfold recoverJournal at failed
  split at failed
  · cases failed
  · cases failed
  · split at failed
    · cases failed
      rfl
    · split at failed
      · next refused =>
        cases failed
        exact Journal.recoverFaults _ _ _ refused
      · split at failed
        · split at failed <;> cases failed
          rfl
        · cases failed

theorem loadFaults (path : String) (policy : SyncPolicy) (d : Folder) :
    FaultsIn Fault.isStoreFault (load path policy d).1 := by
  intro fault failed
  simp only [load, Snapshot.load, Writer.ofFolder] at failed
  split at failed
  · next unread =>
    cases failed
    split at unread
    · cases unread
      rfl
    · cases unread
    · split at unread <;> cases unread
      rfl
  · split at failed
    · next refused =>
      cases failed
      exact recoverJournalFaults _ _ _ (congrArg Prod.fst refused)
    · split at failed
      · next unopened =>
        cases failed
        split at unopened <;> cases unopened
        rfl
      · cases failed

theorem persistFaults (threshold : Nat) (s : LockedState) (d : Folder) :
    FaultsIn Fault.isStoreFault (persist threshold s d).1 := by
  intro fault failed
  unfold persist at failed
  split at failed
  · next unsynced =>
    cases failed
    obtain ⟨reason, rfl⟩ := Writer.syncFault unsynced
    rfl
  · split at failed <;> cases failed

end DiskStore

namespace Disk

variable (s : Disk) (owner : String)

theorem lockFaults : FaultsIn Fault.isStoreFault s.lock.1 := by
  intro fault failed
  unfold lock at failed
  split at failed
  · cases failed
  · split at failed
    · cases failed
      rfl
    · split at failed
      · cases failed
        rfl
      · split at failed
        · cases failed
        · next refused =>
          cases failed
          exact DiskStore.loadFaults _ _ _ _ (congrArg Prod.fst refused)

theorem unlockFaults : FaultsIn Fault.isStoreFault s.unlock.1 := by
  intro fault failed
  unfold unlock at failed
  split at failed
  · cases failed
  · exact DiskStore.persistFaults _ _ _ _ failed

theorem closeFaults : FaultsIn Fault.isStoreFault s.close.1 := s.unlockFaults

theorem recordFaults (locked : LockedState) (operation : Operation) (changed : Table) :
    FaultsIn Fault.isStoreFault (s.record locked operation changed).1 := by
  intro fault failed
  unfold record at failed
  split at failed
  · cases failed
  · next refused =>
    cases failed
    rcases Journal.Writer.appendFault refused with ⟨reason, rfl⟩ | ⟨reason, rfl⟩
    · rfl
    · rfl

theorem reserveFaults (a : Address) : FaultsIn Fault.isStoreFault (s.reserve owner a).1 := by
  intro fault failed
  unfold reserve at failed
  split at failed
  · cases failed
    rfl
  · split at failed
    · cases failed
    · split at failed
      · cases failed
      · next refused =>
        cases failed
        exact recordFaults _ _ _ _ _ (congrArg Prod.fst refused)

theorem releaseOwnerFaults : FaultsIn Fault.isStoreFault (s.releaseOwner owner).1 := by
  intro fault failed
  unfold releaseOwner at failed
  split at failed
  · cases failed
    rfl
  · split at failed
    · cases failed
    · exact recordFaults _ _ _ _ _ failed

end Disk

section Requests

variable {σ α : Type} [Store σ]

theorem Store.whileLockedFaults {kind : Fault → Bool} {body : σ → Except Fault α × σ}
    (lock : ∀ s : σ, FaultsIn kind (Store.lock s).1)
    (unlock : ∀ s : σ, FaultsIn kind (Store.unlock s).1) (inner : ∀ s, FaultsIn kind (body s).1)
    (s : σ) : FaultsIn kind (Store.whileLocked body s).1 := by
  intro fault failed
  unfold Store.whileLocked at failed
  split at failed
  · next refused =>
    cases failed
    exact lock _ _ (congrArg Prod.fst refused)
  · split at failed
    · next refused =>
      cases failed
      exact inner _ _ (congrArg Prod.fst refused)
    · split at failed
      · next refused =>
        cases failed
        exact unlock _ _ (congrArg Prod.fst refused)
      · cases failed

namespace Allocator

variable (reserve : ∀ owner a (s : σ), FaultsIn Fault.isLater (Store.reserve owner a s).1)
variable (r : Allocator) (owner : String)
include reserve

theorem walkFaults (stop : Address) (steps : Nat) (a : Address) (s : σ) :
    FaultsIn Fault.isLater (r.walk owner stop steps a s).1 := by
  intro fault failed
  induction steps generalizing a s with
  | zero =>
    cases failed
    rfl
  | succ steps ih =>
    unfold walk at failed
    split at failed
    · cases failed
      rfl
    · split at failed
      · split at failed
        · next refused =>
          cases failed
          exact reserve _ _ _ _ (congrArg Prod.fst refused)
        · cases failed
        · exact ih _ _ failed
      · exact ih _ _ failed

theorem pickFaults (s : σ) : FaultsIn Fault.isLater (r.pick owner s).1 := by
  intro fault failed
  unfold pick at failed
  split at failed
  · unfold take at failed
    split at failed
    · cases failed
      rfl
    · split at failed
      · split at failed <;> cases failed
        · next refused => exact reserve _ _ _ _ (congrArg Prod.fst refused)
        · rfl
      · cases failed
        rfl
  · unfold search at failed
    split at failed
    · cases failed
      rfl
    · exact walkFaults reserve r owner _ _ _ _ _ failed

end Allocator
end Requests

namespace Allocator

theorem allocateFaults (r : Allocator) (owner : String) (s : Disk) :
    FaultsIn Fault.isLater (r.allocate owner s).1 := by
  have locked := Store.whileLockedFaults (fun s : Disk => s.lockFaults.later)
    (fun s => s.unlockFaults.later)
    (pickFaults (fun owner a s => (Disk.reserveFaults s owner a).later) r owner) s
  intro fault failed
  refine locked fault ?_
  unfold allocate at failed
  generalize Store.whileLocked (r.pick owner) s = outcome at failed ⊢
  rcases outcome with ⟨refused | a, t⟩
  · cases failed
    rfl
  · cases failed

theorem releaseFaults (r : Allocator) (owner : String) (s : Disk) :
    FaultsIn Fault.isLater (r.release owner s).1 :=
  Store.whileLockedFaults (fun s : Disk => s.lockFaults.later) (fun s => s.unlockFaults.later)
    (fun s => (Disk.releaseOwnerFaults s owner).later) s

end Allocator
end AddressPool
