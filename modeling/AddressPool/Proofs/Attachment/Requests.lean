import AddressPool.Attachment
import AddressPool.Proofs.Session.Enter
import AddressPool.Proofs.Store.Atomic

/-! One request, made through an unlocked store or as one event of a container: it is done as it
answers, and a fault of any kind means that nothing has changed. Where the numbers of the journal
have run out, what was done may bar the way to every request after it. -/
namespace AddressPool
open Journal Bytes

namespace Volume

def Opens (v : Volume) (network : String) (holds : Disk → Prop) : Prop :=
  ∀ settings, ∃ store w, v.openStore settings network = (.ok store, w) ∧ holds (w.disk network store)

def Offers (v : Volume) (network : String) (table : Table) : Prop := v.Opens network (·.Offers table)

def Leaves (before : LockedState) (network : String) (v : Volume) (table : Table) : Prop :=
  (¬ Disk.Spent before (v.folder network) table → v.Offers network table) ∧
    (Disk.Spent before (v.folder network) table → v.Opens network Disk.Refuses)

variable {v w : Volume} {settings : StoreSettings} {network : String} {store : DiskStore}
variable {handle : Folder.LockHandle} {before : LockedState} {table : Table} {number : Nat}
variable {s : Disk}

theorem openStoreAny (opened : v.openStore settings network = (.ok store, w))
    (other : StoreSettings) :
    v.openStore other network = (.ok { store with settings := other }, w) := by
  have again (path : String) (d : Folder) : DiskStore.ofFolder path other d =
      ((DiskStore.ofFolder path settings d).1.map fun store => { store with settings := other },
        (DiskStore.ofFolder path settings d).2) := by
    simp only [DiskStore.ofFolder]
    split
    · rfl
    · split <;> rfl
  simp only [openStore] at opened ⊢
  cases checked : Network.checkName network with
  | error fault =>
    rw [checked] at opened
    cases opened
  | ok accepted =>
    simp only [checked] at opened ⊢
    split at opened
    · cases opened
    · next short =>
      obtain ⟨made, rfl⟩ := Prod.mk.inj opened
      rw [if_neg short, again, made]
      rfl

theorem offersOpened (opened : v.openStore settings network = (.ok s.store, w))
    (folder : w.folder network = s.folder) (rests : s.Rests handle table number) :
    v.Offers network table := by
  intro other
  refine ⟨_, w, openStoreAny opened other, ?_⟩
  have unheld : Disk.Unheld (w.disk network { s.store with settings := other }) handle := by
    rw [disk, folder]
    exact ⟨rests.opened, rests.unlocked, rests.bound, rests.free, rests.tidy, rests.careful⟩
  exact (rests.moved unheld (congrArg Folder.files folder)).offers

theorem opensUnheld (named : Session.Named network) (unheld : s.Unheld handle)
    {holds : Disk → Prop} (next : ∀ {t : Disk} {other : Folder.LockHandle}, t.Unheld other →
      t.folder.files = s.folder.files → holds t) :
    (v.setFolder network s.folder).Opens network holds := by
  intro settings
  have folder : (v.setFolder network s.folder).folder network = s.folder :=
    folderSet v network s.folder
  have opened := Session.openStoreDone named settings (folder.symm ▸ unheld.tidy)
    (folder.symm ▸ unheld.bound) (folder.symm ▸ unheld.careful _ _ (by simp))
    (folder.symm ▸ unheld.careful _ _ (by simp))
  rw [folder] at opened
  refine ⟨_, _, opened, ?_⟩
  have alike : s.folder.Alike s.folder.asked.handed := ⟨rfl, rfl, rfl⟩
  have other : Disk.Unheld ⟨⟨(v.setFolder network s.folder).path network, settings,
      some ⟨handle.node, s.folder.handles⟩, none⟩, s.folder.asked.handed⟩
      ⟨handle.node, s.folder.handles⟩ :=
    ⟨rfl, rfl, unheld.bound, (alike.holder _).trans unheld.free, alike.tidy unheld.tidy,
      unheld.careful⟩
  rw [disk, folderSet]
  exact next other alike.files

theorem leavesStays (named : Session.Named network) (stays : s.Stays before handle table) :
    (v.setFolder network s.folder).Leaves before network table := by
  rw [Leaves, folderSet]
  refine ⟨fun unspent => ?_, fun spent => ?_⟩
  · have rests := stays.1 unspent
    exact opensUnheld named rests.toUnheld fun other files => (rests.moved other files).offers
  · have spoiled := stays.2 spent
    exact opensUnheld named spoiled.toUnheld fun other files => (spoiled.moved other files).refuses

end Volume

namespace Attachment
open Disk

variable {s t : Disk} {handle : Folder.LockHandle} {before : LockedState} {v w : Volume}
variable {settings : StoreSettings} {network : Network}

theorem settleDone {α : Type} (result : Except Fault α) : settle result (.ok ()) = result := by
  cases result <;> rfl

theorem closeSettles {α : Type} {change : α → Table → Prop} {name : String}
    (named : Session.Named name) {outcome : Except Fault α × Disk}
    (settles : Settles (Stays before handle) before.table change outcome) :
    Settles (Volume.Leaves before name) before.table change (settle outcome.1 outcome.2.close.1,
      v.setFolder name outcome.2.close.2.folder) := by
  rcases outcome with ⟨fault | value, u⟩
  · have stays : u.Stays before handle before.table := settles
    simp only [closeUnlocked stays.unlocked, settleDone]
    exact Volume.leavesStays named stays
  · obtain ⟨after, changed, stays⟩ := settles
    simp only [closeUnlocked stays.unlocked, settleDone]
    exact ⟨after, changed, Volume.leavesStays named stays⟩

theorem requestSettles {α : Type} {change : α → Table → Prop}
    (opened : v.openStore settings network.name = (.ok s.store, w))
    (folder : w.folder network.name = s.folder)
    (rests : s.Rests handle before.table before.writer.written.lsn)
    (run : Allocator → Disk → Except Fault α × Disk)
    (settles : ∀ r, Settles (Stays before handle) before.table change (run r s)) :
    Settles (Volume.Leaves before network.name) before.table change
      (request settings network run v) := by
  have named := Session.namedOfOpened opened
  have there : w.disk network.name s.store = s := by rw [Volume.disk, folder]
  have unspent (d : Folder) : ¬ Spent before d before.table := fun spent => spent.changed rfl
  simp only [request, opened, there]
  cases network.validate with
  | error fault =>
    exact ⟨fun _ => Volume.offersOpened opened folder rests, fun spent => absurd spent (unspent _)⟩
  | ok accepted =>
    cases Allocator.ofNetwork network with
    | error fault =>
      have unasked : Settles (Stays before handle) before.table change (.error fault, s) :=
        (rests.later (Nat.le_succ _)).stays (unspent _)
      exact closeSettles named unasked
    | ok r => exact closeSettles named (settles r)

/-- The next to take the lock finds the table of before with exactly the change that was answered,
and the table of before if the answer is a fault: after an allocation or a release through a store,
and after the two kinds of event, each of which opens the store itself. The one exception is a change
that was made after the last of all numbers: unless its entry is folded into a snapshot at once, the
next one is refused. -/
theorem requestsAtomic (unheld : s.Unheld handle) (locks : s.lock = (.ok (), t))
    (loaded : t.store.locked = some before) (sized : t.folder.files.Sized) :
    (∀ (r : Allocator) owner,
      Settles (Disk.Leaves before) before.table (Grants before.table owner) (r.allocate owner s) ∧
        Settles (Disk.Leaves before) before.table (Frees before.table owner) (r.release owner s)) ∧
    ∀ v w settings network container, v.openStore settings network.name = (.ok s.store, w) →
      w.folder network.name = s.folder →
      Settles (Volume.Leaves before network.name) before.table (Grants before.table container)
          (attach settings network container v) ∧
        Settles (Volume.Leaves before network.name) before.table (Frees before.table container)
          (detach settings network container v) := by
  obtain ⟨rests, _, _, _, keeps⟩ := unheld.takes locks loaded
  have allocates := allocateSettles unheld locks loaded (keeps.sized sized)
  have releases := releaseSettles unheld locks loaded (keeps.sized sized)
  constructor
  · intro r owner
    exact ⟨(allocates r owner).imp fun _ _ => Stays.leaves,
      (releases r owner).imp fun _ _ => Stays.leaves⟩
  · intro v w settings network container opened folder
    exact ⟨requestSettles opened folder rests _ fun r => allocates r container,
      requestSettles opened folder rests _ fun r => releases r container⟩

def cramped (n : Nat) (call : Call) : Outcome :=
  if n = 3 ∧ call = .appendEntry then .fails .noSpace 3 else .done

def crampedVolume : Volume :=
  (Volume.empty "/data").setFolder "net" { Folder.absent with fate := cramped }

def podNetwork : Network :=
  ⟨"net", .around (.wrap .v4 0x0A000000) 29, none, none, none, none, []⟩

theorem crampedOpens : crampedVolume.openStore {} "net" =
    (.ok (onEmpty {} cramped).store, crampedVolume.setFolder "net" (onEmpty {} cramped).folder) := by
  have folder : crampedVolume.folder "net" = { Folder.absent with fate := cramped } :=
    Volume.folderSet _ _ _
  have checked : Network.checkName "net" = .ok () := rfl
  simp only [Volume.openStore, checked, folder]
  rfl

theorem crampedUnheld : (onEmpty {} cramped).Unheld ⟨0, 0⟩ := by
  refine ⟨rfl, rfl, rfl, rfl, onEmptyTidy _ _, ?_⟩
  intro n call member
  refine if_neg fun both => ?_
  rw [both.2] at member
  simp at member

def spentVolume : Volume := (Volume.empty "/data").setFolder "net" spentFolder

theorem spentOpens : spentVolume.openStore {} "net" =
    (.ok spent.store, spentVolume.setFolder "net" spent.folder) := by
  have folder : spentVolume.folder "net" = spentFolder := Volume.folderSet _ _ _
  have checked : Network.checkName "net" = .ok () := rfl
  simp only [Volume.openStore, checked, folder]
  rfl

theorem spentUnheld : spent.Unheld ⟨1, 0⟩ := ⟨rfl, rfl, rfl, rfl, spentTidy, fun _ _ _ => rfl⟩

theorem atomicUntilSpent :
    (∃ before, ((onEmpty {} cramped).Unheld ⟨0, 0⟩ ∧
        (onEmpty {} cramped).lock = (.ok (), (onEmpty {} cramped).lock.2) ∧
        (onEmpty {} cramped).lock.2.store.locked = some before ∧
        (onEmpty {} cramped).lock.2.folder.files.Sized) ∧
      (attach {} podNetwork "pod" crampedVolume).1 = .error (.os .noSpace) ∧
      (attach {} podNetwork "pod" crampedVolume).2.Offers "net" before.table) ∧
    (spent.Unheld ⟨1, 0⟩ ∧ spent.lock = (.ok (), spent.lock.2) ∧
      spent.lock.2.store.locked = some spentState ∧ spent.lock.2.folder.files.Sized) ∧
    (attach {} podNetwork "pod" spentVolume).1.isOk ∧
    (attach {} podNetwork "pod" spentVolume).2.Opens "net" Disk.Refuses := by
  have loaded : (onEmpty {} cramped).lock.2.store.locked =
      some ⟨.empty, 1, .everyWrite, ⟨0, 0, 0⟩, 0, ⟨0, 0, 0⟩⟩ := rfl
  have crampedSized : (onEmpty {} cramped).lock.2.folder.files.Sized := by
    intro name
    cases name <;> decide +kernel
  have spentSized : spent.lock.2.folder.files.Sized := by
    intro name
    cases name <;> decide +kernel
  have failed : (attach {} podNetwork "pod" crampedVolume).1 = .error (.os .noSpace) := by
    decide +kernel
  have done : (attach {} podNetwork "pod" spentVolume).1.isOk := by decide +kernel
  have entry : (((attach {} podNetwork "pod" spentVolume).2.folder "net").files .journal).any
      fun file => file.1 ≠ [] := by decide +kernel
  obtain ⟨_, attempts⟩ :=
    requestsAtomic (t := (onEmpty {} cramped).lock.2) crampedUnheld rfl loaded crampedSized
  obtain ⟨_, events⟩ := requestsAtomic spentUnheld spentLocks spentLoaded spentSized
  have first := attempts _ _ {} podNetwork "pod" crampedOpens (Volume.folderSet _ _ _)
  have second := events _ _ {} podNetwork "pod" spentOpens (Volume.folderSet _ _ _)
  refine ⟨⟨_, ⟨crampedUnheld, rfl, loaded, crampedSized⟩, failed, ?_⟩,
    ⟨spentUnheld, spentLocks, spentLoaded, spentSized⟩, done, ?_⟩
  · generalize attach {} podNetwork "pod" crampedVolume = outcome at failed first ⊢
    rcases outcome with ⟨fault | lease, v⟩
    · exact first.1.1 fun spent => spent.changed rfl
    · cases failed
  · generalize attach {} podNetwork "pod" spentVolume = outcome at done entry second ⊢
    rcases outcome with ⟨fault | lease, v⟩
    · cases done
    · obtain ⟨⟨table, ⟨unowned, rfl⟩, leaves⟩, _⟩ := second
      obtain ⟨⟨bytes, covered⟩, file, there⟩ := (Option.any_eq_true _ _).mp entry
      exact leaves.2
        ⟨by decide, Table.putDiffers unowned _, bytes, covered, file, by simpa using there⟩

end Attachment
end AddressPool
