import AddressPool.Proofs.Session.Discipline

/-! The moves of a host. Instances are opened, cloned, dropped and called one at a time, while
others damage the files of the networks. Every move keeps the order among the instances, and so
does every run of them. -/
namespace AddressPool

namespace Session

inductive Use where
  | lock
  | unlock
  | close
  | reserve (owner : String) (a : Address)
  | releaseOwner (owner : String)
  | lastReserved
  deriving DecidableEq

namespace Use

def run {σ : Type} [Store σ] : Use → σ → Answer × σ
  | .lock, s => (.done (Store.lock s).1, (Store.lock s).2)
  | .unlock, s => (.done (Store.unlock s).1, (Store.unlock s).2)
  | .close, s => (.done (Store.close s).1, (Store.close s).2)
  | .reserve owner a, s => (.reserved (Store.reserve owner a s).1, (Store.reserve owner a s).2)
  | .releaseOwner owner, s => (.done (Store.releaseOwner owner s).1, (Store.releaseOwner owner s).2)
  | .lastReserved, s => (.marker (Store.lastReserved s).1, (Store.lastReserved s).2)

def on (call : Use) (id : String) (h : Host) : Answer × Host :=
  ask id (fun answer => answer) call.run h

variable {h : Host} {id network : String} {table : Nat} {holding : Bool} {store : DiskStore}

theorem turnsDisk (call : Use) {s : Disk} (honest : s.Honest) : s.Turns (call.run s).2 := by
  cases call with
  | lock => exact (Disk.lockLocking honest).turns honest
  | unlock => exact (Disk.unlockTurns honest).1
  | close => exact (Disk.closeTurns honest).1
  | reserve owner a => exact Disk.reserveTurns honest
  | releaseOwner owner => exact Disk.releaseOwnerTurns honest
  | lastReserved => exact Disk.lastReservedTurns honest

theorem turnsMemory (call : Use) {s : Memory} (honest : s.Honest) : s.Turns (call.run s).2 := by
  cases call with
  | lock => exact Memory.lockTurns honest
  | unlock => exact (Memory.unlockTurns honest).1
  | close => exact (Memory.unlockTurns honest).1
  | reserve owner a => exact Memory.reserveTurns honest owner a
  | releaseOwner owner => exact Memory.releaseOwnerTurns honest owner
  | lastReserved => exact Memory.lastReservedTurns honest

theorem unlocksDisk {call : Use} (gives : call = .unlock ∨ call = .close) {s : Disk}
    (honest : s.Honest) : (call.run s).2.isLocked = false := by
  rcases gives with rfl | rfl
  · exact (Disk.unlockTurns honest).2
  · exact (Disk.closeTurns honest).2

theorem unlocksMemory {call : Use} (gives : call = .unlock ∨ call = .close) {s : Memory}
    (honest : s.Honest) : (call.run s).2.holding = false := by
  rcases gives with rfl | rfl
  · exact (Memory.unlockTurns honest).2
  · exact (Memory.unlockTurns honest).2

theorem onMissing (call : Use) (missing : h.find? id = none) : call.on id h = (.missing, h) := by
  simp only [on, ask, Host.callMissing missing]

theorem onDisk (call : Use) (found : h.find? id = some (.disk network store)) :
    call.on id h = ((call.run (h.volume.disk network store)).1,
      h.movedDisk network id (call.run (h.volume.disk network store)).2) := by
  simp only [on, ask, Host.callDisk found]

theorem onMemory (call : Use) (found : h.find? id = some (.memory table holding)) :
    call.on id h = ((call.run (Memory.mk holding (h.shared table))).1,
      h.movedMemory table id (call.run (Memory.mk holding (h.shared table))).2) := by
  simp only [on, ask, Host.callMemory found]

theorem onOthers (call : Use) {other : String} (apart : other ≠ id) :
    (call.on id h).2.find? other = h.find? other := by
  cases found : h.find? id with
  | none => rw [call.onMissing found]
  | some i =>
    cases i with
    | disk network store => rw [call.onDisk found, Host.findMoved, if_neg apart]
    | memory table holding => rw [call.onMemory found, Host.findMovedMemory, if_neg apart]

end Use

inductive Move where
  | openMemory (id : String)
  | clone (id source : String)
  | openDisk (id network : String) (settings : StoreSettings)
  | drop (id : String)
  | use (id : String) (call : Use)
  | tamper (network : String) (change : Folder → Folder)
      (spares : ∀ d : Folder, d.Spares (change d))

namespace Move

def step (h : Host) : Move → Host
  | .openMemory id => h.openMemory id
  | .clone id source => h.clone id source
  | .openDisk id network settings => (h.openDisk id network settings).2
  | .drop id => (h.drop id).2
  | .use id call => (call.on id h).2
  | .tamper network change _ => h.edit network change

def run (moves : List Move) (h : Host) : Host := moves.foldl step h

end Move
end Session

theorem Volume.openStoreOpens {settings : StoreSettings} {network : String} {v w : Volume}
    {result : Except Fault DiskStore} (opened : v.openStore settings network = (result, w)) :
    (∃ fault, result = .error fault ∧ ∀ other, (v.folder other).Still (w.folder other)) ∨
    ∃ path handle, result = .ok ⟨path, settings, some handle, none⟩ ∧
      (v.folder network).Opens (w.folder network) handle ∧
      ∀ other, other ≠ network → w.folder other = v.folder other := by
  unfold openStore at opened
  split at opened
  · cases opened
    exact .inl ⟨_, rfl, fun _ => ⟨rfl, rfl, rfl⟩⟩
  · split at opened
    · cases opened
      exact .inl ⟨_, rfl, fun _ => ⟨rfl, rfl, rfl⟩⟩
    · cases made : DiskStore.ofFolder (v.path network) settings (v.folder network) with
      | mk outcome d =>
      simp only [made] at opened
      cases opened
      rcases DiskStore.ofFolderOpens made with ⟨fault, failed, still⟩ | ⟨handle, opened, opens⟩
      · refine .inl ⟨fault, failed, fun other => ?_⟩
        by_cases here : other = network
        · subst here
          rw [folderSet]
          exact still
        · rw [folderOther v here]
          exact ⟨rfl, rfl, rfl⟩
      · refine .inr ⟨_, handle, opened, ?_, fun other apart => folderOther v apart _⟩
        rw [folderSet]
        exact opens

namespace Host
open Session

variable {h : Host}

def forget (h : Host) (id : String) : Host :=
  { h with instances := h.instances.filter (·.1 != id) }

@[simp] theorem findForget (h : Host) (id other : String) :
    (h.forget id).find? other = if other = id then none else h.find? other :=
  lookupForgotten h.instances id other

theorem dropForgets {id : String} {i : Instance} (found : h.find? id = some i) :
    (h.drop id).2 = (Use.close.on id h).2.forget id := by
  have twice : (h.instances.filter (·.1 != id)).filter (·.1 != id) =
      h.instances.filter (·.1 != id) := by simp
  cases i with
  | disk network store =>
    simp only [drop, found, Use.onDisk _ found, forget, movedDisk, put, callOn, Use.run]
    rw [List.filter_cons_of_neg (by simp), twice]
  | memory table holding =>
    simp only [drop, found, Use.onMemory _ found, forget, movedMemory, put, callOn, Use.run]
    rw [List.filter_cons_of_neg (by simp), twice]

theorem dropTables (h : Host) (id : String) : (h.drop id).2.tables.length = h.tables.length := by
  unfold drop
  split
  · rfl
  · next i _ => cases i <;> simp [callOn]

theorem newTableShared (h : Host) (table : Nat) : h.newTable.2.shared table = h.shared table := by
  simp only [newTable, shared, List.getD_eq_getElem?_getD, List.getElem?_append]
  split
  · rfl
  · next past =>
    rw [List.getElem?_eq_none (Nat.le_of_not_lt past)]
    cases table - h.tables.length <;> rfl

namespace Disciplined

variable {id : String} (disciplined : h.Disciplined)
include disciplined

theorem movedDisk {network : String} {store : DiskStore} {t : Disk}
    (found : h.find? id = some (.disk network store))
    (turns : (h.volume.disk network store).Turns t) : (h.movedDisk network id t).Disciplined := by
  have finds := (findMoved h network id · t)
  have before (i : Instance) (there : h.find? id = some i) :
      i.place = (Instance.disk network t.store).place := by
    cases found.symm.trans there
    rfl
  refine ⟨fun table => ?_, fun other => ?_⟩
  · exact (disciplined.tables table).same rfl (Nat.le_refl _) fun one holding =>
      findsElsewhere before finds Place.kindsApart.symm
  · by_cases here : other = network
    · subst here
      exact (disciplined.networks other).called found turns finds (folderMoved h other id t)
    · refine (disciplined.networks other).same ?_ fun one next => findsElsewhere before finds
        fun same => here (Place.network.inj same)
      rw [show (h.movedDisk network id t).volume.folder other = h.volume.folder other from
        h.volume.folderOther here t.folder]
      exact .refl _

theorem movedMemory {table : Nat} {holding : Bool} {t : Memory}
    (found : h.find? id = some (.memory table holding))
    (turns : Memory.Turns ⟨holding, h.shared table⟩ t) :
    (h.movedMemory table id t).Disciplined := by
  have finds := (findMovedMemory h table id · t)
  have before (i : Instance) (there : h.find? id = some i) :
      i.place = (Instance.memory table t.holding).place := by
    cases found.symm.trans there
    rfl
  have length : (h.movedMemory table id t).tables.length = h.tables.length := by
    simp [Host.movedMemory, Host.put]
  refine ⟨fun other => ?_, fun network => ?_⟩
  · by_cases here : other = table
    · subst here
      exact (disciplined.tables other).called found turns finds
        (sharedMoved ((disciplined.tables other).within found)) length
    · exact (disciplined.tables other).same (sharedOther (Ne.symm here) t)
        (Nat.le_of_eq length.symm) fun one next =>
          findsElsewhere before finds fun same => here (Place.table.inj same)
  · exact (disciplined.networks network).same (.refl _) fun one store =>
      findsElsewhere before finds Place.kindsApart

theorem on (call : Use) (id : String) : (call.on id h).2.Disciplined := by
  cases found : h.find? id with
  | none =>
    rw [call.onMissing found]
    exact disciplined
  | some i =>
    cases i with
    | disk network store =>
      rw [call.onDisk found]
      exact disciplined.movedDisk found (call.turnsDisk ((disciplined.networks network).honest found))
    | memory table holding =>
      rw [call.onMemory found]
      exact disciplined.movedMemory found
        (call.turnsMemory ((disciplined.tables table).honest found))

theorem onUnlocks {call : Use} (gives : call = .unlock ∨ call = .close) {i : Instance}
    (after : (call.on id h).2.find? id = some i) : i.isLocked = false := by
  cases found : h.find? id with
  | none =>
    rw [call.onMissing found] at after
    cases found.symm.trans after
  | some j =>
    cases j with
    | disk network store =>
      rw [call.onDisk found, findMoved, if_pos rfl] at after
      cases after
      exact Use.unlocksDisk gives ((disciplined.networks network).honest found)
    | memory table holding =>
      rw [call.onMemory found, findMovedMemory, if_pos rfl] at after
      cases after
      exact Use.unlocksMemory gives ((disciplined.tables table).honest found)

theorem forget (unlocked : ∀ i, h.find? id = some i → i.isLocked = false) :
    (h.forget id).Disciplined where
  tables table := (disciplined.tables table).removed
    (fun found => Bool.false_ne_true (unlocked _ found).symm) (findForget h id) rfl
  networks network := (disciplined.networks network).removed
    (fun _ found => Option.isNone_iff_eq_none.mp (Option.isSome_eq_false_iff.mp (unlocked _ found)))
    (findForget h id) rfl

theorem drop (id : String) : (h.drop id).2.Disciplined := by
  cases found : h.find? id with
  | none =>
    rw [dropMissing found]
    exact disciplined
  | some i =>
    rw [dropForgets found]
    exact (disciplined.on .close id).forget fun _ after =>
      disciplined.onUnlocks (.inr rfl) after

theorem putMemory {table : Nat} (missing : h.find? id = none) (within : table < h.tables.length) :
    (h.put id (.memory table false)).Disciplined where
  tables other := (disciplined.tables other).added missing (by simp) fun same => by
    cases same
    exact within
  networks network := (disciplined.networks network).same (.refl _) fun one store =>
    findsElsewhere (fun _ there => nomatch missing.symm.trans there) (findPut h id · _)
      Place.kindsApart

theorem openMemory (id : String) : (h.openMemory id).Disciplined := by
  have dropped := disciplined.drop id
  have grown : (h.drop id).2.newTable.2.Disciplined := by
    refine ⟨fun table => (dropped.tables table).same (newTableShared _ table) ?_ fun _ _ => .rfl,
      fun network => (dropped.networks network).same (.refl _) fun _ _ => .rfl⟩
    simp [newTable]
  refine grown.putMemory ?_ ?_
  · exact (findDrop h id id).trans (if_pos rfl)
  · simp [newTable]

theorem clone (id source : String) : (h.clone id source).Disciplined := by
  unfold Host.clone
  split
  · next table holding found =>
    refine (disciplined.drop id).putMemory ((findDrop h id id).trans (if_pos rfl)) ?_
    rw [dropTables]
    exact (disciplined.tables table).within found
  · exact disciplined

theorem openDisk (id network : String) (settings : StoreSettings) :
    (h.openDisk id network settings).2.Disciplined := by
  have dropped := disciplined.drop id
  unfold Host.openDisk
  cases opened : (h.drop id).2.volume.openStore settings network with
  | mk result volume =>
    rcases Volume.openStoreOpens opened with ⟨fault, rfl, still⟩ | ⟨path, handle, rfl, opens, others⟩
    · simp only [opened]
      exact ⟨fun table => (dropped.tables table).same rfl (Nat.le_refl _) fun _ _ => .rfl,
        fun other => (dropped.networks other).same (still other).spares fun _ _ => .rfl⟩
    · simp only [opened]
      have missing : (h.drop id).2.find? id = none := (findDrop h id id).trans (if_pos rfl)
      refine ⟨fun table => ?_, fun other => ?_⟩
      · exact (dropped.tables table).same rfl (Nat.le_refl _) fun one holding => findsElsewhere
          (fun _ there => nomatch missing.symm.trans there) (findPut _ id · _)
          Place.kindsApart.symm
      · by_cases here : other = network
        · subst here
          exact (dropped.networks other).added missing rfl rfl opens (findPut _ id · _)
        · refine (dropped.networks other).same ?_ fun one next => findsElsewhere
            (fun _ there => nomatch missing.symm.trans there) (findPut _ id · _)
            fun same => here (Place.network.inj same)
          rw [show (Host.put _ id _).volume.folder other = volume.folder other from rfl,
            others other here]
          exact .refl _

theorem edit (network : String) {change : Folder → Folder}
    (spares : ∀ d : Folder, d.Spares (change d)) : (h.edit network change).Disciplined where
  tables table := (disciplined.tables table).same rfl (Nat.le_refl _) fun _ _ => .rfl
  networks other := by
    refine (disciplined.networks other).same ?_ fun _ _ => .rfl
    by_cases here : other = network
    · rw [here]
      simp only [Host.edit, Volume.folderSet]
      exact spares _
    · rw [show (h.edit network change).volume.folder other = h.volume.folder other from
        h.volume.folderOther here _]
      exact .refl _

theorem step (move : Move) : (move.step h).Disciplined := by
  cases move with
  | openMemory id => exact disciplined.openMemory id
  | clone id source => exact disciplined.clone id source
  | openDisk id network settings => exact disciplined.openDisk id network settings
  | drop id => exact disciplined.drop id
  | use id call => exact disciplined.on call id
  | tamper network change spares => exact disciplined.edit network spares

theorem run (moves : List Move) : (Move.run moves h).Disciplined := by
  induction moves generalizing h with
  | nil => exact disciplined
  | cons move rest ih => exact ih (disciplined.step move)

end Disciplined

end Host
end AddressPool
