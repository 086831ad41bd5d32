import AddressPool.Proofs.Session.Step

/-! The instances of a host by name, and what a call on one of them changes: that instance,
its folder or its table, and nothing else. -/
namespace AddressPool

namespace Volume

@[simp] theorem folderSet (v : Volume) (network : String) (d : Folder) :
    (v.setFolder network d).folder network = d := by
  simp [folder, setFolder]

theorem folderOther (v : Volume) {network other : String} (apart : other ≠ network) (d : Folder) :
    (v.setFolder network d).folder other = v.folder other := by
  simp [folder, setFolder, Std.ExtTreeMap.getD_insert, Ne.symm apart]

end Volume

namespace Host

theorem lookupForgotten (instances : List (String × Instance)) (id other : String) :
    (instances.filter (·.1 != id)).lookup other =
      if other = id then none else instances.lookup other := by
  induction instances with
  | nil => simp
  | cons entry rest ih =>
    obtain ⟨name, i⟩ := entry
    by_cases gone : name = id
    · subst gone
      rw [List.filter_cons_of_neg (by simp), ih]
      by_cases same : other = name
      · rw [if_pos same, if_pos same]
      · rw [if_neg same, if_neg same, List.lookup_cons, beq_eq_false_iff_ne.mpr same]
    · rw [List.filter_cons_of_pos (by simpa using gone), List.lookup_cons, List.lookup_cons, ih]
      by_cases same : other = name
      · subst same
        simp only [BEq.rfl, if_neg gone]
      · rw [beq_eq_false_iff_ne.mpr same]

@[simp] theorem findPut (h : Host) (id other : String) (i : Instance) :
    (h.put id i).find? other = if other = id then some i else h.find? other := by
  by_cases same : other = id
  · simp [find?, put, same]
  · simp [find?, put, List.lookup_cons, beq_eq_false_iff_ne.mpr same, lookupForgotten, same]

theorem callOnInstances {α : Type} (h : Host) (i : Instance)
    (run : {σ : Type} → [Store σ] → σ → α × σ) : (h.callOn i run).2.2.instances = h.instances := by
  cases i <;> rfl

@[simp] theorem findDrop (h : Host) (id other : String) :
    (h.drop id).2.find? other = if other = id then none else h.find? other := by
  unfold drop
  cases found : h.find? id with
  | none =>
    by_cases same : other = id
    · rw [if_pos same, same]
      exact found
    · rw [if_neg same]
  | some i =>
    simp only [find?, callOnInstances]
    exact lookupForgotten h.instances id other

theorem dropMissing {h : Host} {id : String} (missing : h.find? id = none) :
    h.drop id = (false, h) := by
  simp only [drop, missing]

def movedDisk (h : Host) (network id : String) (t : Disk) : Host :=
  { h with volume := h.volume.setFolder network t.folder }.put id (.disk network t.store)

@[simp] theorem folderMoved (h : Host) (network id : String) (t : Disk) :
    (h.movedDisk network id t).volume.folder network = t.folder :=
  Volume.folderSet h.volume network t.folder

@[simp] theorem findMoved (h : Host) (network id other : String) (t : Disk) :
    (h.movedDisk network id t).find? other =
      if other = id then some (.disk network t.store) else h.find? other :=
  findPut _ id other _

theorem findUnmoved {h : Host} {network id : String} {store : DiskStore}
    (found : h.find? id = some (.disk network store)) (other : String) :
    (h.movedDisk network id (h.volume.disk network store)).find? other = h.find? other := by
  rw [findMoved]
  split
  · next same =>
    rw [same, found]
    rfl
  · rfl

theorem callDisk {α : Type} {h : Host} {id network : String} {store : DiskStore}
    (found : h.find? id = some (.disk network store))
    (run : {σ : Type} → [Store σ] → σ → α × σ) :
    h.call id run = some ((run (h.volume.disk network store)).1,
      h.movedDisk network id (run (h.volume.disk network store)).2) := by
  simp only [call, found, Option.map_some, callOn, movedDisk]

theorem callKnown {α : Type} {h next : Host} {id : String} {answer : α}
    {run : {σ : Type} → [Store σ] → σ → α × σ} (called : h.call id run = some (answer, next))
    (other : String) : (next.find? other).isSome = (h.find? other).isSome := by
  unfold call at called
  cases found : h.find? id with
  | none =>
    rw [found] at called
    cases called
  | some i =>
    simp only [found, Option.map_some, Option.some.injEq, Prod.mk.injEq] at called
    obtain ⟨_, rfl⟩ := called
    rw [findPut]
    split
    · next same => rw [same, found]; rfl
    · simp only [find?, callOnInstances]

theorem callMissing {α : Type} {h : Host} {id : String} (missing : h.find? id = none)
    (run : {σ : Type} → [Store σ] → σ → α × σ) : h.call id run = none := by
  simp only [call, missing, Option.map_none]

def movedMemory (h : Host) (table : Nat) (id : String) (t : Memory) : Host :=
  { h with tables := h.tables.set table t.shared }.put id (.memory table t.holding)

@[simp] theorem findMovedMemory (h : Host) (table : Nat) (id other : String) (t : Memory) :
    (h.movedMemory table id t).find? other =
      if other = id then some (.memory table t.holding) else h.find? other :=
  findPut _ id other _

theorem sharedMoved {h : Host} {table : Nat} (within : table < h.tables.length) {id : String}
    {t : Memory} : (h.movedMemory table id t).shared table = t.shared := by
  simp [shared, movedMemory, put, within]

theorem sharedOther {h : Host} {table other : Nat} (apart : table ≠ other) {id : String}
    (t : Memory) : (h.movedMemory table id t).shared other = h.shared other := by
  simp [shared, movedMemory, put, apart]

theorem callMemory {α : Type} {h : Host} {id : String} {table : Nat} {holding : Bool}
    (found : h.find? id = some (.memory table holding))
    (run : {σ : Type} → [Store σ] → σ → α × σ) :
    h.call id run = some ((run (Memory.mk holding (h.shared table))).1,
      h.movedMemory table id (run (Memory.mk holding (h.shared table))).2) := by
  simp only [call, found, Option.map_some, callOn, movedMemory]

end Host
end AddressPool
