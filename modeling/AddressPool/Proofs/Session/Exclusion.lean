import AddressPool.Proofs.Session.Undisturbed

/-! What the order among the instances comes to for those who call them. Whatever has happened, a
lock is taken by a live instance or free; an attempt at it goes on only if it is free or the
caller's own already, and one that fails leaves it free. Until the one that has it gives it up,
nothing that the others do changes what that one sees. -/
namespace AddressPool
open Session

namespace Host

structure Excludes (h : Host) : Prop where
  flag : ∀ table, (h.shared table).held = true ↔ ∃ id, h.find? id = some (.memory table true)
  owner : ∀ id network store, h.find? id = some (.disk network store) →
    ((h.volume.disk network store).Owns ↔ store.locked.isSome = true)
  live : ∀ network node number, (h.volume.folder network).holder? node = some number →
    ∃ id store, h.find? id = some (.disk network store) ∧ store.handle = some ⟨node, number⟩
  one : ∀ id other i j, h.find? id = some i → h.find? other = some j → i.place = j.place →
    i.isLocked = true → j.isLocked = true → id = other

structure Unowned (h : Host) (place : Place) : Prop where
  nobody : ∀ id i, h.find? id = some i → i.place = place → i.isLocked = false
  table : ∀ number, place = .table number → (h.shared number).held = false
  network : ∀ name, place = .network name → ∀ node, (h.volume.folder name).holder? node = none

structure Same (h g : Host) : Prop where
  found : ∀ id, g.find? id = h.find? id
  folders : ∀ network, g.volume.folder network = h.volume.folder network
  tables : g.tables = h.tables

inductive Attempts (h g : Host) (id : String) (i : Instance) : Answer → Prop where
  | again (locked : i.isLocked = true) (same : h.Same g) : Attempts h g id i (.done (.ok ()))
  | takes (free : h.Unowned i.place) (j : Instance) (now : g.find? id = some j)
      (locked : j.isLocked = true) (there : j.place = i.place) : Attempts h g id i (.done (.ok ()))
  | waits (other : String) (apart : other ≠ id) (j : Instance) (rival : h.find? other = some j)
      (there : j.place = i.place) (locked : j.isLocked = true) (same : h.Same g) :
      Attempts h g id i (.done (.error .held))
  | closed (network : String) (store : DiskStore) (disk : i = .disk network store)
      (gone : store.handle = none) (same : h.Same g) : Attempts h g id i (.done (.error .closed))
  | fails (free : h.Unowned i.place) (fault : Fault) (still : g.Unowned i.place) :
      Attempts h g id i (.done (.error fault))

structure Guards (h : Host) (id : String) (i : Instance) : Prop where
  attempts : Attempts h (Use.lock.on id h).2 id i (Use.lock.on id h).1
  refused : ∀ (call : Use) (answer : Answer), call.refusal? = some answer →
    ((call.on id h).1 = answer ↔ i.isLocked = false) ∧
      (i.isLocked = false → h.Same (call.on id h).2)
  gives : i.isLocked = true → (Use.unlock.on id h).2.Unowned i.place ∧
    (Use.close.on id h).2.Unowned i.place ∧ (h.drop id).2.Unowned i.place
  undisturbed : i.isLocked = true → ∀ moves : List Move,
    (∀ move ∈ moves, move.Apart id i.place) →
    (Move.run moves h).find? id = some i ∧ i.place.Stands h (Move.run moves h)

variable {h g : Host} {id : String} {i : Instance}

theorem Same.unmovedDisk {network : String} {store : DiskStore}
    (found : h.find? id = some (.disk network store)) :
    h.Same (h.movedDisk network id (h.volume.disk network store)) where
  found := findUnmoved found
  folders other := by
    by_cases here : other = network
    · rw [here, folderMoved]
      rfl
    · exact h.volume.folderOther here _
  tables := rfl

theorem Same.unmovedMemory {table : Nat} {holding : Bool} (within : table < h.tables.length)
    (found : h.find? id = some (.memory table holding)) :
    h.Same (h.movedMemory table id ⟨holding, h.shared table⟩) where
  found other := by
    rw [findMovedMemory]
    split
    · next same => rw [same, found]
    · rfl
  folders _ := rfl
  tables := by
    simp [movedMemory, put, shared, within]

namespace Disciplined

variable (disciplined : h.Disciplined)
include disciplined

theorem excludes : h.Excludes where
  flag table := (disciplined.tables table).flag
  owner id network store found := ((disciplined.networks network).honest found).owns.symm
  live network node number held := by
    obtain ⟨id, store, found, opened, _⟩ := (disciplined.networks network).live.mp held
    exact ⟨id, store, found, opened⟩
  one _ _ _ _ found there same locked too := disciplined.one found there same locked too

theorem unowned {place : Place}
    (nobody : ∀ id i, h.find? id = some i → i.place = place → i.isLocked = false) :
    h.Unowned place where
  nobody := nobody
  table number here := by
    refine Bool.eq_false_iff.mpr fun held => ?_
    obtain ⟨id, found⟩ := (disciplined.tables number).flag.mp held
    exact Bool.false_ne_true (nobody id _ found here.symm).symm
  network name here node := by
    refine Option.eq_none_iff_forall_ne_some.mpr fun number held => ?_
    obtain ⟨id, store, found, _, locked⟩ := (disciplined.networks name).live.mp held
    exact Bool.false_ne_true ((nobody id _ found here.symm).symm.trans locked)

theorem unownedNetwork {network : String} {store : DiskStore} {handle : Folder.LockHandle}
    (found : h.find? id = some (.disk network store)) (opened : store.handle = some handle)
    (free : (h.volume.folder network).holder? handle.node = none) :
    h.Unowned (.network network) := by
  have guarded := disciplined.networks network
  refine disciplined.unowned fun other j there place => Bool.eq_false_iff.mpr fun locked => ?_
  cases j with
  | memory table holding => exact absurd place.symm Place.kindsApart
  | disk name rival =>
    cases place
    obtain ⟨⟨node, number⟩, same⟩ := Option.ne_none_iff_exists'.mp (guarded.opened there locked)
    have bound := (guarded.known found opened).1.symm.trans (guarded.known there same).1
    cases bound
    exact nomatch free.symm.trans (guarded.live.mpr ⟨other, rival, there, same, locked⟩)

theorem unownedTable {table : Nat} (free : (h.shared table).held = false) :
    h.Unowned (.table table) := by
  refine disciplined.unowned fun other j there place => Bool.eq_false_iff.mpr fun locked => ?_
  cases j with
  | disk name rival => exact absurd place Place.kindsApart
  | memory number holding =>
    cases place
    cases locked
    exact Bool.false_ne_true
      (free.symm.trans ((disciplined.tables table).flag.mpr ⟨other, there⟩))

theorem attempts (found : h.find? id = some i) :
    Attempts h (Use.lock.on id h).2 id i (Use.lock.on id h).1 := by
  have after := disciplined.on .lock id
  cases i with
  | disk network store =>
    have guarded := disciplined.networks network
    have locking := Disk.lockLocking (guarded.honest found)
    rw [Use.lock.onDisk found] at after ⊢
    change Attempts h (h.movedDisk network id (h.volume.disk network store).lock.2) id _
      (.done (h.volume.disk network store).lock.1)
    change (h.movedDisk network id (h.volume.disk network store).lock.2).Disciplined at after
    generalize (h.volume.disk network store).lock.1 = result at locking ⊢
    generalize (h.volume.disk network store).lock.2 = t at locking after ⊢
    cases locking with
    | again locked => exact .again locked (.unmovedDisk found)
    | closed unlocked closed => exact .closed network store rfl closed (.unmovedDisk found)
    | waits unlocked handle opened number held apart =>
      obtain ⟨other, rival, there, same, locked⟩ := guarded.live.mp held
      refine .waits other ?_ _ there rfl locked (.unmovedDisk found)
      rintro rfl
      cases found.symm.trans there
      exact apart (congrArg Folder.LockHandle.id (Option.some.inj (same.symm.trans opened)))
    | fails handle opened free fault d passes =>
      refine .fails (disciplined.unownedNetwork found opened free) fault ?_
      exact after.unownedNetwork ((findMoved h network id id _).trans (if_pos rfl)) opened
        ((congrArg (Folder.holder? · handle.node) (folderMoved h network id _)).trans passes.holder)
    | takes handle opened free locked d passes =>
      exact .takes (disciplined.unownedNetwork found opened free) _
        ((findMoved h network id id _).trans (if_pos rfl)) rfl rfl
  | memory table holding =>
    have latched := disciplined.tables table
    have within := latched.within found
    rw [Use.lock.onMemory found]
    change Attempts h (h.movedMemory table id (Memory.mk holding (h.shared table)).lock.2) id _
      (.done (Memory.mk holding (h.shared table)).lock.1)
    unfold Memory.lock
    split
    · next locked => exact .again locked (.unmovedMemory within found)
    · next idle =>
      split
      · next held =>
        obtain ⟨other, there⟩ := latched.flag.mp held
        refine .waits other ?_ _ there rfl rfl (.unmovedMemory within found)
        rintro rfl
        cases found.symm.trans there
        exact idle rfl
      · next free =>
        exact .takes (disciplined.unownedTable (Bool.eq_false_iff.mpr free)) _
          ((findMovedMemory h table id id _).trans (if_pos rfl)) rfl rfl

theorem refused (found : h.find? id = some i) {call : Use} {answer : Answer}
    (needs : call.refusal? = some answer) : ((call.on id h).1 = answer ↔ i.isLocked = false) ∧
      (i.isLocked = false → h.Same (call.on id h).2) := by
  cases i with
  | disk network store =>
    rw [call.onDisk found]
    cases locked : store.locked with
    | none =>
      rw [Use.refusedDisk needs (s := h.volume.disk network store) locked]
      exact ⟨iff_of_true rfl (congrArg Option.isSome locked), fun _ => .unmovedDisk found⟩
    | some state =>
      have now : store.locked.isSome = true := congrArg Option.isSome locked
      have busy (idle : store.locked.isSome = false) : False :=
        Bool.false_ne_true (idle.symm.trans now)
      exact ⟨iff_of_false (Use.servedDisk needs now) busy, fun idle => (busy idle).elim⟩
  | memory table holding =>
    rw [call.onMemory found]
    cases holding with
    | false =>
      rw [Use.refusedMemory needs rfl]
      exact ⟨iff_of_true rfl rfl, fun _ =>
        .unmovedMemory ((disciplined.tables table).within found) found⟩
    | true =>
      have busy (idle : true = false) : False := Bool.false_ne_true idle.symm
      exact ⟨iff_of_false (Use.servedMemory needs rfl) busy, fun idle => (busy idle).elim⟩

theorem given (found : h.find? id = some i) (locked : i.isLocked = true) (after : g.Disciplined)
    (mine : ∀ j, g.find? id = some j → j.isLocked = false)
    (others : ∀ other, other ≠ id → g.find? other = h.find? other) : g.Unowned i.place := by
  refine after.unowned fun other j there place => ?_
  by_cases own : other = id
  · exact mine j (own ▸ there)
  · rw [others other own] at there
    exact Bool.eq_false_iff.mpr fun too => own (disciplined.one there found place too locked)

theorem guards (found : h.find? id = some i) : h.Guards id i where
  attempts := disciplined.attempts found
  refused _ _ needs := disciplined.refused found needs
  gives locked := by
    have given (call : Use) (gives : call = .unlock ∨ call = .close) :
        (call.on id h).2.Unowned i.place :=
      disciplined.given found locked (disciplined.on call id)
        (fun _ after => disciplined.onUnlocks gives after) fun _ apart => call.onOthers apart
    refine ⟨given .unlock (.inl rfl), given .close (.inr rfl), ?_⟩
    refine disciplined.given found locked (disciplined.drop id) ?_ ?_
    · intro j there
      rw [findDrop, if_pos rfl] at there
      cases there
    · exact fun other apart => findsOther (findDrop h id) apart
  undisturbed locked moves apart := disciplined.undisturbed found locked moves apart

end Disciplined

/-- Any number of instances, whatever is done with them and to the files. -/
theorem lockDisciplined {h : Host} (fresh : h.Fresh) (moves : List Move) :
    (Move.run moves h).Excludes ∧
      ∀ id i, (Move.run moves h).find? id = some i → (Move.run moves h).Guards id i :=
  ⟨(fresh.disciplined.run moves).excludes, fun _ _ found =>
    (fresh.disciplined.run moves).guards found⟩

theorem Fresh.empty (root : String) : (Host.empty root).Fresh where
  instances := rfl
  tables _ := rfl
  holders _ _ := rfl
  file _ _ bound := nomatch bound

def rivals : List Move :=
  [.openDisk "a" "net" {}, .openDisk "b" "net" {}, .use "a" .lock, .use "a" .lock,
    .openMemory "m", .use "m" .lock, .clone "n" "m"]

def wreck : List Move :=
  [.drop "a", .tamper "net" (.extend .journal [1]) fun d => d.extendSpares (by decide) [1],
    .tamper "net" (.replaceByDevice .temporary .fullDevice) fun d =>
      d.replaceByDeviceSpares (by decide) .fullDevice,
    .tamper "net" (.write .snapshot [0]) fun d => d.writeSpares (by decide) [0]]

theorem rivalsDisciplined :
    let h := Move.run rivals (Host.empty "/data")
    let g := Move.run (rivals ++ wreck) (Host.empty "/data")
    (Host.empty "/data").Fresh ∧ h.Excludes ∧ g.Excludes ∧
    (∃ i, h.find? "a" = some i ∧ i.isLocked = true ∧ h.Guards "a" i) ∧
    (∃ i, h.find? "n" = some i ∧ i.isLocked = false ∧ (h.shared 0).held = true ∧ h.Guards "n" i) ∧
    ((Use.lock.on "b" h).1 = .done (.error .held) ∧ h.Same (Use.lock.on "b" h).2) ∧
    (Use.lock.on "b" g).1 = .done (.error (.damage (.snapshot (.short 1)))) ∧
      (Use.lock.on "b" g).2.Unowned (.network "net") := by
  intro h g
  obtain ⟨before, here⟩ := lockDisciplined (.empty "/data") rivals
  obtain ⟨after, there⟩ := lockDisciplined (.empty "/data") (rivals ++ wreck)
  have waits : (Use.lock.on "b" h).1 = .done (.error .held) := rfl
  have fails : (Use.lock.on "b" g).1 = .done (.error (.damage (.snapshot (.short 1)))) := rfl
  refine ⟨.empty "/data", before, after, ⟨_, rfl, rfl, here "a" _ rfl⟩,
    ⟨_, rfl, rfl, rfl, here "n" _ rfl⟩, ⟨waits, ?_⟩, fails, ?_⟩
  · have attempt := (here "b" _ rfl).attempts
    change Attempts h _ "b" _ (Use.lock.on "b" h).1 at attempt
    rw [waits] at attempt
    cases attempt with
    | waits other apart j rival there locked same => exact same
    | fails free fault still => exact absurd (free.nobody "a" _ rfl rfl) (by decide)
  · have attempt := (there "b" _ rfl).attempts
    change Attempts g _ "b" _ (Use.lock.on "b" g).1 at attempt
    rw [fails] at attempt
    cases attempt with
    | fails free fault still => exact still

end Host
end AddressPool
