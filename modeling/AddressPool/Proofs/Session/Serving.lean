import AddressPool.Proofs.Session.Pool
import AddressPool.Proofs.Store.Disk

/-! The instances of a session on disk. They share one lock file, each has a handle of its
own, and at most one has the lock; its table is the pool's, and the files record it. -/
namespace AddressPool

structure Folder.Alike (d e : Folder) : Prop where
  shape : e.shape = d.shape
  names : e.names = d.names
  nodes : e.nodes = d.nodes

namespace Folder.Alike

variable {d e : Folder} (alike : Alike d e)
include alike

theorem content (id : Nat) : e.content? id = d.content? id := by
  rw [content?, content?, alike.nodes]

theorem holder (id : Nat) : e.holder? id = d.holder? id := by
  rw [holder?, holder?, alike.nodes]

theorem files : e.files = d.files := by
  funext name
  have same : e.content? = d.content? := funext alike.content
  simp only [Folder.files, alike.names, same]

theorem tidy (tidy : Tidy d) : Tidy e := by
  refine ⟨alike.shape.trans tidy.shape, ?_, ?_⟩
  · intro name other id one two
    rw [alike.names] at one two
    exact tidy.apart one two
  · intro name id bound
    rw [alike.names] at bound
    rw [alike.content]
    exact tidy.plain bound

end Folder.Alike

theorem Disk.Holds.alike {store : DiskStore} {d e : Folder} {handle : Folder.LockHandle}
    {locked : LockedState} {log : List Operation} {covered : Nat}
    (holds : Holds ⟨store, d⟩ handle locked log covered) (alike : d.Alike e) :
    Holds ⟨store, e⟩ handle locked log covered where
  opened := holds.opened
  loaded := holds.loaded
  lock := by
    simp only [alike.names]
    exact holds.lock
  holder := (alike.holder handle.node).trans holds.holder
  ready := by
    obtain ⟨⟨tidy, ⟨l, records, rest⟩, node⟩, table⟩ := holds.ready
    refine ⟨⟨alike.tidy tidy, ⟨l, ?_, rest⟩, ?_⟩, table⟩
    · simp only [alike.files]
      exact records
    · simp only [alike.names]
      exact node

namespace Session

structure Serves (network : String) (h : Host) (node : Nat) (p : Pool) (log : List Operation)
    (covered : Nat) : Prop where
  lock : (h.volume.folder network).names .lock = some node
  stores : ∀ {id i}, h.find? id = some i → ∃ store handle, i = .disk network store ∧
    store.handle = some handle ∧ handle.node = node ∧
    handle.id < (h.volume.folder network).handles
  apart : ∀ {id other store next}, h.find? id = some (.disk network store) →
    h.find? other = some (.disk network next) → store.handle = next.handle → id = other
  unlocked : ∀ {id store}, h.find? id = some (.disk network store) → p.holding ≠ some id →
    store.locked = none
  free : p.holding = none → (h.volume.folder network).holder? node = none ∧
    (h.volume.folder network).Tidy ∧ ∃ l, Records l (h.volume.folder network).files log covered
  held : ∀ {id}, p.holding = some id → ∃ store handle locked,
    h.find? id = some (.disk network store) ∧
      Disk.Holds (h.volume.disk network store) handle locked log covered
  table : p.table = Table.empty.applyAll log
  known : ∀ id, (h.find? id).isSome = p.known id

structure Wrecked (d : Folder) (log : List Operation) (covered : Nat) : Prop where
  tidy : d.Tidy
  records : ∃ l, Records l d.files log covered
  halted : d.Halted

theorem Wrecked.ofBroken {s t : Disk} {log : List Operation} {covered : Nat}
    (broken : Disk.Broken s t log covered) : Wrecked t.folder log covered :=
  ⟨broken.tidy, broken.records, broken.halted⟩

namespace Serves

variable {network id : String} {h : Host} {node : Nat} {p : Pool} {log : List Operation}
variable {covered : Nat} {store : DiskStore}

theorem found (serves : Serves network h node p log covered) (known : p.known id = true) :
    ∃ store, h.find? id = some (.disk network store) := by
  have there := serves.known id
  rw [known, Option.isSome_iff_exists] at there
  obtain ⟨i, there⟩ := there
  obtain ⟨store, _, rfl, _⟩ := serves.stores there
  exact ⟨store, there⟩

theorem missing (serves : Serves network h node p log covered) (known : p.known id = false) :
    h.find? id = none := by
  have there := serves.known id
  rw [known] at there
  exact Option.isSome_eq_false_iff.mp there |> Option.isNone_iff_eq_none.mp

theorem freeOf (serves : Serves network h node p log covered) (nobody : p.holding = none)
    (found : h.find? id = some (.disk network store)) :
    ∃ handle, Disk.Free (h.volume.disk network store) handle log covered := by
  obtain ⟨_, handle, same, opened, place, _⟩ := serves.stores found
  cases same
  obtain ⟨holder, tidy, records⟩ := serves.free nobody
  refine ⟨handle, opened, serves.unlocked found (by simp [nobody]), ?_, ?_, tidy, records⟩
  · rw [place]
    exact serves.lock
  · rw [place]
    exact holder

theorem holdsOf (serves : Serves network h node p log covered) (holding : p.holding = some id)
    (found : h.find? id = some (.disk network store)) :
    ∃ handle locked, Disk.Holds (h.volume.disk network store) handle locked log covered := by
  obtain ⟨_, handle, locked, there, holds⟩ := serves.held holding
  rw [found] at there
  cases there
  exact ⟨handle, locked, holds⟩

theorem waitsOf (serves : Serves network h node p log covered) {other : String}
    (holding : p.holding = some other) (differ : other ≠ id)
    (found : h.find? id = some (.disk network store)) :
    ∃ handle, Disk.Waits (h.volume.disk network store) handle := by
  obtain ⟨_, handle, same, opened, place, _⟩ := serves.stores found
  cases same
  obtain ⟨first, own, locked, there, holds⟩ := serves.held holding
  have ownOpened : first.handle = some own := holds.opened
  have ownPlace : own.node = node := by
    obtain ⟨_, again, same, reopened, place, _⟩ := serves.stores there
    cases same
    rw [Option.some.inj (ownOpened.symm.trans reopened)]
    exact place
  refine ⟨handle, opened, serves.unlocked found (by simp [holding, differ]), own.id, ?_, ?_⟩
  · rw [place, ← ownPlace]
    exact holds.holder
  · intro same
    have handles : own = handle := by
      cases own
      cases handle
      simp_all
    apply differ
    apply serves.apart there found
    rw [ownOpened, opened, handles]

theorem freeAlike (serves : Serves network h node p log covered) {next : Host}
    (alike : (h.volume.folder network).Alike (next.volume.folder network))
    (nobody : p.holding = none) :
    (next.volume.folder network).holder? node = none ∧ (next.volume.folder network).Tidy ∧
      ∃ l, Records l (next.volume.folder network).files log covered := by
  obtain ⟨holder, tidy, records⟩ := serves.free nobody
  refine ⟨(alike.holder node).trans holder, alike.tidy tidy, ?_⟩
  rw [alike.files]
  exact records

theorem heldAlike (serves : Serves network h node p log covered) {next : Host}
    (alike : (h.volume.folder network).Alike (next.volume.folder network))
    (holding : p.holding = some id) (instances : next.find? id = h.find? id) :
    ∃ store handle locked, next.find? id = some (.disk network store) ∧
      Disk.Holds (next.volume.disk network store) handle locked log covered := by
  obtain ⟨store, handle, locked, there, holds⟩ := serves.held holding
  exact ⟨store, handle, locked, instances.trans there, holds.alike alike⟩

theorem alike (serves : Serves network h node p log covered) {next : Host}
    (alike : (h.volume.folder network).Alike (next.volume.folder network))
    (handles : (h.volume.folder network).handles ≤ (next.volume.folder network).handles)
    (instances : ∀ id, next.find? id = h.find? id) :
    Serves network next node p log covered where
  lock := by rw [alike.names]; exact serves.lock
  stores there := by
    rw [instances] at there
    obtain ⟨store, handle, same, opened, place, old⟩ := serves.stores there
    exact ⟨store, handle, same, opened, place, Nat.lt_of_lt_of_le old handles⟩
  apart one two same := by
    rw [instances] at one two
    exact serves.apart one two same
  unlocked there differ := by
    rw [instances] at there
    exact serves.unlocked there differ
  free nobody := serves.freeAlike alike nobody
  held holding := serves.heldAlike alike holding (instances _)
  table := serves.table
  known other := by
    rw [instances]
    exact serves.known other

theorem unmoved (serves : Serves network h node p log covered)
    (found : h.find? id = some (.disk network store)) :
    Serves network (h.movedDisk network id (h.volume.disk network store)) node p log covered := by
  apply serves.alike
  · rw [Host.folderMoved]
    exact ⟨rfl, rfl, rfl⟩
  · rw [Host.folderMoved]
    exact Nat.le_refl _
  · exact Host.findUnmoved found

theorem moved (serves : Serves network h node p log covered)
    (found : h.find? id = some (.disk network store)) {t : Disk} {next : Pool}
    {longer : List Operation} (only : p.holding = none ∨ p.holding = some id)
    (follows : (h.volume.folder network).Follows t.folder)
    (same : t.store.handle = store.handle)
    (state : (next.holding = none ∧ ∃ handle, Disk.Free t handle longer covered) ∨
      (next.holding = some id ∧ ∃ handle locked, Disk.Holds t handle locked longer covered))
    (names : next.known = p.known) (table : next.table = Table.empty.applyAll longer) :
    Serves network (h.movedDisk network id t) node next longer covered where
  lock := by
    rw [Host.folderMoved, follows.lock]
    exact serves.lock
  stores {other i} there := by
    rw [Host.folderMoved, follows.handles]
    rw [Host.findMoved] at there
    split at there
    · cases there
      obtain ⟨_, handle, again, opened, rest⟩ := serves.stores found
      cases again
      exact ⟨t.store, handle, rfl, same.trans opened, rest⟩
    · exact serves.stores there
  apart {one other first second} there here equal := by
    have handleOf {name : String} {s : DiskStore}
        (there : (h.movedDisk network id t).find? name = some (.disk network s)) :
        ∃ before, h.find? name = some (.disk network before) ∧ s.handle = before.handle := by
      rw [Host.findMoved] at there
      split at there
      · next own =>
        cases there
        exact ⟨store, by rw [own, found], same⟩
      · exact ⟨s, there, rfl⟩
    obtain ⟨before, there, one⟩ := handleOf there
    obtain ⟨after, here, two⟩ := handleOf here
    exact serves.apart there here (one.symm.trans (equal.trans two))
  unlocked {other s} there differ := by
    rw [Host.findMoved] at there
    split at there
    · next own =>
      cases there
      rcases state with ⟨_, handle, free⟩ | ⟨holding, _⟩
      · exact free.unlocked
      · exact absurd (own ▸ holding) differ
    · next own =>
      apply serves.unlocked there
      rcases only with nobody | me
      · simp [nobody]
      · simp [me, Ne.symm own]
  free nobody := by
    rw [Host.folderMoved]
    rcases state with ⟨_, handle, free⟩ | ⟨holding, _⟩
    · obtain ⟨_, old, again, opened, place, _⟩ := serves.stores found
      cases again
      have handles : handle = old :=
        Option.some.inj (free.opened.symm.trans (same.trans opened))
      refine ⟨?_, free.tidy, free.records⟩
      rw [← place, ← handles]
      exact free.holder
    · rw [nobody] at holding
      contradiction
  held {other} holding := by
    rcases state with ⟨nobody, _⟩ | ⟨me, handle, locked, holds⟩
    · rw [nobody] at holding
      contradiction
    · rw [me] at holding
      cases holding
      refine ⟨t.store, handle, locked, by rw [Host.findMoved, if_pos rfl], ?_⟩
      rw [Volume.disk, Host.folderMoved]
      exact holds
  table := table
  known other := by
    rw [Host.findMoved, names]
    split
    · next own =>
      rw [own, ← serves.known id, found]
      rfl
    · exact serves.known other

end Serves
end Session
end AddressPool
