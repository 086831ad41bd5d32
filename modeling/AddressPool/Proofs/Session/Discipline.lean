import AddressPool.Proofs.Session.Instances
import AddressPool.Proofs.Store.Passing

/-! The order kept among many instances, each on its network's folder or on its table. At every
place a locked instance has the lock, nobody else has it, and it is taken only while one is locked;
a call on one instance, an instance that comes and one that goes keep that order. -/
namespace AddressPool

inductive Place where
  | network (name : String)
  | table (number : Nat)
  deriving DecidableEq

def Instance.place : Instance → Place
  | .disk network _ => .network network
  | .memory table _ => .table table

theorem Place.kindsApart {name : String} {number : Nat} : Place.network name ≠ .table number := by
  intro same
  cases same

namespace Host

variable {h g : Host}

structure Fresh (h : Host) : Prop where
  instances : h.instances = []
  tables : ∀ table, (h.shared table).held = false
  holders : ∀ network node, (h.volume.folder network).holder? node = none
  file : ∀ network node, (h.volume.folder network).names .lock = some node →
    node < (h.volume.folder network).nodes.length

structure Latched (h : Host) (table : Nat) : Prop where
  within : ∀ {id holding}, h.find? id = some (.memory table holding) → table < h.tables.length
  flag : (h.shared table).held = true ↔ ∃ id, h.find? id = some (.memory table true)
  one : ∀ {id other}, h.find? id = some (.memory table true) →
    h.find? other = some (.memory table true) → id = other

structure Guarded (h : Host) (network : String) : Prop where
  file : ∀ {node}, (h.volume.folder network).names .lock = some node →
    node < (h.volume.folder network).nodes.length
  known : ∀ {id store handle}, h.find? id = some (.disk network store) →
    store.handle = some handle → (h.volume.folder network).names .lock = some handle.node ∧
      handle.id < (h.volume.folder network).handles
  apart : ∀ {id other store rival handle}, h.find? id = some (.disk network store) →
    h.find? other = some (.disk network rival) → store.handle = some handle →
    rival.handle = some handle → id = other
  opened : ∀ {id store}, h.find? id = some (.disk network store) →
    store.locked.isSome = true → store.handle ≠ none
  live : ∀ {node number}, (h.volume.folder network).holder? node = some number ↔
    ∃ id store, h.find? id = some (.disk network store) ∧ store.handle = some ⟨node, number⟩ ∧
      store.locked.isSome = true

structure Disciplined (h : Host) : Prop where
  tables : ∀ table, h.Latched table
  networks : ∀ network, h.Guarded network

section Finds

variable {id other : String} {i : Instance}

theorem findsOther {e : Option Instance}
    (finds : ∀ other, g.find? other = if other = id then e else h.find? other)
    (apart : other ≠ id) : g.find? other = h.find? other :=
  (finds other).trans (if_neg apart)

theorem findsOwn {j : Instance}
    (finds : ∀ other, g.find? other = if other = id then some j else h.find? other)
    (there : g.find? other = some i) : other = id ∧ i = j ∨ other ≠ id ∧ h.find? other = some i := by
  rw [finds] at there
  split at there
  · next same => exact .inl ⟨same, (Option.some.inj there).symm⟩
  · next apart => exact .inr ⟨apart, there⟩

theorem findsKept (finds : ∀ other, g.find? other = if other = id then none else h.find? other)
    (there : g.find? other = some i) : h.find? other = some i := by
  rw [finds] at there
  split at there
  · cases there
  · exact there

theorem findsElsewhere {j k : Instance} (before : ∀ i, h.find? id = some i → i.place = j.place)
    (finds : ∀ other, g.find? other = if other = id then some j else h.find? other)
    (elsewhere : k.place ≠ j.place) : g.find? other = some k ↔ h.find? other = some k := by
  rw [finds]
  split
  · next here =>
    subst here
    constructor
    · rintro ⟨⟩
      exact absurd rfl elsewhere
    · intro there
      exact absurd (before k there) elsewhere
  · rfl

end Finds

namespace Latched

variable {table : Nat} (latched : h.Latched table)
include latched

theorem honest {id : String} {holding : Bool} (found : h.find? id = some (.memory table holding)) :
    (Memory.mk holding (h.shared table)).Honest := by
  intro now
  cases now
  exact latched.flag.mpr ⟨id, found⟩

theorem same (shared : g.shared table = h.shared table) (length : h.tables.length ≤ g.tables.length)
    (found : ∀ id holding, g.find? id = some (.memory table holding) ↔
      h.find? id = some (.memory table holding)) : g.Latched table where
  within there := Nat.lt_of_lt_of_le (latched.within ((found _ _).mp there)) length
  flag := by
    rw [shared, latched.flag]
    exact exists_congr fun id => (found id true).symm
  one here there := latched.one ((found _ _).mp here) ((found _ _).mp there)

theorem called {id : String} {holding : Bool} {t : Memory}
    (found : h.find? id = some (.memory table holding))
    (turns : Memory.Turns ⟨holding, h.shared table⟩ t)
    (finds : ∀ other, g.find? other =
      if other = id then some (.memory table t.holding) else h.find? other)
    (shared : g.shared table = t.shared) (length : g.tables.length = h.tables.length) :
    g.Latched table := by
  have own {other : String} (there : g.find? other = some (.memory table true)) :
      other = id ∧ t.holding = true ∨ other ≠ id ∧ h.find? other = some (.memory table true) :=
    (findsOwn finds there).imp_left fun ⟨same, now⟩ => ⟨same, by simpa using now.symm⟩
  have holds {other : String} (there : h.find? other = some (.memory table true))
      (apart : other ≠ id) : holding = false := by
    cases holding with
    | true => exact absurd (latched.one there found) apart
    | false => rfl
  refine ⟨fun _ => length ▸ latched.within found, ?_, ?_⟩
  · rw [shared, turns.held]
    constructor
    · rintro (now | ⟨held, idle⟩)
      · exact ⟨id, by rw [finds, if_pos rfl, now]⟩
      · obtain ⟨other, there⟩ := latched.flag.mp held
        refine ⟨other, (findsOther finds ?_).trans there⟩
        rintro rfl
        cases there.symm.trans found
        cases idle
    · rintro ⟨other, there⟩
      rcases own there with ⟨_, now⟩ | ⟨apart, before⟩
      · exact .inl now
      · exact .inr ⟨latched.flag.mpr ⟨other, before⟩, holds before apart⟩
  · -- Whoever else holds the lock held it before, and then this instance can only have had it too.
    have alone {other : String} (before : h.find? other = some (.memory table true))
        (apart : other ≠ id) : t.holding ≠ true := by
      intro now
      rcases turns.alone now with held | free
      · exact Bool.false_ne_true ((holds before apart).symm.trans held)
      · exact Bool.false_ne_true (free.symm.trans (latched.flag.mpr ⟨other, before⟩))
    intro one other here there
    rcases own here with ⟨rfl, now⟩ | ⟨apart, before⟩ <;>
      rcases own there with ⟨rfl, still⟩ | ⟨distinct, too⟩
    · rfl
    · exact absurd now (alone too distinct)
    · exact absurd still (alone before apart)
    · exact latched.one before too

theorem removed {id : String} (unlocked : h.find? id ≠ some (.memory table true))
    (finds : ∀ other, g.find? other = if other = id then none else h.find? other)
    (tables : g.tables = h.tables) : g.Latched table := by
  have shared : g.shared table = h.shared table := by rw [Host.shared, Host.shared, tables]
  refine ⟨fun there => tables ▸ latched.within (findsKept finds there), ?_, fun here there =>
    latched.one (findsKept finds here) (findsKept finds there)⟩
  rw [shared, latched.flag]
  constructor
  · rintro ⟨other, there⟩
    refine ⟨other, (findsOther finds ?_).trans there⟩
    rintro rfl
    exact unlocked there
  · rintro ⟨other, there⟩
    exact ⟨other, findsKept finds there⟩

theorem added {id : String} (missing : h.find? id = none) {i : Instance}
    (idle : i ≠ .memory table true) (placed : i.place = .table table → table < h.tables.length) :
    (h.put id i).Latched table := by
  have kept {other : String} : (h.put id i).find? other = some (.memory table true) ↔
      h.find? other = some (.memory table true) := by
    rw [findPut]
    split
    · next same =>
      rw [same, missing]
      simp [idle]
    · rfl
  refine ⟨?_, ?_, fun here there => latched.one (kept.mp here) (kept.mp there)⟩
  · intro other holding there
    rw [findPut] at there
    split at there
    · cases Option.some.inj there
      exact placed rfl
    · exact latched.within there
  · exact latched.flag.trans (exists_congr fun other => kept.symm)

end Latched

namespace Guarded

variable {network : String} (guarded : h.Guarded network)
include guarded

theorem honest {id : String} {store : DiskStore}
    (found : h.find? id = some (.disk network store)) : (h.volume.disk network store).Honest where
  owns := by
    constructor
    · intro locked
      obtain ⟨handle, opened⟩ := Option.ne_none_iff_exists'.mp (guarded.opened found locked)
      exact ⟨handle, opened, guarded.live.mpr ⟨id, store, found, opened, locked⟩⟩
    · rintro ⟨handle, opened, held⟩
      obtain ⟨other, rival, there, same, locked⟩ := guarded.live.mp held
      cases guarded.apart found there opened same
      cases found.symm.trans there
      exact locked
  there handle opened := guarded.file (guarded.known found opened).1

theorem one {id other : String} {store rival : DiskStore}
    (found : h.find? id = some (.disk network store))
    (there : h.find? other = some (.disk network rival)) (locked : store.locked.isSome = true)
    (too : rival.locked.isSome = true) : id = other := by
  obtain ⟨⟨node, number⟩, opened⟩ := Option.ne_none_iff_exists'.mp (guarded.opened found locked)
  obtain ⟨⟨place, second⟩, same⟩ := Option.ne_none_iff_exists'.mp (guarded.opened there too)
  have bound := (guarded.known found opened).1.symm.trans (guarded.known there same).1
  simp only [Option.some.injEq] at bound
  subst bound
  have held := guarded.live.mpr ⟨id, store, found, opened, locked⟩
  cases held.symm.trans (guarded.live.mpr ⟨other, rival, there, same, too⟩)
  exact guarded.apart found there opened same

theorem same (folder : (h.volume.folder network).Spares (g.volume.folder network))
    (finds : ∀ id store, g.find? id = some (.disk network store) ↔
      h.find? id = some (.disk network store)) : g.Guarded network where
  file bound := Nat.lt_of_lt_of_le (guarded.file (folder.lock ▸ bound)) folder.nodes
  known there opened := by
    rw [folder.lock, folder.handles]
    exact guarded.known ((finds _ _).mp there) opened
  apart here there := guarded.apart ((finds _ _).mp here) ((finds _ _).mp there)
  opened there := guarded.opened ((finds _ _).mp there)
  live {node number} := by
    rw [folder.holders, guarded.live]
    exact exists_congr fun id => exists_congr fun store => and_congr_left fun _ =>
      (finds id store).symm

theorem called {id : String} {store : DiskStore} {t : Disk}
    (found : h.find? id = some (.disk network store))
    (turns : (h.volume.disk network store).Turns t)
    (finds : ∀ other, g.find? other =
      if other = id then some (.disk network t.store) else h.find? other)
    (folder : g.volume.folder network = t.folder) : g.Guarded network := by
  -- Whatever handle an instance has now, it had before.
  have had {other : String} {next : DiskStore} {handle : Folder.LockHandle}
      (there : g.find? other = some (.disk network next)) (opened : next.handle = some handle) :
      ∃ before, h.find? other = some (.disk network before) ∧ before.handle = some handle := by
    rcases findsOwn finds there with ⟨rfl, ⟨⟩⟩ | ⟨_, before⟩
    · rcases turns.handle with kept | closed
      · exact ⟨store, found, kept ▸ opened⟩
      · cases closed.symm.trans opened
    · exact ⟨next, before, opened⟩
  refine ⟨?_, ?_, ?_, ?_, ?_⟩
  · intro node bound
    rw [folder, turns.lock] at bound
    rw [folder]
    exact Nat.lt_of_lt_of_le (guarded.file bound) turns.nodes
  · intro other next handle there opened
    obtain ⟨before, present, same⟩ := had there opened
    rw [folder, turns.lock, turns.handles]
    exact guarded.known present same
  · intro other third next rival handle here there opened same
    obtain ⟨before, present, first⟩ := had here opened
    obtain ⟨after, too, second⟩ := had there same
    exact guarded.apart present too first second
  · intro other next there locked
    rcases findsOwn finds there with ⟨_, ⟨⟩⟩ | ⟨_, before⟩
    · exact turns.opened locked
    · exact guarded.opened before locked
  · intro node number
    rw [folder, turns.holders]
    constructor
    · rintro (⟨locked, opened⟩ | ⟨held, apart⟩)
      · exact ⟨id, t.store, by rw [finds, if_pos rfl], opened, locked⟩
      · obtain ⟨other, rival, there, opened, locked⟩ := guarded.live.mp held
        refine ⟨other, rival, (findsOther finds ?_).trans there, opened, locked⟩
        rintro rfl
        cases found.symm.trans there
        exact apart opened
    · rintro ⟨other, next, there, opened, locked⟩
      rcases findsOwn finds there with ⟨_, ⟨⟩⟩ | ⟨apart, before⟩
      · exact .inl ⟨locked, opened⟩
      · refine .inr ⟨guarded.live.mpr ⟨other, next, before, opened, locked⟩, fun mine => apart ?_⟩
        exact guarded.apart before found opened mine

theorem removed {id : String}
    (unlocked : ∀ store, h.find? id = some (.disk network store) → store.locked = none)
    (finds : ∀ other, g.find? other = if other = id then none else h.find? other)
    (folder : g.volume.folder network = h.volume.folder network) : g.Guarded network := by
  refine ⟨folder ▸ guarded.file, ?_, ?_, ?_, ?_⟩
  · intro other store handle there opened
    rw [folder]
    exact guarded.known (findsKept finds there) opened
  · intro one other store rival handle here there
    exact guarded.apart (findsKept finds here) (findsKept finds there)
  · intro other store there
    exact guarded.opened (findsKept finds there)
  · intro node number
    rw [folder, guarded.live]
    constructor
    · rintro ⟨other, store, there, opened, locked⟩
      refine ⟨other, store, (findsOther finds ?_).trans there, opened, locked⟩
      rintro rfl
      rw [unlocked store there] at locked
      cases locked
    · rintro ⟨other, store, there, held⟩
      exact ⟨other, store, findsKept finds there, held⟩

theorem added {id : String} (missing : h.find? id = none) {store : DiskStore}
    {handle : Folder.LockHandle} (opened : store.handle = some handle)
    (unlocked : store.locked = none)
    (opens : (h.volume.folder network).Opens (g.volume.folder network) handle)
    (finds : ∀ other, g.find? other =
      if other = id then some (.disk network store) else h.find? other) : g.Guarded network := by
  -- The numbers of the handles before this one are smaller.
  have older {other : String} {next : DiskStore} {first : Folder.LockHandle}
      (there : h.find? other = some (.disk network next)) (handed : next.handle = some first) :
      first.id < handle.id := by
    rw [opens.fresh]
    exact (guarded.known there handed).2
  have names {node : Nat} (bound : (h.volume.folder network).names .lock = some node) :
      (g.volume.folder network).names .lock = some node := by
    rw [(opens.still (bound ▸ Option.some_ne_none node)).1, bound]
  refine ⟨?_, ?_, ?_, ?_, ?_⟩
  · intro node bound
    cases opens.bound.symm.trans bound
    exact opens.there fun _ => guarded.file
  · intro other next first there handed
    rw [opens.handles]
    rcases findsOwn finds there with ⟨_, ⟨⟩⟩ | ⟨_, before⟩
    · cases opened.symm.trans handed
      exact ⟨opens.bound, opens.fresh ▸ Nat.lt_succ_self _⟩
    · obtain ⟨bound, less⟩ := guarded.known before handed
      exact ⟨names bound, Nat.lt_succ_of_lt less⟩
  · intro one other next rival first here there handed same
    rcases findsOwn finds here with ⟨rfl, ⟨⟩⟩ | ⟨_, before⟩ <;>
      rcases findsOwn finds there with ⟨rfl, ⟨⟩⟩ | ⟨_, too⟩
    · rfl
    · cases opened.symm.trans handed
      exact absurd (older too same) (Nat.lt_irrefl _)
    · cases opened.symm.trans same
      exact absurd (older before handed) (Nat.lt_irrefl _)
    · exact guarded.apart before too handed same
  · intro other next there locked
    rcases findsOwn finds there with ⟨_, ⟨⟩⟩ | ⟨_, before⟩
    · rw [unlocked] at locked
      cases locked
    · exact guarded.opened before locked
  · intro node number
    rw [opens.holders, guarded.live]
    constructor
    · rintro ⟨other, next, there, held⟩
      refine ⟨other, next, (findsOther finds ?_).trans there, held⟩
      rintro rfl
      cases missing.symm.trans there
    · rintro ⟨other, next, there, handed, locked⟩
      rcases findsOwn finds there with ⟨_, ⟨⟩⟩ | ⟨_, before⟩
      · rw [unlocked] at locked
        cases locked
      · exact ⟨other, next, before, handed, locked⟩

end Guarded

theorem Fresh.disciplined (fresh : h.Fresh) : h.Disciplined := by
  have nobody {id : String} {i : Instance} (there : h.find? id = some i) : False := by
    rw [find?, fresh.instances] at there
    cases there
  refine ⟨fun table => ⟨fun there => (nobody there).elim, ?_, fun there => (nobody there).elim⟩,
    fun network => ⟨fresh.file network _, fun there => (nobody there).elim,
      fun there => (nobody there).elim, fun there => (nobody there).elim, ?_⟩⟩
  · rw [fresh.tables]
    constructor
    · intro held
      cases held
    · rintro ⟨_, there⟩
      exact (nobody there).elim
  · intro node number
    rw [fresh.holders]
    constructor
    · intro held
      cases held
    · rintro ⟨_, _, there, _⟩
      exact (nobody there).elim

end Host
end AddressPool
