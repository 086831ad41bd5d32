import AddressPool.Proofs.Session.DiskStep

/-! Closing an instance and opening it again. The old handle is forgotten, a new one is handed
out on the same lock file, and the lock is free if the instance had it. -/
namespace AddressPool.Session
open Journal Bytes

theorem alikeAsked (d : Folder) : d.Alike d.asked := ⟨rfl, rfl, rfl⟩

theorem Wrecked.alike {d e : Folder} {log : List Operation} {covered : Nat}
    (wrecked : Wrecked d log covered) (alike : d.Alike e) (halted : e.Halted) :
    Wrecked e log covered := by
  refine ⟨alike.tidy wrecked.tidy, ?_, halted⟩
  rw [alike.files]
  exact wrecked.records

structure Named (network : String) : Prop where
  checked : Network.checkName network = .ok ()
  short : network.utf8ByteSize ≤ Volume.nameLimit

namespace Serves

variable {network id : String} {h next : Host} {node : Nat} {p : Pool} {log : List Operation}
variable {covered : Nat} {store : DiskStore}

theorem tidy (serves : Serves network h node p log covered) :
    (h.volume.folder network).Tidy := by
  cases holding : p.holding with
  | none => exact (serves.free holding).2.1
  | some id =>
    obtain ⟨_, _, _, _, holds⟩ := serves.held holding
    exact holds.ready.tidy

theorem records (serves : Serves network h node p log covered) :
    ∃ l, Records l (h.volume.folder network).files log covered := by
  cases holding : p.holding with
  | none => exact (serves.free holding).2.2
  | some id =>
    obtain ⟨_, _, _, _, holds⟩ := serves.held holding
    obtain ⟨l, records, _⟩ := holds.ready.records
    exact ⟨l, records⟩

theorem removed (serves : Serves network h node p log covered) (unheld : p.holding ≠ some id)
    (alike : (h.volume.folder network).Alike (next.volume.folder network))
    (handles : (next.volume.folder network).handles = (h.volume.folder network).handles)
    (instances : ∀ other, next.find? other = if other = id then none else h.find? other) :
    Serves network next node { p with known := fun other => other != id && p.known other } log
      covered where
  lock := by rw [alike.names]; exact serves.lock
  stores {other i} there := by
    rw [instances] at there
    rw [handles]
    split at there
    · contradiction
    · exact serves.stores there
  apart {one other first second} there here same := by
    rw [instances] at there here
    split at there
    · contradiction
    · split at here
      · contradiction
      · exact serves.apart there here same
  unlocked {other s} there differ := by
    rw [instances] at there
    split at there
    · contradiction
    · exact serves.unlocked there differ
  free nobody := serves.freeAlike alike nobody
  held {other} holding := by
    apply serves.heldAlike alike holding
    rw [instances, if_neg]
    rintro rfl
    exact unheld holding
  table := serves.table
  known other := by
    rw [instances]
    by_cases same : other = id
    · simp [same]
    · simp [same, serves.known]

theorem added (serves : Serves network h node p log covered) (missing : h.find? id = none)
    (alike : (h.volume.folder network).Alike (next.volume.folder network))
    (handles : (next.volume.folder network).handles = (h.volume.folder network).handles + 1)
    (opened : store.handle = some ⟨node, (h.volume.folder network).handles⟩)
    (unlocked : store.locked = none)
    (instances : ∀ other, next.find? other =
      if other = id then some (.disk network store) else h.find? other) :
    Serves network next node { p with known := fun other => other == id || p.known other } log
      covered where
  lock := by rw [alike.names]; exact serves.lock
  stores {other i} there := by
    rw [instances] at there
    rw [handles]
    split at there
    · cases there
      exact ⟨store, _, rfl, opened, rfl, Nat.lt_succ_self _⟩
    · obtain ⟨s, handle, same, mine, place, old⟩ := serves.stores there
      exact ⟨s, handle, same, mine, place, Nat.lt_succ_of_lt old⟩
  apart {one other first second} there here same := by
    have old {name : String} {s : DiskStore} (found : h.find? name = some (.disk network s)) :
        s.handle ≠ store.handle := by
      obtain ⟨_, handle, again, mine, _, before⟩ := serves.stores found
      cases again
      rw [mine, opened]
      intro equal
      cases equal
      exact Nat.lt_irrefl _ before
    rw [instances] at there here
    split at there
    · next a =>
      cases there
      split at here
      · next b => exact a.trans b.symm
      · exact absurd same.symm (old here)
    · split at here
      · cases here
        exact absurd same (old there)
      · exact serves.apart there here same
  unlocked {other s} there differ := by
    rw [instances] at there
    split at there
    · cases there
      exact unlocked
    · exact serves.unlocked there differ
  free nobody := serves.freeAlike alike nobody
  held {other} holding := by
    obtain ⟨_, _, _, there, _⟩ := serves.held holding
    apply serves.heldAlike alike holding
    rw [instances, if_neg]
    rintro rfl
    rw [missing] at there
    contradiction
  table := serves.table
  known other := by
    rw [instances]
    by_cases same : other = id
    · simp [same]
    · simp [same, serves.known]

end Serves

theorem bareServes {network : String} {h : Host} {node : Nat} {log : List Operation}
    {covered : Nat} (lock : (h.volume.folder network).names .lock = some node)
    (holder : (h.volume.folder network).holder? node = none)
    (tidy : (h.volume.folder network).Tidy)
    (records : ∃ l, Records l (h.volume.folder network).files log covered)
    (nobody : ∀ id, h.find? id = none) :
    Serves network h node { Pool.vacant with table := Table.empty.applyAll log } log covered where
  lock := lock
  stores there := by
    rw [nobody] at there
    contradiction
  apart there _ _ := by
    rw [nobody] at there
    contradiction
  unlocked there _ := by
    rw [nobody] at there
    contradiction
  free _ := ⟨holder, tidy, records⟩
  held holding := by
    simp [Pool.vacant] at holding
  table := rfl
  known id := by
    rw [nobody]
    rfl

section Opening

variable {network id : String} {v : Volume} {node : Nat}

theorem namedOfOpened {settings : StoreSettings} {store : DiskStore} {w : Volume}
    (opened : v.openStore settings network = (.ok store, w)) : Named network := by
  simp only [Volume.openStore] at opened
  split at opened
  · cases opened
  next checked =>
  split at opened
  · cases opened
  next short => exact ⟨checked, Nat.not_lt.mp short⟩

theorem openStoreDone (named : Named network) (settings : StoreSettings)
    (tidy : (v.folder network).Tidy) (lock : (v.folder network).names .lock = some node)
    (making : (v.folder network).fate (v.folder network).calls .makeFolder = .done)
    (opening : (v.folder network).asked.fate (v.folder network).asked.calls .openLock = .done) :
    v.openStore settings network =
      (.ok ⟨v.path network, settings, some ⟨node, (v.folder network).handles⟩, none⟩,
        v.setFolder network (v.folder network).asked.handed) := by
  have long : ¬ Volume.nameLimit < network.utf8ByteSize := Nat.not_lt.mpr named.short
  have tidyMade := (alikeAsked (v.folder network)).tidy tidy
  have lockMade : (v.folder network).asked.names .lock = some node := lock
  simp only [Volume.openStore, named.checked, if_neg long, DiskStore.ofFolder,
    Folder.makeDone tidy making, Folder.openLockDone tidyMade lockMade opening]
  rfl

theorem openStoreSpec (named : Named network) (settings : StoreSettings)
    (tidy : (v.folder network).Tidy) (lock : (v.folder network).names .lock = some node)
    (halting : (v.folder network).Halting) :
    (∃ store e, v.openStore settings network = (.ok store, v.setFolder network e) ∧
      (v.folder network).Alike e ∧ e.handles = (v.folder network).handles + 1 ∧
      e.fate = (v.folder network).fate ∧
      store.handle = some ⟨node, (v.folder network).handles⟩ ∧ store.locked = none) ∨
    ∃ fault e, v.openStore settings network = (.error fault, v.setFolder network e) ∧
      (v.folder network).Alike e ∧ e.fate = (v.folder network).fate ∧ e.Halted := by
  have long : ¬ Volume.nameLimit < network.utf8ByteSize := Nat.not_lt.mpr named.short
  cases making : (v.folder network).fate (v.folder network).calls .makeFolder with
  | fails fault kept =>
    refine .inr ⟨.os fault, (v.folder network).asked, ?_, alikeAsked _, rfl, ?_⟩
    · simp only [Volume.openStore, named.checked, if_neg long, DiskStore.ofFolder,
        Folder.makeFails making]
    · intro later next past
      exact halting making later next past
  | done =>
    have made := Folder.makeDone tidy making
    cases opening : (v.folder network).asked.fate (v.folder network).asked.calls .openLock with
    | fails fault kept =>
      refine .inr ⟨.os fault, (v.folder network).asked.asked, ?_, ⟨rfl, rfl, rfl⟩, rfl, ?_⟩
      · simp only [Volume.openStore, named.checked, if_neg long, DiskStore.ofFolder, made,
          Folder.openLockFails opening]
      · intro later next past
        exact halting opening later next past
    | done =>
      exact .inl ⟨_, _, openStoreDone named settings tidy lock making opening, ⟨rfl, rfl, rfl⟩,
        rfl, rfl, rfl, rfl⟩

theorem openStoreHalted (named : Named network) (settings : StoreSettings)
    (halted : (v.folder network).Halted) :
    ∃ fault, v.openStore settings network =
      (.error fault, v.setFolder network (v.folder network).asked) := by
  have long : ¬ Volume.nameLimit < network.utf8ByteSize := Nat.not_lt.mpr named.short
  obtain ⟨fault, fails⟩ := Folder.haltedFails halted .makeFolder
  refine ⟨.os fault, ?_⟩
  simp only [Volume.openStore, named.checked, if_neg long, DiskStore.ofFolder,
    Folder.makeFails fails]

theorem openMissing {h : Host} {p : Pool} {log : List Operation} {covered : Nat}
    (named : Named network) (first : String) (settings : StoreSettings)
    (serves : Serves network h node p log covered) (missing : h.find? id = none)
    (halting : (h.volume.folder network).Halting) :
    (∃ next, (Backing.disk network).openInstance first id settings h = (.ok (), next) ∧
      Serves network next node { p with known := fun other => other == id || p.known other } log
        covered ∧
      (next.volume.folder network).fate = (h.volume.folder network).fate ∧
      ∀ other, other ≠ id → next.find? other = h.find? other) ∨
    ∃ fault next, (Backing.disk network).openInstance first id settings h = (.error fault, next) ∧
      Wrecked (next.volume.folder network) log covered ∧
      (next.volume.folder network).names .lock = (h.volume.folder network).names .lock ∧
      (next.volume.folder network).fate = (h.volume.folder network).fate := by
  rcases openStoreSpec named settings serves.tidy serves.lock halting with
    ⟨store, e, opened, alike, handles, fate, handle, unlocked⟩ | ⟨fault, e, failed, alike, fate, halted⟩
  · let next : Host :=
      { h with volume := h.volume.setFolder network e }.put id (.disk network store)
    have folder : next.volume.folder network = e := Volume.folderSet h.volume network e
    have instances (other : String) : next.find? other =
        if other = id then some (.disk network store) else h.find? other :=
      Host.findPut _ id other _
    refine .inl ⟨next, ?_, ?_, ?_, ?_⟩
    · simp only [Backing.openInstance, Host.openDisk, Host.dropMissing missing, opened, next]
    · refine serves.added missing ?_ ?_ handle unlocked instances
      · rw [folder]
        exact alike
      · rw [folder]
        exact handles
    · rw [folder]
      exact fate
    · intro other apart
      rw [instances, if_neg apart]
  · refine .inr ⟨fault, { h with volume := h.volume.setFolder network e }, ?_, ?_, ?_, ?_⟩
    · simp only [Backing.openInstance, Host.openDisk, Host.dropMissing missing, failed]
    · have whole : Wrecked e log covered := by
        refine ⟨alike.tidy serves.tidy, ?_, halted⟩
        rw [alike.files]
        exact serves.records
      simpa only [Volume.folderSet] using whole
    · simp only [Volume.folderSet, alike.names]
    · simpa only [Volume.folderSet] using fate

end Opening
section Entering

variable {network first id : String} {h : Host} {node : Nat} {p : Pool} {log : List Operation}
variable {covered : Nat} {store : DiskStore}

def closed (network id : String) (store : DiskStore) (h : Host) : Host :=
  ((h.movedDisk network id (Disk.close (h.volume.disk network store)).2).drop id).2

theorem findClosed (network id other : String) (store : DiskStore) (h : Host) :
    (closed network id store h).find? other = if other = id then none else h.find? other := by
  rw [closed, Host.findDrop, Host.findMoved]
  split <;> rfl

theorem folderClosed {result : Except Fault Unit} {t : Disk}
    (given : (h.volume.disk network store).unlock = (result, t))
    (unlocked : t.store.locked = none) :
    (closed network id store h).volume.folder network = t.folder := by
  let shut : Disk := { t with store := { t.store with handle := none } }
  have once : Disk.close (h.volume.disk network store) = (result, shut) := by
    simp only [Disk.close, given, shut]
  have there : (h.movedDisk network id shut).find? id = some (.disk network shut.store) := by
    rw [Host.findMoved, if_pos rfl]
  have again : Store.close ((h.movedDisk network id shut).volume.disk network shut.store) =
      (.ok (), shut) := by
    have idle : shut.close = (.ok (), shut) := Disk.closeUnlocked unlocked
    rw [Volume.disk, Host.folderMoved]
    exact idle
  rw [closed, once]
  simp only [Host.drop, there, Host.callOn, again]
  exact Volume.folderSet _ network shut.folder

theorem openAgain (settings : StoreSettings) (h : Host) :
    (Backing.disk network).openInstance first id settings h =
      (Backing.disk network).openInstance first id settings (h.drop id).2 := by
  have gone : (h.drop id).2.find? id = none := by rw [Host.findDrop, if_pos rfl]
  simp only [Backing.openInstance, Host.openDisk, Host.dropMissing gone]

theorem enterMissing (named : Named network) (first : String) (settings : StoreSettings)
    (serves : Serves network h node p log covered) (unknown : p.known id = false)
    (halting : (h.volume.folder network).Halting) :
    StepOutcome network h node p log covered none (p.enter id)
      ((Backing.disk network).enter first id settings h) := by
  have missing := serves.missing unknown
  have left : p.leave id = p := by
    apply if_neg
    intro holding
    obtain ⟨_, _, _, there, _⟩ := serves.held holding
    rw [missing] at there
    contradiction
  have reply : p.enter id = (.entered none (.ok ()),
      { p with known := fun other => other == id || p.known other }) := by
    simp only [Pool.enter, unknown, left]
    rfl
  rcases openMissing named first settings serves missing halting with
    ⟨next, opened, after, fate, others⟩ | ⟨fault, next, failed, wrecked, lock, fate⟩
  · simp only [Backing.enter, Host.callMissing missing, opened, reply]
    refine .went (by simp) (by simpa using after) rfl ?_ fate
    apply countsOther others
    intro n m before
    rw [journalLength?, missing] at before
    contradiction
  · simp only [Backing.enter, Host.callMissing missing, failed]
    exact .wrecked (by simpa [journaled] using wrecked) lock fate

theorem closedSpec (serves : Serves network h node p log covered)
    (found : h.find? id = some (.disk network store))
    (halting : (h.volume.folder network).Halting) :
    ((h.volume.disk network store).unlock.1 = .ok () ∧
      Serves network (closed network id store h) node
        { p.leave id with known := fun other => other != id && p.known other } log covered ∧
      ((closed network id store h).volume.folder network).names .lock =
        (h.volume.folder network).names .lock ∧
      ((closed network id store h).volume.folder network).fate =
        (h.volume.folder network).fate) ∨
    (Wrecked ((closed network id store h).volume.folder network) log covered ∧
      ((closed network id store h).volume.folder network).names .lock =
        (h.volume.folder network).names .lock ∧
      ((closed network id store h).volume.folder network).fate =
        (h.volume.folder network).fate) := by
  by_cases holding : p.holding = some id
  · obtain ⟨handle, locked, holds⟩ := serves.holdsOf holding found
    rcases Disk.unlockHeld holds halting with
      ⟨t, given, free, follows⟩ | ⟨fault, t, failed, unlocked, broken⟩
    · have folder := @folderClosed network id _ _ _ _ given free.unlocked
      have after : Serves network (h.movedDisk network id t) node { p with holding := none } log
          covered :=
        serves.moved found (.inr holding) follows (free.opened.trans holds.opened.symm)
          (.inl ⟨rfl, handle, free⟩) rfl serves.table
      have same : ((h.movedDisk network id t).volume.folder network) =
          (closed network id store h).volume.folder network := by
        rw [folder, Host.folderMoved]
      refine .inl ⟨by rw [given], ?_, ?_, ?_⟩
      · rw [Pool.leave, if_pos holding]
        refine after.removed (by simp) ?_ ?_ ?_
        · rw [same]
          exact ⟨rfl, rfl, rfl⟩
        · rw [same]
        · intro other
          rw [findClosed, Host.findMoved]
          split <;> rfl
      · rw [folder]
        exact follows.lock
      · rw [folder]
        exact follows.fate
    · refine .inr ?_
      rw [folderClosed failed unlocked]
      exact ⟨.ofBroken broken, broken.follows.lock, broken.follows.fate⟩
  · have unlocked : (h.volume.disk network store).store.locked = none :=
      serves.unlocked found holding
    have idle := Disk.unlockUnlocked unlocked
    have folder : (closed network id store h).volume.folder network = h.volume.folder network :=
      folderClosed idle unlocked
    refine .inl ⟨by rw [idle], ?_, by rw [folder], by rw [folder]⟩
    rw [Pool.leave, if_neg holding]
    refine serves.removed holding ?_ ?_ ?_
    · rw [folder]
      exact ⟨rfl, rfl, rfl⟩
    · rw [folder]
    · intro other
      exact findClosed network id other store h

theorem enterFound (named : Named network) (first : String) (settings : StoreSettings)
    (serves : Serves network h node p log covered)
    (found : h.find? id = some (.disk network store))
    (halting : (h.volume.folder network).Halting) :
    StepOutcome network h node p log covered none (p.enter id)
      ((Backing.disk network).enter first id settings h) := by
  have known : p.known id = true := by
    rw [← serves.known id, found]
    rfl
  have names : (fun other => other == id || (other != id && p.known other)) =
      fun other => other == id || p.known other := by
    funext other
    cases same : other == id <;> simp [same, bne]
  have entered : (Backing.disk network).enter first id settings h =
      (.entered (some (h.volume.disk network store).unlock.1)
        ((Backing.disk network).openInstance first id settings (closed network id store h)).1,
        ((Backing.disk network).openInstance first id settings (closed network id store h)).2) := by
    have call := Host.callDisk found Store.close
    simp only [Backing.enter, call]
    rw [openAgain]
    rfl
  have missing : (closed network id store h).find? id = none := by
    rw [findClosed, if_pos rfl]
  rw [entered]
  rcases closedSpec serves found halting with
    ⟨answer, after, lock, fate⟩ | ⟨wrecked, lock, fate⟩
  · have still : ((closed network id store h).volume.folder network).Halting := by
      intro n call fault kept fails
      rw [fate] at fails ⊢
      exact halting fails
    rcases openMissing named first settings after missing still with
      ⟨next, opened, last, same, others⟩ |
        ⟨fault, next, failed, wrecked, place, same⟩
    · rw [opened, answer]
      have reply : p.enter id = (.entered (some (.ok ())) (.ok ()),
          { p.leave id with known := fun other => other == id || p.known other }) := by
        simp only [Pool.enter, known, if_true]
      rw [reply]
      refine .went (by simp) ?_ rfl ?_ (same.trans fate)
      · simpa [names] using last
      · apply countsOther
        · intro other apart
          rw [others other apart, findClosed, if_neg apart]
        · intro n m before later
          have there := countsHolder serves before
          have here := countsHolder last later
          simp [Pool.leave, there] at here
    · rw [failed]
      exact .wrecked (by simpa [journaled] using wrecked) (place.trans lock) (same.trans fate)
  · obtain ⟨fault, failed⟩ := openStoreHalted named settings wrecked.halted
    have folder : (((Backing.disk network).openInstance first id settings
        (closed network id store h)).2.volume.folder network) =
        ((closed network id store h).volume.folder network).asked := by
      simp only [Backing.openInstance, Host.openDisk, Host.dropMissing missing, failed,
        Volume.folderSet]
    have asked := wrecked.alike (alikeAsked _) fun later next past =>
      wrecked.halted later next (Nat.le_of_succ_le past)
    refine .wrecked ?_ ?_ ?_
    · rw [folder]
      simpa [journaled] using asked
    · rw [folder]
      exact lock
    · rw [folder]
      exact fate

end Entering

end AddressPool.Session
