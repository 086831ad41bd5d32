import AddressPool.Proofs.Session.Enter

/-! A session on disk answers every step as a session over a memory table does. -/
namespace AddressPool.Session
open Journal Bytes

section Whole

variable {network : String} {h : Host} {node : Nat} {p : Pool} {log : List Operation}
variable {covered : Nat}

theorem findTimed (b : Backing) (time : Nat) (h : Host) (id : String) :
    (b.setTime time h).find? id = h.find? id := by
  cases b <;> rfl

theorem folderTimed (network : String) (time : Nat) (h : Host) :
    ((Backing.disk network).setTime time h).volume.folder network =
      { h.volume.folder network with clock := time } :=
  Volume.folderSet h.volume network _

theorem Serves.timed (serves : Serves network h node p log covered) (time : Nat) :
    Serves network ((Backing.disk network).setTime time h) node p log covered := by
  apply serves.alike
  · rw [folderTimed]
    exact ⟨rfl, rfl, rfl⟩
  · apply Nat.le_of_eq
    rw [folderTimed]
  · intro id
    rfl

theorem StepOutcome.timed {time : Nat} {change : Option Operation} {reply : Answer × Pool}
    {result : Answer × Host}
    (outcome : StepOutcome network ((Backing.disk network).setTime time h) node p log covered change
      reply result) : StepOutcome network h node p log covered change reply result := by
  have files : (((Backing.disk network).setTime time h).volume.folder network).files =
      (h.volume.folder network).files := by
    rw [folderTimed]
    rfl
  have fates : (((Backing.disk network).setTime time h).volume.folder network).fate =
      (h.volume.folder network).fate := by
    rw [folderTimed]
  cases outcome with
  | went fits serves entry counts fate =>
    rw [journaled, files] at entry
    exact .went fits serves entry counts (fate.trans fates)
  | refused made large serves fate => exact .refused made large serves (fate.trans fates)
  | wrecked wrecked lock fate =>
    rw [journaled, files] at wrecked
    refine .wrecked wrecked (lock.trans ?_) (fate.trans fates)
    rw [folderTimed]

theorem changeOf (serves : Serves network h node p log covered) (step : Step) :
    step.change? h =
      if p.holding = some step.id then step.command.change? p.table else none := by
  by_cases holding : p.holding = some step.id
  · obtain ⟨store, handle, locked, found, holds⟩ := serves.held holding
    have loaded : store.locked = some locked := holds.loaded
    have table : locked.table = p.table := holds.ready.table.trans serves.table.symm
    simp only [Step.change?, found, Instance.isLocked, loaded, Option.isSome_some, if_true,
      Host.table?, Option.map_some, Option.bind_some, table, if_pos holding]
  · rw [if_neg holding]
    cases known : p.known step.id with
    | false => simp only [Step.change?, serves.missing known]
    | true =>
      obtain ⟨store, found⟩ := serves.found known
      simp [Step.change?, found, Instance.isLocked, serves.unlocked found holding]

theorem listingStep (serves : Serves network h node p log covered) {id : String}
    {store : DiskStore} (found : h.find? id = some (.disk network store)) :
    StepOutcome network h node p log covered none (p.call id .reservations) (listing id h, h) := by
  have answer : listing id h = (p.call id .reservations).1 := by
    by_cases holding : p.holding = some id
    · obtain ⟨handle, locked, holds⟩ := serves.holdsOf holding found
      have loaded : store.locked = some locked := holds.loaded
      have table : locked.table = p.table := holds.ready.table.trans serves.table.symm
      simp only [listing, found, Instance.isLocked, loaded, Option.isSome_some, if_true, list,
        Volume.disk, Disk.reservations, table, Pool.call, if_pos holding]
    · simp [listing, found, Instance.isLocked, serves.unlocked found holding, Pool.call, holding]
  have reply : p.call id .reservations = ((p.call id .reservations).1, p) := rfl
  rw [answer, reply]
  exact wentStill serves

theorem diskStep (named : Named network) (first : String)
    (serves : Serves network h node p log covered)
    (halting : (h.volume.folder network).Halting) (few : log.length + 1 < space 8) (step : Step) :
    StepOutcome network h node p log covered (step.change? h) (p.step step)
      ((Backing.disk network).step first step h) := by
  obtain ⟨id, time, command⟩ := step
  have served := serves.timed time
  have halts : (((Backing.disk network).setTime time h).volume.folder network).Halting := by
    rw [folderTimed]
    exact halting
  rw [changeOf serves]
  refine @StepOutcome.timed network h node p log covered time _ _ _ ?_
  cases known : p.known id with
  | false =>
    have idle : p.holding ≠ some id := by
      intro holding
      obtain ⟨_, _, _, found, _⟩ := serves.held holding
      rw [serves.missing known] at found
      contradiction
    rw [if_neg idle]
    have missing := served.missing known
    cases command with
    | enter settings => exact enterMissing named first settings served known halts
    | reservations =>
      simp only [Backing.step, listing, missing, Pool.step, known]
      exact wentStill served
    | lock | unlock | reserve | releaseOwner | lastReserved =>
      simp only [Backing.step, ask, Host.callMissing missing, Pool.step, known]
      exact wentStill served
  | true =>
    obtain ⟨store, found⟩ := served.found known
    cases command with
    | enter settings =>
      simpa only [Command.change?, ite_self, Pool.step, Backing.step] using
        enterFound named first settings served found halts
    | lock =>
      simpa only [Command.change?, ite_self, Pool.step, known, if_true, Backing.step] using
        lockStep served found halts
    | unlock =>
      simpa only [Command.change?, ite_self, Pool.step, known, if_true, Backing.step] using
        unlockStep served found halts
    | reserve owner a =>
      simpa only [Pool.step, known, if_true, Backing.step] using
        reserveStep served found halts few owner a
    | releaseOwner owner =>
      simpa only [Pool.step, known, if_true, Backing.step] using
        releaseStep served found halts few owner
    | lastReserved =>
      simpa only [Command.change?, ite_self, Pool.step, known, if_true, Backing.step] using
        markerStep served found
    | reservations =>
      simpa only [Command.change?, ite_self, Pool.step, known, if_true, Backing.step] using
        listingStep served found

end Whole
section Start

def untouched : Folder :=
  ⟨.folder, fun name => if name = .lock then some 0 else none, [⟨.file [] 0, none⟩], 1, 0, 2,
    fun _ _ => .done⟩

theorem untouchedTidy : untouched.Tidy := .bare rfl (fun _ => rfl) rfl

theorem untouchedRecords : ∃ l, Records l untouched.files [] 0 :=
  ⟨⟨0, [], [], [], 0⟩, {
    few := spacePos 8
    fits := by simp
    within := Nat.le_refl 0
    folded := Nat.le_refl 0
    snapshot := .inl ⟨rfl, rfl⟩
    journal := rfl
    sound := by simp [Layout.entries]
    rising := rfl
    stale := by simp
    numbers := rfl
    operations := rfl
    remnant := .nothing
    covers := by simp }⟩

variable {root network first : String} {settings : StoreSettings}

theorem folderEmpty (root network : String) :
    (Host.empty root).volume.folder network = Folder.absent := by
  simp [Host.empty, Volume.empty, Volume.folder]

theorem namedOpened (opened : ((Host.empty root).openDisk first network settings).1 = .ok ()) :
    Named network := by
  have missing : (Host.empty root).find? first = none := rfl
  simp only [Host.openDisk, Host.dropMissing missing] at opened
  split at opened
  · cases opened
  next accepted => exact namedOfOpened accepted

theorem startDisk (named : Named network) :
    (Backing.disk network).start root first settings =
      { (Host.empty root) with
        volume := (Host.empty root).volume.setFolder network untouched }.put first
        (.disk network ⟨(Host.empty root).volume.path network, settings, some ⟨0, 0⟩, none⟩) := by
  have missing : (Host.empty root).find? first = none := rfl
  have long : ¬ Volume.nameLimit < network.utf8ByteSize := Nat.not_lt.mpr named.short
  have opened (path : String) : DiskStore.ofFolder path settings Folder.absent =
      (.ok ⟨path, settings, some ⟨0, 0⟩, none⟩, untouched) := rfl
  simp only [Backing.start, Host.openDisk, Host.dropMissing missing, Volume.openStore,
    named.checked, if_neg long, folderEmpty, opened]

theorem startServes (named : Named network) :
    Serves network ((Backing.disk network).start root first settings) 0 (Pool.start first) [] 0 ∧
      (((Backing.disk network).start root first settings).volume.folder network).Obeys := by
  rw [startDisk named]
  let before : Host := { (Host.empty root) with
    volume := (Host.empty root).volume.setFolder network { untouched with handles := 0 } }
  have folder : before.volume.folder network = { untouched with handles := 0 } :=
    Volume.folderSet _ network _
  have alike : untouched.Alike { untouched with handles := 0 } := ⟨rfl, rfl, rfl⟩
  have records : ∃ l, Records l (before.volume.folder network).files [] 0 := by
    rw [folder, alike.files]
    exact untouchedRecords
  have bare : Serves network before 0 Pool.vacant [] 0 := by
    refine bareServes ?_ ?_ ?_ records fun _ => rfl
    · rw [folder]
      rfl
    · rw [folder]
      rfl
    · rw [folder]
      exact alike.tidy untouchedTidy
  let store : DiskStore := ⟨(Host.empty root).volume.path network, settings, some ⟨0, 0⟩, none⟩
  let after : Host := { (Host.empty root) with
    volume := (Host.empty root).volume.setFolder network untouched }.put first (.disk network store)
  have opened : after.volume.folder network = untouched := Volume.folderSet _ network untouched
  have same : (before.volume.folder network).Alike (after.volume.folder network) := by
    rw [folder, opened]
    exact ⟨rfl, rfl, rfl⟩
  have handles : (after.volume.folder network).handles =
      (before.volume.folder network).handles + 1 := by
    rw [folder, opened]
    rfl
  have handle : store.handle = some ⟨0, (before.volume.folder network).handles⟩ := by
    rw [folder]
  have serves := bare.added rfl same handles handle rfl fun other => Host.findPut _ first other _
  have pool : { Pool.vacant with known := fun other => other == first || false } =
      Pool.start first := by
    simp [Pool.vacant, Pool.start]
  refine ⟨pool ▸ serves, ?_⟩
  change (after.volume.folder network).Obeys
  rw [opened]
  intro n call
  rfl

end Start
section Runs

variable {network first : String}

theorem growthOf {h : Host} {node : Nat} {p : Pool} {log : List Operation} {covered : Nat}
    (serves : Serves network h node p log covered) (step : Step) :
    growth h step (p.step step).1 = (step.change? h).toList.length := by
  obtain ⟨id, time, command⟩ := step
  rw [changeOf serves]
  by_cases holding : p.holding = some id
  · obtain ⟨store, handle, locked, found, holds⟩ := serves.held holding
    have loaded : store.locked = some locked := holds.loaded
    have table : locked.table = p.table := holds.ready.table.trans serves.table.symm
    have known : p.known id = true := by
      rw [← serves.known id, found]
      rfl
    rw [if_pos holding]
    cases command with
    | reserve owner a =>
      simp only [Pool.step, known, if_true, Pool.call, holding, Command.change?, growth]
      by_cases unowned : p.table.owner? a = none
      · simp [Table.tryReserveFree unowned, unowned]
      · simp [Table.tryReserveOwned unowned, unowned]
    | releaseOwner owner =>
      simp only [Pool.step, known, if_true, Pool.call, holding, Command.change?, growth, found,
        Option.bind_some, Host.table?, loaded, Option.map_some, table]
      cases p.table.addressesOf owner <;> rfl
    | enter | lock | unlock | lastReserved | reservations =>
      simp only [growth, Command.change?, Option.toList_none, List.length_nil]
  · rw [if_neg holding, Option.toList_none, List.length_nil]
    cases known : p.known id with
    | false =>
      cases command <;> simp [Pool.step, known, growth]
    | true =>
      cases command <;> simp [Pool.step, known, Pool.call, holding, growth]

theorem StepOutcome.obeyed {h : Host} {node : Nat} {p : Pool} {log : List Operation}
    {covered : Nat} {change : Option Operation} {reply : Answer × Pool} {result : Answer × Host}
    (outcome : StepOutcome network h node p log covered change reply result)
    (obeys : (h.volume.folder network).Obeys)
    (fits : ∀ operation, change = some operation → operation.Fits) :
    ∃ after, result = (reply.1, after) ∧
      Serves network after node reply.2 (log ++ change.toList) covered ∧
      (after.volume.folder network).Obeys ∧
      ∀ id n m, journalLength? network h id = some n →
        journalLength? network after id = some m → m = n + change.toList.length := by
  cases outcome with
  | @went after made next entry counts fate =>
    exact ⟨after, rfl, next, obeys.same fate, counts⟩
  | refused made large => exact absurd (fits _ made) large
  | wrecked wrecked lock fate => exact absurd wrecked.halted (obeys.same fate).notHalted

structure Twins (network first : String) (disk memory : Host) (count : Nat) : Prop where
  pool : ∃ node p log, Serves network disk node p log 0 ∧ Remembers first memory p ∧
    log.length ≤ count
  obeys : (disk.volume.folder network).Obeys

theorem startTwins (named : Named network) (root first : String) (settings : StoreSettings) :
    Twins network first ((Backing.disk network).start root first settings)
      (Backing.memory.start root first settings) 0 := by
  obtain ⟨serves, obeys⟩ := startServes named
  exact ⟨⟨0, _, [], serves, .start root first settings, Nat.le_refl 0⟩, obeys⟩

theorem stepAgrees (named : Named network) {disk memory : Host} {count : Nat}
    (twins : Twins network first disk memory count) (few : count + 1 < space 8) (step : Step)
    (fits : ∀ operation, step.change? disk = some operation → operation.Fits) :
    ((Backing.disk network).step first step disk).1 = (Backing.memory.step first step memory).1 ∧
      Twins network first ((Backing.disk network).step first step disk).2
        (Backing.memory.step first step memory).2 (count + 1) ∧
      ∀ id n m, journalLength? network disk id = some n →
        journalLength? network ((Backing.disk network).step first step disk).2 id = some m →
        m = n + growth disk step ((Backing.disk network).step first step disk).1 := by
  obtain ⟨⟨node, p, log, serves, remembers, short⟩, obeys⟩ := twins
  obtain ⟨answer, after⟩ := remembers.step step
  obtain ⟨next, went, served, obeyed, counts⟩ :=
    (diskStep named first serves obeys.halting (by omega) step).obeyed obeys fits
  rw [went]
  refine ⟨answer.symm, ⟨⟨node, _, _, served, after, ?_⟩, obeyed⟩, ?_⟩
  · rw [List.length_append]
    have one : (step.change? disk).toList.length ≤ 1 := by
      cases step.change? disk <;> simp
    omega
  · rw [growthOf serves step]
    exact counts

theorem runCons (b : Backing) (step : Step) (rest : List Step) (h : Host) :
    b.run first (step :: rest) h =
      ((b.step first step h).1 :: (b.run first rest (b.step first step h).2).1,
        (b.run first rest (b.step first step h).2).2) := rfl

theorem fittingAppend (b : Backing) (front rest : List Step) (h : Host) :
    b.Fitting first (front ++ rest) h ↔
      b.Fitting first front h ∧ b.Fitting first rest (b.run first front h).2 := by
  induction front generalizing h with
  | nil => simp [Backing.Fitting, Backing.run, Host.each]
  | cons step others ih =>
    simp only [List.cons_append, Backing.Fitting, ih, and_assoc]
    rfl

theorem runAgrees (named : Named network) {steps : List Step} {disk memory : Host} {count : Nat}
    (twins : Twins network first disk memory count) (few : count + steps.length < space 8)
    (fitting : (Backing.disk network).Fitting first steps disk) :
    ((Backing.disk network).run first steps disk).1 = (Backing.memory.run first steps memory).1 ∧
      Twins network first ((Backing.disk network).run first steps disk).2
        (Backing.memory.run first steps memory).2 (count + steps.length) := by
  induction steps generalizing disk memory count with
  | nil => exact ⟨rfl, twins⟩
  | cons step rest ih =>
    -- One pool follows both sessions; a step adds at most one operation.
    rw [List.length_cons] at few
    obtain ⟨fits, others⟩ := fitting
    obtain ⟨answer, after, _⟩ := stepAgrees named twins (by omega) step fits
    obtain ⟨answers, last⟩ := ih after (by omega) others
    rw [runCons, runCons]
    refine ⟨?_, ?_⟩
    · rw [answer, answers]
    · rw [List.length_cons, Nat.add_comm rest.length 1, ← Nat.add_assoc]
      exact last

/-- Any number of disk instances on one network, each with its own settings, give the same
answers as instances over one memory table, in any order of steps. The journal of the
instance that has the lock grows with the changes it makes and with nothing else. An entry's
number has eight bytes, and `few` keeps it from running out. -/
theorem diskRefinesMemory {root : String} {settings : StoreSettings}
    (opened : ((Host.empty root).openDisk first network settings).1 = .ok ()) (steps : List Step)
    (few : steps.length < space 8)
    (fitting : (Backing.disk network).Fitting first steps
      ((Backing.disk network).start root first settings)) :
    ((Backing.disk network).run first steps
        ((Backing.disk network).start root first settings)).1 =
      (Backing.memory.run first steps (Backing.memory.start root first settings)).1 ∧
    ∀ front step rest, steps = front ++ step :: rest →
      ∀ before after answer, before = ((Backing.disk network).run first front
          ((Backing.disk network).start root first settings)).2 →
        (Backing.disk network).step first step before = (answer, after) →
        ∀ id n m, journalLength? network before id = some n →
          journalLength? network after id = some m → m = n + growth before step answer := by
  have named := namedOpened opened
  have twins := startTwins named root first settings
  refine ⟨(runAgrees named twins (by omega) fitting).1, ?_⟩
  rintro front step rest rfl before after answer rfl stepped
  obtain ⟨early, late⟩ := (fittingAppend _ front (step :: rest) _).mp fitting
  rw [List.length_append, List.length_cons] at few
  obtain ⟨_, reached⟩ := runAgrees named twins (by omega) early
  obtain ⟨_, _, counts⟩ := stepAgrees named reached (by omega) step late.1
  rw [stepped] at counts
  exact counts

theorem changeMade {h : Host} {step : Step} {operation : Operation}
    (made : step.change? h = some operation) :
    ∃ t, step.command.change? t = some operation := by
  unfold Step.change? at made
  split at made
  · contradiction
  · split at made
    · obtain ⟨t, _, made⟩ := Option.bind_eq_some_iff.mp made
      exact ⟨t, made⟩
    · contradiction

def handover : List Step :=
  [⟨"a", 1, .lock⟩, ⟨"a", 2, .reserve "pod" (.wrap .v4 5)⟩, ⟨"b", 3, .enter ⟨.onUnlock, 0⟩⟩,
    ⟨"a", 4, .unlock⟩, ⟨"b", 5, .lock⟩, ⟨"b", 6, .lastReserved⟩, ⟨"b", 7, .unlock⟩]

theorem handoverFits (h : Host) : (Backing.disk "net").Fitting "a" handover h := by
  refine ⟨?_, ?_, ?_, ?_, ?_, ?_, ?_, trivial⟩ <;> intro operation made <;>
    obtain ⟨t, made⟩ := changeMade made <;> simp [Command.change?] at made
  rw [← made.2]
  decide

theorem handoverAgrees :
    (((Host.empty "/data").openDisk "a" "net" {}).1 = .ok () ∧ handover.length < space 8 ∧
      (Backing.disk "net").Fitting "a" handover ((Backing.disk "net").start "/data" "a" {})) ∧
    ((Backing.disk "net").run "a" handover ((Backing.disk "net").start "/data" "a" {})).1 =
      [.done (.ok ()), .reserved (.ok true), .entered none (.ok ()), .done (.ok ()), .done (.ok ()),
        .marker (.ok (some (.wrap .v4 5))), .done (.ok ())] :=
  ⟨⟨rfl, by decide, handoverFits _⟩,
    (diskRefinesMemory rfl handover (by decide) (handoverFits _)).1.trans rfl⟩

end Runs
end AddressPool.Session
