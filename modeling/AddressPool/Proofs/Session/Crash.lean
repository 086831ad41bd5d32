import AddressPool.Proofs.Session.Refinement
import AddressPool.Proofs.Store.Crash

/-! Processes that use a folder one after the other, each of them cut off at some call. After
every crash the next lock rebuilds what the previous recovery found, then a first part of the
operations appended since, in which none is missing that a sync covered. -/
namespace AddressPool.Session
open Journal Bytes

def crashAt (call kept : Nat) (fault : OsFault) : Nat → Call → Outcome := fun n _ =>
  if n < call then .done else .fails fault (if n = call then kept else 0)

structure Account where
  appended : List Operation
  covered : Nat
  deriving DecidableEq

def isSynced (network : String) (h : Host) : Bool :=
  let (bytes, synced) := ((h.volume.folder network).files .journal).getD ([], 0)
  bytes.length ≤ synced

namespace Account

def empty : Account := ⟨[], 0⟩

/-- An operation counts as appended once its whole entry is in the file; all of them are
covered once the last successful sync covers the whole file. -/
def take (network : String) (a : Account) (before : Host) (step : Step) (after : Host) : Account :=
  let appended := a.appended ++ journaled network before after (step.change? before)
  ⟨appended, if isSynced network after then appended.length else a.covered⟩

end Account

def tally (network first : String) (step : Step) (s : Host × Account) : Host × Account :=
  let after := ((Backing.disk network).step first step s.1).2
  (after, s.2.take network s.1 step after)

def tallyAll (network first : String) : List Step → Host × Account → Host × Account
  | [], s => s
  | step :: rest, s => tallyAll network first rest (tally network first step s)

/-- A process: steps in which every call is obeyed, then the step in which it ends, at a call
of that number or, if there is none, after the step. -/
structure Life where
  steps : List Step
  last : Step
  call : Nat
  kept : Nat
  fault : OsFault

def Life.pass (network first : String) (life : Life) (h : Host) : Host × Account :=
  let (h, a) := tallyAll network first life.steps (h, .empty)
  tally network first life.last
    (h.edit network fun d => { d with fate := crashAt life.call life.kept life.fault }, a)

def boot (root network : String) (left : Folder) : Host :=
  { Host.empty root with
    volume := (Host.empty root).volume.setFolder network { left with fate := fun _ _ => .done } }

def Happens (root network first : String) : Host → List (Life × Folder) → Prop
  | _, [] => True
  | h, (life, left) :: rest =>
      ((life.pass network first h).1.volume.folder network).Crash left ∧
        Happens root network first (boot root network left) rest

def Recovers (root network first : String) (left : Folder) (t : Table) : Prop :=
  ∀ (id : String) (settings : StoreSettings) (opening locking : Nat), ∃ h store locked,
    (Backing.disk network).run first [⟨id, opening, .enter settings⟩, ⟨id, locking, .lock⟩]
        (boot root network left) =
      ([.entered none (.ok ()), .done (.ok ())], h) ∧
    h.find? id = some (.disk network store) ∧ store.locked = some locked ∧ locked.table = t

/-- After each crash the lock gives the table of what survived the crash before, followed by a
first part of the operations appended since that has all the covered ones. -/
def Survives (root network first : String) : Host → List Operation → List (Life × Folder) → Prop
  | _, _, [] => True
  | h, survived, (life, left) :: rest =>
      ∃ since, since <+: (life.pass network first h).2.appended ∧
        (life.pass network first h).2.covered ≤ since.length ∧
        Recovers root network first left (Table.empty.applyAll (survived ++ since)) ∧
        Survives root network first (boot root network left) (survived ++ since) rest

def stepCount : List (Life × Folder) → Nat
  | [] => 0
  | (life, _) :: rest => life.steps.length + 2 + stepCount rest

theorem crashHalting (d : Folder) (call kept : Nat) (fault : OsFault) :
    { d with fate := crashAt call kept fault }.Halting := by
  intro n other failure bytes fails later next past
  simp only [crashAt] at fails ⊢
  split at fails
  · contradiction
  · exact ⟨fault, by rw [if_neg (by omega), if_neg (by omega)]⟩

section Accounts

variable {root network first : String} {h : Host} {node : Nat} {p : Pool} {covered : Nat}
variable {survived : List Operation} {a : Account}

theorem recordsSynced {l : Layout} {log : List Operation}
    (records : Records l (h.volume.folder network).files log covered)
    (synced : isSynced network h = true) :
    Records l (h.volume.folder network).files log log.length := by
  apply records.settle
  simp only [isSynced, records.journal, decide_eq_true_eq, List.length_append] at synced
  omega

theorem Serves.synced {log : List Operation} (serves : Serves network h node p log covered)
    (synced : isSynced network h = true) : Serves network h node p log log.length :=
  { serves with
    free := fun nobody => by
      obtain ⟨holder, tidy, l, records⟩ := serves.free nobody
      exact ⟨holder, tidy, l, recordsSynced records synced⟩
    held := fun holding => by
      obtain ⟨store, handle, locked, found, holds⟩ := serves.held holding
      obtain ⟨⟨tidy, ⟨l, records, rest⟩, bound⟩, table⟩ := holds.ready
      exact ⟨store, handle, locked, found, holds.opened, holds.loaded, holds.lock, holds.holder,
        ⟨tidy, ⟨l, recordsSynced records synced, rest⟩, bound⟩, table⟩ }

structure Leftover (network : String) (h : Host) (node : Nat) (log : List Operation)
    (covered : Nat) : Prop where
  tidy : (h.volume.folder network).Tidy
  lock : (h.volume.folder network).names .lock = some node
  records : ∃ l, Records l (h.volume.folder network).files log covered

theorem Serves.leftover {log : List Operation} (serves : Serves network h node p log covered) :
    Leftover network h node log covered := ⟨serves.tidy, serves.lock, serves.records⟩

theorem Leftover.synced {log : List Operation} (left : Leftover network h node log covered)
    (synced : isSynced network h = true) : Leftover network h node log log.length := by
  obtain ⟨tidy, lock, l, records⟩ := left
  exact ⟨tidy, lock, l, recordsSynced records synced⟩

theorem journaledOne (network : String) (before after : Host) (change : Option Operation) :
    (journaled network before after change).length ≤ 1 := by
  cases change with
  | none => exact Nat.zero_le 1
  | some operation =>
    simp only [journaled, Option.map_some, Option.getD_some, Files.journaled]
    split <;> simp

theorem StepOutcome.recorded {log : List Operation} {change : Option Operation}
    {reply : Answer × Pool} {result : Answer × Host}
    (outcome : StepOutcome network h node p log covered change reply result)
    (lock : (h.volume.folder network).names .lock = some node) :
    Leftover network result.2 node (log ++ journaled network h result.2 change) covered ∧
      (result.2.volume.folder network).fate = (h.volume.folder network).fate ∧
      ((∃ next, Serves network result.2 node next
          (log ++ journaled network h result.2 change) covered) ∨
        (result.2.volume.folder network).Halted) := by
  cases outcome with
  | went fits serves entry counts fate =>
    rw [entry]
    exact ⟨serves.leftover, fate, .inl ⟨_, serves⟩⟩
  | @refused answer after operation made large serves fate =>
    have nothing : journaled network h after change = [] := by
      rw [made]
      exact Files.journaledTooLarge large _ _
    simp only [nothing, List.append_nil]
    exact ⟨serves.leftover, fate, .inl ⟨_, serves⟩⟩
  | wrecked wrecked place fate =>
    exact ⟨⟨wrecked.tidy, place.trans lock, wrecked.records⟩, fate, .inr wrecked.halted⟩

theorem tallySpec (named : Named network) (first : String)
    (serves : Serves network h node p (survived ++ a.appended) (survived.length + a.covered))
    (obeys : (h.volume.folder network).Obeys)
    (few : survived.length + a.appended.length + 1 < space 8) (step : Step) :
    ∃ next, Serves network (tally network first step (h, a)).1 node next
        (survived ++ (tally network first step (h, a)).2.appended)
        (survived.length + (tally network first step (h, a)).2.covered) ∧
      ((tally network first step (h, a)).1.volume.folder network).Obeys ∧
      (tally network first step (h, a)).2.appended.length ≤ a.appended.length + 1 := by
  have outcome := diskStep named first serves obeys.halting
    (by rw [List.length_append]; exact few) step
  obtain ⟨_, fate, ⟨next, last⟩ | halted⟩ := outcome.recorded serves.lock
  · rw [List.append_assoc] at last
    refine ⟨next, ?_, obeys.same fate, ?_⟩
    · simp only [tally, Account.take]
      split
      · next synced =>
        rw [← List.length_append]
        exact last.synced synced
      · exact last
    · simp only [tally, Account.take, List.length_append]
      exact Nat.add_le_add_left (journaledOne network h _ _) a.appended.length
  · exact absurd halted (obeys.same fate).notHalted

theorem tallyAllSpec (named : Named network) (first : String) {steps : List Step}
    (serves : Serves network h node p (survived ++ a.appended) (survived.length + a.covered))
    (obeys : (h.volume.folder network).Obeys)
    (few : survived.length + a.appended.length + steps.length < space 8) :
    ∃ next, Serves network (tallyAll network first steps (h, a)).1 node next
        (survived ++ (tallyAll network first steps (h, a)).2.appended)
        (survived.length + (tallyAll network first steps (h, a)).2.covered) ∧
      ((tallyAll network first steps (h, a)).1.volume.folder network).Obeys ∧
      (tallyAll network first steps (h, a)).2.appended.length ≤
        a.appended.length + steps.length := by
  induction steps generalizing h a p with
  | nil => exact ⟨p, serves, obeys, Nat.le_refl _⟩
  | cons step rest ih =>
    rw [List.length_cons] at few
    obtain ⟨next, after, still, grown⟩ := tallySpec named first serves obeys (by omega) step
    obtain ⟨last, served, obeyed, total⟩ := ih after still (by omega)
    refine ⟨last, served, obeyed, Nat.le_trans total ?_⟩
    rw [List.length_cons]
    omega

theorem passSpec (named : Named network) (first : String) (life : Life)
    (serves : Serves network h node p survived survived.length)
    (obeys : (h.volume.folder network).Obeys)
    (few : survived.length + life.steps.length + 1 < space 8) :
    Leftover network (life.pass network first h).1 node
        (survived ++ (life.pass network first h).2.appended)
        (survived.length + (life.pass network first h).2.covered) ∧
      (life.pass network first h).2.appended.length ≤ life.steps.length + 1 := by
  have begun : Serves network h node p (survived ++ Account.empty.appended)
      (survived.length + Account.empty.covered) := by
    simpa only [Account.empty, List.append_nil, Nat.add_zero] using serves
  obtain ⟨next, served, still, short⟩ := @tallyAllSpec network h node p survived .empty
    named first life.steps begun obeys (by simp only [Account.empty, List.length_nil]; omega)
  have none : Account.empty.appended.length = 0 := rfl
  rw [none, Nat.zero_add] at short
  simp only [Life.pass]
  generalize tallyAll network first life.steps (h, .empty) = before at served short
  obtain ⟨before, a⟩ := before
  change a.appended.length ≤ life.steps.length at short
  let doomed : Host := before.edit network fun d =>
    { d with fate := crashAt life.call life.kept life.fault }
  have folder : doomed.volume.folder network =
      { before.volume.folder network with fate := crashAt life.call life.kept life.fault } :=
    Volume.folderSet before.volume network _
  have serving : Serves network doomed node next (survived ++ a.appended)
      (survived.length + a.covered) := by
    apply served.alike
    · rw [folder]
      exact ⟨rfl, rfl, rfl⟩
    · apply Nat.le_of_eq
      rw [folder]
    · exact fun _ => rfl
  have halting : (doomed.volume.folder network).Halting := by
    rw [folder]
    exact crashHalting _ life.call life.kept life.fault
  have outcome := diskStep named first serving halting
    (by rw [List.length_append]; omega) life.last
  obtain ⟨left, _, _⟩ := outcome.recorded serving.lock
  rw [List.append_assoc] at left
  refine ⟨?_, ?_⟩
  · simp only [tally, Account.take]
    split
    · next synced =>
      rw [← List.length_append]
      exact left.synced synced
    · exact left
  · simp only [tally, Account.take, List.length_append]
    exact Nat.add_le_add short (journaledOne network doomed _ _)

theorem folderBoot (root network : String) (left : Folder) :
    (boot root network left).volume.folder network = { left with fate := fun _ _ => .done } :=
  Volume.folderSet _ network _

theorem bootServes (root : String) {log : List Operation} (leaving : Leftover network h node log covered)
    {left : Folder} (crash : (h.volume.folder network).Crash left) :
    ∃ kept, kept <+: log ∧ covered ≤ kept.length ∧
      Serves network (boot root network left) node
        { Pool.vacant with table := Table.empty.applyAll kept } kept kept.length ∧
      ((boot root network left).volume.folder network).Obeys := by
  obtain ⟨tidy, lock, l, records⟩ := leaving
  have snapshot : left.files .snapshot = (h.volume.folder network).files .snapshot := by
    rcases records.snapshot with ⟨absent, _⟩ | present
    · rw [absent, crash.absent tidy absent]
    · obtain ⟨bytes, leaves, after⟩ := crash.present present
      rw [leavesSynced leaves] at after
      rw [present, after]
  have journal : ∃ bytes, Leaves (((h.volume.folder network).files .journal).getD ([], 0)).1
      (((h.volume.folder network).files .journal).getD ([], 0)).2 bytes ∧
      (left.files .journal).getD ([], 0) = (bytes, bytes.length) := by
    cases file : (h.volume.folder network).files .journal with
    | none =>
      refine ⟨[], ?_, by rw [crash.absent tidy file]; rfl⟩
      exact .cut 0 (Nat.le_refl 0)
    | some held =>
      obtain ⟨bytes, leaves, after⟩ := crash.present file
      exact ⟨bytes, leaves, by rw [after]; rfl⟩
  obtain ⟨bytes, leaves, after⟩ := journal
  obtain ⟨layout, kept, among, all, recorded⟩ := records.crash snapshot leaves after
  have alike : left.Alike ((boot root network left).volume.folder network) := by
    rw [folderBoot]
    exact ⟨rfl, rfl, rfl⟩
  refine ⟨kept, among, all, ?_, ?_⟩
  · refine bareServes ?_ ?_ (alike.tidy (crash.tidy tidy)) ⟨layout, ?_⟩ fun _ => rfl
    · rw [alike.names, crash.names]
      exact lock
    · rw [alike.holder]
      exact crash.free node
    · rw [alike.files]
      exact recorded
  · rw [folderBoot]
    exact fun _ _ => rfl

theorem bootRecovers (named : Named network) (root first : String) {left : Folder}
    {log : List Operation}
    (serves : Serves network (boot root network left) node
      { Pool.vacant with table := Table.empty.applyAll log } log covered)
    (obeys : ((boot root network left).volume.folder network).Obeys)
    (few : log.length + 1 < space 8) :
    Recovers root network first left (Table.empty.applyAll log) := by
  intro id settings opening locking
  let enter : Step := ⟨id, opening, .enter settings⟩
  let lock : Step := ⟨id, locking, .lock⟩
  let there : Pool := ⟨fun other => other == id || false, none, Table.empty.applyAll log⟩
  have entered : Pool.step { Pool.vacant with table := Table.empty.applyAll log } enter =
      (.entered none (.ok ()), there) := by
    simp only [Pool.step, enter, Pool.enter, Pool.vacant, Pool.leave]
    rfl
  have locked : there.step lock = (.done (.ok ()), { there with holding := some id }) := by
    have known : there.known id = true := by simp [there]
    simp only [Pool.step, lock, known, if_true]
    rfl
  have noChange : enter.change? (boot root network left) = none := by
    rw [changeOf serves]
    exact if_neg (by simp [Pool.vacant])
  obtain ⟨h, opened, served, obeyed, _⟩ :=
    (diskStep named first serves obeys.halting few enter).obeyed obeys (by simp [noChange])
  rw [entered, noChange, Option.toList_none, List.append_nil] at served
  rw [entered] at opened
  have alsoNone : lock.change? h = none := by
    rw [changeOf served]
    exact if_neg (by simp [there])
  obtain ⟨last, taken, serving, _, _⟩ :=
    (diskStep named first served obeyed.halting few lock).obeyed obeyed (by simp [alsoNone])
  rw [locked, alsoNone, Option.toList_none, List.append_nil] at serving
  rw [locked] at taken
  obtain ⟨store, handle, state, found, holds⟩ := serving.held rfl
  refine ⟨last, store, state, ?_, found, holds.loaded, holds.ready.table⟩
  rw [runCons, opened, runCons, taken]
  rfl

theorem livesSurvived (named : Named network) (root first : String) {lives : List (Life × Folder)}
    (serves : Serves network h node p survived survived.length)
    (obeys : (h.volume.folder network).Obeys)
    (few : survived.length + stepCount lives < space 8)
    (happens : Happens root network first h lives) :
    Survives root network first h survived lives := by
  induction lives generalizing h p survived with
  | nil => trivial
  | cons entry rest ih =>
    -- What one crash leaves is all that the later processes know.
    obtain ⟨life, left⟩ := entry
    obtain ⟨crash, later⟩ := happens
    simp only [stepCount] at few
    obtain ⟨leaving, short⟩ := passSpec named first life serves obeys (by omega)
    obtain ⟨kept, among, all, booted, obeyed⟩ := bootServes root leaving crash
    have longer : survived.length ≤ kept.length := Nat.le_trans (Nat.le_add_right _ _) all
    obtain ⟨since, rfl⟩ :=
      List.prefix_of_prefix_length_le (List.prefix_append survived _) among longer
    have bounded := among.length_le
    simp only [List.length_append] at bounded all
    refine ⟨since, (List.prefix_append_right_inj survived).mp among,
      Nat.le_of_add_le_add_left all, ?_, ?_⟩
    · refine bootRecovers named root first booted obeyed ?_
      rw [List.length_append]
      omega
    · refine ih booted obeyed ?_ later
      rw [List.length_append]
      omega

/-- However often processes are cut off, every recovery succeeds. It finds what the one before
found, and of the operations appended since a first part with all those a sync covered. -/
theorem crashesSurvived {settings : StoreSettings}
    (opened : ((Host.empty root).openDisk first network settings).1 = .ok ())
    (lives : List (Life × Folder)) (few : stepCount lives < space 8)
    (happens : Happens root network first ((Backing.disk network).start root first settings)
      lives) :
    Survives root network first ((Backing.disk network).start root first settings) [] lives := by
  have named := namedOpened opened
  obtain ⟨serves, obeys⟩ := startServes named
  exact livesSurvived named root first serves obeys (by simpa using few) happens

end Accounts

def lossy (root network first : String) : Host → List Life → List (Life × Folder)
  | _, [] => []
  | h, life :: rest =>
      let left := ((life.pass network first h).1.volume.folder network).lost
      (life, left) :: lossy root network first (boot root network left) rest

theorem lossyHappens (root network first : String) (h : Host) (lives : List Life) :
    Happens root network first h (lossy root network first h lives) := by
  induction lives generalizing h with
  | nil => trivial
  | cons life rest ih => exact ⟨crashLost _, ih _⟩

def interrupted : List Life :=
  [⟨[⟨"a", 1, .lock⟩, ⟨"a", 2, .reserve "pod" (.wrap .v4 5)⟩], ⟨"a", 3, .unlock⟩, 99, 0,
      .noSpace⟩,
    ⟨[⟨"b", 4, .enter {}⟩, ⟨"b", 5, .lock⟩], ⟨"b", 6, .reserve "pod" (.wrap .v4 6)⟩, 8, 3,
      .noSpace⟩]

theorem interruptedSurvived :
    let start := (Backing.disk "net").start "/data" "a" {}
    let lives := lossy "/data" "net" "a" start interrupted
    (((Host.empty "/data").openDisk "a" "net" {}).1 = .ok () ∧ stepCount lives < space 8 ∧
      Happens "/data" "net" "a" start lives) ∧ Survives "/data" "net" "a" start [] lives :=
  ⟨⟨rfl, by decide, lossyHappens _ _ _ _ _⟩,
    crashesSurvived rfl _ (by decide) (lossyHappens _ _ _ _ _)⟩

end AddressPool.Session
