import AddressPool.Proofs.Session.Step
import AddressPool.Proofs.Store.Section

/-! Any number of changes made under one lock, some refused and some undone by a failing write or
sync. As long as every entry has a number of its own, the loaded state agrees with the files after
each of them, and the entries that are left of the section lie above everything that the snapshot
took in. -/
namespace AddressPool
open Journal Bytes

inductive Change where
  | reserve (owner : String) (a : Address)
  | release (owner : String)
  deriving DecidableEq

namespace Change

def command : Change → Session.Command
  | .reserve owner a => .reserve owner a
  | .release owner => .releaseOwner owner

def operation? (change : Change) (t : Table) : Option Operation := change.command.change? t

def make (s : Disk) : Change → Except Fault Unit × Disk
  | .reserve owner a =>
      let (result, s) := s.reserve owner a
      (result.map fun _ => (), s)
  | .release owner => s.releaseOwner owner

variable {s : Disk} {locked : LockedState}

theorem makeNothing (change : Change) (loaded : s.store.locked = some locked)
    (nothing : change.operation? locked.table = none) : change.make s = (.ok (), s) := by
  cases change with
  | reserve owner a =>
    have owned : locked.table.owner? a ≠ none := by
      intro unowned
      simp [operation?, command, Session.Command.change?, unowned] at nothing
    simp only [make, Disk.reserve, loaded, Table.tryReserveOwned owned]
    rfl
  | release owner =>
    cases owned : locked.table.addressesOf owner with
    | nil => simp only [make, Disk.releaseOwner, loaded, owned]
    | cons a rest => simp [operation?, command, Session.Command.change?, owned] at nothing

theorem makeRecords (change : Change) (loaded : s.store.locked = some locked)
    (indexes : locked.table.Inverse) {operation : Operation}
    (some : change.operation? locked.table = some operation) :
    change.make s = s.record locked operation (locked.table.apply operation) := by
  cases change with
  | reserve owner a =>
    cases unowned : locked.table.owner? a with
    | some other => simp [operation?, command, Session.Command.change?, unowned] at some
    | none =>
      simp only [operation?, command, Session.Command.change?, unowned, Option.isNone_none,
        if_true, Option.some.injEq] at some
      subst some
      simp only [make, Disk.reserve, loaded, Table.tryReserveFree unowned,
        Table.applyReserve unowned]
      split <;> simp_all [Except.map]
  | release owner =>
    cases owned : locked.table.addressesOf owner with
    | nil => simp [operation?, command, Session.Command.change?, owned] at some
    | cons a rest =>
      simp only [operation?, command, Session.Command.change?, owned, Option.some.injEq] at some
      subst some
      have applied := Table.applyRelease indexes owner
      rw [owned] at applied
      simp only [make, Disk.releaseOwner, loaded, owned, applied]

end Change

abbrev Report := Option Operation × Except Fault Unit

inductive Course.Runs (policy : SyncPolicy) (d : Folder) (i : Image) :
    Course → List Report → Course → Prop where
  | done (c : Course) : Runs policy d i c [] c
  | idle {c last : Course} {reports : List Report} (rest : Runs policy d i c reports last) :
      Runs policy d i c ((none, .ok ()) :: reports) last
  | moves {c after last : Course} {operation : Operation} {result : Except Fault Unit}
      {reports : List Report} (first : Course.Moves policy d i operation c result after)
      (rest : Runs policy d i after reports last) :
      Runs policy d i c ((some operation, result) :: reports) last

theorem Course.Moves.length {policy : SyncPolicy} {d : Folder} {i : Image} {operation : Operation}
    {c after : Course} {result : Except Fault Unit}
    (moves : Course.Moves policy d i operation c result after) :
    after.appended.length ≤ c.appended.length + 1 := by
  cases moves with
  | flushed => simp
  | pending => simp
  | refused => simp
  | undone =>
    rw [appendedUndone, appended, List.length_append]
    omega

theorem Course.Moves.same {policy : SyncPolicy} {d e : Folder} {i : Image} {operation : Operation}
    {c after : Course} {result : Except Fault Unit}
    (moves : Course.Moves policy d i operation c result after) (fate : e.fate = d.fate) :
    Course.Moves policy e i operation c result after := by
  cases moves with
  | flushed e made fits every => exact .flushed e made fits every
  | pending e made fits later => exact .pending e made fits later
  | refused large => exact .refused large
  | undone fault fails => exact .undone fault fun obeys => fails (obeys.same fate.symm)

theorem Course.Runs.same {policy : SyncPolicy} {d e : Folder} {i : Image} {c last : Course}
    {reports : List Report} (runs : Course.Runs policy d i c reports last)
    (fate : e.fate = d.fate) : Course.Runs policy e i c reports last := by
  induction runs with
  | done c => exact .done c
  | idle rest ih => exact .idle ih
  | moves first rest ih => exact .moves (first.same fate) ih

namespace Disk

variable {s t : Disk} {locked before : LockedState} {i : Image} {c : Course}

def timed (time : Nat) (s : Disk) : Disk := { s with folder := { s.folder with clock := time } }

def makeAll : List (Nat × Change) → Disk → List Report × Disk
  | [], s => ([], s)
  | (time, change) :: rest, s =>
      let operation := s.store.locked.bind fun held => change.operation? held.table
      let (result, t) := change.make (s.timed time)
      let (reports, last) := makeAll rest t
      ((operation, result) :: reports, last)

theorem Keeps.timed (keeps : Keeps s locked i c) (time : Nat) : Keeps (s.timed time) locked i c :=
  { keeps with
    stands := { keeps.stands with
      tidy := ⟨keeps.stands.tidy.shape, keeps.stands.tidy.apart, keeps.stands.tidy.plain⟩ } }

theorem withinTimed (s : Disk) (time : Nat) : Within s (s.timed time) :=
  ⟨rfl, rfl, ⟨rfl, rfl, rfl⟩, fun _ => rfl, rfl⟩

theorem Keeps.indexes (keeps : Keeps s locked i c) : locked.table.Inverse := by
  rw [keeps.table]
  exact (keeps.stands.valid.add keeps.stands.continues).table.indexes

theorem makeAllCons (s : Disk) (time : Nat) (change : Change) (rest : List (Nat × Change)) :
    s.makeAll ((time, change) :: rest) =
      ((s.store.locked.bind fun held => change.operation? held.table,
          (change.make (s.timed time)).1) :: ((change.make (s.timed time)).2.makeAll rest).1,
        ((change.make (s.timed time)).2.makeAll rest).2) := rfl

theorem makeAllAppend (s : Disk) (front rest : List (Nat × Change)) :
    (s.makeAll (front ++ rest)).2 = ((s.makeAll front).2.makeAll rest).2 := by
  induction front generalizing s with
  | nil => rfl
  | cons dated others ih =>
    obtain ⟨time, change⟩ := dated
    rw [List.cons_append, makeAllCons, makeAllCons]
    exact ih _

/-- The call records an entry where the last of all numbers has been given. -/
def Overruns (s : Disk) (dated : Nat × Change) : Prop :=
  ∃ held operation, s.store.locked = some held ∧ held.writer.written.lsn + 1 = space 8 ∧
    dated.2.operation? held.table = some operation ∧ (dated.2.make (s.timed dated.1)).1 = .ok ()

def Numbered : Disk → List (Nat × Change) → Prop
  | _, [] => True
  | s, dated :: rest => ¬ s.Overruns dated ∧ Numbered (dated.2.make (s.timed dated.1)).2 rest

theorem numberedFront {front rest : List (Nat × Change)} (numbered : s.Numbered (front ++ rest)) :
    s.Numbered front := by
  induction front generalizing s with
  | nil => trivial
  | cons dated others ih => exact ⟨numbered.1, ih numbered.2⟩

theorem overrunsFirst {changes : List (Nat × Change)} (overrun : ¬ s.Numbered changes) :
    ∃ front dated, front ++ [dated] <+: changes ∧ s.Numbered front ∧
      (s.makeAll front).2.Overruns dated := by
  induction changes generalizing s with
  | nil => exact absurd trivial overrun
  | cons dated rest ih =>
    by_cases here : s.Overruns dated
    · exact ⟨[], dated, List.prefix_append [dated] rest, trivial, here⟩
    · obtain ⟨front, later, within, numbered, overruns⟩ := ih fun others => overrun ⟨here, others⟩
      exact ⟨dated :: front, later, List.prefix_cons_inj dated |>.mpr within, ⟨here, numbered⟩,
        overruns⟩

theorem makeWrites (keeps : Keeps s locked i c) (mends : s.folder.Mends) (time : Nat)
    (change : Change) :
    Within s (change.make (s.timed time)).2 ∧
    ((∃ next after, Keeps (change.make (s.timed time)).2 next i after ∧
        after.appended.length ≤ c.appended.length + 1 ∧
        ∀ reports last, Course.Runs s.store.settings.policy s.folder i after reports last →
          Course.Runs s.store.settings.policy s.folder i c
            ((change.operation? locked.table, (change.make (s.timed time)).1) :: reports) last) ∨
      ∃ operation, change.operation? locked.table = some operation ∧
        (change.make (s.timed time)).1 = .ok () ∧
        Overran (s.timed time) locked i c operation (change.make (s.timed time)).2) := by
  have ready := keeps.timed time
  have early := withinTimed s time
  cases has : change.operation? locked.table with
  | none =>
    rw [change.makeNothing ready.loaded has]
    exact ⟨early, .inl ⟨locked, c, ready, Nat.le_succ _, fun _ _ rest => .idle rest⟩⟩
  | some operation =>
    rw [change.makeRecords ready.loaded ready.indexes has]
    obtain ⟨result, t, recorded, within, ⟨next, after, kept, moves⟩ | ⟨done, overran⟩⟩ :=
      recordWrites ready (mends.same rfl) operation
    · rw [recorded]
      exact ⟨early.trans within, .inl ⟨next, after, kept, moves.length,
        fun _ _ rest => .moves (moves.same rfl) rest⟩⟩
    · rw [recorded]
      exact ⟨early.trans within, .inr ⟨operation, rfl, done, overran⟩⟩

theorem makeKeeps (keeps : Keeps s locked i c) (mends : s.folder.Mends) {time : Nat}
    {change : Change} (numbered : ¬ s.Overruns (time, change)) :
    ∃ next after, Keeps (change.make (s.timed time)).2 next i after ∧
      Within s (change.make (s.timed time)).2 ∧
      after.appended.length ≤ c.appended.length + 1 ∧
      ∀ reports last, Course.Runs s.store.settings.policy s.folder i after reports last →
        Course.Runs s.store.settings.policy s.folder i c
          ((change.operation? locked.table, (change.make (s.timed time)).1) :: reports) last := by
  obtain ⟨within, ⟨next, after, kept, grown, runs⟩ | ⟨operation, has, done, overran⟩⟩ :=
    makeWrites keeps mends time change
  · exact ⟨next, after, kept, within, grown, runs⟩
  · exact absurd ⟨locked, operation, keeps.loaded, keeps.number ▸ overran.last, has, done⟩ numbered

theorem overrunsBackwards (keeps : Keeps s locked i c) (mends : s.folder.Mends)
    {dated : Nat × Change} (overruns : s.Overruns dated) :
    ∃ last, (dated.2.make (s.timed dated.1)).2.folder.Tidy ∧
      (dated.2.make (s.timed dated.1)).2.folder.files.Backwards last := by
  obtain ⟨held, operation, loaded, spent, has, done⟩ := overruns
  cases keeps.loaded.symm.trans loaded
  have ready := keeps.timed dated.1
  rw [keeps.number] at spent
  rw [dated.2.makeRecords ready.loaded ready.indexes has] at done ⊢
  obtain ⟨result, t, recorded, _, ⟨next, after, kept, moves⟩ | ⟨_, overran⟩⟩ :=
    recordWrites ready (mends.same rfl) operation
  · -- One more entry with a number of its own would have a number past the last.
    rw [recorded] at done
    have numbered := kept.stands.numbered
    rw [Image.lsnAdd kept.stands.continues] at numbered
    have full := Image.lsnAdd keeps.stands.continues
    rw [show result = .ok () from done] at moves
    cases moves with
    | flushed e | pending e =>
      simp only [Course.appendedFlushed, Course.appendedPush, List.length_append,
        List.length_singleton] at numbered
      omega
  · obtain ⟨_, v, sound, _, writes⟩ := overran.entry
    rw [recorded]
    exact ⟨_, writes.backwards ready.stands sound rfl⟩

theorem makeAllKeeps (keeps : Keeps s locked i c) (mends : s.folder.Mends)
    {changes : List (Nat × Change)} (numbered : s.Numbered changes) :
    ∃ held after, Keeps (s.makeAll changes).2 held i after ∧ Within s (s.makeAll changes).2 ∧
      Course.Runs s.store.settings.policy s.folder i c (s.makeAll changes).1 after := by
  induction changes generalizing s locked c with
  | nil => exact ⟨locked, c, keeps, .refl s, .done c⟩
  | cons dated rest ih =>
    obtain ⟨time, change⟩ := dated
    obtain ⟨next, after, onward, within, _, first⟩ := makeKeeps keeps mends numbered.1
    obtain ⟨held, last, kept, later, runs⟩ :=
      ih onward (mends.same within.follows.fate) numbered.2
    rw [within.settings] at runs
    rw [makeAllCons, keeps.loaded]
    exact ⟨held, last, kept, within.trans later,
      first _ _ (runs.same within.follows.fate.symm)⟩

theorem numberedFew (keeps : Keeps s locked i c) (mends : s.folder.Mends)
    {changes : List (Nat × Change)}
    (few : i.lsn + c.appended.length + changes.length < space 8) : s.Numbered changes := by
  induction changes generalizing s locked c with
  | nil => trivial
  | cons dated rest ih =>
    obtain ⟨time, change⟩ := dated
    rw [List.length_cons] at few
    have early : ¬ s.Overruns (time, change) := by
      rintro ⟨held, operation, loaded, spent, _⟩
      cases keeps.loaded.symm.trans loaded
      rw [keeps.number, Image.lsnAdd keeps.stands.continues] at spent
      omega
    obtain ⟨next, after, onward, within, grown, _⟩ := makeKeeps keeps mends early
    exact ⟨early, ih onward (mends.same within.follows.fate) (by omega)⟩

/-- Any store loads the folder as this state, and leaves its files as they are. Its journal is
these entries, in rising sequence, and nothing else. -/
structure Agrees (d : Folder) (held : LockedState) (snapshot : Snapshot) (entries : List Entry) :
    Prop where
  snapshot : ∃ found, Snapshot.load d = .ok found ∧ found.getD .empty = snapshot
  clean : ∃ bytes ends, d.read .journal = .ok (some bytes) ∧ walk bytes = ⟨ends, .clean⟩ ∧
    ends.map Prod.fst = entries
  rising : (entries.map Entry.lsn).Pairwise (· < ·)
  loads : ∀ path policy, ∃ loaded e, DiskStore.load path policy d = (.ok loaded, e) ∧
    loaded.table = held.table ∧ loaded.writer.written = held.writer.written ∧ e.files = d.files

theorem Keeps.agrees (keeps : Keeps s locked i c) (mends : s.folder.Mends) :
    Agrees s.folder locked i.snapshot (i.entries ++ c.appended) := by
  have valid := keeps.stands.valid.add keeps.stands.continues
  have snapshot := DiskStore.snapshotShown keeps.stands.tidy keeps.stands.shows
  refine ⟨snapshot, ?_, (risingNumbers valid.rising).2, ?_⟩
  · obtain ⟨ends, walked, listed, _⟩ := walkReads 0 valid.reads
    refine ⟨_, ends, ?_, walked, listed⟩
    rw [Folder.readTidy keeps.stands.tidy, keeps.stands.shows.journal]
    rfl
  · intro path policy
    obtain ⟨node, e, loaded, _, effect⟩ := DiskStore.loadShown path policy keeps.stands.tidy valid
      keeps.stands.shows (mends.fewer (by decide))
    exact ⟨_, e, loaded, keeps.table.symm, keeps.stands.written.symm, effect.files⟩

theorem lockLoads (unlocked : s.store.locked = none) (locks : s.lock = (.ok (), t))
    (loaded : t.store.locked = some before) :
    ∃ handle d e, s.store.handle = some handle ∧ s.folder.takeLock handle = (true, d) ∧
      DiskStore.load s.store.path s.store.settings.policy d = (.ok before, e) ∧
      t = s.withLocked (some before) e := by
  have isLocked : ¬ s.isLocked = true := by simp [isLocked, unlocked]
  rw [lock, if_neg isLocked] at locks
  split at locks
  · cases locks
  next handle opened =>
  split at locks
  · cases locks
  next d took =>
  split at locks
  · next held e load =>
    cases locks
    cases loaded
    exact ⟨handle, d, e, opened, took, load, rfl⟩
  · cases locks

theorem lockKeeps (unlocked : s.store.locked = none) (tidy : s.folder.Tidy)
    (locks : s.lock = (.ok (), t)) (loaded : t.store.locked = some before) :
    ∃ i synced, Keeps t before i ⟨[], [], synced⟩ ∧ t.folder.fate = s.folder.fate := by
  obtain ⟨handle, d, e, _, took, load, rfl⟩ := lockLoads unlocked locks loaded
  obtain ⟨tidy, fate⟩ := Folder.takeLockTidy tidy took
  obtain ⟨i, synced, node, valid, shows, rfl, bound, effect⟩ := DiskStore.loadFound tidy load
  rw [← Image.addNothing i] at shows
  have stands := Stands.fresh s.store.settings.policy (c := ⟨[], [], synced⟩)
    effect.tidy valid (.nothing i) shows bound
  simp only [Course.reopened, Course.appended, List.append_nil, Image.addNothing] at stands
  refine ⟨i, synced, ⟨rfl, ?_, rfl, stands⟩, effect.fate.trans fate⟩
  exact congrArg Image.table (Image.addNothing i).symm

/-- Between the state that the lock loaded and the one that the calls have left: both agree with the
files, and what is left of the section in the journal lies above the snapshot's number and makes up
the table. -/
def AgreesAfter (t : Disk) (before : LockedState) (changes : List (Nat × Change)) : Prop :=
  ∃ snapshot found appended held, Agrees t.folder before snapshot found ∧
    (t.makeAll changes).2.store.locked = some held ∧
    Agrees (t.makeAll changes).2.folder held snapshot (found ++ appended) ∧
    (∀ e ∈ appended, snapshot.lastLsn < e.lsn) ∧
    held.table = before.table.applyAll (appended.map Entry.operation)

theorem keepsAgree {synced : Nat} (keeps : Keeps t before i ⟨[], [], synced⟩)
    (mends : t.folder.Mends) {changes : List (Nat × Change)} (numbered : t.Numbered changes) :
    t.AgreesAfter before changes := by
  obtain ⟨table, _, _⟩ := keeps.began
  obtain ⟨held, after, kept, within, _⟩ := makeAllKeeps keeps mends numbered
  have agrees := keeps.agrees mends
  rw [show (⟨[], [], synced⟩ : Course).appended = [] from rfl, List.append_nil] at agrees
  refine ⟨i.snapshot, i.entries, after.appended, held, agrees, kept.loaded,
    kept.agrees (mends.same within.follows.fate), ?_, ?_⟩
  · intro e member
    exact Nat.lt_of_le_of_lt (Nat.le_max_left _ _) (kept.stands.continues.above e member)
  · rw [kept.table, table, Image.tableAdd kept.stands.continues]

/-- The loaded state agrees with the files after every call under a lock, whatever the calls come to,
just when every entry has a number of its own, as it has while numbers last. The first one to go by
zero leaves files that nobody can load. -/
theorem heldAgrees (unlocked : s.store.locked = none) (tidy : s.folder.Tidy)
    (mends : s.folder.Mends) (locks : s.lock = (.ok (), t))
    (loaded : t.store.locked = some before) (changes : List (Nat × Change)) :
    (t.Numbered changes ↔ ∀ front, front <+: changes → t.AgreesAfter before front) ∧
    (before.writer.written.lsn + changes.length < space 8 → t.Numbered changes) ∧
    ∀ dated, t.Numbered changes → (t.makeAll changes).2.Overruns dated →
      ∃ last, ∀ path policy,
        (DiskStore.load path policy (t.makeAll (changes ++ [dated])).2.folder).1 =
          .error (.damage (.journal (.backwards 0 last))) := by
  obtain ⟨i, synced, keeps, fate⟩ := lockKeeps unlocked tidy locks loaded
  have mends : t.folder.Mends := mends.same fate
  obtain ⟨_, start, _⟩ := keeps.began
  have refused {front : List (Nat × Change)} {dated : Nat × Change} (numbered : t.Numbered front)
      (overruns : (t.makeAll front).2.Overruns dated) : ∃ last, ∀ path policy,
        (DiskStore.load path policy (t.makeAll (front ++ [dated])).2.folder).1 =
          .error (.damage (.journal (.backwards 0 last))) := by
    obtain ⟨held, after, kept, within, _⟩ := makeAllKeeps keeps mends numbered
    obtain ⟨last, tidy, back⟩ :=
      overrunsBackwards kept (mends.same within.follows.fate) overruns
    refine ⟨last, fun path policy => ?_⟩
    rw [makeAllAppend]
    exact congrArg Prod.fst (DiskStore.loadBackwards path policy tidy back)
  refine ⟨⟨?_, ?_⟩, ?_, fun dated => refused⟩
  · rintro numbered front ⟨rest, rfl⟩
    exact keepsAgree keeps mends (numberedFront numbered)
  · refine fun agrees => Classical.byContradiction fun overrun => ?_
    obtain ⟨front, dated, within, numbered, overruns⟩ := overrunsFirst overrun
    obtain ⟨last, refused⟩ := refused numbered overruns
    obtain ⟨_, _, _, _, _, _, agrees, _⟩ := agrees _ within
    obtain ⟨_, _, loads, _⟩ := agrees.loads "" .everyWrite
    have fault := refused "" .everyWrite
    rw [loads] at fault
    cases fault
  · intro room
    rw [start] at room
    exact numberedFew keeps mends room

def onEmpty (settings : StoreSettings) (fate : Nat → Call → Outcome) : Disk :=
  ⟨⟨"/data/net", settings, some ⟨0, 0⟩, none⟩,
    ⟨.folder, fun name => if name = .lock then some 0 else none, [⟨.file [] 0, none⟩], 1, 0, 2,
      fate⟩⟩

theorem onEmptyTidy (settings : StoreSettings) (fate : Nat → Call → Outcome) :
    (onEmpty settings fate).folder.Tidy := .bare rfl (fun _ => rfl) rfl

def interrupted : Disk :=
  onEmpty {} fun n call => if n = 5 ∧ call = .appendEntry then .fails .noSpace 3 else .done

def firstReserved : Nat × Change := (10, .reserve "pod" (.wrap .v4 5))

def twoReserved : List (Nat × Change) := [firstReserved, (20, .reserve "pod" (.wrap .v4 6))]

theorem interruptedMends : interrupted.folder.Mends := by
  intro n call member
  refine if_neg fun both => ?_
  rw [both.2] at member
  simp at member

def spentFolder : Folder :=
  let bytes := (Snapshot.mk .empty (space 8 - 1)).write
  ({ Folder.absent with shape := .folder }.create .snapshot (.file bytes bytes.length)).2

def spent : Disk :=
  ⟨⟨"/data/net", {}, some ⟨1, 0⟩, none⟩,
    { (spentFolder.create .lock (.file [] 0)).2 with handles := 1, calls := 2 }⟩

def spentState : LockedState := ⟨.empty, 2, .everyWrite, ⟨0, space 8 - 1, 0⟩, 0, ⟨0, space 8 - 1, 0⟩⟩

theorem spentTidy : spent.folder.Tidy := by
  have bare : Folder.Tidy { Folder.absent with shape := .folder } := ⟨rfl, nofun, nofun⟩
  have before : spentFolder.Tidy := Folder.createTidy bare .snapshot _ _
  have made := Folder.createTidy before .lock [] 0
  exact ⟨made.shape, made.apart, made.plain⟩

theorem spentLocks : spent.lock = (.ok (), spent.lock.2) := by
  have done : spent.lock.1 = .ok () := by decide +kernel
  rw [← done]

theorem spentLoaded : spent.lock.2.store.locked = some spentState := by decide +kernel

theorem spentOverruns : spent.lock.2.Overruns firstReserved :=
  ⟨spentState, .reserve (.wrap .v4 5) "pod", spentLoaded, by decide, rfl, by decide +kernel⟩

theorem agreesUntilSpent :
    (∃ before, (interrupted.store.locked = none ∧ interrupted.folder.Tidy ∧
        interrupted.folder.Mends ∧ interrupted.lock = (.ok (), interrupted.lock.2) ∧
        interrupted.lock.2.store.locked = some before) ∧
      (interrupted.lock.2.makeAll twoReserved).1.map Prod.snd = [.ok (), .error (.os .noSpace)] ∧
      interrupted.lock.2.AgreesAfter before twoReserved) ∧
    (spent.store.locked = none ∧ spent.folder.Tidy ∧ spent.folder.Mends ∧
      spent.lock = (.ok (), spent.lock.2) ∧ spent.lock.2.store.locked = some spentState) ∧
    (spent.lock.2.makeAll [firstReserved]).1.map Prod.snd = [.ok ()] ∧
    (∃ last, ∀ path policy,
      (DiskStore.load path policy (spent.lock.2.makeAll [firstReserved]).2.folder).1 =
        .error (.damage (.journal (.backwards 0 last)))) ∧
    ¬ ∀ front, front <+: twoReserved → spent.lock.2.AgreesAfter spentState front := by
  have loaded : interrupted.lock.2.store.locked =
      some ⟨.empty, 1, .everyWrite, ⟨0, 0, 0⟩, 0, ⟨0, 0, 0⟩⟩ := rfl
  obtain ⟨exactly, room, _⟩ := heldAgrees (t := interrupted.lock.2) rfl (onEmptyTidy _ _)
    interruptedMends rfl loaded twoReserved
  have mends : spent.folder.Mends := fun _ _ _ => rfl
  obtain ⟨_, _, refused⟩ := heldAgrees rfl spentTidy mends spentLocks spentLoaded []
  obtain ⟨always, _, _⟩ := heldAgrees rfl spentTidy mends spentLocks spentLoaded twoReserved
  refine ⟨⟨_, ⟨rfl, onEmptyTidy _ _, interruptedMends, rfl, loaded⟩, rfl, ?_⟩,
    ⟨rfl, spentTidy, mends, spentLocks, spentLoaded⟩, by decide +kernel, ?_, ?_⟩
  · exact exactly.mp (room (by decide)) _ (List.prefix_refl _)
  · have overrun := refused firstReserved trivial (by simpa only [makeAll] using spentOverruns)
    rwa [List.nil_append] at overrun
  · exact fun agrees => (always.mpr agrees).1 spentOverruns

end Disk
end AddressPool
