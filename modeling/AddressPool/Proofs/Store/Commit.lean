import AddressPool.Proofs.Store.Agreement
import AddressPool.Proofs.Store.Folding

/-! What a sync covers when the lock is given back and no call on the folder fails. With a sync at
every write it is all that was recorded. With one sync at the unlock it is all or nothing: a
change refused for its size makes the store load its state anew, and the writer loaded then has no
account of the entries that still wait for their sync. -/
namespace AddressPool
open Journal Bytes

def recorded : List Report → List Operation
  | [] => []
  | (some operation, .ok ()) :: rest => operation :: recorded rest
  | _ :: rest => recorded rest

def sinceFailure (count : Nat) : List Report → Nat
  | [] => count
  | (some _, .ok ()) :: rest => sinceFailure (count + 1) rest
  | (some _, .error _) :: rest => sinceFailure 0 rest
  | (none, _) :: rest => sinceFailure count rest

def Covered (start last : Folder) (operations : List Operation) : Prop :=
  ∃ bytes synced whole covered more, start.files .journal = some (bytes, synced) ∧
    last.files .journal = some (whole, covered) ∧
    walk whole = ⟨(walk bytes).entries ++ more, .clean⟩ ∧
    more.map (fun found => found.1.operation) = operations ∧ ∀ found ∈ more, found.2 ≤ covered

def TakenIn (before : LockedState) (last : Folder) (operations : List Operation) : Prop :=
  ∃ bytes, last.files .snapshot = some (bytes, bytes.length) ∧
    Snapshot.read bytes = .ok ⟨before.table.applyAll operations,
      before.writer.written.lsn + operations.length⟩

theorem walkAdd {i : Image} {appended : List Entry} (valid : i.Valid)
    (continues : i.Continues appended) : walk (i.add appended).journal =
      ⟨(walk i.journal).entries ++ ends i.journal.length appended, .clean⟩ := by
  have rest := walkWritten i.journal.length continues.sound .nothing
  rw [List.append_nil] at rest
  have past := walkPast 0 valid.reads (written appended)
  rw [Nat.zero_add, rest] at past
  exact past

theorem coveredIff {start last : Folder} {i : Image} {appended : List Entry} {synced covered : Nat}
    (valid : i.Valid) (continues : i.Continues appended)
    (began : start.files .journal = some (i.journal, synced))
    (ended : last.files .journal = some ((i.add appended).journal, covered))
    (all : covered ≤ i.journal.length ∨ covered = (i.add appended).journal.length) :
    Covered start last (appended.map Entry.operation) ↔
      appended = [] ∨ covered = (i.add appended).journal.length := by
  have length : (i.add appended).journal.length =
      i.journal.length + (written appended).length := by simp [Image.add]
  have walked := walkAdd valid continues
  have operations : (ends i.journal.length appended).map (fun found => found.1.operation) =
      appended.map Entry.operation := by
    have listed := congrArg (List.map Entry.operation) (endsEntries i.journal.length appended)
    rw [List.map_map] at listed
    exact listed
  constructor
  · rintro ⟨bytes, before, whole, after, more, first, last, walk, _, below⟩
    rw [began] at first
    rw [ended] at last
    cases first
    cases last
    rw [walked] at walk
    have same := List.append_cancel_left (Walk.mk.inj walk).1
    cases appended with
    | nil => exact .inl rfl
    | cons e rest =>
      have found : (e, i.journal.length + e.bytes.length) ∈ ends i.journal.length (e :: rest) :=
        List.mem_cons_self
      have within := endsWithin _ found
      have reached := below _ (same ▸ found)
      rcases all with early | all
      · omega
      · exact .inr all
  · intro either
    refine ⟨_, _, _, _, ends i.journal.length appended, began, ended, walked, operations, ?_⟩
    intro found member
    rcases either with none | all
    · rw [none] at member
      exact absurd member List.not_mem_nil
    · have within := endsWithin found member
      omega

section Runs

variable {policy : SyncPolicy} {d : Folder} {i : Image} {c last : Course} {reports : List Report}

theorem recordedRuns (runs : Course.Runs policy d i c reports last) (obeys : d.Obeys) :
    last.appended.map Entry.operation = c.appended.map Entry.operation ++ recorded reports := by
  induction runs with
  | done c => simp [recorded]
  | idle rest ih => simpa only [recorded] using ih
  | moves first rest ih =>
    rw [ih]
    -- only a failing call takes back what was recorded
    cases first with
    | flushed e made | pending e made => simp [recorded, made]
    | refused large => simp [recorded]
    | undone fault fails => exact absurd (obeys.obeysIn _) fails

theorem recordedLength (reports : List Report) : (recorded reports).length ≤ reports.length := by
  fun_induction recorded reports with
  | case1 => exact Nat.le_refl 0
  | case2 operation rest ih => exact Nat.succ_le_succ ih
  | case3 report rest other ih => exact Nat.le_succ_of_le ih

theorem onUnlockRuns (runs : Course.Runs .onUnlock d i c reports last) (obeys : d.Obeys) :
    last.synced = c.synced ∧ last.pending.length = sinceFailure c.pending.length reports := by
  generalize same : SyncPolicy.onUnlock = policy at runs
  induction runs with
  | done c => exact ⟨rfl, rfl⟩
  | idle rest ih => exact ih
  | moves first rest ih =>
    cases first with
    | flushed e made fits every => rw [every] at same; contradiction
    | pending e made =>
      obtain ⟨synced, pending⟩ := ih
      refine ⟨synced, pending.trans ?_⟩
      simp [sinceFailure, Course.push]
    | refused large => exact ih
    | undone fault fails => exact absurd (obeys.obeysIn _) fails

theorem everyWriteRuns {start : Nat} (runs : Course.Runs .everyWrite d i c reports last)
    (obeys : d.Obeys) (pending : c.pending = [])
    (synced : c.appended = [] ∧ c.synced = start ∨
      c.synced = (i.add c.appended).journal.length) :
    last.pending = [] ∧ (last.appended = [] ∧ last.synced = start ∨
      last.synced = (i.add last.appended).journal.length) := by
  generalize same : SyncPolicy.everyWrite = policy at runs
  induction runs with
  | done c => exact ⟨pending, synced⟩
  | idle rest ih => exact ih pending synced
  | moves first rest ih =>
    cases first with
    | flushed e made =>
      refine ih rfl (.inr ?_)
      rw [Course.appendedFlushed]
      rfl
    | pending e made fits later => rw [later] at same; contradiction
    | refused large =>
      refine ih rfl ?_
      rw [Course.appendedReopened]
      exact synced
    | undone fault fails => exact absurd (obeys.obeysIn _) fails

theorem committedRuns {synced : Nat} (runs : Course.Runs policy d i ⟨[], [], synced⟩ reports last)
    (obeys : d.Obeys) (sized : synced ≤ i.journal.length) :
    (last.committed i ≤ i.journal.length ∨
        last.committed i = (i.add last.appended).journal.length) ∧
      (last.appended = [] ∨ last.committed i = (i.add last.appended).journal.length ↔
        last.appended = [] ∨ policy = .everyWrite ∨ 0 < sinceFailure 0 reports) := by
  have longer : last.appended ≠ [] →
      i.journal.length < (i.add last.appended).journal.length := by
    intro some
    have pos : 0 < (written last.appended).length :=
      List.length_pos_iff.mpr fun none => some (writtenEmpty.mp none)
    simp only [Image.add, List.length_append]
    omega
  cases policy with
  | everyWrite =>
    obtain ⟨pending, all⟩ := everyWriteRuns runs obeys rfl (.inl ⟨rfl, rfl⟩)
    rw [Course.committed, if_pos pending]
    refine ⟨?_, fun _ => .inr (.inl rfl), fun _ => all.imp_left And.left⟩
    rcases all with ⟨_, same⟩ | all
    · exact .inl (same ▸ sized)
    · exact .inr all
  | onUnlock =>
    obtain ⟨kept, pending⟩ := onUnlockRuns runs obeys
    rw [Course.committed]
    split
    · next none =>
      rw [none] at pending
      have failed : sinceFailure 0 reports = 0 := pending.symm
      have kept : last.synced = synced := kept
      refine ⟨.inl (kept ▸ sized), ?_⟩
      by_cases nothing : last.appended = []
      · simp [nothing]
      · have strict := longer nothing
        simp only [nothing, failed, false_or, reduceCtorEq, Nat.lt_irrefl, iff_false]
        omega
    · next some =>
      have count : 0 < sinceFailure 0 reports := by
        rw [← show last.pending.length = sinceFailure 0 reports from pending]
        exact List.length_pos_iff.mpr some
      exact ⟨.inr rfl, fun _ => .inr (.inr count), fun _ => .inr rfl⟩

end Runs

namespace Disk

variable {s t : Disk} {before held : LockedState} {i : Image} {c : Course}

theorem makeAllLength (changes : List (Nat × Change)) (s : Disk) :
    (s.makeAll changes).1.length = changes.length := by
  induction changes generalizing s with
  | nil => rfl
  | cons dated rest ih => rw [makeAllCons, List.length_cons, ih, List.length_cons]

theorem unlockLeaves {handle : Folder.LockHandle} (keeps : Keeps s held i c)
    (obeys : s.folder.Obeys) (opened : s.store.handle = some handle)
    (size : held.table.size < space 8) :
    s.unlock.1 = .ok () ∧
      if s.store.settings.threshold ≤ held.writer.written.count then
        Folds s.unlock.2.folder (i.add c.appended)
      else s.unlock.2.folder.files .snapshot = s.folder.files .snapshot ∧
        s.unlock.2.folder.files .journal = some ((i.add c.appended).journal, c.committed i) := by
  rcases persistImage keeps (obeys.obeysIn _) s.store.settings.threshold size with
    ⟨e, persisted, _, leaves⟩ | ⟨fault, e, _, fails, _⟩
  · rw [unlockPersists keeps.loaded opened, persisted]
    refine ⟨rfl, ?_⟩
    have leaves := leaves obeys
    split at leaves
    · next long =>
      rw [if_pos long]
      refine ⟨?_, ?_⟩
      · rw [withLocked, Folder.dropLockFiles]
        exact leaves.snapshot
      · rw [withLocked, Folder.dropLockFiles]
        exact leaves.journal
    · next short =>
      rw [if_neg short, withLocked, Folder.dropLockFiles]
      exact leaves
  · exact absurd obeys fails

theorem notTakenIn {synced : Nat} {last : Folder} {operations : List Operation}
    (keeps : Keeps t before i ⟨[], [], synced⟩)
    (same : last.files .snapshot = t.folder.files .snapshot)
    (taken : TakenIn before last operations) : operations = [] := by
  -- The snapshot is that of before the lock, and its number would have to lie past the journal's.
  obtain ⟨bytes, file, read⟩ := taken
  obtain ⟨_, start, _⟩ := keeps.began
  rw [same] at file
  rcases keeps.stands.shows.snapshot with ⟨absent, _⟩ | ⟨others, length, present, found⟩
  · rw [absent] at file
    contradiction
  · rw [present] at file
    cases file
    rw [read, start] at found
    have number : i.lsn + operations.length = i.snapshot.lastLsn :=
      congrArg Snapshot.lastLsn (Except.ok.inj found)
    have behind : i.snapshot.lastLsn ≤ i.lsn := Nat.le_max_left _ _
    apply List.eq_nil_of_length_eq_zero
    omega

theorem makeAllRecords {synced : Nat} (keeps : Keeps t before i ⟨[], [], synced⟩)
    (obeys : t.folder.Obeys) (changes : List (Nat × Change))
    (room : before.writer.written.lsn + changes.length < space 8) :
    ∃ held after, Keeps (t.makeAll changes).2 held i after ∧ Within t (t.makeAll changes).2 ∧
      Course.Runs t.store.settings.policy t.folder i ⟨[], [], synced⟩ (t.makeAll changes).1 after ∧
      after.appended.map Entry.operation = recorded (t.makeAll changes).1 ∧
      (recorded (t.makeAll changes).1).length ≤ changes.length ∧
      held.table = before.table.applyAll (recorded (t.makeAll changes).1) ∧
      (i.add after.appended).lsn =
        before.writer.written.lsn + (recorded (t.makeAll changes).1).length ∧
      held.writer.written.count =
        before.writer.written.count + (recorded (t.makeAll changes).1).length := by
  obtain ⟨table, start, _⟩ := keeps.began
  rw [start] at room
  obtain ⟨held, after, kept, within, runs⟩ :=
    makeAllKeeps keeps (obeys.obeysIn _) (numberedFew keeps (obeys.obeysIn _) room)
  have operations : after.appended.map Entry.operation = recorded (t.makeAll changes).1 :=
    recordedRuns runs obeys
  have many : (recorded (t.makeAll changes).1).length = after.appended.length := by
    rw [← operations, List.length_map]
  refine ⟨held, after, kept, within, runs, operations, ?_, ?_, ?_, ?_⟩
  · rw [← makeAllLength changes t]
    exact recordedLength _
  · rw [kept.table, Image.tableAdd kept.stands.continues, operations, table]
  · rw [Image.lsnAdd kept.stands.continues, start, many]
    rfl
  · rw [kept.stands.written, start, many]
    simp [Image.mark, Image.add]

theorem foldsTakenIn {last : Folder} {operations : List Operation} (folds : Folds last i)
    (table : i.table = before.table.applyAll operations)
    (lsn : i.lsn = before.writer.written.lsn + operations.length) :
    TakenIn before last operations := by
  obtain ⟨bytes, file, read⟩ := folds.snapshot
  exact ⟨bytes, file, by rw [read, table, lsn]⟩

/-- An unlock gives no fault. All that was recorded under the lock is covered by a sync then, or
taken into a synced snapshot, unless the store syncs at the unlock only, the journal is too short
to be folded, and the last change to be refused for its size came after all the others. -/
theorem unlockCommits (unlocked : s.store.locked = none) (tidy : s.folder.Tidy)
    (obeys : s.folder.Obeys) (locks : s.lock = (.ok (), t))
    (loaded : t.store.locked = some before)
    (sized : ∀ bytes synced, t.folder.files .journal = some (bytes, synced) →
      synced ≤ bytes.length)
    (changes : List (Nat × Change))
    (room : before.writer.written.lsn + changes.length < space 8)
    (size : before.table.size + changes.length < space 8) :
    let reports := (t.makeAll changes).1
    let last := (t.makeAll changes).2.unlock
    last.1 = .ok () ∧
      (Covered t.folder last.2.folder (recorded reports) ∨
          TakenIn before last.2.folder (recorded reports) ↔
        recorded reports = [] ∨ s.store.settings.policy = .everyWrite ∨
          s.store.settings.threshold ≤ before.writer.written.count + (recorded reports).length ∨
          0 < sinceFailure 0 reports) := by
  intro reports last
  obtain ⟨handle, _, e, opened, _, _, same⟩ := lockLoads unlocked locks loaded
  obtain ⟨i, synced, keeps, fate⟩ := lockKeeps unlocked tidy locks loaded
  have obeys : t.folder.Obeys := obeys.same fate
  have settings : t.store.settings = s.store.settings := by rw [same]; rfl
  have opened : t.store.handle = some handle := by rw [same]; exact opened
  obtain ⟨held, after, kept, within, runs, operations, few, replayed, lsn, count⟩ :=
    makeAllRecords keeps obeys changes room
  have fits : held.table.size < space 8 := by
    have grown := Table.sizeApplyAll before.table (recorded (t.makeAll changes).1)
    rw [replayed]
    omega
  obtain ⟨done, leaves⟩ := unlockLeaves kept (obeys.same within.follows.fate)
    (within.opened.trans opened) fits
  refine ⟨done, ?_⟩
  rw [within.settings, settings, count] at leaves
  rw [settings] at runs
  split at leaves
  · next long =>
    exact ⟨fun _ => .inr (.inr (.inl long)),
      fun _ => .inr (foldsTakenIn leaves (kept.table.symm.trans replayed) lsn)⟩
  · next short =>
    obtain ⟨snapshot, journal⟩ := leaves
    have untaken : TakenIn before last.2.folder (recorded reports) → recorded reports = [] :=
      notTakenIn keeps (snapshot.trans within.snapshot)
    obtain ⟨_, _, began⟩ := keeps.began
    obtain ⟨all, exactly⟩ := committedRuns runs obeys (sized _ _ began)
    have covered := coveredIff kept.stands.valid kept.stands.continues began journal all
    have nothing : after.appended = [] ↔ recorded reports = [] := by
      rw [← operations, List.map_eq_nil_iff]
    rw [operations, exactly, nothing] at covered
    rw [covered]
    constructor
    · rintro ((none | every | later) | taken)
      · exact .inl none
      · exact .inr (.inl every)
      · exact .inr (.inr (.inr later))
      · exact .inl (untaken taken)
    · rintro (none | every | long | later)
      · exact .inl (.inl none)
      · exact .inl (.inr (.inl every))
      · exact absurd long short
      · exact .inl (.inr (.inr later))

def patient : Disk := onEmpty { policy := .onUnlock } fun _ _ => .done

def longOwner : String := String.ofList (List.replicate payloadLimit 'a')

def refusedLast : List (Nat × Change) :=
  [(10, .reserve "pod" (.wrap .v4 5)), (20, .reserve longOwner (.wrap .v4 6))]

theorem longOwnerTooLarge (a : Address) : ¬ (Operation.reserve a longOwner).Fits := by
  intro fits
  have fits : (writeOperation (.reserve a longOwner)).length + 8 ≤ payloadLimit := fits
  have narrow : 'a'.utf8Size = 1 := rfl
  rw [writeReserveLength, longOwner, Utf8.encodeRepeated, narrow] at fits
  omega

theorem makeTooLarge {owner : String} {a : Address} (loaded : s.store.locked = some held)
    (unowned : held.table.owner? a = none) (large : ¬ (Operation.reserve a owner).Fits) :
    ∃ fault, ((Change.reserve owner a).make s).1 = .error fault := by
  simp only [Change.make, reserve, loaded, Table.tryReserveFree unowned, record,
    Writer.appendTooLarge _ _ large]
  exact ⟨_, rfl⟩

theorem refusedReports : ∃ fault, (patient.lock.2.makeAll refusedLast).1 =
    [(some (.reserve (.wrap .v4 5) "pod"), .ok ()),
      (some (.reserve (.wrap .v4 6) longOwner), .error fault)] := by
  let once := ((Change.reserve "pod" (.wrap .v4 5)).make (patient.lock.2.timed 10)).2
  let held : LockedState :=
    ⟨Table.empty.put (.wrap .v4 5) "pod", 1, .onUnlock, ⟨51, 1, 1⟩, 1, ⟨0, 0, 0⟩⟩
  have loaded : (once.timed 20).store.locked = some held := rfl
  have unowned : held.table.owner? (.wrap .v4 6) = none := by decide
  obtain ⟨fault, refused⟩ := makeTooLarge loaded unowned (longOwnerTooLarge _)
  refine ⟨fault, ?_⟩
  rw [refusedLast, makeAllCons, makeAllCons, refused]
  rfl

theorem patientSized (bytes : Bytes) (synced : Nat)
    (file : patient.lock.2.folder.files .journal = some (bytes, synced)) :
    synced ≤ bytes.length := by
  have empty : patient.lock.2.folder.files .journal = some ([], 0) := rfl
  rw [empty] at file
  cases file
  exact Nat.le_refl 0

theorem refusedUncovered :
    ∃ before, (patient.store.locked = none ∧ patient.folder.Tidy ∧ patient.folder.Obeys ∧
        patient.lock = (.ok (), patient.lock.2) ∧ patient.lock.2.store.locked = some before ∧
        (∀ bytes synced, patient.lock.2.folder.files .journal = some (bytes, synced) →
          synced ≤ bytes.length) ∧
        before.writer.written.lsn + refusedLast.length < space 8 ∧
        before.table.size + refusedLast.length < space 8) ∧
      recorded (patient.lock.2.makeAll refusedLast).1 = [.reserve (.wrap .v4 5) "pod"] ∧
      (patient.lock.2.makeAll refusedLast).2.unlock.1 = .ok () ∧
      ¬ Covered patient.lock.2.folder (patient.lock.2.makeAll refusedLast).2.unlock.2.folder
        [.reserve (.wrap .v4 5) "pod"] ∧
      ¬ TakenIn before (patient.lock.2.makeAll refusedLast).2.unlock.2.folder
        [.reserve (.wrap .v4 5) "pod"] := by
  have obeys : patient.folder.Obeys := fun _ _ => rfl
  have loaded : patient.lock.2.store.locked =
      some ⟨.empty, 1, .onUnlock, ⟨0, 0, 0⟩, 0, ⟨0, 0, 0⟩⟩ := rfl
  obtain ⟨fault, reports⟩ := refusedReports
  obtain ⟨done, exactly⟩ := unlockCommits (t := patient.lock.2) rfl (onEmptyTidy _ _) obeys rfl
    loaded patientSized refusedLast (by decide) (by decide)
  have one : recorded (patient.lock.2.makeAll refusedLast).1 =
      [.reserve (.wrap .v4 5) "pod"] := by
    rw [reports]
    rfl
  have none : sinceFailure 0 (patient.lock.2.makeAll refusedLast).1 = 0 := by
    rw [reports]
    rfl
  rw [one, none] at exactly
  have uncovered := mt exactly.mp (by simp [onEmpty])
  exact ⟨_, ⟨rfl, onEmptyTidy _ _, obeys, rfl, loaded, patientSized, by decide, by decide⟩, one, done,
    fun covered => uncovered (.inl covered), fun taken => uncovered (.inr taken)⟩

end Disk
end AddressPool
