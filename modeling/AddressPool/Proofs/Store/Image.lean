import AddressPool.Proofs.Journal.Writer
import AddressPool.Proofs.Snapshot.Codec
import AddressPool.Proofs.Store.Load

/-! What the files of a store hold when nothing is known of their origin: a snapshot, or none,
and a journal whose bytes are entries one after the other. Loading finds such an image in any
files that it accepts, and on files that show one it gives its table, with a writer behind its
last entry. -/
namespace AddressPool
open Journal Bytes

structure Image where
  snapshot : Snapshot
  journal : Bytes
  entries : List Entry

namespace Image

def lsn (i : Image) : Nat := max i.snapshot.lastLsn (lsnAfter 0 i.entries)

def newer (i : Image) : List Entry := i.entries.filter fun e => i.snapshot.lastLsn < e.lsn

def table (i : Image) : Table := i.snapshot.table.applyAll (i.newer.map Entry.operation)

def mark (i : Image) : Mark := ⟨i.journal.length, i.lsn, i.entries.length⟩

def add (i : Image) (more : List Entry) : Image :=
  { i with journal := i.journal ++ written more, entries := i.entries ++ more }

structure Valid (i : Image) : Prop where
  reads : Reads i.journal i.entries
  rising : backwards? 0 i.entries = none
  proper : i.snapshot.table.Proper

structure Continues (i : Image) (more : List Entry) : Prop where
  sound : ∀ e ∈ more, e.Sound
  numbers : more.map Entry.lsn = List.range' (i.lsn + 1) more.length

variable {i : Image} {more : List Entry}

@[simp] theorem addNothing (i : Image) : i.add [] = i := by simp [add]

theorem addLast (i : Image) (more : List Entry) (e : Entry) :
    i.add (more ++ [e]) = ⟨i.snapshot, (i.add more).journal ++ e.bytes, (i.add more).entries ++ [e]⟩ := by
  simp [add]

theorem Continues.nothing (i : Image) : i.Continues [] := ⟨by simp, rfl⟩

theorem Continues.front {first last : List Entry} (continues : i.Continues (first ++ last)) :
    i.Continues first where
  sound e member := continues.sound e (List.mem_append_left last member)
  numbers := by
    have all := congrArg (List.take first.length) continues.numbers
    rw [List.map_append, List.take_left' (List.length_map ..), List.length_append] at all
    rw [all, List.take_range'_of_length_ge (Nat.le_add_right _ _)]

theorem Continues.above (continues : i.Continues more) : ∀ e ∈ more, i.lsn < e.lsn := by
  intro e member
  have numbered : e.lsn ∈ more.map Entry.lsn := List.mem_map_of_mem member
  rw [continues.numbers, List.mem_range'_1] at numbered
  omega

theorem lsnAdd (continues : i.Continues more) : (i.add more).lsn = i.lsn + more.length := by
  cases more with
  | nil => rw [addNothing]; rfl
  | cons e rest =>
    have last := lsnAfterNumbered continues.numbers
    have above := continues.above e List.mem_cons_self
    rw [lsnAfterCons] at last
    simp only [lsn, add, lsnAfterAppend, lsnAfterCons, last] at above ⊢
    omega

theorem Continues.push (continues : i.Continues more) {e : Entry} (sound : e.Sound)
    (next : e.lsn = (i.add more).lsn + 1) : i.Continues (more ++ [e]) where
  sound other member := by
    rcases List.mem_append.mp member with old | new
    · exact continues.sound other old
    · rw [List.mem_singleton.mp new]
      exact sound
  numbers := by
    rw [lsnAdd continues] at next
    simp only [List.map_append, List.map_cons, List.map_nil, List.length_append,
      List.length_singleton, List.range'_concat, continues.numbers, next]
    congr 2
    omega

theorem newerAdd (continues : i.Continues more) : (i.add more).newer = i.newer ++ more := by
  have all : more.filter (fun e => i.snapshot.lastLsn < e.lsn) = more := by
    rw [List.filter_eq_self]
    intro e member
    have above := continues.above e member
    simp only [lsn] at above
    simp only [decide_eq_true_eq]
    omega
  rw [newer, add, List.filter_append, all]
  rfl

theorem tableAdd (continues : i.Continues more) :
    (i.add more).table = i.table.applyAll (more.map Entry.operation) := by
  rw [table, newerAdd continues, List.map_append, Table.applyAllAppend]
  rfl

theorem Valid.add (valid : i.Valid) (continues : i.Continues more) : (i.add more).Valid where
  reads := valid.reads.append (readsWritten continues.sound)
  rising := by
    refine backwardsAppend.mpr ⟨valid.rising, ?_⟩
    have below : lsnAfter 0 i.entries ≤ i.lsn := Nat.le_max_right _ _
    generalize lsnAfter 0 i.entries = last at below
    have numbers := continues.numbers
    generalize i.lsn = base at below numbers
    clear continues
    -- each number is one above the one before it, so none is below
    induction more generalizing last base with
    | nil => rfl
    | cons e rest ih =>
      simp only [List.map_cons, List.length_cons, List.range'_succ, List.cons.injEq] at numbers
      rw [backwards?, if_neg (by omega)]
      exact ih e.lsn (base + 1) (by omega) numbers.2
  proper := valid.proper

theorem Valid.table (valid : i.Valid) : i.table.Proper := by
  refine valid.proper.applyAll ?_
  intro operation member
  obtain ⟨e, newer, rfl⟩ := List.mem_map.mp member
  exact valid.reads.every Entry.Spelled.owner e (List.mem_filter.mp newer).1

end Image

structure Shows (files : Files) (i : Image) (synced : Nat) : Prop where
  snapshot : files .snapshot = none ∧ i.snapshot = .empty ∨
    ∃ bytes length, files .snapshot = some (bytes, length) ∧ Snapshot.read bytes = .ok i.snapshot
  journal : files .journal = some (i.journal, synced)

theorem Shows.rewritten {files : Files} {i j : Image} {synced covered : Nat}
    (shows : Shows files i synced) (same : j.snapshot = i.snapshot) :
    Shows (files.set .journal (some (j.journal, covered))) j covered where
  snapshot := by
    rw [Files.setOther _ _ (by decide), same]
    exact shows.snapshot
  journal := Files.setSame files .journal _

theorem Shows.numbered {files : Files} {i : Image} {synced : Nat} (shows : Shows files i synced)
    (valid : i.Valid) : i.lsn < space 8 := by
  refine Nat.max_lt.mpr ⟨?_, ?_⟩
  · rcases shows.snapshot with ⟨_, empty⟩ | ⟨bytes, _, _, read⟩
    · rw [empty]
      exact spacePos 8
    · obtain ⟨_, spelled⟩ := (Snapshot.readSpelled _ _).mp read
      exact spelled.lsn
  · rw [lsnAfter]
    cases last : i.entries.getLast? with
    | none => exact spacePos 8
    | some e => exact valid.reads.every Entry.Spelled.number e (List.mem_of_getLast? last)

def Files.Sized (files : Files) : Prop := ∀ name, ∀ file ∈ files name, file.1.length < space 8

theorem Shows.sized {files : Files} {i : Image} {synced : Nat} (shows : Shows files i synced)
    (valid : i.Valid) (small : files.Sized) : i.table.size + 1 < space 8 := by
  have snapshot : 4 * i.snapshot.table.size < space 8 := by
    rcases shows.snapshot with ⟨_, empty⟩ | ⟨bytes, _, file, read⟩
    · rw [empty]
      exact spacePos 8
    · obtain ⟨_, spelled⟩ := (Snapshot.readSpelled _ _).mp read
      exact Nat.lt_of_le_of_lt spelled.sized (small _ _ file)
  have journal := Nat.lt_of_le_of_lt valid.reads.sized (small _ _ shows.journal)
  have replayed := Table.sizeApplyAll i.snapshot.table (i.newer.map Entry.operation)
  have newer : i.newer.length ≤ i.entries.length := List.length_filter_le _ _
  rw [List.length_map] at replayed
  have large : 2 < space 8 := by decide
  rw [Image.table]
  simp only [Journal.headerSize] at journal
  omega

structure Files.Backwards (files : Files) (last : Nat) : Prop where
  snapshot : files .snapshot = none ∨ ∃ bytes length s, files .snapshot = some (bytes, length) ∧
    Snapshot.read bytes = .ok s
  journal : ∃ bytes covered entries, files .journal = some (bytes, covered) ∧
    Reads bytes entries ∧ backwards? 0 entries = some (0, last)

theorem Files.Backwards.entry {files : Files} {last : Nat} (back : files.Backwards last) :
    ∃ bytes covered, files .journal = some (bytes, covered) ∧ bytes ≠ [] := by
  obtain ⟨bytes, covered, entries, file, reads, falls⟩ := back.journal
  refine ⟨bytes, covered, file, ?_⟩
  rintro rfl
  cases entries with
  | nil => simp [backwards?] at falls
  | cons e rest => exact absurd reads.sized (by simp [headerSize])

theorem Shows.backwards {files : Files} {i : Image} {synced : Nat} (shows : Shows files i synced)
    (valid : i.Valid) {e : Entry} (sound : e.Sound) (zero : e.lsn = 0) (covered : Nat) :
    (files.set .journal (some (i.journal ++ e.bytes, covered))).Backwards
      (lsnAfter 0 i.entries) where
  snapshot := by
    rw [Files.setOther _ _ (by decide)]
    rcases shows.snapshot with ⟨absent, _⟩ | ⟨bytes, length, present, read⟩
    · exact .inl absent
    · exact .inr ⟨bytes, length, _, present, read⟩
  journal := by
    have single : Reads e.bytes [e] := by
      have written : ∀ other ∈ [e], other.Sound := by simpa using sound
      simpa [Journal.written] using readsWritten written
    have falls := backwardsLast valid.rising (e := e) (Nat.le_trans (Nat.le_of_eq zero) (Nat.zero_le _))
    rw [zero] at falls
    exact ⟨_, covered, _, Files.setSame files .journal _, valid.reads.append single, falls⟩

structure Course where
  settled : List Entry
  pending : List Entry
  synced : Nat

namespace Course

def appended (c : Course) : List Entry := c.settled ++ c.pending

def push (c : Course) (e : Entry) : Course := { c with pending := c.pending ++ [e] }

def flushed (c : Course) (i : Image) : Course := ⟨c.appended, [], (i.add c.appended).journal.length⟩

def reopened (c : Course) : Course := ⟨c.appended, [], c.synced⟩

def undone (c : Course) (i : Image) : Course := ⟨c.settled, [], (i.add c.settled).journal.length⟩

@[simp] theorem appendedPush (c : Course) (e : Entry) : (c.push e).appended = c.appended ++ [e] := by
  simp [appended, push]

@[simp] theorem appendedFlushed (c : Course) (i : Image) : (c.flushed i).appended = c.appended :=
  List.append_nil c.appended

@[simp] theorem appendedReopened (c : Course) : c.reopened.appended = c.appended :=
  List.append_nil c.appended

@[simp] theorem appendedUndone (c : Course) (i : Image) : (c.undone i).appended = c.settled :=
  List.append_nil c.settled

@[simp] theorem reopenedUndone (c : Course) (i : Image) : (c.undone i).reopened = c.undone i := by
  rw [reopened, appendedUndone]
  rfl

end Course

structure Stands (d : Folder) (w : Writer) (i : Image) (c : Course) : Prop where
  tidy : d.Tidy
  node : d.names .journal = some w.node
  valid : i.Valid
  continues : i.Continues c.appended
  shows : Shows d.files (i.add c.appended) c.synced
  written : w.written = (i.add c.appended).mark
  committed : w.committed = (i.add c.settled).mark
  unsynced : w.unsynced = c.pending.length

namespace DiskStore

variable {d e : Folder} {i : Image} {synced : Nat}

theorem snapshotShown (tidy : d.Tidy) (shows : Shows d.files i synced) :
    ∃ found, Snapshot.load d = .ok found ∧ found.getD .empty = i.snapshot := by
  rcases shows.snapshot with ⟨absent, empty⟩ | ⟨bytes, length, present, read⟩
  · refine ⟨none, ?_, empty.symm⟩
    simp only [Snapshot.load, Folder.readTidy tidy, absent, Option.map_none]
  · refine ⟨some i.snapshot, ?_, rfl⟩
    simp only [Snapshot.load, Folder.readTidy tidy, present, Option.map_some, read]

theorem snapshotFound {found : Option Snapshot} (tidy : d.Tidy)
    (loaded : Snapshot.load d = .ok found) :
    d.files .snapshot = none ∧ found.getD .empty = .empty ∨
      ∃ bytes length, d.files .snapshot = some (bytes, length) ∧
        Snapshot.read bytes = .ok (found.getD .empty) := by
  simp only [Snapshot.load, Folder.readTidy tidy] at loaded
  cases present : d.files .snapshot with
  | none =>
    simp only [present, Option.map_none] at loaded
    cases loaded
    exact .inl ⟨rfl, rfl⟩
  | some contents =>
    simp only [present, Option.map_some] at loaded
    split at loaded
    · next snapshot read =>
      cases loaded
      exact .inr ⟨contents.1, contents.2, rfl, read⟩
    · contradiction

theorem loadShown (path : String) (policy : SyncPolicy) (tidy : d.Tidy) (valid : i.Valid)
    (shows : Shows d.files i synced) (obeys : d.ObeysIn [.openJournal]) :
    ∃ node e, load path policy d = (.ok ⟨i.table, node, policy, i.mark, 0, i.mark⟩, e) ∧
      e.names .journal = some node ∧ Folder.Effect d e d.files := by
  obtain ⟨node, bound, content⟩ := Folder.filesBoundTo shows.journal
  have read : d.read .journal = _ := Folder.readTidy tidy
  obtain ⟨snapshot, loaded, same⟩ := snapshotShown tidy shows
  have recovered : recoverJournal path d =
      (.ok (some ⟨i.entries, 0, lsnAfter 0 i.entries, false, i.journal.length⟩), d) := by
    simp only [recoverJournal, Folder.findTidy tidy, bound, read, shows.journal, Option.map_some,
      Option.getD_some, recoverReads _ valid.reads valid.rising]
    rfl
  rcases writerOpened policy i.lsn i.entries.length tidy with
    ⟨node, e, bytes, covered, opened, file, there, effect⟩ | ⟨fault, e, failed, fails, _⟩
  · rw [shows.journal, Option.getD_some] at file
    cases file
    have kept : d.files.set .journal (some (i.journal, synced)) = d.files := by
      funext name
      by_cases journal : name = .journal
      · rw [journal, Files.setSame, shows.journal]
      · exact Files.setOther _ _ journal
    rw [kept] at effect
    refine ⟨node, e, ?_, there, effect⟩
    simp only [load, loaded, same, recovered, Option.map_some, Option.getD_some]
    rw [show max i.snapshot.lastLsn (lsnAfter 0 i.entries) = i.lsn from rfl, opened]
    rfl
  · exact absurd obeys fails

theorem loadBackwards (path : String) (policy : SyncPolicy) {last : Nat} (tidy : d.Tidy)
    (back : d.files.Backwards last) :
    load path policy d = (.error (.damage (.journal (.backwards 0 last))), d) := by
  obtain ⟨found, loaded⟩ : ∃ found, Snapshot.load d = .ok found := by
    rcases back.snapshot with absent | ⟨bytes, length, s, present, read⟩
    · exact ⟨none, by simp only [Snapshot.load, Folder.readTidy tidy, absent, Option.map_none]⟩
    · exact ⟨some s, by simp only [Snapshot.load, Folder.readTidy tidy, present, Option.map_some,
        read]⟩
  obtain ⟨bytes, covered, entries, journal, reads, falls⟩ := back.journal
  obtain ⟨node, bound, _⟩ := Folder.filesBoundTo journal
  simp only [load, loaded, recoverJournal, Folder.findTidy tidy, bound, Folder.readTidy tidy,
    journal, Option.map_some, Option.getD_some, recoverBackwards _ reads falls]

theorem recoverJournalAlike {path : String} {found : Option Recovery} {f : Folder} (tidy : d.Tidy)
    (alike : f.Tidy) (same : f.files = d.files) (obeys : f.ObeysIn [.repair, .syncRepair])
    (recovered : recoverJournal path d = (.ok found, e)) (other : String) :
    ∃ g, recoverJournal other f = (.ok found, g) ∧ g.Tidy ∧ g.fate = f.fate := by
  cases bound : d.names .journal with
  | none =>
    simp only [recoverJournal, Folder.findTidy tidy, bound] at recovered
    cases recovered
    have absent : f.names .journal = none := by
      rw [← Folder.filesUnbound alike, same, Folder.filesUnbound tidy, bound]
    exact ⟨f, by simp only [recoverJournal, Folder.findTidy alike, absent], alike, rfl⟩
  | some id =>
    obtain ⟨bytes, synced, content⟩ := tidy.plain bound
    have file := Folder.filesBound bound content
    obtain ⟨node, there, _⟩ := Folder.filesBoundTo (same ▸ file : f.files .journal = _)
    simp only [recoverJournal, Folder.findTidy tidy, bound, Folder.readTidy tidy, file,
      Option.map_some, Option.getD_some] at recovered
    have read : f.read .journal = .ok (some bytes) := by
      rw [Folder.readTidy alike, same, file]
      rfl
    split at recovered
    · cases recovered
    next recovery result =>
    have again := recoverAlike result (FileName.journal.path other)
    split at recovered
    · next torn =>
      have found : found = some recovery := by
        split at recovered
        · cases recovered
        · cases recovered
          rfl
      rcases Folder.cutToSpec alike there (same ▸ file) .repair .syncRepair recovery.validLength with
        ⟨g, mended, effect⟩ | ⟨fault, g, failed, fails, _⟩
      · refine ⟨g, ?_, effect.tidy, effect.fate⟩
        simp only [recoverJournal, Folder.findTidy alike, there, read, Option.getD_some, again,
          if_pos torn, mended, found]
      · exact absurd obeys fails
    · next clean =>
      cases recovered
      exact ⟨f, by simp only [recoverJournal, Folder.findTidy alike, there, read, Option.getD_some,
        again, if_neg clean], alike, rfl⟩

theorem openedLsn {policy : SyncPolicy} {lsn count : Nat} {writer : Writer}
    (opened : Writer.ofFolder policy lsn count d = (.ok writer, e)) : writer.written.lsn = lsn := by
  simp only [Writer.ofFolder] at opened
  split at opened
  · cases opened
  · cases opened
    rfl

theorem loadAlike {path : String} {policy : SyncPolicy} {f : Folder} {locked : LockedState}
    (tidy : d.Tidy) (alike : f.Tidy) (same : f.files = d.files)
    (obeys : f.ObeysIn [.repair, .syncRepair, .openJournal])
    (loaded : load path policy d = (.ok locked, e)) (other : String) (next : SyncPolicy) :
    ∃ again g, load other next f = (.ok again, g) ∧ again.table = locked.table ∧
      again.writer.written.lsn = locked.writer.written.lsn := by
  have snapshots : Snapshot.load f = Snapshot.load d := by
    simp only [Snapshot.load, Folder.readTidy tidy, Folder.readTidy alike, same]
  simp only [load] at loaded
  split at loaded
  · cases loaded
  next snapshot read =>
  split at loaded
  · cases loaded
  next found _ recovered =>
  split at loaded
  · cases loaded
  next first opening =>
  cases loaded
  obtain ⟨g, recoveredAlike, still, fate⟩ :=
    recoverJournalAlike tidy alike same (obeys.fewer (by decide)) recovered other
  let lsn := max (snapshot.getD .empty).lastLsn ((found.map Recovery.lastLsn).getD 0)
  let count := ((found.map Recovery.entries).getD []).length
  obtain ⟨writer, k, opened⟩ : ∃ writer k, Writer.ofFolder next lsn count g = (.ok writer, k) := by
    rcases writerOpened next lsn count still with ⟨_, k, _, _, opened, _⟩ | ⟨fault, k, _, fails, _⟩
    · exact ⟨_, k, opened⟩
    · exact absurd ((obeys.same fate).fewer (by decide)) fails
  have numbers := (openedLsn opened).trans (openedLsn opening).symm
  refine ⟨⟨rebuild (snapshot.getD .empty) found, writer⟩, k, ?_, rfl, numbers⟩
  simp only [load, snapshots, read, recoveredAlike]
  simp only [lsn, count] at opened
  rw [opened]

theorem recoveredReads {path : String} {found : Option Recovery} (tidy : d.Tidy)
    (recovered : recoverJournal path d = (.ok found, e)) :
    ∃ bytes synced, (e.files .journal).getD ([], 0) = (bytes, synced) ∧
      Reads bytes ((found.map Recovery.entries).getD []) ∧
      backwards? 0 ((found.map Recovery.entries).getD []) = none ∧
      (found.map Recovery.lastLsn).getD 0 =
        lsnAfter 0 ((found.map Recovery.entries).getD []) ∧
      Folder.Effect d e e.files ∧ e.files .snapshot = d.files .snapshot := by
  cases bound : d.names .journal with
  | none =>
    simp only [recoverJournal, Folder.findTidy tidy, bound] at recovered
    cases recovered
    refine ⟨[], 0, ?_, .nothing, rfl, rfl, Folder.Effect.refl tidy, rfl⟩
    rw [(Folder.filesUnbound tidy).mpr bound]
    rfl
  | some node =>
    obtain ⟨bytes, synced, content⟩ := tidy.plain bound
    have file := Folder.filesBound bound content
    simp only [recoverJournal, Folder.findTidy tidy, bound, Folder.readTidy tidy, file,
      Option.map_some, Option.getD_some] at recovered
    split at recovered
    · cases recovered
    next recovery result =>
    obtain ⟨whole, left, rfl, reads, rising, last, valid, cut⟩ := recoverFound result
    split at recovered
    · next torn =>
      rw [valid] at recovered
      have wholeLeft : Folder.resize (whole ++ left) whole.length = whole := by
        simp [Folder.resize]
      rcases Folder.cutToSpec tidy bound file .repair .syncRepair whole.length with
        ⟨f, mended, effect⟩ | ⟨fault, f, failed, _⟩
      · rw [mended] at recovered
        cases recovered
        rw [wholeLeft] at effect
        refine ⟨whole, whole.length, ?_, reads, rising, last, effect.own, ?_⟩
        · rw [effect.files, Files.setSame, Option.getD_some]
        · rw [effect.files, Files.setOther _ _ (by decide)]
      · rw [failed] at recovered
        cases recovered
    · next clean =>
      cases recovered
      cases left with
      | cons b rest => exact absurd (cut.mpr (List.cons_ne_nil b rest)) clean
      | nil =>
        rw [List.append_nil] at file
        exact ⟨whole, synced, by rw [file, Option.getD_some], reads, rising, last,
          Folder.Effect.refl tidy, rfl⟩

theorem loadFound {path : String} {policy : SyncPolicy} {locked : LockedState} (tidy : d.Tidy)
    (loaded : load path policy d = (.ok locked, e)) :
    ∃ i synced node, i.Valid ∧ Shows e.files i synced ∧
      locked = ⟨i.table, node, policy, i.mark, 0, i.mark⟩ ∧ e.names .journal = some node ∧
      Folder.Effect d e e.files := by
  simp only [load] at loaded
  split at loaded
  · cases loaded
  next found snapshot =>
  split at loaded
  · cases loaded
  next recovery f recovered =>
  obtain ⟨bytes, synced, file, reads, rising, last, first, same⟩ := recoveredReads tidy recovered
  rcases writerOpened policy (max (found.getD .empty).lastLsn
      ((recovery.map Recovery.lastLsn).getD 0)) ((recovery.map Recovery.entries).getD []).length
      first.tidy with
    ⟨node, g, _, _, opened, there, bound, second⟩ | ⟨fault, g, failed, _⟩
  · rw [file] at there
    cases there
    simp only [opened] at loaded
    cases loaded
    let i : Image := ⟨found.getD .empty, bytes, (recovery.map Recovery.entries).getD []⟩
    have shown : Shows e.files i synced := by
      refine ⟨?_, by rw [second.files, Files.setSame]⟩
      rw [second.files, Files.setOther _ _ (by decide), same]
      exact snapshotFound tidy snapshot
    have proper : i.snapshot.table.Proper := by
      rcases shown.snapshot with ⟨_, empty⟩ | ⟨_, _, _, read⟩
      · rw [empty]
        exact Table.properEmpty
      · exact Snapshot.readProper read
    refine ⟨i, synced, node, ⟨reads, rising, proper⟩, shown, ?_, bound,
      (first.trans second).own⟩
    rw [last]
    rfl
  · simp only [failed] at loaded
    cases loaded

end DiskStore

theorem Stands.fresh {d : Folder} {i : Image} {c : Course} {node : Nat} (policy : SyncPolicy)
    (tidy : d.Tidy) (valid : i.Valid) (continues : i.Continues c.appended)
    (shows : Shows d.files (i.add c.appended) c.synced) (bound : d.names .journal = some node) :
    Stands d ⟨node, policy, (i.add c.appended).mark, 0, (i.add c.appended).mark⟩ i c.reopened where
  tidy := tidy
  node := bound
  valid := valid
  continues := by rwa [Course.appendedReopened]
  shows := by rwa [Course.appendedReopened]
  written := by rw [Course.appendedReopened]
  committed := rfl
  unsynced := rfl

theorem Stands.numbered {d : Folder} {w : Writer} {i : Image} {c : Course} (stands : Stands d w i c) :
    (i.add c.appended).lsn < space 8 :=
  stands.shows.numbered (stands.valid.add stands.continues)

theorem Stands.resynced {d e : Folder} {w : Writer} {i : Image} {c : Course} {covered : Nat}
    (stands : Stands d w i c) (effect : Folder.Effect d e
      (d.files.set .journal (some ((i.add c.appended).journal, covered)))) :
    Stands e w i { c with synced := covered } where
  tidy := effect.tidy
  node := effect.journal _ stands.node
  valid := stands.valid
  continues := stands.continues
  shows := by
    rw [effect.files]
    exact stands.shows.rewritten rfl
  written := stands.written
  committed := stands.committed
  unsynced := stands.unsynced

theorem Stands.flushed {d : Folder} {w : Writer} {i : Image} {c : Course} (stands : Stands d w i c)
    (all : c.synced = (i.add c.appended).journal.length) :
    Stands d w.flushed i (c.flushed i) where
  tidy := stands.tidy
  node := stands.node
  valid := stands.valid
  continues := by rw [Course.appendedFlushed]; exact stands.continues
  shows := by
    rw [Course.appendedFlushed, Course.flushed, ← all]
    exact stands.shows
  written := by rw [Course.appendedFlushed]; exact stands.written
  committed := stands.written
  unsynced := rfl

end AddressPool
