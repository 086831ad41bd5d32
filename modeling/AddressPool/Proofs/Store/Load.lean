import AddressPool.Proofs.Medium.Calls
import AddressPool.Proofs.Store.Record
import AddressPool.Store.Disk

/-! Loading the files of a store. On a folder that halts at its first failure, loading either
gives the table of the recorded operations with a writer at the end of the journal, or it
meets the failure and the files record the same operations still. -/
namespace AddressPool
open Journal Bytes

structure Kept (d e : Folder) (log : List Operation) (covered : Nat) : Prop where
  effect : Folder.Effect d e e.files
  records : ∃ l, Records l e.files log covered

structure Stopped (d e : Folder) (log : List Operation) (covered : Nat) : Prop
    extends Kept d e log covered where
  halted : e.Halted

structure Placed (d : Folder) (writer : Writer) (log : List Operation) (covered : Nat) : Prop where
  tidy : d.Tidy
  records : ∃ l, Records l d.files log covered ∧ l.tail = [] ∧
    writer.written = ⟨(written l.entries).length, log.length, l.entries.length⟩
  node : d.names .journal = some writer.node

structure Ready (d : Folder) (locked : LockedState) (log : List Operation) (covered : Nat) :
    Prop extends Placed d locked.writer log covered where
  table : locked.table = Table.empty.applyAll log

theorem Folder.Effect.own {d e : Folder} {files : Files} (effect : Effect d e files) :
    Effect d e e.files :=
  { effect with files := rfl }

section Files

variable {d e f : Folder} {files : Files} {l : Layout} {log : List Operation} {covered : Nat}

theorem Kept.here (effect : Folder.Effect d e files) (records : Records l files log covered) :
    Kept d e log covered :=
  ⟨effect.own, ⟨l, by rw [effect.files]; exact records⟩⟩

theorem Kept.after (effect : Folder.Effect d e files) (kept : Kept e f log covered) :
    Kept d f log covered :=
  { kept with effect := effect.trans kept.effect }

theorem Stopped.here (effect : Folder.Effect d e files) (records : Records l files log covered)
    (halted : e.Halted) : Stopped d e log covered :=
  ⟨.here effect records, halted⟩

theorem Stopped.after (effect : Folder.Effect d e files) (stopped : Stopped e f log covered) :
    Stopped d f log covered :=
  ⟨stopped.toKept.after effect, stopped.halted⟩

end Files

theorem writtenEmpty {entries : List Entry} : written entries = [] ↔ entries = [] := by
  constructor
  · intro none
    cases entries with
    | nil => rfl
    | cons e rest => exact absurd none (e.bytesThere (written rest))
  · rintro rfl
    rfl

namespace Folder

variable {d : Folder} (tidy : Tidy d) {name : FileName}
include tidy

theorem findTidy : d.find name = .ok (d.names name) := by
  simp only [find, tidy.shape]

theorem readTidy : d.read name = .ok ((d.files name).map Prod.fst) := by
  rw [read, findTidy tidy]
  cases bound : d.names name with
  | none => rw [(filesUnbound tidy).mpr bound]; rfl
  | some id =>
    obtain ⟨bytes, synced, content⟩ := tidy.plain bound
    simp only [content, filesBound bound content]
    rfl

end Folder

variable {log : List Operation} {covered : Nat} {d : Folder} {l : Layout}

theorem loadSnapshot (tidy : d.Tidy) (records : Records l d.files log covered) :
    ∃ found, Snapshot.load d = .ok found ∧ found.getD .empty = imageOf log l.folded := by
  have sound := imageSound records.few records.fits records.folded
  rcases records.snapshot with ⟨absent, unfolded⟩ | present
  · refine ⟨none, ?_, ?_⟩
    · simp only [Snapshot.load, Folder.readTidy tidy, absent, Option.map_none]
    · rw [unfolded]
      rfl
  · refine ⟨some (imageOf log l.folded), ?_, rfl⟩
    simp only [Snapshot.load, Folder.readTidy tidy, present, Option.map_some,
      Snapshot.readWritten sound]

namespace DiskStore

def recoveryOf (l : Layout) : Recovery :=
  ⟨l.entries, if l.tail.isEmpty then 0 else 1, lsnAfter 0 l.entries, !l.tail.isEmpty,
    (written l.entries).length⟩

structure Recovered (d e : Folder) (l after : Layout) (found : Option Recovery)
    (log : List Operation) (covered : Nat) : Prop where
  effect : Folder.Effect d e e.files
  records : Records after e.files log covered
  clean : after.tail = []
  folded : after.folded = l.folded
  entries : (found.map Recovery.entries).getD [] = after.entries
  last : (found.map Recovery.lastLsn).getD 0 = lsnAfter 0 after.entries

theorem repairSpec (tidy : d.Tidy) (halting : d.Halting) (records : Records l d.files log covered)
    {id : Nat} (bound : d.names .journal = some id) :
    (∃ e, d.cutTo .repair .syncRepair id (written l.entries).length = (.ok (), e) ∧
      Folder.Effect d e e.files ∧
      Records { l with tail := [], synced := (written l.entries).length } e.files log covered) ∨
    ∃ fault e, d.cutTo .repair .syncRepair id (written l.entries).length = (.error fault, e) ∧
      Stopped d e log covered := by
  obtain ⟨bytes, synced, content⟩ := tidy.plain bound
  have file := Folder.filesBound bound content
  have journal := records.journal
  rw [file, Option.getD_some] at journal
  obtain ⟨rfl, rfl⟩ := Prod.mk.inj journal
  have cutBytes : Folder.resize (written l.entries ++ l.tail) (written l.entries).length =
      written l.entries ++ [] := by
    rw [Folder.resize, List.take_left', List.length_append, Nat.sub_eq_zero_of_le (by omega)]
    · rfl
    · rfl
  rcases Folder.cutToSpec tidy bound file .repair .syncRepair (written l.entries).length with
    ⟨e, mended, effect⟩ | ⟨fault, e, failed, _, halts, effect | effect⟩
  · refine .inl ⟨e, mended, effect.own, ?_⟩
    rw [effect.files, cutBytes, List.length_append, List.length_nil, Nat.add_zero]
    exact records.retail .nothing (.inr (Nat.le_refl _))
  · exact .inr ⟨fault, e, failed, .here effect records (halts halting)⟩
  · rw [cutBytes] at effect
    have kept : l.synced ≤ min l.synced (written l.entries).length ∨
        (written l.entries).length ≤ min l.synced (written l.entries).length := by
      omega
    have shorter := records.retail .nothing kept
    exact .inr ⟨fault, e, failed, .here effect shorter (halts halting)⟩

theorem recoverJournalSpec (path : String) (tidy : d.Tidy) (halting : d.Halting)
    (records : Records l d.files log covered) :
    (∃ found e after, recoverJournal path d = (.ok found, e) ∧
      Recovered d e l after found log covered) ∨
    ∃ fault e, recoverJournal path d = (.error fault, e) ∧ Stopped d e log covered := by
  cases bound : d.names .journal with
  | none =>
    have absent := (Folder.filesUnbound tidy).mpr bound
    have journal := records.journal
    rw [absent, Option.getD_none] at journal
    obtain ⟨empty, _⟩ := Prod.mk.inj journal
    obtain ⟨noEntry, noTail⟩ := List.append_eq_nil_iff.mp empty.symm
    have nothing := writtenEmpty.mp noEntry
    refine .inl ⟨none, d, l, ?_, Folder.Effect.refl tidy, records, noTail, rfl, ?_, ?_⟩
    · simp only [recoverJournal, Folder.findTidy tidy, bound]
    · rw [nothing]
      rfl
    · rw [nothing]
      rfl
  | some id =>
    obtain ⟨bytes, synced, content⟩ := tidy.plain bound
    have file := Folder.filesBound bound content
    have journal := records.journal
    rw [file, Option.getD_some] at journal
    obtain ⟨rfl, rfl⟩ := Prod.mk.inj journal
    have found : recover (FileName.journal.path path) (written l.entries ++ l.tail) =
        .ok (recoveryOf l) :=
      recoverWritten _ records.sound records.rising records.remnant
    have read : d.read .journal = _ := Folder.readTidy tidy
    rw [file] at read
    by_cases clean : l.tail = []
    · have whole : ¬ (recoveryOf l).truncated = true := by simp [recoveryOf, clean]
      refine .inl ⟨some (recoveryOf l), d, l, ?_, Folder.Effect.refl tidy, records, clean, rfl, rfl,
        rfl⟩
      simp only [recoverJournal, Folder.findTidy tidy, bound, read, Option.map_some,
        Option.getD_some, found, if_neg whole]
    · have torn : (recoveryOf l).truncated = true := by simpa [recoveryOf] using clean
      have valid : (recoveryOf l).validLength = (written l.entries).length := rfl
      rcases repairSpec tidy halting records bound with
        ⟨e, mended, effect, after⟩ | ⟨fault, e, failed, stopped⟩
      · refine .inl ⟨some (recoveryOf l), e, _, ?_, effect, after, rfl, rfl, rfl, rfl⟩
        simp only [recoverJournal, Folder.findTidy tidy, bound, read, Option.map_some,
          Option.getD_some, found, if_pos torn, valid, mended]
      · refine .inr ⟨.os fault, e, ?_, stopped⟩
        simp only [recoverJournal, Folder.findTidy tidy, bound, read, Option.map_some,
          Option.getD_some, found, if_pos torn, valid, failed]

theorem writerOpened (policy : SyncPolicy) (lsn count : Nat) (tidy : d.Tidy) :
    (∃ node e bytes synced, Writer.ofFolder policy lsn count d =
        (.ok ⟨node, policy, ⟨bytes.length, lsn, count⟩, 0, ⟨bytes.length, lsn, count⟩⟩, e) ∧
      (d.files .journal).getD ([], 0) = (bytes, synced) ∧ e.names .journal = some node ∧
      Folder.Effect d e (d.files.set .journal (some (bytes, synced)))) ∨
    ∃ fault e, Writer.ofFolder policy lsn count d = (.error fault, e) ∧
      ¬ d.ObeysIn [.openJournal] ∧ (d.Halting → e.Halted) ∧ Folder.Effect d e d.files := by
  cases opening : d.fate d.calls .openJournal with
  | fails fault kept =>
    obtain ⟨e, failed, effect, past⟩ := Folder.openFails tidy opening .journal
    exact .inr ⟨.os fault, e, by simp only [Writer.ofFolder, failed],
      Folder.notObeysIn opening List.mem_cons_self,
      fun halting => effect.halts halting opening past, effect⟩
  | done =>
    obtain ⟨node, e, opened, bound, effect⟩ :=
      Folder.openDone tidy opening (show FileName.journal ≠ .lock by decide)
    rcases found : (d.files .journal).getD ([], 0) with ⟨bytes, synced⟩
    rw [found] at effect
    have file : e.files .journal = some (bytes, synced) := by rw [effect.files, Files.setSame]
    have content := Folder.boundContent effect.tidy bound file
    refine .inl ⟨node, e, bytes, synced, ?_, rfl, bound, effect⟩
    simp only [Writer.ofFolder, opened, Folder.lengthOf, content]

theorem writerSpec (policy : SyncPolicy) (tidy : d.Tidy) (halting : d.Halting)
    (records : Records l d.files log covered) (clean : l.tail = []) {count : Nat}
    (counted : count = l.entries.length) :
    (∃ writer e, Writer.ofFolder policy log.length count d = (.ok writer, e) ∧
      Folder.Effect d e e.files ∧ Placed e writer log covered) ∨
    ∃ fault e, Writer.ofFolder policy log.length count d = (.error fault, e) ∧
      Stopped d e log covered := by
  rcases writerOpened policy log.length count tidy with
    ⟨node, e, bytes, synced, opened, found, bound, effect⟩ | ⟨fault, e, failed, _, halts, effect⟩
  · have journal := records.journal
    rw [found] at journal
    obtain ⟨rfl, rfl⟩ := Prod.mk.inj journal
    have same : Records l e.files log covered := by
      rw [effect.files]
      refine records.elsewhere (Files.setOther _ _ (by decide)) ?_
      rw [Files.setSame, Option.getD_some]
      exact found.symm
    refine .inl ⟨_, e, opened, effect.own, effect.tidy, ⟨l, same, clean, ?_⟩, bound⟩
    simp only [clean, List.append_nil, counted]
  · exact .inr ⟨fault, e, failed, .here effect records (halts halting)⟩

theorem loadHalted (path : String) (policy : SyncPolicy) (tidy : d.Tidy) (halted : d.Halted) :
    ∃ result e, load path policy d = (result, e) ∧ Folder.Effect d e d.files := by
  have recovering : ∃ found e, recoverJournal path d = (found, e) ∧
      Folder.Effect d e d.files := by
    cases bound : d.names .journal with
    | none =>
      exact ⟨.ok none, d, by simp only [recoverJournal, Folder.findTidy tidy, bound],
        Folder.Effect.refl tidy⟩
    | some id =>
      cases found : recover (FileName.journal.path path)
          (((d.files .journal).map Prod.fst).getD []) with
      | error fault =>
        exact ⟨.error fault, d, by simp only [recoverJournal, Folder.findTidy tidy, bound,
          Folder.readTidy tidy, found], Folder.Effect.refl tidy⟩
      | ok recovery =>
        by_cases cut : recovery.truncated = true
        · obtain ⟨fault, fails⟩ := Folder.haltedFails halted .repair
          obtain ⟨e, failed, effect, _⟩ :=
            Folder.setLengthFails tidy fails id recovery.validLength
          exact ⟨.error (.os fault), e, by simp only [recoverJournal, Folder.findTidy tidy, bound,
            Folder.readTidy tidy, found, if_pos cut, Folder.cutTo, failed], effect⟩
        · exact ⟨.ok (some recovery), d, by simp only [recoverJournal, Folder.findTidy tidy, bound,
            Folder.readTidy tidy, found, if_neg cut], Folder.Effect.refl tidy⟩
  cases loaded : Snapshot.load d with
  | error fault => exact ⟨.error fault, d, by simp only [load, loaded], Folder.Effect.refl tidy⟩
  | ok snapshot =>
    obtain ⟨found, e, recovered, effect⟩ := recovering
    cases found with
    | error fault => exact ⟨.error fault, e, by simp only [load, loaded, recovered], effect⟩
    | ok found =>
      obtain ⟨fault, fails⟩ := Folder.haltedFails (effect.halted halted) .openJournal
      obtain ⟨f, failed, next, _⟩ := Folder.openFails effect.tidy fails .journal
      rw [effect.files] at next
      exact ⟨.error (.os fault), f, by simp only [load, loaded, recovered, Writer.ofFolder, failed],
        effect.trans next⟩

theorem loadSpec (path : String) (policy : SyncPolicy) (tidy : d.Tidy) (halting : d.Halting)
    (records : Records l d.files log covered) :
    (∃ locked e, load path policy d = (.ok locked, e) ∧ Folder.Effect d e e.files ∧
      Ready e locked log covered) ∨
    ∃ fault e, load path policy d = (.error fault, e) ∧ Stopped d e log covered := by
  obtain ⟨snapshot, loaded, image⟩ := loadSnapshot tidy records
  rcases recoverJournalSpec path tidy halting records with
    ⟨found, e, after, recovered, r⟩ | ⟨fault, e, failed, stopped⟩
  · have lsn : max (imageOf log l.folded).lastLsn ((found.map Recovery.lastLsn).getD 0) =
        log.length := by
      have last := r.records.lsn
      rw [r.folded] at last
      rw [r.last]
      exact last
    have table : rebuild (imageOf log l.folded) found = Table.empty.applyAll log := by
      have replayed := r.records.replayed
      rw [r.folded] at replayed
      simp only [rebuild, r.entries]
      exact replayed
    rcases writerSpec policy r.effect.tidy (r.effect.halting halting) r.records r.clean rfl with
      ⟨writer, f, opened, next, placed⟩ | stopped
    · refine .inl ⟨⟨Table.empty.applyAll log, writer⟩, f, ?_, r.effect.trans next, placed, rfl⟩
      simp only [load, loaded, image, recovered, lsn, r.entries, opened, table]
    · obtain ⟨fault, f, failed, stopped⟩ := stopped
      refine .inr ⟨fault, f, ?_, stopped.after r.effect⟩
      simp only [load, loaded, image, recovered, lsn, r.entries, failed]
  · refine .inr ⟨fault, e, ?_, stopped⟩
    simp only [load, loaded, failed]

end DiskStore
end AddressPool
