import AddressPool.Proofs.Snapshot.Saving
import AddressPool.Proofs.Store.Append

/-! Giving the lock back. Between any two steps of a compaction the files record the same
operations: first the snapshot before and the whole journal, then a snapshot of everything
with a journal of stale entries, last an empty journal. -/
namespace AddressPool
open Journal Bytes

variable {d : Folder} {l : Layout} {log : List Operation} {covered : Nat}

theorem Records.saved {e : Folder} (records : Records l d.files log covered)
    (saved : Saved d e (d.files .snapshot)) : Records l e.files log covered :=
  records.elsewhere saved.snapshot (by rw [saved.journal])

theorem Records.folding {e : Folder} (records : Records l d.files log covered)
    (saved : Saved d e
      (some ((imageOf log log.length).write, (imageOf log log.length).write.length))) :
    Records { l with folded := log.length, stale := l.entries, fresh := [] } e.files log
      log.length := by
  refine records.fold.elsewhere ?_ ?_
  · rw [saved.snapshot, Files.setSame]
  · rw [saved.journal, Files.setOther _ _ (by decide)]

theorem Journal.Writer.truncateCalls {writer : Writer} (tidy : d.Tidy)
    (node : d.names .journal = some writer.node) :
    (∃ after e, writer.truncate d = (.ok (), after, e) ∧
      Folder.Effect d e (d.files.set .journal (some ([], 0)))) ∨
    ∃ fault e, writer.truncate d = (.error fault, writer, e) ∧ ¬ d.Obeys ∧
      (Folder.Effect d e d.files ∨
        Folder.Effect d e (d.files.set .journal (some ([], 0)))) := by
  obtain ⟨bytes, synced, content⟩ := tidy.plain node
  have file := Folder.filesBound node content
  have nothing : Folder.resize bytes 0 = [] := by simp [Folder.resize]
  have cutting := Folder.cutToSpec tidy node file .emptyJournal .syncEmptied 0
  rw [nothing, Nat.min_zero] at cutting
  rcases cutting with ⟨e, emptied, effect⟩ | ⟨fault, e, failed, fails, _, effects⟩
  · exact .inl ⟨_, e, by simp only [Writer.truncate, emptied]; rfl, effect⟩
  · exact .inr ⟨.os fault, e, by simp only [Writer.truncate, failed],
      fun obeys => fails (obeys.obeysIn _), effects⟩

namespace DiskStore

inductive Compacted (s : Snapshot) (d : Folder) : Folder → Prop where
  | kept {e : Folder} (saved : Saved d e (d.files .snapshot)) : Compacted s d e
  | folded {e : Folder} (saved : Saved d e (some (s.write, s.write.length))) : Compacted s d e
  | emptied {e f : Folder} (saved : Saved d e (some (s.write, s.write.length)))
      (effect : Folder.Effect e f (e.files.set .journal (some ([], 0)))) : Compacted s d f

theorem compactCalls {locked : LockedState} {s : Snapshot} (tidy : d.Tidy)
    (node : d.names .journal = some locked.writer.node)
    (same : Snapshot.mk locked.table locked.writer.written.lsn = s) :
    ∃ result e, compact locked d = (result, e) ∧ Compacted s d e ∧
      (d.Obeys → e.files .snapshot = some (s.write, s.write.length) ∧
        e.files .journal = some ([], 0)) := by
  rcases Snapshot.saveCalls s tidy with
    ⟨_, e, done, saved⟩ | ⟨fault, e, failed, fails, saved | saved⟩
  · rcases Writer.truncateCalls saved.effect.tidy (saved.effect.journal _ node) with
      ⟨_, f, emptied, effect⟩ | ⟨fault, f, failed, fails, effect | effect⟩
    · refine ⟨.ok (), f, by simp only [compact, same, done, emptied], .emptied saved effect, ?_⟩
      intro _
      rw [effect.files, Files.setSame, Files.setOther _ _ (by decide)]
      exact ⟨saved.snapshot, rfl⟩
    · exact ⟨.error fault, f, by simp only [compact, same, done, failed],
        .folded ⟨(saved.effect.trans effect).own, (congrFun effect.files _).trans saved.journal,
          (congrFun effect.files _).trans saved.snapshot⟩,
        fun obeys => absurd (obeys.same saved.effect.fate) fails⟩
    · exact ⟨.error fault, f, by simp only [compact, same, done, failed], .emptied saved effect,
        fun obeys => absurd (obeys.same saved.effect.fate) fails⟩
  · exact ⟨.error fault, e, by simp only [compact, same, failed], .kept saved,
      fun obeys => absurd obeys fails⟩
  · exact ⟨.error fault, e, by simp only [compact, same, failed], .folded saved,
      fun obeys => absurd obeys fails⟩

theorem compactSpec {locked : LockedState} (ready : Ready d locked log covered) :
    ∃ result e, compact locked d = (result, e) ∧ Kept d e log covered := by
  obtain ⟨l, records, _, mark⟩ := ready.records
  have image : Snapshot.mk locked.table locked.writer.written.lsn = imageOf log log.length := by
    rw [ready.table, mark, imageOf, List.take_length]
  obtain ⟨result, e, compacted, leaves, _⟩ := compactCalls ready.tidy ready.node image
  refine ⟨result, e, compacted, ?_⟩
  cases leaves with
  | kept saved => exact ⟨saved.effect, l, records.saved saved⟩
  | folded saved => exact ⟨saved.effect, _, (records.folding saved).less records.within⟩
  | emptied saved effect =>
    exact .here (saved.effect.trans effect)
      (((records.folding saved).emptied rfl).less records.within)

theorem persistSpec (threshold : Nat) {locked : LockedState} (ready : Ready d locked log covered)
    (halting : d.Halting) :
    (∃ e, persist threshold locked d = (.ok (), e) ∧ Kept d e log covered) ∨
    ∃ fault e, persist threshold locked d = (.error fault, e) ∧ Stopped d e log covered := by
  rcases Writer.syncSpec ready.toPlaced halting with
    ⟨writer, e, synced, effect, placed, mark, _⟩ | ⟨fault, writer, e, failed, stopped, _⟩
  · have after : Ready e { locked with writer } log covered := ⟨placed, ready.table⟩
    by_cases long : threshold ≤ writer.written.count
    · obtain ⟨result, f, compacted, kept⟩ := compactSpec after
      refine .inl ⟨f, ?_, kept.after effect⟩
      simp only [persist, synced, if_pos long, compacted]
    · obtain ⟨l, records, _⟩ := placed.records
      refine .inl ⟨e, ?_, effect, ⟨l, records⟩⟩
      simp only [persist, synced, if_neg long]
  · exact .inr ⟨fault, e, by simp only [persist, failed], stopped⟩

end DiskStore
end AddressPool
