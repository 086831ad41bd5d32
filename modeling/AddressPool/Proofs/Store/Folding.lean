import AddressPool.Proofs.Store.Persist
import AddressPool.Proofs.Store.Section

/-! Giving the lock back on files of any origin. Wherever a compaction ends, the files are loaded
as the same table with the same number; a failing sync is the one way to lose entries, and it
loses those that were pending. An entry that went by zero is taken back in these two ways only. -/
namespace AddressPool
open Journal Bytes

theorem risingBelow {last : Nat} {entries : List Entry} (rising : backwards? last entries = none) :
    last ≤ lsnAfter last entries ∧ ∀ e ∈ entries, e.lsn ≤ lsnAfter last entries := by
  induction entries generalizing last with
  | nil => simp [lsnAfter]
  | cons e rest ih =>
    simp only [backwards?] at rising
    split at rising
    · contradiction
    · obtain ⟨first, others⟩ := ih rising
      rw [lsnAfterCons]
      refine ⟨by omega, ?_⟩
      intro other member
      rcases List.mem_cons.mp member with rfl | later
      · exact first
      · exact others other later

namespace Image

variable {i : Image}

def folded (i : Image) : Image := { i with snapshot := ⟨i.table, i.lsn⟩ }

def emptied (i : Image) : Image := ⟨⟨i.table, i.lsn⟩, [], []⟩

theorem foldedLsn (i : Image) : i.folded.lsn = i.lsn :=
  Nat.max_eq_left (Nat.le_max_right i.snapshot.lastLsn _)

theorem foldedTable (valid : i.Valid) : i.folded.table = i.table := by
  have nothing : i.folded.newer = [] := by
    rw [newer, List.filter_eq_nil_iff]
    intro e member
    have below := (risingBelow valid.rising).2 e member
    have all : lsnAfter 0 i.entries ≤ i.lsn := Nat.le_max_right i.snapshot.lastLsn _
    change ¬ decide (i.lsn < e.lsn) = true
    rw [decide_eq_true_eq]
    omega
  rw [table, nothing]
  rfl

theorem foldedValid (valid : i.Valid) : i.folded.Valid :=
  ⟨valid.reads, valid.rising, valid.table⟩

theorem emptiedLsn (i : Image) : i.emptied.lsn = i.lsn := Nat.max_eq_left (Nat.zero_le _)

theorem emptiedValid (valid : i.Valid) : i.emptied.Valid := ⟨.nothing, rfl, valid.table⟩

end Image

structure Preserves (d e : Folder) (i : Image) : Prop where
  effect : Folder.Effect d e e.files
  shows : ∃ j synced, j.Valid ∧ Shows e.files j synced ∧ j.table = i.table ∧ j.lsn = i.lsn

structure Folds (e : Folder) (i : Image) : Prop where
  snapshot : ∃ bytes, e.files .snapshot = some (bytes, bytes.length) ∧
    Snapshot.read bytes = .ok ⟨i.table, i.lsn⟩
  journal : e.files .journal = some ([], 0)

theorem Preserves.after {d e f : Folder} {i j : Image} (effect : Folder.Effect d e e.files)
    (preserves : Preserves e f j) (table : j.table = i.table) (lsn : j.lsn = i.lsn) :
    Preserves d f i := by
  obtain ⟨k, synced, valid, shows, sameTable, sameLsn⟩ := preserves.shows
  exact ⟨effect.trans preserves.effect, k, synced, valid, shows, sameTable.trans table,
    sameLsn.trans lsn⟩

namespace DiskStore

variable {d : Folder} {i : Image} {synced : Nat}

theorem compactImage {locked : LockedState} (tidy : d.Tidy)
    (node : d.names .journal = some locked.writer.node) (valid : i.Valid)
    (shows : Shows d.files i synced) (table : locked.table = i.table)
    (written : locked.writer.written = i.mark) (size : i.table.size < space 8) :
    ∃ result e, compact locked d = (result, e) ∧ Preserves d e i ∧ (d.Obeys → Folds e i) := by
  have same : Snapshot.mk locked.table locked.writer.written.lsn = i.folded.snapshot := by
    rw [table, written]
    rfl
  have read : Snapshot.read i.folded.snapshot.write = .ok i.folded.snapshot :=
    Snapshot.readWritten (Snapshot.soundOf valid.table size (shows.numbered valid))
  have shown {e : Folder} (saved : Saved d e
      (some (i.folded.snapshot.write, i.folded.snapshot.write.length))) :
      Shows e.files i.folded synced :=
    ⟨.inr ⟨_, _, saved.snapshot, read⟩, saved.journal.trans shows.journal⟩
  obtain ⟨result, e, compacted, leaves, folds⟩ := compactCalls tidy node same
  refine ⟨result, e, compacted, ?_, fun obeys => ⟨⟨_, (folds obeys).1, read⟩, (folds obeys).2⟩⟩
  cases leaves with
  | kept saved =>
    refine ⟨saved.effect, i, synced, valid, ⟨?_, saved.journal.trans shows.journal⟩, rfl, rfl⟩
    rw [saved.snapshot]
    exact shows.snapshot
  | folded saved =>
    exact ⟨saved.effect, i.folded, synced, Image.foldedValid valid, shown saved,
      Image.foldedTable valid, Image.foldedLsn i⟩
  | emptied saved effect =>
    refine ⟨(saved.effect.trans effect).own, i.emptied, 0, Image.emptiedValid valid, ?_, rfl,
      Image.emptiedLsn i⟩
    rw [effect.files]
    exact Shows.rewritten (j := i.emptied) (shown saved) rfl

theorem Compacted.backwards {e : Folder} {s : Snapshot} {last : Nat} (compacted : Compacted s d e)
    (sound : s.Sound) (back : d.files.Backwards last) :
    Folder.Effect d e e.files ∧ (e.files.Backwards last ∨
      e.files .journal = some ([], 0) ∧ Shows e.files ⟨s, [], []⟩ 0) := by
  have read : Snapshot.read s.write = .ok s := Snapshot.readWritten sound
  cases compacted with
  | kept saved =>
    refine ⟨saved.effect, .inl ⟨?_, ?_⟩⟩
    · rw [saved.snapshot]
      exact back.snapshot
    · rw [saved.journal]
      exact back.journal
  | folded saved =>
    refine ⟨saved.effect, .inl ⟨.inr ⟨_, _, s, saved.snapshot, read⟩, ?_⟩⟩
    rw [saved.journal]
    exact back.journal
  | emptied saved effect =>
    have snapshot := (congrFun effect.files .snapshot).trans
      ((Files.setOther _ _ (by decide)).trans saved.snapshot)
    have journal := (congrFun effect.files .journal).trans (Files.setSame _ _ _)
    exact ⟨(saved.effect.trans effect).own, .inr ⟨journal, .inr ⟨_, _, snapshot, read⟩, journal⟩⟩

end DiskStore

def Course.committed (c : Course) (i : Image) : Nat :=
  if c.pending = [] then c.synced else (i.add c.appended).journal.length

namespace Disk

variable {s : Disk} {locked : LockedState} {i : Image} {c : Course}

theorem unlockPersists {handle : Folder.LockHandle} (loaded : s.store.locked = some locked)
    (opened : s.store.handle = some handle) :
    s.unlock = ((DiskStore.persist s.store.settings.threshold locked s.folder).1,
      s.withLocked none
        ((DiskStore.persist s.store.settings.threshold locked s.folder).2.dropLock handle)) := by
  simp only [unlock, loaded, opened]

theorem persistImage (keeps : Keeps s locked i c) (mends : s.folder.Mends) (threshold : Nat)
    (size : locked.table.size < space 8) :
    (∃ e, DiskStore.persist threshold locked s.folder = (.ok (), e) ∧
      Preserves s.folder e (i.add c.appended) ∧
      (s.folder.Obeys →
        if threshold ≤ locked.writer.written.count then Folds e (i.add c.appended)
        else e.files .snapshot = s.folder.files .snapshot ∧
          e.files .journal = some ((i.add c.appended).journal, c.committed i))) ∨
    ∃ fault e, DiskStore.persist threshold locked s.folder = (.error fault, e) ∧
      ¬ s.folder.Obeys ∧ c.pending ≠ [] ∧ Preserves s.folder e (i.add c.settled) := by
  have valid := keeps.stands.valid.add keeps.stands.continues
  rcases Writer.syncStands keeps.stands mends with
    ⟨writer, d, synced, _, same, wrote, flushed⟩ | ⟨fault, writer, d, failed, fails, some, _, wrote, after⟩
  · have settled : ∃ after, Stands d writer i after ∧ after.appended = c.appended ∧
        after.synced = c.committed i := by
      rcases flushed with ⟨none, _, stands⟩ | ⟨some, stands⟩
      · exact ⟨c, stands, rfl, (if_pos none).symm⟩
      · exact ⟨_, stands, c.appendedFlushed i, (if_neg some).symm⟩
    obtain ⟨after, stands, appended, covered⟩ := settled
    have shows := stands.shows
    rw [appended] at shows
    by_cases long : threshold ≤ locked.writer.written.count
    · let flushed : LockedState := { locked with writer }
      have table : flushed.table = (i.add c.appended).table := keeps.table
      obtain ⟨result, e, compacted, preserves, folds⟩ := DiskStore.compactImage stands.tidy stands.node
        valid shows table (same.trans keeps.stands.written) (table ▸ size)
      refine .inl ⟨e, ?_, preserves.after wrote.effect rfl rfl, ?_⟩
      · simp only [flushed] at compacted
        simp only [DiskStore.persist, synced, same, if_pos long, compacted]
      · intro obeys
        rw [if_pos long]
        exact folds (obeys.same wrote.effect.fate)
    · refine .inl ⟨d, ?_, ⟨wrote.effect, _, _, valid, shows, rfl, rfl⟩, ?_⟩
      · simp only [DiskStore.persist, synced, same, if_neg long]
      · intro _
        rw [if_neg long, ← covered]
        exact ⟨wrote.snapshot, shows.journal⟩
  · refine .inr ⟨.os fault, d, by simp only [DiskStore.persist, failed],
      fun obeys => fails (obeys.obeysIn _), some, wrote.effect, _, _, ?_, after.shows, ?_, ?_⟩
    · exact after.valid.add after.continues
    · rw [Course.appendedUndone]
    · rw [Course.appendedUndone]

theorem persistOverran {t : Disk} {operation : Operation} (keeps : Keeps s locked i c)
    (mends : s.folder.Mends) (overran : Overran s locked i c operation t) (threshold : Nat)
    (size : (locked.table.apply operation).size < space 8) :
    ∃ held, t.store.locked = some held ∧
      ((∃ e, DiskStore.persist threshold held t.folder = (.ok (), e) ∧
          Folder.Effect s.folder e e.files ∧
          ((∃ last, e.files.Backwards last) ∨ e.files .journal = some ([], 0) ∧
            Preserves s.folder e ⟨⟨locked.table.apply operation, 0⟩, [], []⟩)) ∨
        ∃ fault e, DiskStore.persist threshold held t.folder = (.error fault, e) ∧
          Preserves s.folder e (i.add c.settled)) := by
  have valid := keeps.stands.valid.add keeps.stands.continues
  obtain ⟨time, v, sound, held, writes⟩ := overran.entry
  refine ⟨_, held, ?_⟩
  rcases writes.syncs keeps.stands mends with
    ⟨after, d, covered, synced, node, written, effect⟩ | ⟨fault, after, d, failed, wrote, undone⟩
  · have back : d.files.Backwards (lsnAfter 0 (i.add c.appended).entries) := by
      rw [effect.files]
      exact keeps.stands.shows.backwards valid sound rfl covered
    by_cases long : threshold ≤ after.written.count
    · let changed : LockedState := ⟨locked.table.apply operation, after⟩
      have same : Snapshot.mk changed.table changed.writer.written.lsn =
          ⟨locked.table.apply operation, 0⟩ := by
        rw [show changed.writer.written = _ from written]
        rfl
      have proper : ((i.add c.appended).table.applyAll [operation]).Proper := by
        refine valid.table.applyAll fun made member => ?_
        rw [List.mem_singleton.mp member]
        exact (Entry.spelledWritten sound).owner
      rw [← keeps.table] at proper
      have bound : d.names .journal = some changed.writer.node :=
        node ▸ effect.journal _ keeps.stands.node
      obtain ⟨result, e, compacted, leaves, _⟩ := DiskStore.compactCalls effect.tidy bound same
      obtain ⟨onward, left⟩ := leaves.backwards (Snapshot.soundOf proper size (spacePos 8)) back
      have whole := effect.own.trans onward
      refine .inl ⟨e, ?_, whole, ?_⟩
      · simp only [changed] at compacted
        simp only [DiskStore.persist, synced, if_pos long, compacted]
      · rcases left with still | ⟨empty, shows⟩
        · exact .inl ⟨_, still⟩
        · exact .inr ⟨empty, whole, _, 0, ⟨.nothing, rfl, proper⟩, shows, rfl, rfl⟩
    · exact .inl ⟨d, by simp only [DiskStore.persist, synced, if_neg long], effect.own,
        .inl ⟨_, back⟩⟩
  · refine .inr ⟨.os fault, d, by simp only [DiskStore.persist, failed], wrote.effect, _, _, ?_,
      undone.shows, ?_, ?_⟩
    · exact undone.valid.add undone.continues
    · rw [Course.appendedUndone]
    · rw [Course.appendedUndone]

end Disk
end AddressPool
