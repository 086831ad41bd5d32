import AddressPool.Proofs.Journal.Writer
import AddressPool.Proofs.Medium.Lock
import AddressPool.Proofs.Store.Image

/-! Calls made under one lock, on files of any origin. A call that has something to record appends
one entry, or it is refused for its size, or a write or sync of it fails and the journal is cut
back to what was settled; in the last two cases the state is loaded anew. After any of them the
loaded state is what the files would be loaded as, except that after the last of all numbers the
entry goes by zero, and the files are not loaded any more. -/
namespace AddressPool
open Journal Bytes

namespace Folder

def Wrote (d e : Folder) : Prop := ∃ file, Effect d e (d.files.set .journal file)

def Mends (d : Folder) : Prop := d.ObeysIn [.rollBack, .syncRollBack, .openJournal]

variable {d e f : Folder}

theorem Effect.wrote (effect : Effect d e d.files) : Wrote d e := by
  refine ⟨d.files .journal, ?_⟩
  have same : d.files.set .journal (d.files .journal) = d.files := by
    funext name
    by_cases journal : name = .journal
    · rw [journal, Files.setSame]
    · exact Files.setOther _ _ journal
  rwa [same]

theorem Wrote.refl (tidy : d.Tidy) : Wrote d d := (Effect.refl tidy).wrote

theorem Wrote.trans (first : Wrote d e) (second : Wrote e f) : Wrote d f := by
  obtain ⟨one, first⟩ := first
  obtain ⟨two, second⟩ := second
  rw [first.files, Files.setTwice] at second
  exact ⟨two, first.trans second⟩

theorem Wrote.effect (wrote : Wrote d e) : Effect d e e.files := by
  obtain ⟨file, effect⟩ := wrote
  exact effect.own

theorem Wrote.snapshot (wrote : Wrote d e) : e.files .snapshot = d.files .snapshot := by
  obtain ⟨file, effect⟩ := wrote
  rw [effect.files, Files.setOther _ _ (by decide)]

theorem Wrote.obeysIn (wrote : Wrote d e) {calls : List Call} (obeys : d.ObeysIn calls) :
    e.ObeysIn calls := obeys.same wrote.effect.fate

end Folder

inductive Course.Moves (policy : SyncPolicy) (d : Folder) (i : Image) (operation : Operation)
    (c : Course) : Except Fault Unit → Course → Prop where
  | flushed (e : Entry) (made : e.operation = operation) (fits : operation.Fits)
      (every : policy = .everyWrite) :
      Moves policy d i operation c (.ok ()) ((c.push e).flushed i)
  | pending (e : Entry) (made : e.operation = operation) (fits : operation.Fits)
      (later : policy = .onUnlock) :
      Moves policy d i operation c (.ok ()) (c.push e)
  | refused (large : ¬ operation.Fits) :
      Moves policy d i operation c
        (.error (.payload (.tooLarge ((writeOperation operation).length + 8) payloadLimit))) c.reopened
  | undone (fault : OsFault) (fails : ¬ d.ObeysIn [.appendEntry, .syncEntries]) :
      Moves policy d i operation c (.error (.os fault)) (c.undone i)

namespace Journal.Writer

variable {d : Folder} {w : Writer} {i : Image} {c : Course}

theorem rollBackStands (stands : Stands d w i c) (mends : d.Mends) {e : Folder} {rest : Bytes}
    {covered : Nat} (effect : Folder.Effect d e
      (d.files.set .journal (some ((i.add c.settled).journal ++ rest, covered)))) :
    ∃ writer f, w.rollBack e = (writer, f) ∧ writer.policy = w.policy ∧ d.Wrote f ∧
      Stands f writer i (c.undone i) := by
  have bound := effect.journal _ stands.node
  have file : e.files .journal = some ((i.add c.settled).journal ++ rest, covered) := by
    rw [effect.files, Files.setSame]
  have cut : Folder.resize ((i.add c.settled).journal ++ rest) w.committed.length =
      (i.add c.settled).journal := by
    rw [stands.committed]
    simp [Folder.resize, Image.mark]
  rcases Folder.cutToSpec effect.tidy bound file .rollBack .syncRollBack w.committed.length with
    ⟨f, mended, back⟩ | ⟨fault, f, failed, fails, _⟩
  · rw [cut, effect.files, Files.setTwice] at back
    refine ⟨{ w with written := w.committed, unsynced := 0 }, f, by simp only [rollBack, mended],
      rfl, ⟨_, effect.trans back⟩, ?_⟩
    refine ⟨back.tidy, back.journal _ bound, stands.valid, ?_, ?_, ?_, stands.committed, rfl⟩
    · rw [Course.appendedUndone]
      exact stands.continues.front
    · rw [back.files, Course.appendedUndone]
      exact stands.shows.rewritten rfl
    · rw [Course.appendedUndone]
      exact stands.committed
  · exact absurd ((mends.same effect.fate).fewer (by decide)) fails

theorem syncStands (stands : Stands d w i c) (mends : d.Mends) :
    (∃ writer e, w.sync d = (.ok (), writer, e) ∧ writer.policy = w.policy ∧
      writer.written = w.written ∧ d.Wrote e ∧
      (c.pending = [] ∧ e = d ∧ Stands e writer i c ∨
        c.pending ≠ [] ∧ Stands e writer i (c.flushed i))) ∨
    ∃ fault writer e, w.sync d = (.error (.os fault), writer, e) ∧
      ¬ d.ObeysIn [.appendEntry, .syncEntries] ∧ c.pending ≠ [] ∧ writer.policy = w.policy ∧
      d.Wrote e ∧ Stands e writer i (c.undone i) := by
  by_cases nothing : w.unsynced = 0
  · have none : c.pending = [] := List.eq_nil_of_length_eq_zero (stands.unsynced ▸ nothing)
    exact .inl ⟨w, d, by simp only [sync, if_pos nothing], rfl, rfl, .refl stands.tidy,
      .inl ⟨none, rfl, stands⟩⟩
  · have some : c.pending ≠ [] := by
      intro none
      rw [stands.unsynced, none] at nothing
      exact nothing rfl
    cases syncing : d.fate d.calls .syncEntries with
    | fails fault kept =>
      obtain ⟨e, failed, effect, _⟩ := Folder.syncFails stands.tidy syncing w.node
      have whole : d.files = d.files.set .journal
          (Option.some ((i.add c.settled).journal ++ Journal.written c.pending, c.synced)) := by
        funext name
        by_cases journal : name = .journal
        · rw [journal, Files.setSame, stands.shows.journal]
          simp [Image.add, Course.appended]
        · rw [Files.setOther _ _ journal]
      obtain ⟨writer, f, back, policy, wrote, after⟩ :=
        rollBackStands stands mends (whole ▸ effect)
      exact .inr ⟨fault, writer, f, by simp only [sync, if_neg nothing, failed, back],
        Folder.notObeysIn syncing (by simp), some, policy, wrote, after⟩
    | done =>
      obtain ⟨e, synced, effect⟩ :=
        Folder.syncDone stands.tidy stands.node stands.shows.journal syncing
      exact .inl ⟨w.flushed, e, by simp only [sync, if_neg nothing, synced]; rfl, rfl, rfl,
        ⟨_, effect⟩, .inr ⟨some, (stands.resynced effect).flushed rfl⟩⟩

theorem pushStands (stands : Stands d w i c) {e : Entry} (sound : e.Sound)
    (next : e.lsn = (i.add c.appended).lsn + 1) {f : Folder} {covered : Nat}
    (effect : Folder.Effect d f
      (d.files.set .journal (some ((i.add c.appended).journal ++ e.bytes, covered)))) :
    Stands f (w.grown e) i ⟨c.settled, c.pending ++ [e], covered⟩ := by
  have appended : (Course.mk c.settled (c.pending ++ [e]) covered).appended = c.appended ++ [e] :=
    c.appendedPush e
  have longer : i.Continues (c.appended ++ [e]) := stands.continues.push sound next
  refine ⟨effect.tidy, effect.journal _ stands.node, stands.valid, ?_, ?_, ?_, stands.committed, ?_⟩
  · rw [appended]
    exact longer
  · rw [effect.files, appended, Image.addLast]
    exact Shows.rewritten (j := ⟨_, _, _⟩) stands.shows rfl
  · have lsn : (i.add (c.appended ++ [e])).lsn = e.lsn := by
      rw [Image.lsnAdd longer, next, Image.lsnAdd stands.continues]
      simp [Nat.add_assoc]
    rw [appended, Image.mark, lsn, grown, stands.written, Image.addLast]
    simp [Image.mark]
  · simp [grown, stands.unsynced]

inductive Writes (d : Folder) (w : Writer) (i : Image) (c : Course) (e : Entry) :
    Writer → Folder → Prop where
  | later {f : Folder} (policy : w.policy = .onUnlock) (effect : Folder.Effect d f
      (d.files.set .journal (some ((i.add c.appended).journal ++ e.bytes, c.synced)))) :
      Writes d w i c e (w.grown e) f
  | now {f : Folder} (policy : w.policy = .everyWrite) (effect : Folder.Effect d f
      (d.files.set .journal (some ((i.add c.appended).journal ++ e.bytes,
        ((i.add c.appended).journal ++ e.bytes).length)))) :
      Writes d w i c e (w.grown e).flushed f

variable {e : Entry} {v : Writer} {f : Folder}

theorem Writes.wrote (writes : Writes d w i c e v f) : d.Wrote f := by
  cases writes with
  | later policy effect | now policy effect => exact ⟨_, effect⟩

theorem Writes.policy (writes : Writes d w i c e v f) : v.policy = w.policy := by
  cases writes <;> rfl

theorem Writes.moves (writes : Writes d w i c e v f) (stands : Stands d w i c) (sound : e.Sound)
    (next : e.lsn = (i.add c.appended).lsn + 1) :
    ∃ after, Stands f v i after ∧ Course.Moves w.policy d i e.operation c (.ok ()) after := by
  cases writes with
  | later policy effect =>
    exact ⟨c.push e, pushStands stands sound next effect, .pending e rfl sound.fits policy⟩
  | now policy effect =>
    have all : (i.add (c.push e).appended).journal = (i.add c.appended).journal ++ e.bytes := by
      rw [Course.appendedPush, Image.addLast]
    exact ⟨(c.push e).flushed i, (pushStands stands sound next effect).flushed
      (congrArg List.length all.symm), .flushed e rfl sound.fits policy⟩

theorem Writes.backwards (writes : Writes d w i c e v f) (stands : Stands d w i c) (sound : e.Sound)
    (zero : e.lsn = 0) :
    f.Tidy ∧ f.files.Backwards (lsnAfter 0 (i.add c.appended).entries) := by
  have valid := stands.valid.add stands.continues
  cases writes with
  | later policy effect | now policy effect =>
    rw [effect.files]
    exact ⟨effect.tidy, stands.shows.backwards valid sound zero _⟩

theorem pendingFront (i : Image) (c : Course) (rest : Bytes) : (i.add c.appended).journal ++ rest =
    (i.add c.settled).journal ++ (Journal.written c.pending ++ rest) := by
  simp [Image.add, Course.appended]

theorem grownSyncs (stands : Stands d w i c) (mends : d.Mends) (effect : Folder.Effect d f
      (d.files.set .journal (some ((i.add c.appended).journal ++ e.bytes, c.synced)))) :
    (∃ g, (w.grown e).sync f = (.ok (), (w.grown e).flushed, g) ∧ Folder.Effect d g
      (d.files.set .journal (some ((i.add c.appended).journal ++ e.bytes,
        ((i.add c.appended).journal ++ e.bytes).length)))) ∨
    ∃ fault v g, (w.grown e).sync f = (.error (.os fault), v, g) ∧
      ¬ d.ObeysIn [.appendEntry, .syncEntries] ∧ d.Wrote g ∧ Stands g v i (c.undone i) := by
  have pending : (w.grown e).unsynced ≠ 0 := Nat.succ_ne_zero _
  have same : (w.grown e).node = w.node := rfl
  have file : f.files .journal = some ((i.add c.appended).journal ++ e.bytes, c.synced) := by
    rw [effect.files, Files.setSame]
  cases syncing : f.fate f.calls .syncEntries with
  | done =>
    obtain ⟨g, synced, covers⟩ :=
      Folder.syncDone effect.tidy (effect.journal _ stands.node) file syncing
    rw [effect.files, Files.setTwice] at covers
    refine .inl ⟨g, ?_, effect.trans covers⟩
    simp only [sync, if_neg pending, same, synced]
    rfl
  | fails fault kept =>
    obtain ⟨g, failed, still, _⟩ := Folder.syncFails effect.tidy syncing w.node
    rw [effect.files] at still
    have whole := effect.trans still
    rw [pendingFront] at whole
    obtain ⟨v, k, back, _, wrote, after⟩ := rollBackStands stands mends whole
    have undone : (w.grown e).rollBack g = (v, k) := back
    refine .inr ⟨fault, v, k, by simp only [sync, if_neg pending, same, failed, undone], ?_, wrote,
      after⟩
    exact fun obeys => Folder.notObeysIn syncing (by simp) (obeys.same effect.fate)

theorem Writes.syncs (writes : Writes d w i c e v f) (stands : Stands d w i c) (mends : d.Mends) :
    (∃ after g covered, v.sync f = (.ok (), after, g) ∧ after.node = w.node ∧
      after.written = (w.grown e).written ∧ Folder.Effect d g
        (d.files.set .journal (some ((i.add c.appended).journal ++ e.bytes, covered)))) ∨
    ∃ fault after g, v.sync f = (.error (.os fault), after, g) ∧ d.Wrote g ∧
      Stands g after i (c.undone i) := by
  cases writes with
  | now policy effect => exact .inl ⟨_, f, _, rfl, rfl, rfl, effect⟩
  | later policy effect =>
    rcases grownSyncs stands mends effect with
      ⟨g, synced, covers⟩ | ⟨fault, after, g, failed, _, wrote, undone⟩
    · exact .inl ⟨_, g, _, synced, rfl, rfl, covers⟩
    · exact .inr ⟨fault, after, g, failed, wrote, undone⟩

theorem appendWrites (stands : Stands d w i c) (mends : d.Mends) {operation : Operation}
    (fits : operation.Fits) :
    (∃ v f, w.append operation d = (.ok w.next, v, f) ∧
      Writes d w i c (w.fresh operation d.clock) v f) ∨
    ∃ fault v f, w.append operation d = (.error (.os fault), v, f) ∧
      ¬ d.ObeysIn [.appendEntry, .syncEntries] ∧ d.Wrote f ∧ Stands f v i (c.undone i) := by
  cases adding : d.fate d.calls .appendEntry with
  | fails fault kept =>
    obtain ⟨f, failed, effect, _⟩ := Folder.appendFails stands.tidy stands.node
      stands.shows.journal adding (w.fresh operation d.clock).bytes
    rw [pendingFront] at effect
    obtain ⟨v, g, back, _, wrote, after⟩ := rollBackStands stands mends effect
    refine .inr ⟨fault, v, g, ?_, Folder.notObeysIn adding (by simp), wrote, after⟩
    rw [appendFailed fits failed, back]
  | done =>
    obtain ⟨f, added, effect⟩ := Folder.appendDone stands.tidy stands.node stands.shows.journal
      adding (w.fresh operation d.clock).bytes
    cases policy : w.policy with
    | onUnlock => exact .inl ⟨_, f, appendLater fits added policy, .later policy effect⟩
    | everyWrite =>
      rcases grownSyncs stands mends effect with
        ⟨g, synced, covers⟩ | ⟨fault, v, g, failed, fails, wrote, after⟩
      · exact .inl ⟨_, g, appendNow fits added policy synced, .now policy covers⟩
      · exact .inr ⟨fault, v, g, appendNow fits added policy failed, fails, wrote, after⟩

end Journal.Writer
namespace Disk

variable {s t : Disk} {locked : LockedState} {i : Image} {c : Course}

structure Keeps (s : Disk) (locked : LockedState) (i : Image) (c : Course) : Prop where
  loaded : s.store.locked = some locked
  table : locked.table = (i.add c.appended).table
  policy : locked.writer.policy = s.store.settings.policy
  stands : Stands s.folder locked.writer i c

theorem Keeps.number (keeps : Keeps s locked i c) :
    locked.writer.written.lsn = (i.add c.appended).lsn :=
  congrArg Mark.lsn keeps.stands.written

theorem Keeps.sized (keeps : Keeps s locked i c) (small : s.folder.files.Sized) :
    locked.table.size + 1 < space 8 := by
  rw [keeps.table]
  exact keeps.stands.shows.sized (keeps.stands.valid.add keeps.stands.continues) small

theorem Keeps.began {synced : Nat} (keeps : Keeps s locked i ⟨[], [], synced⟩) :
    locked.table = i.table ∧ locked.writer.written = i.mark ∧
      s.folder.files .journal = some (i.journal, synced) := by
  have same : i.add (Course.mk [] [] synced).appended = i := Image.addNothing i
  refine ⟨?_, ?_, ?_⟩
  · rw [keeps.table, same]
  · rw [keeps.stands.written, same]
  · rw [keeps.stands.shows.journal, same]

structure Within (s t : Disk) : Prop where
  opened : t.store.handle = s.store.handle
  settings : t.store.settings = s.store.settings
  follows : s.folder.Follows t.folder
  holders : ∀ id, t.folder.holder? id = s.folder.holder? id
  snapshot : t.folder.files .snapshot = s.folder.files .snapshot

theorem Within.refl (s : Disk) : Within s s := ⟨rfl, rfl, .refl s.folder, fun _ => rfl, rfl⟩

theorem Within.trans {u : Disk} (first : Within s t) (second : Within t u) : Within s u :=
  ⟨second.opened.trans first.opened, second.settings.trans first.settings,
    first.follows.trans second.follows, fun id => (second.holders id).trans (first.holders id),
    second.snapshot.trans first.snapshot⟩

theorem withinWrote {d : Folder} (wrote : s.folder.Wrote d) (locked : Option LockedState) :
    Within s (s.withLocked locked d) :=
  ⟨rfl, rfl, wrote.effect.follows, wrote.effect.holders, wrote.snapshot⟩

theorem reloadKeeps {w : Writer} (stands : Stands s.folder w i c) (mends : s.folder.Mends) :
    ∃ next, Keeps s.reload next i c.reopened ∧ Within s s.reload := by
  obtain ⟨node, d, loaded, bound, effect⟩ := DiskStore.loadShown s.store.path
    s.store.settings.policy stands.tidy (stands.valid.add stands.continues) stands.shows
    (mends.fewer (by decide))
  simp only [reload, loaded]
  refine ⟨_, ⟨rfl, ?_, rfl, ?_⟩, withinWrote effect.wrote _⟩
  · rw [Course.appendedReopened]
  · refine .fresh _ effect.tidy stands.valid stands.continues ?_ bound
    rw [withLocked, effect.files]
    exact stands.shows

structure Overran (s : Disk) (locked : LockedState) (i : Image) (c : Course)
    (operation : Operation) (t : Disk) : Prop where
  last : (i.add c.appended).lsn + 1 = space 8
  entry : ∃ time v, (Entry.mk 0 operation time).Sound ∧
    t.store.locked = some ⟨locked.table.apply operation, v⟩ ∧
    Writer.Writes s.folder locked.writer i c ⟨0, operation, time⟩ v t.folder

theorem recordWrites (keeps : Keeps s locked i c) (mends : s.folder.Mends)
    (operation : Operation) :
    ∃ result t, s.record locked operation (locked.table.apply operation) = (result, t) ∧
      Within s t ∧
      ((∃ next after, Keeps t next i after ∧
          Course.Moves s.store.settings.policy s.folder i operation c result after) ∨
        result = .ok () ∧ Overran s locked i c operation t) := by
  have lsn := keeps.number
  by_cases fits : operation.Fits
  · rcases Writer.appendWrites keeps.stands mends fits with
      ⟨v, d, added, writes⟩ | ⟨fault, v, d, failed, fails, wrote, stands⟩
    · have sound := Writer.freshSound fits s.folder.clock (w := locked.writer)
      generalize entry : locked.writer.fresh operation s.folder.clock = e at writes sound
      let changed : LockedState := ⟨locked.table.apply operation, v⟩
      refine ⟨_, s.withLocked (some changed) d, by simp only [record, added]; rfl,
        withinWrote writes.wrote _, ?_⟩
      rcases Nat.lt_or_eq_of_le (Nat.succ_le_of_lt keeps.stands.numbered) with few | last
      · have number : e.lsn = (i.add c.appended).lsn + 1 := by
          rw [← entry, Writer.freshNumber, Writer.nextFew (lsn ▸ few), lsn]
        obtain ⟨after, stands, moves⟩ := writes.moves keeps.stands sound number
        have made : e.operation = operation := congrArg Entry.operation entry.symm
        rw [made, keeps.policy] at moves
        refine .inl ⟨changed, after, ⟨rfl, ?_, writes.policy.trans keeps.policy, stands⟩, moves⟩
        cases moves with
        | flushed e made _ _ | pending e made _ _ =>
          have continues := stands.continues
          simp only [Course.appendedFlushed, Course.appendedPush] at continues ⊢
          rw [Image.tableAdd continues, List.map_append, List.map_singleton, made,
            Table.applyAllLast, ← Image.tableAdd keeps.stands.continues, ← keeps.table]
      · obtain rfl : e = ⟨0, operation, s.folder.clock % space 8⟩ := by
          rw [← entry, Writer.fresh, Writer.nextLast (lsn ▸ last)]
        exact .inr ⟨rfl, last, _, v, sound, rfl, writes⟩
    · let stuck := s.withLocked (some { locked with writer := v }) d
      have within : Within s stuck := withinWrote wrote _
      obtain ⟨next, after, moved⟩ := reloadKeeps (s := stuck) stands (wrote.obeysIn mends)
      rw [Course.reopenedUndone] at after
      exact ⟨_, _, by simp only [record, failed]; rfl, within.trans moved,
        .inl ⟨next, _, after, .undone fault fails⟩⟩
  · let stuck := s.withLocked (some locked) s.folder
    obtain ⟨next, after, within⟩ := reloadKeeps (s := stuck) keeps.stands mends
    exact ⟨_, _, by simp only [record, Writer.appendTooLarge _ _ fits]; rfl,
      (withinWrote (.refl keeps.stands.tidy) _).trans within, .inl ⟨next, _, after, .refused fits⟩⟩

theorem recordMoves (keeps : Keeps s locked i c) (mends : s.folder.Mends)
    (few : (i.add c.appended).lsn + 1 < space 8) (operation : Operation) :
    ∃ result t next after, s.record locked operation (locked.table.apply operation) = (result, t) ∧
      Keeps t next i after ∧ Within s t ∧
      Course.Moves s.store.settings.policy s.folder i operation c result after := by
  obtain ⟨result, t, recorded, within, ⟨next, after, kept, moves⟩ | ⟨_, overran⟩⟩ :=
    recordWrites keeps mends operation
  · exact ⟨result, t, next, after, recorded, kept, within, moves⟩
  · exact absurd overran.last (Nat.ne_of_lt few)

end Disk

end AddressPool
