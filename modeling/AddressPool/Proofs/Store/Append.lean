import AddressPool.Proofs.Journal.Writer
import AddressPool.Proofs.Store.Load

/-! Appending to the journal of a store that has the lock. The operation is recorded just
when its whole entry has come into the file; an append that was cut off before leaves a
remnant, and one that was refused for its size leaves everything as it was. -/
namespace AddressPool
open Journal Bytes

namespace Files

def journalLength (files : Files) : Nat := ((files .journal).getD ([], 0)).1.length

def entrySize (operation : Operation) : Nat := headerSize + ((writeOperation operation).length + 8)

def journaled (before after : Files) (operation : Operation) : List Operation :=
  if operation.Fits ∧ after.journalLength = before.journalLength + entrySize operation then
    [operation]
  else []

theorem journaledWhole {before after : Files} {operation : Operation} (fits : operation.Fits)
    (grown : after.journalLength = before.journalLength + entrySize operation) :
    journaled before after operation = [operation] := if_pos ⟨fits, grown⟩

theorem journaledPart {before after : Files} {operation : Operation}
    (other : after.journalLength ≠ before.journalLength + entrySize operation) :
    journaled before after operation = [] := if_neg fun both => other both.2

theorem journaledTooLarge {operation : Operation} (large : ¬ operation.Fits)
    (before after : Files) : journaled before after operation = [] :=
  if_neg fun both => large both.1

end Files

theorem entryLength (e : Entry) : e.bytes.length = Files.entrySize e.operation := by
  rw [Entry.bytesLength, Entry.payloadLength, Files.entrySize]

namespace Journal.Writer

variable {log : List Operation} {covered : Nat} {d : Folder} {w : Writer}

theorem rollBackHalted (w : Writer) (tidy : d.Tidy) (halted : d.Halted) :
    ∃ writer e, w.rollBack d = (writer, e) ∧ Folder.Effect d e d.files := by
  obtain ⟨fault, fails⟩ := Folder.haltedFails halted .rollBack
  obtain ⟨e, failed, effect, _⟩ := Folder.setLengthFails tidy fails w.node w.committed.length
  exact ⟨_, e, by simp only [rollBack, Folder.cutTo, failed]; rfl, effect⟩

theorem placedFile (placed : Placed d w log covered) :
    ∃ l, Records l d.files log covered ∧ l.tail = [] ∧
      w.written = ⟨(Journal.written l.entries).length, log.length, l.entries.length⟩ ∧
      d.files .journal = some (Journal.written l.entries, l.synced) := by
  obtain ⟨l, records, clean, mark⟩ := placed.records
  obtain ⟨bytes, synced, content⟩ := placed.tidy.plain placed.node
  have file := Folder.filesBound placed.node content
  refine ⟨l, records, clean, mark, ?_⟩
  have journal := records.journal
  rw [file, Option.getD_some, clean, List.append_nil] at journal
  rw [file, journal]

theorem syncSpec (placed : Placed d w log covered) (halting : d.Halting) :
    (∃ writer e, w.sync d = (.ok (), writer, e) ∧ Folder.Effect d e e.files ∧
      Placed e writer log covered ∧ writer.written = w.written ∧
      e.files.journalLength = d.files.journalLength) ∨
    ∃ fault writer e, w.sync d = (.error fault, writer, e) ∧ Stopped d e log covered ∧
      e.files.journalLength = d.files.journalLength := by
  by_cases nothing : w.unsynced = 0
  · refine .inl ⟨w, d, by simp only [sync, if_pos nothing], Folder.Effect.refl placed.tidy, placed,
      rfl, rfl⟩
  · obtain ⟨l, records, clean, mark, file⟩ := placedFile placed
    cases syncing : d.fate d.calls .syncEntries with
    | fails fault kept =>
      obtain ⟨e, failed, effect, past⟩ := Folder.syncFails placed.tidy syncing w.node
      have halted := effect.halts halting syncing past
      obtain ⟨writer, f, back, next⟩ := rollBackHalted w effect.tidy halted
      rw [effect.files] at next
      refine .inr ⟨.os fault, writer, f, ?_, .here (effect.trans next) records (next.halted halted),
        by rw [next.files]⟩
      simp only [sync, if_neg nothing, failed, back]
    | done =>
      obtain ⟨e, synced, effect⟩ := Folder.syncDone placed.tidy placed.node file syncing
      have same : Records { l with tail := [], synced := (Journal.written l.entries).length } _ log
          covered := records.retail .nothing (.inr (Nat.le_refl _))
      rw [List.append_nil, ← effect.files] at same
      refine .inl ⟨{ w with unsynced := 0, committed := w.written }, e, ?_, effect.own,
        ⟨effect.tidy, ⟨_, same, rfl, mark⟩, effect.journal _ placed.node⟩, rfl, ?_⟩
      · simp only [sync, if_neg nothing, synced]
      · rw [effect.files, Files.journalLength, Files.journalLength, Files.setSame, file]
        rfl

theorem appendCut (placed : Placed d w log covered) (halting : d.Halting) {e : Entry}
    (sound : e.Sound) (next : e.lsn = log.length + 1) {fault : OsFault} {kept : Nat}
    (fails : d.fate d.calls .appendEntry = .fails fault kept) :
    ∃ f, d.append .appendEntry w.node e.bytes = (.error fault, f) ∧
      Stopped d f (log ++ Files.journaled d.files f.files e.operation) covered := by
  obtain ⟨l, records, clean, mark, file⟩ := placedFile placed
  obtain ⟨f, cut, effect, past⟩ := Folder.appendFails placed.tidy placed.node file fails e.bytes
  have halted := effect.halts halting fails past
  have after : f.files.journalLength = (Journal.written l.entries).length + (e.bytes.take kept).length := by
    rw [effect.files, Files.journalLength, Files.setSame, Option.getD_some, List.length_append]
  have before : d.files.journalLength = (Journal.written l.entries).length := by
    rw [Files.journalLength, file, Option.getD_some]
  refine ⟨f, cut, ?_⟩
  by_cases whole : e.bytes.length ≤ kept
  · have all : Files.journaled d.files f.files e.operation = [e.operation] := by
      apply Files.journaledWhole sound.fits
      rw [after, before, List.take_of_length_le whole, entryLength]
    rw [List.take_of_length_le whole] at effect
    rw [all]
    exact .here effect (records.append clean sound next) halted
  · have none : Files.journaled d.files f.files e.operation = [] := by
      apply Files.journaledPart
      rw [after, before, ← entryLength, List.length_take]
      omega
    have remnant : Remnant (e.bytes.take kept) := by
      by_cases some : kept = 0
      · rw [some]
        exact .nothing
      · exact .part e sound kept (Nat.pos_of_ne_zero some) (Nat.lt_of_not_le whole)
    rw [none, List.append_nil]
    exact .here effect (records.retail remnant (.inl (Nat.le_refl l.synced))) halted

theorem appendWhole (placed : Placed d w log covered) {e : Entry} (sound : e.Sound)
    (next : e.lsn = log.length + 1) (done : d.fate d.calls .appendEntry = .done) :
    ∃ f, d.append .appendEntry w.node e.bytes = (.ok (), f) ∧ Folder.Effect d f f.files ∧
      (∀ writer : Writer, writer.node = w.node →
        writer.written = ⟨w.written.length + e.bytes.length, e.lsn, w.written.count + 1⟩ →
        Placed f writer (log ++ [e.operation]) covered) ∧
      f.files.journalLength = d.files.journalLength + Files.entrySize e.operation := by
  obtain ⟨l, records, clean, mark, file⟩ := placedFile placed
  obtain ⟨f, added, effect⟩ := Folder.appendDone placed.tidy placed.node file done e.bytes
  refine ⟨f, added, effect.own, ?_, ?_⟩
  · intro writer node moved
    refine ⟨effect.tidy, ⟨{ l with fresh := l.fresh ++ [e] }, ?_, clean, ?_⟩, ?_⟩
    · rw [effect.files]
      exact records.append clean sound next
    · rw [moved, mark, next]
      simp [Layout.entries, Nat.add_assoc]
    · rw [node]
      exact effect.journal _ placed.node
  · rw [effect.files, Files.journalLength, Files.journalLength, Files.setSame, file]
    simp only [Option.getD_some, List.length_append, entryLength]

theorem appendSpec (placed : Placed d w log covered) (halting : d.Halting) {operation : Operation}
    (fits : operation.Fits) (few : log.length + 1 < space 8) :
    (∃ writer e, w.append operation d = (.ok (log.length + 1), writer, e) ∧
      Folder.Effect d e e.files ∧ Placed e writer (log ++ [operation]) covered ∧
      writer.written.count = w.written.count + 1 ∧
      e.files.journalLength = d.files.journalLength + Files.entrySize operation) ∨
    ∃ fault writer e, w.append operation d = (.error fault, writer, e) ∧
      Stopped d e (log ++ Files.journaled d.files e.files operation) covered := by
  obtain ⟨l, _, _, mark, _⟩ := placedFile placed
  have lsn : w.written.lsn = log.length := by rw [mark]
  have number : w.next = log.length + 1 := by rw [nextFew (lsn ▸ few), lsn]
  have sound := freshSound fits d.clock (w := w)
  cases adding : d.fate d.calls .appendEntry with
  | fails fault kept =>
    obtain ⟨f, failed, stopped⟩ := appendCut placed halting sound number adding
    obtain ⟨writer, g, back, next⟩ := rollBackHalted w stopped.effect.tidy stopped.halted
    obtain ⟨l, records⟩ := stopped.records
    refine .inr ⟨.os fault, writer, g, by rw [appendFailed fits failed, back], ?_⟩
    rw [next.files]
    exact .here (stopped.effect.trans next) records (next.halted stopped.halted)
  | done =>
    obtain ⟨f, added, effect, place, grown⟩ := appendWhole placed sound number adding
    have placed := place (w.grown (w.fresh operation d.clock)) rfl rfl
    cases policy : w.policy with
    | onUnlock =>
      have answer := appendLater fits added policy
      rw [number] at answer
      exact .inl ⟨_, f, answer, effect, placed, rfl, grown⟩
    | everyWrite =>
      rcases syncSpec placed (effect.halting halting) with
        ⟨writer, g, synced, next, still, mark, length⟩ | ⟨fault, writer, g, failed, stopped, length⟩
      · have answer := appendNow fits added policy synced
        rw [number] at answer
        exact .inl ⟨writer, g, answer, effect.trans next, still, by rw [mark]; rfl,
          length.trans grown⟩
      · refine .inr ⟨fault, writer, g, appendNow fits added policy failed, ?_⟩
        rw [Files.journaledWhole fits (length.trans grown)]
        exact stopped.after effect

end Journal.Writer
end AddressPool
