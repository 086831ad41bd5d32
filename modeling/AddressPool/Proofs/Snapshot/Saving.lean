import AddressPool.Proofs.Medium.Calls
import AddressPool.Snapshot

/-! Saving a snapshot, whatever the journal holds. The name of the snapshot changes hands in one
step, so at each failure the file under it is the old one or the whole new one. -/
namespace AddressPool

structure Saved (d e : Folder) (file : Option (Bytes × Nat)) : Prop where
  effect : Folder.Effect d e e.files
  journal : e.files .journal = d.files .journal
  snapshot : e.files .snapshot = file

theorem Saved.here {d e : Folder} {files : Files} {file : Option (Bytes × Nat)}
    (effect : Folder.Effect d e files) (journal : files .journal = d.files .journal)
    (snapshot : files .snapshot = file) : Saved d e file :=
  ⟨{ effect with files := rfl }, (congrFun effect.files _).trans journal,
    (congrFun effect.files _).trans snapshot⟩

namespace Snapshot

theorem saveCalls (s : Snapshot) {d : Folder} (tidy : d.Tidy) :
    (∃ size e, s.save d = (.ok size, e) ∧ Saved d e (some (s.write, s.write.length))) ∨
    ∃ fault e, s.save d = (.error fault, e) ∧ ¬ d.Obeys ∧
      (Saved d e (d.files .snapshot) ∨ Saved d e (some (s.write, s.write.length))) := by
  let bytes := s.write
  have disobeys {e : Folder} {call : Call} {fault : OsFault} {kept : Nat}
      (fate : e.fate = d.fate) (fails : e.fate e.calls call = .fails fault kept) : ¬ d.Obeys := by
    intro obeys
    rw [fate, obeys] at fails
    contradiction
  -- Up to the third call only the temporary file has changed.
  cases creating : d.fate d.calls .createTemporary with
  | fails fault kept =>
    obtain ⟨e, failed, effect, _⟩ := Folder.createTemporaryFails tidy creating
    exact .inr ⟨.os fault, e, by simp only [save, failed], disobeys rfl creating,
      .inl (.here effect rfl rfl)⟩
  | done =>
  obtain ⟨id, e, created, bound, first⟩ := Folder.createTemporaryDone tidy creating
  have empty : e.files .temporary = some ([], 0) := by rw [first.files, Files.setSame]
  cases writing : e.fate e.calls .writeTemporary with
  | fails fault kept =>
    obtain ⟨f, failed, effect, _⟩ := Folder.appendFails first.tidy bound empty writing bytes
    rw [first.files, Files.setTwice] at effect
    exact .inr ⟨.os fault, f, by simp only [save, created, bytes, failed],
      disobeys first.fate writing, .inl (.here (first.trans effect) rfl rfl)⟩
  | done =>
  obtain ⟨f, filled, second⟩ := Folder.appendDone first.tidy bound empty writing bytes
  rw [first.files, Files.setTwice, List.nil_append] at second
  have boundStill : f.names .temporary = some id := by
    have names := Folder.appendNames e .writeTemporary id bytes
    rw [filled] at names
    rw [names, bound]
  have whole : f.files .temporary = some (bytes, 0) := by rw [second.files, Files.setSame]
  cases syncing : f.fate f.calls .syncTemporary with
  | fails fault kept =>
    obtain ⟨g, failed, effect, _⟩ := Folder.syncFails second.tidy syncing id
    rw [second.files] at effect
    exact .inr ⟨.os fault, g, by simp only [save, created, bytes, filled, failed],
      disobeys (first.trans second).fate syncing,
      .inl (.here ((first.trans second).trans effect) rfl rfl)⟩
  | done =>
  obtain ⟨g, synced, third⟩ := Folder.syncDone second.tidy boundStill whole syncing
  rw [second.files, Files.setTwice] at third
  have durable : g.files .temporary = some (bytes, bytes.length) := by
    rw [third.files, Files.setSame]
  have upToThird := (first.trans second).trans third
  cases replacing : g.fate g.calls .replaceSnapshot with
  | fails fault kept =>
    obtain ⟨i, failed, effect, _⟩ := Folder.replaceFails third.tidy replacing
    rw [third.files] at effect
    exact .inr ⟨.os fault, i, by simp only [save, created, bytes, filled, synced, failed],
      disobeys upToThird.fate replacing, .inl (.here (upToThird.trans effect) rfl rfl)⟩
  | done =>
  obtain ⟨i, replaced, fourth⟩ := Folder.replaceDone third.tidy replacing durable
  rw [third.files] at fourth
  have upToFourth := upToThird.trans fourth
  cases flushing : i.fate i.calls .syncFolder with
  | fails fault kept =>
    obtain ⟨j, failed, effect, _⟩ := Folder.syncFolderFails fourth.tidy flushing
    rw [fourth.files] at effect
    exact .inr ⟨.os fault, j, by simp only [save, created, bytes, filled, synced, replaced, failed],
      disobeys upToFourth.fate flushing, .inr (.here (upToFourth.trans effect) rfl rfl)⟩
  | done =>
    obtain ⟨j, flushed, last⟩ := Folder.syncFolderDone fourth.tidy flushing
    rw [fourth.files] at last
    exact .inl ⟨bytes.length, j,
      by simp only [save, created, bytes, filled, synced, replaced, flushed],
      .here (upToFourth.trans last) rfl rfl⟩

end Snapshot
end AddressPool
