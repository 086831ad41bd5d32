import AddressPool.Proofs.Journal.Readers
import AddressPool.Proofs.Medium.Handles
import AddressPool.Store.Disk

/-! Recovery of a journal with any contents. The answer is the one that verification gives, a
journal that is refused stays as it is, and one that is accepted is cut to what was found. There
is nothing left to cut then, so that recovery has the same answer again. -/
namespace AddressPool
open Journal Bytes

namespace DiskStore

variable {path : String} {d : Folder} {bytes : Bytes}

theorem verifyFiled (path : String) (file : d.Filed .journal bytes) :
    verifyJournal path d = ((Journal.recover (FileName.journal.path path) bytes).map some, d) := by
  have read := file.read
  obtain ⟨id, synced, found, content⟩ := file
  simp only [verifyJournal, found, read, Option.getD_some]
  cases Journal.recover (FileName.journal.path path) bytes with
  | error fault => rfl
  | ok recovery => rfl

theorem recoverRefused {fault : Fault} (file : d.Filed .journal bytes)
    (refused : Journal.recover (FileName.journal.path path) bytes = .error fault) :
    recoverJournal path d = (.error fault, d) := by
  have read := file.read
  obtain ⟨id, synced, found, content⟩ := file
  simp only [recoverJournal, found, read, Option.getD_some, refused]

theorem recoverAccepted {recovery : Recovery} (file : d.Filed .journal bytes)
    (obeys : d.ObeysIn [.repair, .syncRepair])
    (accepted : Journal.recover (FileName.journal.path path) bytes = .ok recovery) :
    ∃ e, recoverJournal path d = (.ok (some recovery), e) ∧
      e.Filed .journal (bytes.take recovery.validLength) := by
  have told := recoverExact accepted
  have filed := file
  have read := file.read
  obtain ⟨id, synced, found, content⟩ := file
  simp only [recoverJournal, found, read, Option.getD_some, accepted]
  split
  · next torn =>
    rcases Folder.cuts content .repair .syncRepair recovery.validLength with
      ⟨e, cut, rewrites⟩ | ⟨fault, e, failed, fails⟩
    · rw [Folder.resizeShort told.inside] at rewrites
      exact ⟨e, by rw [cut], rewrites.filed found⟩
    · exact absurd obeys fails
  · next whole =>
    have all : bytes.length ≤ recovery.validLength := by
      rw [told.truncated] at whole
      omega
    rw [List.take_of_length_le all]
    exact ⟨d, rfl, filed⟩

theorem recoverSettled {recovery : Recovery} {first : String}
    (accepted : Journal.recover first bytes = .ok recovery)
    (file : d.Filed .journal (bytes.take recovery.validLength)) (path : String) :
    recoverJournal path d =
      (.ok (some { recovery with dropped := 0, truncated := false }), d) := by
  have again := recoverAgain accepted (FileName.journal.path path)
  have read := file.read
  obtain ⟨id, synced, found, content⟩ := file
  simp only [recoverJournal, found, read, Option.getD_some, again]
  rfl

theorem recoveryExact (path : String) (file : d.Filed .journal bytes)
    (obeys : d.ObeysIn [.repair, .syncRepair]) :
    verifyJournal path d = ((recoverJournal path d).1, d) ∧
    (∀ fault e, recoverJournal path d = (.error fault, e) → e = d) ∧
    ∀ found e, recoverJournal path d = (.ok found, e) →
      ∃ recovery, found = some recovery ∧ recovery.Exact bytes ∧
        e.Filed .journal (bytes.take recovery.validLength) ∧
        recoverJournal path e =
          (.ok (some { recovery with dropped := 0, truncated := false }), e) := by
  have verified := verifyFiled path file
  cases answer : Journal.recover (FileName.journal.path path) bytes with
  | error fault =>
    have refused := recoverRefused file answer
    rw [answer] at verified
    rw [verified, refused]
    exact ⟨rfl, fun _ _ same => (Prod.mk.inj same).2.symm, by simp⟩
  | ok recovery =>
    obtain ⟨e, recovered, cut⟩ := recoverAccepted file obeys answer
    rw [answer] at verified
    rw [verified, recovered]
    refine ⟨rfl, by simp, ?_⟩
    rintro _ _ ⟨⟩
    exact ⟨recovery, rfl, recoverExact answer, cut, recoverSettled answer cut path⟩

def oneAndPart : Bytes := (Entry.mk 7 (.reserve (.wrap .v4 0x0A000002) "a") 1234).bytes ++ [8, 0, 0]

theorem partRecovered :
    ((Folder.only .journal oneAndPart).Filed .journal oneAndPart ∧
      (Folder.only .journal oneAndPart).ObeysIn [.repair, .syncRepair]) ∧
    ∃ e, recoverJournal "/data/net" (Folder.only .journal oneAndPart) =
        (.ok (some ⟨[⟨7, .reserve (.wrap .v4 0x0A000002) "a", 1234⟩], 1, 7, true, 49⟩), e) ∧
      verifyJournal "/data/net" (Folder.only .journal oneAndPart) =
        (.ok (some ⟨[⟨7, .reserve (.wrap .v4 0x0A000002) "a", 1234⟩], 1, 7, true, 49⟩),
          Folder.only .journal oneAndPart) ∧
      e.Filed .journal (oneAndPart.take 49) ∧
      recoverJournal "/data/net" e =
        (.ok (some ⟨[⟨7, .reserve (.wrap .v4 0x0A000002) "a", 1234⟩], 0, 7, false, 49⟩), e) := by
  have file := Folder.onlyFiled .journal oneAndPart
  have obeys : (Folder.only .journal oneAndPart).ObeysIn [.repair, .syncRepair] := fun _ _ _ => rfl
  obtain ⟨verified, _, accepted⟩ := recoveryExact "/data/net" file obeys
  have answer : (recoverJournal "/data/net" (Folder.only .journal oneAndPart)).1 =
      .ok (some ⟨[⟨7, .reserve (.wrap .v4 0x0A000002) "a", 1234⟩], 1, 7, true, 49⟩) := by
    decide +kernel
  have recovered := Prod.ext (y := (_, _)) answer rfl
  obtain ⟨recovery, same, _, cut, again⟩ := accepted _ _ recovered
  cases same
  rw [answer] at verified
  exact ⟨⟨file, obeys⟩, _, recovered, verified, cut, again⟩

end DiskStore
end AddressPool
