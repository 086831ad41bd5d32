import AddressPool.Proofs.Medium.Spares
import AddressPool.Store.Disk

/-! Loading, recording and persisting on files of any kind, however the calls to the folder end: all
of them spare the lock file. Opening a store gives it a handle on the lock file and no more. -/
namespace AddressPool
open Journal (Writer)

namespace Journal.Writer

variable {d e : Folder} {w next : Writer}

theorem ofFolderSpares {policy : SyncPolicy} {lsn count : Nat} {result : Except Fault Writer}
    (opened : ofFolder policy lsn count d = (result, e)) : d.Spares e := by
  unfold ofFolder at opened
  split at opened <;> rename_i found <;> cases opened
  · exact Folder.openNodeSpares (by decide) found
  · exact Folder.openNodeSpares (by decide) found

theorem rollBackSpares (w : Writer) (d : Folder) : d.Spares (w.rollBack d).2 :=
  Folder.cutToSpares rfl

theorem syncSpares {result : Except Fault Unit} (synced : w.sync d = (result, next, e)) :
    d.Spares e := by
  unfold sync at synced
  split at synced
  · cases synced
    exact .refl d
  · split at synced <;> cases synced
    · exact Folder.syncSpares ‹_›
    · exact (Folder.syncSpares ‹_›).trans (rollBackSpares w _)

theorem appendSpares {operation : Operation} {result : Except Fault Nat}
    (appended : w.append operation d = (result, next, e)) : d.Spares e := by
  simp only [append] at appended
  split at appended
  · cases appended
    exact .refl d
  · split at appended
    · cases appended
      exact (Folder.appendSpares ‹_›).trans (rollBackSpares w _)
    · refine (Folder.appendSpares ‹_›).trans ?_
      split at appended
      · cases appended
        exact .refl _
      · split at appended <;> cases appended
        · exact syncSpares ‹_›
        · exact syncSpares ‹_›

theorem syncFault {fault : Fault} (synced : w.sync d = (.error fault, next, e)) :
    ∃ reason, fault = .os reason := by
  unfold sync at synced
  split at synced
  · cases synced
  · split at synced <;> cases synced
    exact ⟨_, rfl⟩

theorem appendFault {operation : Operation} {fault : Fault}
    (appended : w.append operation d = (.error fault, next, e)) :
    (∃ reason, fault = .payload reason) ∨ ∃ reason, fault = .os reason := by
  simp only [append] at appended
  split at appended
  · cases appended
    exact .inl ⟨_, rfl⟩
  · split at appended
    · cases appended
      exact .inr ⟨_, rfl⟩
    · split at appended
      · cases appended
      · split at appended <;> cases appended
        exact .inr (syncFault ‹_›)

theorem truncateSpares {result : Except Fault Unit} (emptied : w.truncate d = (result, next, e)) :
    d.Spares e := by
  unfold truncate at emptied
  split at emptied <;> cases emptied
  · exact Folder.cutToSpares ‹_›
  · exact Folder.cutToSpares ‹_›

end Journal.Writer

theorem Snapshot.saveSpares {s : Snapshot} {d e : Folder} {result : Except Fault Nat}
    (saved : s.save d = (result, e)) : d.Spares e := by
  simp only [save] at saved
  split at saved <;> rename_i created
  · cases saved
    exact Folder.createTemporarySpares created
  refine (Folder.createTemporarySpares created).trans ?_
  split at saved <;> rename_i written
  · cases saved
    exact Folder.appendSpares written
  refine (Folder.appendSpares written).trans ?_
  split at saved <;> rename_i synced
  · cases saved
    exact Folder.syncSpares synced
  refine (Folder.syncSpares synced).trans ?_
  split at saved <;> rename_i replaced
  · cases saved
    exact Folder.replaceSnapshotSpares replaced
  refine (Folder.replaceSnapshotSpares replaced).trans ?_
  split at saved <;> cases saved
  · exact Folder.syncFolderSpares ‹_›
  · exact Folder.syncFolderSpares ‹_›

namespace DiskStore

variable {d e : Folder}

theorem recoverJournalSpares {path : String} {result : Except Fault (Option Journal.Recovery)}
    (recovered : recoverJournal path d = (result, e)) : d.Spares e := by
  unfold recoverJournal at recovered
  split at recovered
  · cases recovered
    exact .refl d
  · cases recovered
    exact .refl d
  · split at recovered
    · cases recovered
      exact .refl d
    · split at recovered
      · cases recovered
        exact .refl d
      · split at recovered
        · split at recovered <;> cases recovered
          · exact Folder.cutToSpares ‹_›
          · exact Folder.cutToSpares ‹_›
        · cases recovered
          exact .refl d

theorem loadSpares {path : String} {policy : Journal.SyncPolicy}
    {result : Except Fault LockedState} (loaded : load path policy d = (result, e)) :
    d.Spares e := by
  simp only [load] at loaded
  split at loaded
  · cases loaded
    exact .refl d
  · split at loaded <;> rename_i recovered
    · cases loaded
      exact recoverJournalSpares recovered
    · refine (recoverJournalSpares recovered).trans ?_
      split at loaded <;> cases loaded
      · exact Writer.ofFolderSpares ‹_›
      · exact Writer.ofFolderSpares ‹_›

theorem compactSpares (s : LockedState) (d : Folder) : d.Spares (compact s d).2 := by
  unfold compact
  split <;> rename_i saved
  · exact Snapshot.saveSpares saved
  · exact (Snapshot.saveSpares saved).trans (Writer.truncateSpares rfl)

theorem persistSpares {threshold : Nat} {s : LockedState} {result : Except Fault Unit}
    (persisted : persist threshold s d = (result, e)) : d.Spares e := by
  unfold persist at persisted
  split at persisted <;> rename_i synced
  · cases persisted
    exact Writer.syncSpares synced
  · refine (Writer.syncSpares synced).trans ?_
    split at persisted <;> cases persisted
    · exact compactSpares _ _
    · exact .refl _

theorem ofFolderOpens {path : String} {settings : StoreSettings}
    {result : Except Fault DiskStore} (opened : ofFolder path settings d = (result, e)) :
    (∃ fault, result = .error fault ∧ d.Still e) ∨
    ∃ handle, result = .ok ⟨path, settings, some handle, none⟩ ∧ d.Opens e handle := by
  unfold ofFolder at opened
  split at opened <;> rename_i made
  · cases opened
    exact .inl ⟨_, rfl, Folder.makeStill made⟩
  · have still := Folder.makeStill made
    split at opened <;> rename_i found <;> cases opened <;>
      rcases Folder.openLockOpens found with ⟨_, ⟨⟩, after⟩ | ⟨_, ⟨⟩, after⟩
    · exact .inl ⟨_, rfl, still.trans after⟩
    · exact .inr ⟨_, rfl, still.opens after⟩

end DiskStore

end AddressPool
