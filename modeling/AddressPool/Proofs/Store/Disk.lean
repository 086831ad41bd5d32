import AddressPool.Proofs.Medium.Lock
import AddressPool.Proofs.Store.Persist

/-! What each call on a disk store does while the files record the operations made so far.
Either the call goes through, and the store and the files have the state that it promises, or
the folder fails, and then it has halted with the operations recorded still. -/
namespace AddressPool
open Journal Bytes

namespace Disk

variable {s t : Disk} {handle : Folder.LockHandle} {locked : LockedState}
variable {log : List Operation} {covered : Nat}

structure Free (s : Disk) (handle : Folder.LockHandle) (log : List Operation) (covered : Nat) :
    Prop where
  opened : s.store.handle = some handle
  unlocked : s.store.locked = none
  lock : s.folder.names .lock = some handle.node
  holder : s.folder.holder? handle.node = none
  tidy : s.folder.Tidy
  records : ∃ l, Records l s.folder.files log covered

structure Holds (s : Disk) (handle : Folder.LockHandle) (locked : LockedState)
    (log : List Operation) (covered : Nat) : Prop where
  opened : s.store.handle = some handle
  loaded : s.store.locked = some locked
  lock : s.folder.names .lock = some handle.node
  holder : s.folder.holder? handle.node = some handle.id
  ready : Ready s.folder locked log covered

structure Waits (s : Disk) (handle : Folder.LockHandle) : Prop where
  opened : s.store.handle = some handle
  unlocked : s.store.locked = none
  holder : ∃ other, s.folder.holder? handle.node = some other ∧ other ≠ handle.id

structure Broken (s t : Disk) (log : List Operation) (covered : Nat) : Prop where
  follows : s.folder.Follows t.folder
  tidy : t.folder.Tidy
  records : ∃ l, Records l t.folder.files log covered
  halted : t.folder.Halted

theorem Free.isLocked (free : Free s handle log covered) : s.isLocked = false := by
  simp only [Disk.isLocked, free.unlocked, Option.isSome_none]

theorem Holds.isLocked (holds : Holds s handle locked log covered) : s.isLocked = true := by
  simp only [Disk.isLocked, holds.loaded, Option.isSome_some]

theorem lockFree (free : Free s handle log covered) (halting : s.folder.Halting) :
    (∃ locked t, s.lock = (.ok (), t) ∧ Holds t handle locked log covered ∧
      s.folder.Follows t.folder) ∨
    ∃ fault t, s.lock = (.error fault, t) ∧ Broken s t log covered := by
  obtain ⟨d, taken, relocked⟩ := Folder.takeLockFree free.tidy free.lock free.holder
  obtain ⟨l, records⟩ := free.records
  rw [← relocked.files] at records
  have lock : d.names .lock = some handle.node := by rw [relocked.names, free.lock]
  rcases DiskStore.loadSpec s.store.path s.store.settings.policy relocked.tidy
      (relocked.halting halting) records with
    ⟨locked, e, loaded, effect, ready⟩ | ⟨fault, e, failed, stopped⟩
  · refine .inl ⟨locked, s.withLocked (some locked) e, ?_, ?_,
      relocked.toFollows.trans effect.follows⟩
    · simp only [Disk.lock, free.isLocked, free.opened, taken, loaded]
      rfl
    · refine ⟨free.opened, rfl, effect.lock.trans lock, ?_, ready⟩
      exact (effect.holders handle.node).trans relocked.holder
  · have held : e.holder? handle.node = some handle.id := by
      rw [stopped.effect.holders, relocked.holder]
    have dropped := Folder.dropLockHeld stopped.effect.tidy (stopped.effect.lock.trans lock) held
    refine .inr ⟨fault, s.withLocked none (e.dropLock handle), ?_, ?_⟩
    · simp only [Disk.lock, free.isLocked, free.opened, taken, failed]
      rfl
    · refine ⟨relocked.toFollows.trans (stopped.effect.follows.trans dropped.toFollows),
        dropped.tidy, ?_, dropped.halted stopped.halted⟩
      obtain ⟨l, records⟩ := stopped.records
      exact ⟨l, by rw [withLocked, dropped.files]; exact records⟩

theorem lockHeld (holds : Holds s handle locked log covered) : s.lock = (.ok (), s) := by
  simp only [Disk.lock, holds.isLocked, if_true]

theorem lockWaits (waits : Waits s handle) : s.lock = (.error .held, s) := by
  obtain ⟨other, held, apart⟩ := waits.holder
  have unlocked : s.isLocked = false := by
    simp only [isLocked, waits.unlocked, Option.isSome_none]
  simp only [Disk.lock, unlocked, waits.opened, Folder.takeLockHeld held apart]
  rfl

theorem unlockUnlocked (unlocked : s.store.locked = none) : s.unlock = (.ok (), s) := by
  simp only [Disk.unlock, unlocked]

theorem closeUnlocked (unlocked : s.store.locked = none) :
    s.close = (.ok (), { s with store := { s.store with handle := none } }) := by
  simp only [Disk.close, unlockUnlocked unlocked]

theorem unlockHeld (holds : Holds s handle locked log covered) (halting : s.folder.Halting) :
    (∃ t, s.unlock = (.ok (), t) ∧ Free t handle log covered ∧ s.folder.Follows t.folder) ∨
    ∃ fault t, s.unlock = (.error fault, t) ∧ t.store.locked = none ∧ Broken s t log covered := by
  have drop {e : Folder} (kept : Kept s.folder e log covered) :
      Folder.Relocked e (e.dropLock handle) handle.node none := by
    refine Folder.dropLockHeld kept.effect.tidy (kept.effect.lock.trans holds.lock) ?_
    rw [kept.effect.holders, holds.holder]
  rcases DiskStore.persistSpec s.store.settings.threshold holds.ready halting with
    ⟨e, persisted, kept⟩ | ⟨fault, e, failed, stopped⟩
  · have dropped := drop kept
    obtain ⟨l, records⟩ := kept.records
    refine .inl ⟨s.withLocked none (e.dropLock handle), ?_, ?_,
      kept.effect.follows.trans dropped.toFollows⟩
    · simp only [Disk.unlock, holds.loaded, persisted, holds.opened]
    · refine ⟨holds.opened, rfl, dropped.lock.trans (kept.effect.lock.trans holds.lock),
        dropped.holder, dropped.tidy, l, ?_⟩
      rw [withLocked, dropped.files]
      exact records
  · have dropped := drop stopped.toKept
    obtain ⟨l, records⟩ := stopped.records
    refine .inr ⟨fault, s.withLocked none (e.dropLock handle), ?_, rfl,
      stopped.effect.follows.trans dropped.toFollows, dropped.tidy, ⟨l, ?_⟩,
      dropped.halted stopped.halted⟩
    · simp only [Disk.unlock, holds.loaded, failed, holds.opened]
    · rw [withLocked, dropped.files]
      exact records

theorem Holds.moves (holds : Holds s handle locked log covered) {d : Folder}
    (effect : Folder.Effect s.folder d d.files) {next : LockedState} {longer : List Operation}
    (ready : Ready d next longer covered) :
    Holds (s.withLocked (some next) d) handle next longer covered :=
  ⟨holds.opened, rfl, effect.lock.trans holds.lock,
    (effect.holders handle.node).trans holds.holder, ready⟩

theorem reloadHalted (tidy : s.folder.Tidy) (halted : s.folder.Halted) :
    Folder.Effect s.folder s.reload.folder s.folder.files := by
  obtain ⟨result, e, loaded, effect⟩ :=
    DiskStore.loadHalted s.store.path s.store.settings.policy tidy halted
  cases result with
  | ok next => simpa only [reload, loaded, withLocked] using effect
  | error fault => simpa only [reload, loaded] using effect

theorem reloadSpec (holds : Holds s handle locked log covered) (halting : s.folder.Halting) :
    (∃ next t, s.reload = t ∧ Holds t handle next log covered ∧ s.folder.Follows t.folder) ∨
    Broken s s.reload log covered := by
  obtain ⟨l, records, _⟩ := holds.ready.records
  rcases DiskStore.loadSpec s.store.path s.store.settings.policy holds.ready.tidy halting records
    with ⟨next, d, loaded, effect, ready⟩ | ⟨fault, d, failed, stopped⟩
  · exact .inl ⟨next, s.withLocked (some next) d, by simp only [reload, loaded],
      holds.moves effect ready, effect.follows⟩
  · refine .inr ?_
    simp only [reload, failed]
    exact ⟨stopped.effect.follows, stopped.effect.tidy, stopped.records, stopped.halted⟩

theorem recordSpec (holds : Holds s handle locked log covered) (halting : s.folder.Halting)
    (few : log.length + 1 < space 8) (operation : Operation) {changed : Table}
    (applied : changed = (Table.empty.applyAll log).apply operation) :
    (operation.Fits ∧ ∃ next t, s.record locked operation changed = (.ok (), t) ∧
      Holds t handle next (log ++ [operation]) covered ∧ s.folder.Follows t.folder ∧
      Files.journaled s.folder.files t.folder.files operation = [operation] ∧
      next.writer.written.count = locked.writer.written.count + 1) ∨
    (¬ operation.Fits ∧ ∃ next t, s.record locked operation changed =
        (.error (.payload (.tooLarge ((writeOperation operation).length + 8) payloadLimit)), t) ∧
      Holds t handle next log covered ∧ s.folder.Follows t.folder) ∨
    ∃ fault t, s.record locked operation changed = (.error fault, t) ∧
      Broken s t (log ++ Files.journaled s.folder.files t.folder.files operation) covered := by
  by_cases fits : operation.Fits
  · rcases Writer.appendSpec holds.ready.toPlaced halting fits few with
      ⟨writer, d, appended, effect, placed, count, grown⟩ | ⟨fault, writer, d, failed, stopped⟩
    · have table : changed = Table.empty.applyAll (log ++ [operation]) := by
        rw [Table.applyAllLast, applied]
      refine .inl ⟨fits, ⟨changed, writer⟩, s.withLocked (some ⟨changed, writer⟩) d, ?_,
        holds.moves effect ⟨placed, table⟩, effect.follows, ?_, count⟩
      · simp only [record, appended]
      · exact Files.journaledWhole fits grown
    · let stuck := s.withLocked (some { locked with writer }) d
      have effect : Folder.Effect d stuck.reload.folder d.files :=
        reloadHalted (s := stuck) stopped.effect.tidy stopped.halted
      refine .inr (.inr ⟨fault, stuck.reload, by simp only [record, failed, stuck],
        stopped.effect.follows.trans effect.follows, effect.tidy, ?_,
        effect.halted stopped.halted⟩)
      rw [effect.files]
      exact stopped.records
  · have refused := Writer.appendTooLarge locked.writer s.folder fits
    have same : s.withLocked (some { locked with writer := locked.writer }) s.folder = s := by
      have present := holds.loaded
      cases s with
      | mk store folder =>
        cases store
        simp_all [withLocked]
    have recorded : s.record locked operation changed = (.error (.payload (.tooLarge
        ((writeOperation operation).length + 8) payloadLimit)), s.reload) := by
      simp only [record, refused, same]
    rcases reloadSpec holds halting with ⟨next, t, reloaded, after, follows⟩ | broken
    · refine .inr (.inl ⟨fits, next, t, ?_, after, follows⟩)
      rw [recorded, reloaded]
    · refine .inr (.inr ⟨_, s.reload, recorded, ?_⟩)
      rw [Files.journaledTooLarge fits, List.append_nil]
      exact broken

end Disk
end AddressPool
