import AddressPool.Proofs.Session.Serving

/-! One step of a session on disk. Unless the folder fails, the answer is the pool's, and the
change that the step makes has come into the journal as one more entry. -/
namespace AddressPool.Session
open Journal Bytes

def journaled (network : String) (before after : Host) (change : Option Operation) :
    List Operation :=
  (change.map fun operation => Files.journaled (before.volume.folder network).files
    (after.volume.folder network).files operation).getD []

inductive StepOutcome (network : String) (h : Host) (node : Nat) (p : Pool) (log : List Operation)
    (covered : Nat) (change : Option Operation) (reply : Answer × Pool) :
    Answer × Host → Prop where
  | went {after : Host} (fits : ∀ operation, change = some operation → operation.Fits)
      (serves : Serves network after node reply.2 (log ++ change.toList) covered)
      (entry : journaled network h after change = change.toList)
      (counts : ∀ id n m, journalLength? network h id = some n →
        journalLength? network after id = some m → m = n + change.toList.length)
      (fate : (after.volume.folder network).fate = (h.volume.folder network).fate) :
      StepOutcome network h node p log covered change reply (reply.1, after)
  | refused {answer : Answer} {after : Host} {operation : Operation}
      (made : change = some operation) (large : ¬ operation.Fits)
      (serves : Serves network after node p log covered)
      (fate : (after.volume.folder network).fate = (h.volume.folder network).fate) :
      StepOutcome network h node p log covered change reply (answer, after)
  | wrecked {answer : Answer} {after : Host}
      (wrecked : Wrecked (after.volume.folder network)
        (log ++ journaled network h after change) covered)
      (lock : (after.volume.folder network).names .lock = (h.volume.folder network).names .lock)
      (fate : (after.volume.folder network).fate = (h.volume.folder network).fate) :
      StepOutcome network h node p log covered change reply (answer, after)

section Steps

variable {network id : String} {h : Host} {node : Nat} {p : Pool} {log : List Operation}
variable {covered : Nat} {store : DiskStore} {t : Disk} {next : Pool} {answer : Answer}
variable {change : Option Operation} {reply : Answer × Pool}

theorem askDisk (found : h.find? id = some (.disk network store)) {α : Type} (wrap : α → Answer)
    (run : {σ : Type} → [Store σ] → σ → α × σ) :
    ask id wrap run h = (wrap (run (h.volume.disk network store)).1,
      h.movedDisk network id (run (h.volume.disk network store)).2) := by
  simp only [ask, Host.callDisk found]

def entryCount (store : DiskStore) : Option Nat :=
  store.locked.map fun locked => locked.writer.written.count

theorem journalLengthOf (found : h.find? id = some (.disk network store)) :
    journalLength? network h id = entryCount store := by
  simp only [journalLength?, found, Volume.disk, Disk.journalLength, entryCount]
  cases store.locked <;> rfl

theorem journalLengthSame {next : Host} (same : next.find? id = h.find? id) :
    journalLength? network next id = journalLength? network h id := by
  simp only [journalLength?, same]
  cases h.find? id with
  | none => rfl
  | some i => cases i <;> rfl

theorem countsOther {next : Host} (others : ∀ other, other ≠ id → next.find? other = h.find? other)
    (gone : ∀ n m, journalLength? network h id = some n →
      journalLength? network next id = some m → False) (other : String) (n m : Nat)
    (before : journalLength? network h other = some n)
    (after : journalLength? network next other = some m) :
    m = n + (none : Option Operation).toList.length := by
  by_cases own : other = id
  · subst own
    exact (gone n m before after).elim
  · rw [journalLengthSame (others other own), before] at after
    simpa using after.symm

theorem countsHolder (serves : Serves network h node p log covered) {n : Nat}
    (counted : journalLength? network h id = some n) : p.holding = some id := by
  cases known : p.known id with
  | false => simp [journalLength?, serves.missing known] at counted
  | true =>
    obtain ⟨store, found⟩ := serves.found known
    by_cases holding : p.holding = some id
    · exact holding
    · rw [journalLengthOf found, entryCount, serves.unlocked found holding] at counted
      contradiction

theorem wentStill (serves : Serves network h node p log covered) :
    StepOutcome network h node p log covered none (answer, p) (answer, h) := by
  refine .went (by simp) (by simpa using serves) rfl ?_ rfl
  intro other n m before after
  rw [before] at after
  simpa using after.symm

theorem wentUnmoved (serves : Serves network h node p log covered)
    (found : h.find? id = some (.disk network store)) :
    StepOutcome network h node p log covered none (answer, p)
      (answer, h.movedDisk network id (h.volume.disk network store)) := by
  refine .went (by simp) ?_ rfl ?_ ?_
  · rw [Option.toList_none, List.append_nil]
    exact serves.unmoved found
  · intro other n m before after
    rw [journalLengthSame (Host.findUnmoved found other), before] at after
    simpa using after.symm
  · rw [Host.folderMoved]
    rfl

theorem wentMoved (serves : Serves network h node p log covered)
    (found : h.find? id = some (.disk network store))
    (fits : ∀ operation, change = some operation → operation.Fits)
    (only : p.holding = none ∨ p.holding = some id)
    (follows : (h.volume.folder network).Follows t.folder)
    (same : t.store.handle = store.handle)
    (state : (next.holding = none ∧ ∃ handle, Disk.Free t handle (log ++ change.toList) covered) ∨
      (next.holding = some id ∧
        ∃ handle locked, Disk.Holds t handle locked (log ++ change.toList) covered))
    (names : next.known = p.known)
    (table : next.table = Table.empty.applyAll (log ++ change.toList))
    (entry : ∀ operation, change = some operation →
      Files.journaled (h.volume.folder network).files t.folder.files operation = [operation])
    (counts : ∀ n m, entryCount store = some n → entryCount t.store = some m →
      m = n + change.toList.length) :
    StepOutcome network h node p log covered change (answer, next)
      (answer, h.movedDisk network id t) := by
  refine .went fits (serves.moved found only follows same state names table) ?_ ?_ ?_
  · cases change with
    | none => rfl
    | some operation =>
      simp only [journaled, Option.map_some, Option.getD_some, Host.folderMoved, Option.toList_some]
      exact entry operation rfl
  · intro other n m before after
    have holding := countsHolder serves before
    rcases only with nobody | me
    · rw [nobody] at holding
      contradiction
    · rw [me] at holding
      cases holding
      have there : (h.movedDisk network id t).find? id = some (.disk network t.store) := by
        rw [Host.findMoved, if_pos rfl]
      rw [journalLengthOf found] at before
      rw [journalLengthOf there] at after
      exact counts n m before after
  · rw [Host.folderMoved]
    exact follows.fate

theorem wreckedMoved
    (broken : Disk.Broken (h.volume.disk network store) t
      (log ++ journaled network h (h.movedDisk network id t) change) covered) :
    StepOutcome network h node p log covered change reply (answer, h.movedDisk network id t) := by
  refine .wrecked ?_ ?_ ?_
  · rw [Host.folderMoved]
    exact .ofBroken broken
  · rw [Host.folderMoved]
    exact broken.follows.lock
  · rw [Host.folderMoved]
    exact broken.follows.fate

theorem lockStep (serves : Serves network h node p log covered)
    (found : h.find? id = some (.disk network store))
    (halting : (h.volume.folder network).Halting) :
    StepOutcome network h node p log covered none (p.call id .lock) (ask id .done Store.lock h) := by
  rw [askDisk found]
  change StepOutcome _ _ _ _ _ _ _ _ (.done (Disk.lock (h.volume.disk network store)).1,
    h.movedDisk network id (Disk.lock (h.volume.disk network store)).2)
  cases holding : p.holding with
  | none =>
    obtain ⟨handle, free⟩ := serves.freeOf holding found
    simp only [Pool.call, holding]
    rcases Disk.lockFree free halting with
      ⟨locked, t, taken, holds, follows⟩ | ⟨fault, t, failed, broken⟩
    · rw [taken]
      refine wentMoved serves found (by simp) (.inl holding) follows
        (holds.opened.trans free.opened.symm) (.inr ⟨rfl, handle, locked, ?_⟩) rfl ?_ (by simp) ?_
      · simpa using holds
      · simpa using serves.table
      · intro n m before
        rw [entryCount, show store.locked = none from free.unlocked] at before
        contradiction
    · rw [failed]
      exact wreckedMoved (by simpa [journaled] using broken)
  | some other =>
    simp only [Pool.call, holding]
    by_cases same : other = id
    · subst same
      obtain ⟨handle, locked, holds⟩ := serves.holdsOf holding found
      rw [if_pos rfl, Disk.lockHeld holds]
      exact wentUnmoved serves found
    · obtain ⟨handle, waits⟩ := serves.waitsOf holding same found
      rw [if_neg same, Disk.lockWaits waits]
      exact wentUnmoved serves found

theorem unlockStep (serves : Serves network h node p log covered)
    (found : h.find? id = some (.disk network store))
    (halting : (h.volume.folder network).Halting) :
    StepOutcome network h node p log covered none (p.call id .unlock)
      (ask id .done Store.unlock h) := by
  rw [askDisk found]
  change StepOutcome _ _ _ _ _ _ _ _ (.done (Disk.unlock (h.volume.disk network store)).1,
    h.movedDisk network id (Disk.unlock (h.volume.disk network store)).2)
  by_cases holding : p.holding = some id
  · obtain ⟨handle, locked, holds⟩ := serves.holdsOf holding found
    simp only [Pool.call, Pool.leave, if_pos holding]
    rcases Disk.unlockHeld holds halting with
      ⟨t, given, free, follows⟩ | ⟨fault, t, failed, _, broken⟩
    · rw [given]
      refine wentMoved serves found (by simp) (.inr holding) follows
        (free.opened.trans holds.opened.symm) (.inl ⟨rfl, handle, ?_⟩) rfl ?_ (by simp) ?_
      · simpa using free
      · simpa using serves.table
      · intro n m _ after
        rw [entryCount, free.unlocked] at after
        contradiction
    · rw [failed]
      exact wreckedMoved (by simpa [journaled] using broken)
  · have unlocked : (h.volume.disk network store).store.locked = none :=
      serves.unlocked found holding
    rw [Disk.unlockUnlocked unlocked]
    simp only [Pool.call, Pool.leave, if_neg holding]
    exact wentUnmoved serves found

theorem recordStep (serves : Serves network h node p log covered)
    (found : h.find? id = some (.disk network store)) (holding : p.holding = some id)
    (halting : (h.volume.folder network).Halting) (few : log.length + 1 < space 8)
    {handle : Folder.LockHandle} {locked : LockedState}
    (holds : Disk.Holds (h.volume.disk network store) handle locked log covered)
    (operation : Operation) (wrap : Except Fault Unit → Answer) :
    StepOutcome network h node p log covered (some operation)
      (wrap (.ok ()), { p with table := p.table.apply operation })
      (wrap ((h.volume.disk network store).record locked operation (p.table.apply operation)).1,
        h.movedDisk network id
          ((h.volume.disk network store).record locked operation (p.table.apply operation)).2) := by
  have applied : p.table.apply operation = (Table.empty.applyAll log).apply operation := by
    rw [serves.table]
  rcases Disk.recordSpec holds halting few operation applied with
    ⟨fits, next, t, recorded, after, follows, entry, count⟩ |
      ⟨large, next, t, refused, after, follows⟩ | ⟨fault, t, failed, broken⟩
  · rw [recorded]
    refine wentMoved serves found ?_ (.inr holding) follows (after.opened.trans holds.opened.symm)
      (.inr ⟨holding, handle, next, after⟩) rfl ?_ ?_ ?_
    · intro other made
      cases made
      exact fits
    · rw [Option.toList_some, Table.applyAllLast, ← serves.table]
    · intro other made
      cases made
      exact entry
    · intro n m before later
      have mine : store.locked = some locked := holds.loaded
      rw [entryCount, mine, Option.map_some, Option.some.injEq] at before
      rw [entryCount, after.loaded, Option.map_some, Option.some.injEq] at later
      rw [← before, ← later]
      exact count
  · rw [refused]
    refine .refused rfl large ?_ ?_
    · exact serves.moved found (.inr holding) follows (after.opened.trans holds.opened.symm)
        (.inr ⟨holding, handle, next, after⟩) rfl serves.table
    · rw [Host.folderMoved]
      exact follows.fate
  · rw [failed]
    have recorded : Disk.Broken (h.volume.disk network store) t
        (log ++ journaled network h (h.movedDisk network id t) (some operation)) covered := by
      simp only [journaled, Option.map_some, Option.getD_some, Host.folderMoved]
      exact broken
    exact wreckedMoved recorded

theorem reserveStep (serves : Serves network h node p log covered)
    (found : h.find? id = some (.disk network store))
    (halting : (h.volume.folder network).Halting) (few : log.length + 1 < space 8)
    (owner : String) (a : Address) :
    StepOutcome network h node p log covered
      (if p.holding = some id then (Command.reserve owner a).change? p.table else none)
      (p.call id (.reserve owner a)) (ask id .reserved (Store.reserve owner a) h) := by
  rw [askDisk found]
  change StepOutcome _ _ _ _ _ _ _ _ (.reserved (Disk.reserve owner a (h.volume.disk network store)).1,
    h.movedDisk network id (Disk.reserve owner a (h.volume.disk network store)).2)
  by_cases holding : p.holding = some id
  · obtain ⟨handle, locked, holds⟩ := serves.holdsOf holding found
    have table : locked.table = p.table := holds.ready.table.trans serves.table.symm
    simp only [Pool.call, if_pos holding, Disk.reserve, holds.loaded, table]
    by_cases unowned : p.table.owner? a = none
    · have made : p.table.put a owner = p.table.apply (.reserve a owner) :=
        (Table.applyReserve unowned owner).symm
      have recorded := recordStep serves found holding halting few holds (.reserve a owner)
        fun result => .reserved (result.map fun _ => true)
      simp only [Command.change?, unowned, Option.isNone_none, if_true,
        Table.tryReserveFree unowned owner, made]
      cases result : (h.volume.disk network store).record locked (.reserve a owner)
          (p.table.apply (.reserve a owner)) with
      | mk outcome t =>
        rw [result] at recorded
        cases outcome <;> exact recorded
    · simp only [Command.change?, Option.isNone_iff_eq_none, unowned, if_false,
        Table.tryReserveOwned unowned owner]
      exact wentUnmoved serves found
  · have unlocked : (h.volume.disk network store).store.locked = none :=
      serves.unlocked found holding
    simp only [Pool.call, if_neg holding, Disk.reserve, unlocked]
    exact wentUnmoved serves found

theorem releaseStep (serves : Serves network h node p log covered)
    (found : h.find? id = some (.disk network store))
    (halting : (h.volume.folder network).Halting) (few : log.length + 1 < space 8)
    (owner : String) :
    StepOutcome network h node p log covered
      (if p.holding = some id then (Command.releaseOwner owner).change? p.table else none)
      (p.call id (.releaseOwner owner)) (ask id .done (Store.releaseOwner owner) h) := by
  rw [askDisk found]
  change StepOutcome _ _ _ _ _ _ _ _ (.done (Disk.releaseOwner owner (h.volume.disk network store)).1,
    h.movedDisk network id (Disk.releaseOwner owner (h.volume.disk network store)).2)
  by_cases holding : p.holding = some id
  · obtain ⟨handle, locked, holds⟩ := serves.holdsOf holding found
    have table : locked.table = p.table := holds.ready.table.trans serves.table.symm
    have inverse : p.table.Inverse := by
      rw [serves.table]
      exact Table.inverseApplyAll Table.inverseEmpty log
    simp only [Pool.call, if_pos holding, Disk.releaseOwner, holds.loaded, table, Command.change?]
    cases owned : p.table.addressesOf owner with
    | nil =>
      simp only [Table.freeAll, List.foldl_nil]
      exact wentUnmoved serves found
    | cons a rest =>
      have made : p.table.freeAll (a :: rest) = p.table.apply (.release owner (a :: rest)) := by
        rw [← owned]
        exact (Table.applyRelease inverse owner).symm
      dsimp only
      rw [made]
      exact recordStep serves found holding halting few holds (.release owner (a :: rest)) .done
  · have unlocked : (h.volume.disk network store).store.locked = none :=
      serves.unlocked found holding
    simp only [Pool.call, if_neg holding, Disk.releaseOwner, unlocked]
    exact wentUnmoved serves found

theorem markerStep (serves : Serves network h node p log covered)
    (found : h.find? id = some (.disk network store)) :
    StepOutcome network h node p log covered none (p.call id .lastReserved)
      (ask id .marker Store.lastReserved h) := by
  rw [askDisk found]
  change StepOutcome _ _ _ _ _ _ _ _ (.marker (Disk.lastReserved (h.volume.disk network store)).1,
    h.movedDisk network id (Disk.lastReserved (h.volume.disk network store)).2)
  by_cases holding : p.holding = some id
  · obtain ⟨handle, locked, holds⟩ := serves.holdsOf holding found
    have table : locked.table = p.table := holds.ready.table.trans serves.table.symm
    simp only [Pool.call, if_pos holding, Disk.lastReserved, holds.loaded, table]
    exact wentUnmoved serves found
  · have unlocked : (h.volume.disk network store).store.locked = none :=
      serves.unlocked found holding
    simp only [Pool.call, if_neg holding, Disk.lastReserved, unlocked]
    exact wentUnmoved serves found

end Steps
end AddressPool.Session
