import AddressPool.Proofs.Store.Sparing
import AddressPool.Store.Memory

/-! What one call makes of the lock. Only lock, unlock and close pass it on, whatever the files hold
and however the calls to the folder end; a store has it exactly while it is locked. -/
namespace AddressPool

namespace Disk

variable {s t : Disk} {handle : Folder.LockHandle}

def Owns (s : Disk) : Prop :=
  ∃ handle, s.store.handle = some handle ∧ s.folder.holder? handle.node = some handle.id

structure Honest (s : Disk) : Prop where
  owns : s.isLocked = true ↔ s.Owns
  there : ∀ handle, s.store.handle = some handle → handle.node < s.folder.nodes.length

structure Turns (s t : Disk) : Prop where
  lock : t.folder.names .lock = s.folder.names .lock
  handles : t.folder.handles = s.folder.handles
  nodes : s.folder.nodes.length ≤ t.folder.nodes.length
  handle : t.store.handle = s.store.handle ∨ t.store.handle = none
  opened : t.isLocked = true → t.store.handle ≠ none
  holders : ∀ node id, t.folder.holder? node = some id ↔
    t.isLocked = true ∧ t.store.handle = some ⟨node, id⟩ ∨
      s.folder.holder? node = some id ∧ s.store.handle ≠ some ⟨node, id⟩

inductive Locking (s : Disk) : Except Fault Unit → Disk → Prop where
  | again (locked : s.isLocked = true) : Locking s (.ok ()) s
  | closed (unlocked : s.isLocked = false) (closed : s.store.handle = none) :
      Locking s (.error .closed) s
  | waits (unlocked : s.isLocked = false) (handle : Folder.LockHandle)
      (opened : s.store.handle = some handle) (other : Nat)
      (held : s.folder.holder? handle.node = some other) (apart : other ≠ handle.id) :
      Locking s (.error .held) s
  | fails (handle : Folder.LockHandle) (opened : s.store.handle = some handle)
      (free : s.folder.holder? handle.node = none) (fault : Fault) (d : Folder)
      (passes : s.folder.Passes d handle.node none) :
      Locking s (.error fault) (s.withLocked none d)
  | takes (handle : Folder.LockHandle) (opened : s.store.handle = some handle)
      (free : s.folder.holder? handle.node = none) (locked : LockedState) (d : Folder)
      (passes : s.folder.Passes d handle.node (some handle.id)) :
      Locking s (.ok ()) (s.withLocked (some locked) d)

theorem lockLocking (honest : s.Honest) : Locking s s.lock.1 s.lock.2 := by
  unfold lock
  split
  · next locked => exact .again locked
  next unlocked =>
  have unlocked : s.isLocked = false := Bool.eq_false_iff.mpr unlocked
  split
  · next closed => exact .closed unlocked closed
  next handle opened =>
  have others : s.folder.holder? handle.node ≠ some handle.id := fun held =>
    Bool.false_ne_true (unlocked.symm.trans (honest.owns.mpr ⟨handle, opened, held⟩))
  unfold Folder.takeLock
  cases held : s.folder.holder? handle.node with
  | some other =>
    have apart : other ≠ handle.id := fun same => others (same ▸ held)
    simp only [beq_eq_false_iff_ne.mpr apart]
    exact .waits unlocked handle opened other held apart
  | none =>
    have taken := Folder.setHolderPasses (honest.there handle opened) (some handle.id)
    simp only
    split
    · next locked d loaded =>
      exact .takes handle opened held locked d (taken.spares (DiskStore.loadSpares loaded))
    · next fault d loaded =>
      have kept := taken.spares (DiskStore.loadSpares loaded)
      exact .fails handle opened held fault _ (kept.trans (Folder.dropLockPasses kept.holder))

theorem unlockGives (honest : s.Honest) :
    s.isLocked = false ∧ s.unlock = (.ok (), s) ∨
    ∃ handle d, s.store.handle = some handle ∧ s.folder.holder? handle.node = some handle.id ∧
      s.unlock.2 = s.withLocked none d ∧ s.folder.Passes d handle.node none := by
  cases loaded : s.store.locked with
  | none => exact .inl ⟨by rw [isLocked, loaded]; rfl, by simp only [unlock, loaded]⟩
  | some locked =>
    obtain ⟨handle, opened, held⟩ := honest.owns.mp (by rw [isLocked, loaded]; rfl)
    let d := (DiskStore.persist s.store.settings.threshold locked s.folder).2
    have spares : s.folder.Spares d := DiskStore.persistSpares rfl
    exact .inr ⟨handle, d.dropLock handle, opened, held, by simp only [unlock, loaded, opened, d],
      spares.passes (Folder.dropLockPasses ((spares.holders handle.node).trans held))⟩

namespace Turns

theorem keeps (honest : s.Honest) (spares : s.folder.Spares t.folder)
    (handle : t.store.handle = s.store.handle) (locked : t.isLocked = s.isLocked) :
    Turns s t where
  lock := spares.lock
  handles := spares.handles
  nodes := spares.nodes
  handle := .inl handle
  opened := by
    intro now
    obtain ⟨own, opened, _⟩ := honest.owns.mp (locked ▸ now)
    rw [handle, opened]
    exact Option.some_ne_none own
  holders node id := by
    rw [spares.holders, locked, handle]
    constructor
    · intro held
      by_cases own : s.store.handle = some ⟨node, id⟩
      · exact .inl ⟨honest.owns.mpr ⟨_, own, held⟩, own⟩
      · exact .inr ⟨held, own⟩
    · rintro (⟨now, own⟩ | ⟨held, _⟩)
      · obtain ⟨_, opened, held⟩ := honest.owns.mp now
        cases Option.some.inj (own.symm.trans opened)
        exact held
      · exact held

theorem gives (opened : s.store.handle = some handle)
    (mine : ∀ id, s.folder.holder? handle.node = some id → id = handle.id)
    (passes : s.folder.Passes t.folder handle.node none)
    (kept : t.store.handle = s.store.handle ∨ t.store.handle = none)
    (unlocked : t.isLocked = false) : Turns s t where
  lock := passes.lock
  handles := passes.handles
  nodes := passes.nodes
  handle := kept
  opened now := absurd (unlocked.symm.trans now) Bool.false_ne_true
  holders node id := by
    rw [unlocked, opened]
    by_cases here : node = handle.node
    · subst here
      rw [passes.holder]
      constructor
      · exact nofun
      · rintro (⟨now, _⟩ | ⟨held, apart⟩)
        · exact absurd now Bool.false_ne_true
        · exact absurd (by rw [mine id held]) apart
    · rw [passes.others node here]
      constructor
      · intro held
        exact .inr ⟨held, fun own => here (by rw [Option.some.inj own])⟩
      · rintro (⟨now, _⟩ | ⟨held, _⟩)
        · exact absurd now Bool.false_ne_true
        · exact held

theorem takes (opened : s.store.handle = some handle)
    (free : s.folder.holder? handle.node = none)
    (passes : s.folder.Passes t.folder handle.node (some handle.id))
    (kept : t.store.handle = s.store.handle) (locked : t.isLocked = true) : Turns s t where
  lock := passes.lock
  handles := passes.handles
  nodes := passes.nodes
  handle := .inl kept
  opened _ := by
    rw [kept, opened]
    exact Option.some_ne_none handle
  holders node id := by
    rw [locked, kept, opened]
    by_cases here : node = handle.node
    · subst here
      rw [passes.holder, free]
      constructor
      · rintro ⟨⟩
        exact .inl ⟨rfl, rfl⟩
      · rintro (⟨_, own⟩ | ⟨impossible, _⟩)
        · rw [Option.some.inj own]
        · cases impossible
    · rw [passes.others node here]
      constructor
      · intro held
        exact .inr ⟨held, fun own => here (by rw [Option.some.inj own])⟩
      · rintro (⟨_, own⟩ | ⟨held, _⟩)
        · exact absurd (by rw [Option.some.inj own]) here
        · exact held

theorem still (honest : s.Honest) : Turns s s := keeps honest (.refl s.folder) rfl rfl

theorem shuts (turns : Turns s t) (unlocked : t.isLocked = false) :
    Turns s { t with store := { t.store with handle := none } } where
  lock := turns.lock
  handles := turns.handles
  nodes := turns.nodes
  handle := .inr rfl
  opened now := absurd (unlocked.symm.trans now) Bool.false_ne_true
  holders node id := by
    refine (turns.holders node id).trans ?_
    rw [unlocked, show isLocked { t with store := { t.store with handle := none } } = false from
      unlocked]
    simp

end Turns

theorem Locking.turns {result : Except Fault Unit} (honest : s.Honest)
    (locking : Locking s result t) : Turns s t := by
  cases locking with
  | again locked => exact .still honest
  | closed unlocked closed => exact .still honest
  | waits unlocked handle opened other held apart => exact .still honest
  | fails handle opened free fault d passes =>
    exact .gives opened (fun id held => nomatch free.symm.trans held) passes (.inl rfl) rfl
  | takes handle opened free locked d passes => exact .takes opened free passes rfl rfl

theorem unlockTurns (honest : s.Honest) : Turns s s.unlock.2 ∧ s.unlock.2.isLocked = false := by
  rcases unlockGives honest with ⟨unlocked, same⟩ | ⟨handle, d, opened, held, same, passes⟩
  · rw [same]
    exact ⟨.still honest, unlocked⟩
  · rw [same]
    exact ⟨.gives opened (fun id found => Option.some.inj (found.symm.trans held)) passes (.inl rfl)
      rfl, rfl⟩

theorem closeTurns (honest : s.Honest) : Turns s s.close.2 ∧ s.close.2.isLocked = false := by
  obtain ⟨turns, unlocked⟩ := unlockTurns honest
  exact ⟨turns.shuts unlocked, unlocked⟩

section Recording

variable {locked : LockedState} {owner : String} {a : Address}

theorem reloadTurns (honest : s.Honest) (spares : s.folder.Spares t.folder)
    (handle : t.store.handle = s.store.handle) (both : t.isLocked = s.isLocked)
    (locked : s.isLocked = true) : Turns s t.reload := by
  unfold reload
  split
  · exact .keeps honest (spares.trans (DiskStore.loadSpares ‹_›)) handle locked.symm
  · exact .keeps honest (spares.trans (DiskStore.loadSpares ‹_›)) handle both

theorem recordTurns (honest : s.Honest) (loaded : s.store.locked = some locked)
    (operation : Operation) (changed : Table) :
    Turns s (s.record locked operation changed).2 := by
  have present : s.isLocked = true := by
    rw [isLocked, loaded]
    rfl
  unfold record
  split
  · exact .keeps honest (Journal.Writer.appendSpares ‹_›) rfl present.symm
  · exact reloadTurns honest (Journal.Writer.appendSpares ‹_›) rfl present.symm present

theorem recordFault {operation : Operation} {changed : Table} {fault : Fault}
    (failed : (s.record locked operation changed).1 = .error fault) (call : LockedCall) :
    fault ≠ .notLocked call := by
  unfold record at failed
  split at failed
  · cases failed
  · next appended =>
    cases failed
    intro same
    rcases Journal.Writer.appendFault appended with ⟨reason, found⟩ | ⟨reason, found⟩
    · cases found.symm.trans same
    · cases found.symm.trans same

theorem reserveTurns (honest : s.Honest) : Turns s (s.reserve owner a).2 := by
  unfold reserve
  split
  · exact .still honest
  · next locked loaded =>
    split
    · exact .still honest
    · next changed _ =>
      have turns := recordTurns honest loaded (.reserve a owner) changed
      split <;> rename_i recorded <;> simpa only [recorded] using turns

theorem releaseOwnerTurns (honest : s.Honest) : Turns s (s.releaseOwner owner).2 := by
  unfold releaseOwner
  split
  · exact .still honest
  · next locked loaded =>
    split
    · exact .still honest
    · exact recordTurns honest loaded _ _

theorem lastReservedTurns (honest : s.Honest) : Turns s s.lastReserved.2 := by
  unfold lastReserved
  split <;> exact .still honest

end Recording

end Disk

namespace Memory

variable {s t : Memory}

structure Turns (s t : Memory) : Prop where
  held : t.shared.held = true ↔ t.holding = true ∨ s.shared.held = true ∧ s.holding = false
  alone : t.holding = true → s.holding = true ∨ s.shared.held = false

def Honest (s : Memory) : Prop := s.holding = true → s.shared.held = true

theorem Turns.keeps (honest : s.Honest) (held : t.shared.held = s.shared.held)
    (holding : t.holding = s.holding) : Turns s t where
  held := by
    rw [held, holding]
    constructor
    · intro now
      cases s.holding with
      | true => exact .inl rfl
      | false => exact .inr ⟨now, rfl⟩
    · rintro (now | ⟨now, _⟩)
      · exact honest now
      · exact now
  alone now := .inl (holding ▸ now)

theorem lockTurns (honest : s.Honest) : Turns s s.lock.2 := by
  unfold lock
  split
  · exact .keeps honest rfl rfl
  · split
    · exact .keeps honest rfl rfl
    · next free => exact ⟨by simp, fun _ => .inr (Bool.eq_false_iff.mpr free)⟩

theorem unlockTurns (honest : s.Honest) : Turns s s.unlock.2 ∧ s.unlock.2.holding = false := by
  unfold unlock
  split
  · next holding => exact ⟨⟨by simp [holding], nofun⟩, rfl⟩
  · next idle => exact ⟨.keeps honest rfl rfl, Bool.eq_false_iff.mpr idle⟩

theorem reserveTurns (honest : s.Honest) (owner : String) (a : Address) :
    Turns s (s.reserve owner a).2 := by
  unfold reserve
  split <;> exact .keeps honest rfl rfl

theorem releaseOwnerTurns (honest : s.Honest) (owner : String) :
    Turns s (s.releaseOwner owner).2 := by
  unfold releaseOwner
  split <;> exact .keeps honest rfl rfl

theorem lastReservedTurns (honest : s.Honest) : Turns s s.lastReserved.2 := by
  unfold lastReserved
  split <;> exact .keeps honest rfl rfl

end Memory
end AddressPool
