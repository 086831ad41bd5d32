import AddressPool.Proofs.Allocator.Request
import AddressPool.Proofs.Store.Agreement
import AddressPool.Proofs.Store.Folding

/-! A lock section that records at most one change, on files of any origin. Writing and syncing the
journal may fail, and so may every step of a compaction; whatever is answered, the next section
begins with the table of before, or with the change made if the answer says so. A change that is
made after the last of all numbers may leave files with which no section begins. -/
namespace AddressPool
open Journal Bytes

/-- Only the writing and syncing of entries and the compaction may fail. -/
def Folder.Careful (d : Folder) : Prop :=
  d.ObeysIn [.makeFolder, .openLock, .openJournal, .repair, .syncRepair, .rollBack, .syncRollBack]

theorem Folder.Careful.mends {d : Folder} (careful : d.Careful) : d.Mends :=
  careful.fewer (by decide)

/-- A value means that the change it stands for has been made, a fault that nothing has. `leaves`
says what table a state leaves behind. -/
def Settles {α σ : Type} (leaves : σ → Table → Prop) (before : Table) (change : α → Table → Prop) :
    Except Fault α × σ → Prop
  | (.ok value, u) => ∃ table, change value table ∧ leaves u table
  | (.error _, u) => leaves u before

theorem Settles.imp {α σ : Type} {leaves weaker : σ → Table → Prop} {before : Table}
    {change : α → Table → Prop} {outcome : Except Fault α × σ}
    (settles : Settles leaves before change outcome)
    (weaken : ∀ u table, leaves u table → weaker u table) :
    Settles weaker before change outcome := by
  rcases outcome with ⟨fault | value, u⟩
  · exact weaken u before settles
  · obtain ⟨table, changed, left⟩ := settles
    exact ⟨table, changed, weaken u table left⟩

theorem Settles.leased {σ : Type} [Store σ] {leaves : σ → Table → Prop} {before : Table}
    {change : Address → Table → Prop} {r : Allocator} {owner : String} {s : σ}
    (settles : Settles leaves before change (Store.whileLocked (r.pick owner) s)) :
    Settles leaves before (fun lease => change lease.address) (r.allocate owner s) := by
  simp only [Allocator.allocate]
  generalize Store.whileLocked (r.pick owner) s = outcome at settles ⊢
  rcases outcome with ⟨fault | a, u⟩
  · exact settles
  · exact settles

def Grants (before : Table) (owner : String) (lease : Lease) (table : Table) : Prop :=
  before.owner? lease.address = none ∧ table = before.put lease.address owner

def Frees (before : Table) (owner : String) (_ : Unit) (table : Table) : Prop :=
  table = before.freeAll (before.addressesOf owner)

namespace Disk

variable {s t u : Disk} {handle : Folder.LockHandle} {before held : LockedState} {i : Image}
variable {c : Course} {synced number : Nat} {table : Table}

/-- The next to take the lock rebuilds this table, be it this store or another one on the same lock
file. -/
def Offers (s : Disk) (table : Table) : Prop :=
  ∃ node id, s.store.handle = some ⟨node, id⟩ ∧ s.store.locked = none ∧
    ∀ path settings other, ∃ held t,
      lock ⟨⟨path, settings, some ⟨node, other⟩, none⟩, s.folder⟩ = (.ok (), t) ∧
      t.store.locked = some held ∧ held.table = table

def Refuses (s : Disk) : Prop :=
  ∃ node id last, s.store.handle = some ⟨node, id⟩ ∧ s.store.locked = none ∧
    ∀ path settings other,
      (lock ⟨⟨path, settings, some ⟨node, other⟩, none⟩, s.folder⟩).1 =
        .error (.damage (.journal (.backwards 0 last)))

/-- The last of all numbers had been given before the change was made, and the change is in the
journal still. -/
structure Spent (before : LockedState) (d : Folder) (table : Table) : Prop where
  last : before.writer.written.lsn + 1 = space 8
  changed : table ≠ before.table
  entry : ∃ bytes covered, d.files .journal = some (bytes, covered) ∧ bytes ≠ []

/-- The table is there for the next to take the lock, or it is `Spent` and nobody gets the lock. -/
def Leaves (before : LockedState) (s : Disk) (table : Table) : Prop :=
  (¬ Spent before s.folder table → s.Offers table) ∧ (Spent before s.folder table → s.Refuses)

structure Unheld (s : Disk) (handle : Folder.LockHandle) : Prop where
  opened : s.store.handle = some handle
  unlocked : s.store.locked = none
  bound : s.folder.names .lock = some handle.node
  free : s.folder.holder? handle.node = none
  tidy : s.folder.Tidy
  careful : s.folder.Careful

structure Rests (s : Disk) (handle : Folder.LockHandle) (table : Table) (number : Nat) : Prop
    extends Unheld s handle where
  loads : ∃ path policy held d, DiskStore.load path policy s.folder = (.ok held, d) ∧
    held.table = table ∧ held.writer.written.lsn ≤ number

structure Spoiled (s : Disk) (handle : Folder.LockHandle) : Prop extends Unheld s handle where
  files : ∃ last, s.folder.files.Backwards last

def Stays (before : LockedState) (handle : Folder.LockHandle) (s : Disk) (table : Table) : Prop :=
  (¬ Spent before s.folder table → Rests s handle table (before.writer.written.lsn + 1)) ∧
    (Spent before s.folder table → Spoiled s handle)

structure Holding (s : Disk) (handle : Folder.LockHandle) : Prop where
  opened : s.store.handle = some handle
  bound : s.folder.names .lock = some handle.node
  holder : s.folder.holder? handle.node = some handle.id
  careful : s.folder.Careful

theorem Holding.within (holding : Holding s handle) (within : Within s t) : Holding t handle where
  opened := within.opened.trans holding.opened
  bound := within.follows.lock.trans holding.bound
  holder := (within.holders _).trans holding.holder
  careful := holding.careful.same within.follows.fate

theorem Rests.later {more : Nat} (rests : Rests s handle table number) (less : number ≤ more) :
    Rests s handle table more where
  toUnheld := rests.toUnheld
  loads := by
    obtain ⟨path, policy, held, d, loads, same, low⟩ := rests.loads
    exact ⟨path, policy, held, d, loads, same, Nat.le_trans low less⟩

theorem Rests.moved {next : Folder.LockHandle} (rests : Rests s handle table number)
    (unheld : Unheld t next) (files : t.folder.files = s.folder.files) :
    Rests t next table number where
  toUnheld := unheld
  loads := by
    obtain ⟨path, policy, held, d, loads, rfl, low⟩ := rests.loads
    obtain ⟨again, e, loaded, same, number⟩ := DiskStore.loadAlike rests.tidy unheld.tidy files
      (unheld.careful.fewer (by decide)) loads path policy
    exact ⟨path, policy, again, e, loaded, same, number ▸ low⟩

theorem Rests.locks (rests : Rests s handle table number) :
    ∃ held t, s.lock = (.ok (), t) ∧ t.store.locked = some held ∧ held.table = table ∧
      held.writer.written.lsn ≤ number := by
  obtain ⟨_, _, held, d, loads, rfl, low⟩ := rests.loads
  obtain ⟨e, took, relocked⟩ := Folder.takeLockFree rests.tidy rests.bound rests.free
  obtain ⟨again, f, loaded, same, lsn⟩ := DiskStore.loadAlike rests.tidy relocked.tidy relocked.files
    ((rests.careful.same relocked.fate).fewer (by decide)) loads s.store.path s.store.settings.policy
  refine ⟨again, s.withLocked (some again) f, ?_, rfl, same, lsn ▸ low⟩
  simp only [lock, isLocked, rests.unlocked, Option.isSome_none, rests.opened, took, loaded]
  rfl

theorem Rests.offers (rests : Rests s handle table number) : Offers s table := by
  refine ⟨handle.node, handle.id, rests.opened, rests.unlocked, ?_⟩
  intro path settings other
  have unheld : Unheld ⟨⟨path, settings, some ⟨handle.node, other⟩, none⟩, s.folder⟩
      ⟨handle.node, other⟩ := ⟨rfl, rfl, rests.bound, rests.free, rests.tidy, rests.careful⟩
  obtain ⟨held, t, locks, loaded, same, _⟩ := (rests.moved unheld rfl).locks
  exact ⟨held, t, locks, loaded, same⟩

theorem Spoiled.refuses (spoiled : Spoiled s handle) : Refuses s := by
  obtain ⟨last, back⟩ := spoiled.files
  refine ⟨handle.node, handle.id, last, spoiled.opened, spoiled.unlocked, ?_⟩
  intro path settings other
  obtain ⟨d, took, relocked⟩ : ∃ d, s.folder.takeLock ⟨handle.node, other⟩ = (true, d) ∧
      s.folder.Relocked d handle.node (some other) :=
    Folder.takeLockFree spoiled.tidy spoiled.bound spoiled.free
  rw [← relocked.files] at back
  simp only [lock, isLocked, Option.isSome_none, Bool.false_eq_true, if_false, took,
    DiskStore.loadBackwards path settings.policy relocked.tidy back]

theorem Stays.leaves (stays : Stays before handle s table) : Leaves before s table :=
  ⟨fun unspent => (stays.1 unspent).offers, fun spent => (stays.2 spent).refuses⟩

theorem Spoiled.moved {next : Folder.LockHandle} (spoiled : Spoiled s handle)
    (unheld : Unheld t next) (files : t.folder.files = s.folder.files) : Spoiled t next :=
  ⟨unheld, files ▸ spoiled.files⟩

theorem Stays.unlocked (stays : Stays before handle s table) : s.store.locked = none :=
  (Classical.em (Spent before s.folder table)).elim (fun spent => (stays.2 spent).unlocked)
    fun unspent => (stays.1 unspent).unlocked

theorem Rests.stays (rests : Rests s handle table (before.writer.written.lsn + 1))
    (unspent : ¬ Spent before s.folder table) : Stays before handle s table :=
  ⟨fun _ => rests, fun spent => absurd spent unspent⟩

theorem Unheld.takes (unheld : Unheld s handle) (locks : s.lock = (.ok (), t))
    (loaded : t.store.locked = some before) :
    Rests s handle before.table before.writer.written.lsn ∧ Holding t handle ∧
      ∃ i synced, Keeps t before i ⟨[], [], synced⟩ := by
  obtain ⟨i, synced, keeps, fate⟩ := lockKeeps unheld.unlocked unheld.tidy locks loaded
  obtain ⟨other, d, e, opened, took, load, rfl⟩ := lockLoads unheld.unlocked locks loaded
  obtain rfl : other = handle := Option.some.inj (opened.symm.trans unheld.opened)
  obtain ⟨f, taken, relocked⟩ := Folder.takeLockFree unheld.tidy unheld.bound unheld.free
  obtain rfl : f = d := congrArg Prod.snd (taken.symm.trans took)
  obtain ⟨_, _, _, _, _, _, _, effect⟩ := DiskStore.loadFound relocked.tidy load
  refine ⟨⟨unheld, ?_⟩, ⟨opened, ?_, ?_, unheld.careful.same fate⟩, i, synced, keeps⟩
  · obtain ⟨again, g, reloaded, same, lsn⟩ := DiskStore.loadAlike relocked.tidy unheld.tidy
      relocked.files.symm (unheld.careful.fewer (by decide)) load s.store.path s.store.settings.policy
    exact ⟨_, _, again, g, reloaded, same, Nat.le_of_eq lsn⟩
  · exact (effect.lock.trans relocked.lock).trans unheld.bound
  · exact (effect.holders _).trans relocked.holder

def Ends {α : Type} (t : Disk) (before : LockedState) (i : Image) (synced : Nat)
    (change : α → Table → Prop) : Except Fault α × Disk → Prop
  | (.ok value, u) => Within t u ∧
      ((∃ held c, Keeps u held i c ∧ c.appended.length ≤ 1 ∧ change value held.table) ∨
        ∃ operation, Overran t before i ⟨[], [], synced⟩ operation u ∧
          before.table.apply operation ≠ before.table ∧
          change value (before.table.apply operation))
  | (.error _, u) => ∃ held c, Keeps u held i c ∧ Within t u ∧ c.appended = []

section Calls

variable (keeps : Keeps t before i ⟨[], [], synced⟩) (mends : t.folder.Mends)
include keeps mends

theorem recordEnds {operation : Operation} (new : before.table.apply operation ≠ before.table) :
    Ends t before i synced (fun _ table => table = before.table.apply operation)
      (t.record before operation (before.table.apply operation)) := by
  obtain ⟨table, _, _⟩ := keeps.began
  obtain ⟨result, u, recorded, within, ⟨held, after, kept, moves⟩ | ⟨done, overran⟩⟩ :=
    recordWrites keeps mends operation
  · have replayed : held.table = before.table.applyAll (after.appended.map Entry.operation) := by
      rw [kept.table, Image.tableAdd kept.stands.continues, table]
    rw [recorded]
    cases moves with
    | flushed e made | pending e made =>
      refine ⟨within, .inl ⟨held, _, kept, Nat.le_refl 1, replayed.trans ?_⟩⟩
      exact congrArg before.table.apply made
    | refused large => exact ⟨held, _, kept, within, rfl⟩
    | undone fault fails => exact ⟨held, _, kept, within, rfl⟩
  · rw [recorded, done]
    exact ⟨within, .inr ⟨operation, overran, new, rfl⟩⟩

theorem reserveEnds (owner : String) {a : Address} (unowned : before.table.owner? a = none) :
    Ends t before i synced (fun done table => done = true ∧ table = before.table.put a owner)
      (t.reserve owner a) := by
  have applied := Table.applyReserve unowned owner
  have ends := recordEnds keeps mends (applied ▸ Table.putDiffers unowned owner)
  simp only [reserve, keeps.loaded, Table.tryReserveFree unowned]
  rw [applied] at ends
  generalize t.record before (.reserve a owner) (before.table.put a owner) = outcome at ends ⊢
  rcases outcome with ⟨fault | done, u⟩
  · exact ends
  · obtain ⟨within, ⟨held, c, kept, short, table⟩ | ⟨operation, overran, new, table⟩⟩ := ends
    · exact ⟨within, .inl ⟨held, c, kept, short, rfl, table⟩⟩
    · exact ⟨within, .inr ⟨operation, overran, new, rfl, table⟩⟩

theorem releaseEnds (owner : String) :
    Ends t before i synced (Frees before.table owner) (t.releaseOwner owner) := by
  simp only [releaseOwner, keeps.loaded]
  split
  · next none =>
    refine ⟨.refl t, .inl ⟨before, _, keeps, Nat.zero_le 1, ?_⟩⟩
    rw [Frees, none]
    rfl
  · next some =>
    have applied := Table.applyRelease keeps.indexes owner
    obtain ⟨a, member⟩ := List.exists_mem_of_ne_nil _ some
    have new := Table.freeAllDiffers member ((Table.memAddressesOf keeps.indexes a owner).mp member)
    rw [← applied] at new
    have ends := recordEnds keeps mends new
    rwa [applied] at ends

omit mends in
theorem steadyLocked : Allocator.Steady t before.table where
  marker := by simp only [Store.lastReserved, lastReserved, keeps.loaded]
  owned owner a owned := by
    simp only [Store.reserve, reserve, keeps.loaded, Table.tryReserveOwned owned]
  free owner a unowned := by
    simp only [Store.reserve, reserve, keeps.loaded, Table.tryReserveFree unowned]
    split <;> simp

theorem pickEnds (r : Allocator) (owner : String) :
    Ends t before i synced
      (fun a table => before.table.owner? a = none ∧ table = before.table.put a owner)
      (r.pick owner t) := by
  have once := Allocator.pickOnce r owner (steadyLocked keeps)
  generalize r.pick owner t = outcome at once
  cases once with
  | none fault => exact ⟨before, _, keeps, .refl t, rfl⟩
  | failed unowned called =>
    have ends := reserveEnds keeps mends owner unowned
    rwa [show t.reserve owner _ = _ from called] at ends
  | reserved unowned called =>
    have ends := reserveEnds keeps mends owner unowned
    rw [show t.reserve owner _ = _ from called] at ends
    obtain ⟨within, ⟨held, c, kept, short, _, table⟩ | ⟨operation, overran, new, _, table⟩⟩ := ends
    · exact ⟨within, .inl ⟨held, c, kept, short, unowned, table⟩⟩
    · exact ⟨within, .inr ⟨operation, overran, new, unowned, table⟩⟩

end Calls
section Unlocking

theorem dropUnheld (holding : Holding s handle) {e : Folder}
    (effect : Folder.Effect s.folder e e.files) (opened : u.store.handle = some handle) :
    Unheld (u.withLocked none (e.dropLock handle)) handle ∧
      (u.withLocked none (e.dropLock handle)).folder.files = e.files := by
  have relocked := Folder.dropLockHeld effect.tidy (effect.lock.trans holding.bound)
    ((effect.holders _).trans holding.holder)
  refine ⟨⟨opened, rfl, ?_, relocked.holder, relocked.tidy, ?_⟩, relocked.files⟩
  · exact relocked.lock.trans (effect.lock.trans holding.bound)
  · exact holding.careful.same (relocked.fate.trans effect.fate)

theorem dropRests (holding : Holding s handle) {e : Folder} (preserves : Preserves s.folder e i)
    (opened : u.store.handle = some handle) :
    Rests (u.withLocked none (e.dropLock handle)) handle i.table i.lsn := by
  obtain ⟨effect, j, covered, valid, shows, table, lsn⟩ := preserves
  obtain ⟨unheld, files⟩ := dropUnheld holding effect opened
  rw [← files] at shows
  obtain ⟨node, f, loaded, _⟩ := DiskStore.loadShown s.store.path s.store.settings.policy
    unheld.tidy valid shows (unheld.careful.fewer (by decide))
  exact ⟨unheld, _, _, _, f, loaded, table, Nat.le_of_eq lsn⟩

theorem unlockRests (keeps : Keeps u held i c) (holding : Holding u handle)
    (short : c.appended.length ≤ 1) (size : held.table.size < space 8) :
    (∃ v, u.unlock = (.ok (), v) ∧ Rests v handle held.table (i.add c.appended).lsn) ∨
      ∃ fault v, u.unlock = (.error fault, v) ∧ ¬ u.folder.Obeys ∧ c.appended ≠ [] ∧
        Rests v handle i.table i.lsn := by
  rw [unlockPersists keeps.loaded holding.opened]
  rcases persistImage keeps holding.careful.mends u.store.settings.threshold size with
    ⟨e, persisted, preserves, _⟩ | ⟨fault, e, failed, fails, some, preserves⟩
  · rw [persisted, keeps.table]
    exact .inl ⟨_, rfl, dropRests holding preserves holding.opened⟩
  · -- The sync that failed was for the one entry, so cutting it off leaves nothing of the section.
    have alone : c.settled = [] := by
      have pending := List.length_pos_iff.mpr some
      rw [Course.appended, List.length_append] at short
      exact List.eq_nil_of_length_eq_zero (by omega)
    rw [alone, Image.addNothing] at preserves
    rw [failed]
    refine .inr ⟨fault, _, rfl, fails, ?_, dropRests holding preserves holding.opened⟩
    exact List.append_ne_nil_of_right_ne_nil c.settled some

theorem unlockOverran {operation : Operation} (keeps : Keeps t before i ⟨[], [], synced⟩)
    (holding : Holding t handle) (within : Within t u)
    (overran : Overran t before i ⟨[], [], synced⟩ operation u)
    (size : (before.table.apply operation).size < space 8) :
    (∃ v, u.unlock = (.ok (), v) ∧
        (Spoiled v handle ∨ v.folder.files .journal = some ([], 0) ∧
          Rests v handle (before.table.apply operation) 0)) ∨
      ∃ fault v, u.unlock = (.error fault, v) ∧ Rests v handle i.table i.lsn := by
  have opened : u.store.handle = some handle := within.opened.trans holding.opened
  obtain ⟨held, loaded, ⟨e, done, effect, left⟩ | ⟨fault, e, failed, preserves⟩⟩ :=
    persistOverran keeps holding.careful.mends overran u.store.settings.threshold size
  · rw [unlockPersists loaded opened, done]
    refine .inl ⟨_, rfl, ?_⟩
    obtain ⟨unheld, files⟩ := dropUnheld holding effect opened
    rcases left with back | ⟨empty, preserves⟩
    · exact .inl ⟨unheld, files ▸ back⟩
    · exact .inr ⟨files ▸ empty, dropRests holding preserves opened⟩
  · rw [unlockPersists loaded opened, failed]
    rw [Image.addNothing] at preserves
    exact .inr ⟨fault, _, rfl, dropRests holding preserves opened⟩

theorem Rests.reads (rests : Rests s handle table number) (size : table.size < space 8) :
    (Store.whileLocked (fun s : Disk => (s.reservations, s)) s).1 = .ok table.toList := by
  obtain ⟨held, t, locks, loaded, rfl, _⟩ := rests.locks
  obtain ⟨_, holding, i, synced, keeps⟩ := rests.toUnheld.takes locks loaded
  have read : t.reservations = .ok held.table.toList := by simp only [reservations, loaded]
  rcases unlockRests keeps holding (Nat.zero_le 1) size with
    ⟨v, done, _⟩ | ⟨fault, v, _, _, some, _⟩
  · simp only [Store.whileLocked, show Store.lock s = _ from locks, read,
      show Store.unlock t = _ from done]
  · exact absurd rfl some

theorem oneMore (keeps : Keeps t before i ⟨[], [], synced⟩) (kept : Keeps u held i c)
    (short : c.appended.length ≤ 1) (size : before.table.size + 1 < space 8) :
    held.table.size < space 8 ∧ (i.add c.appended).lsn ≤ before.writer.written.lsn + 1 ∧
      (before.writer.written.lsn + 1 = space 8 → held.table = before.table) := by
  obtain ⟨table, written, _⟩ := keeps.began
  have lsn := Image.lsnAdd kept.stands.continues
  have numbered := kept.stands.numbered
  have replayed := Image.tableAdd kept.stands.continues
  have grown := Table.sizeApplyAll i.table (c.appended.map Entry.operation)
  rw [← replayed, ← kept.table, List.length_map, ← table] at grown
  rw [written]
  refine ⟨by omega, by simp only [Image.mark]; omega, fun last => ?_⟩
  have none : c.appended = [] := by
    simp only [Image.mark] at last
    exact List.eq_nil_of_length_eq_zero (by omega)
  rw [kept.table, none, Image.addNothing, table]

variable (unheld : Unheld s handle) (locks : s.lock = (.ok (), t))
variable (loaded : t.store.locked = some before) (size : before.table.size + 1 < space 8)
include unheld locks loaded size

theorem whileLockedSettles {α : Type} (body : Disk → Except Fault α × Disk)
    (change : α → Table → Prop)
    (ends : ∀ {i synced}, Keeps t before i ⟨[], [], synced⟩ → t.folder.Mends →
      Ends t before i synced change (body t)) :
    Settles (Stays before handle) before.table change (Store.whileLocked body s) := by
  obtain ⟨_, holding, i, synced, keeps⟩ := unheld.takes locks loaded
  obtain ⟨table, written, _⟩ := keeps.began
  have lsn : i.lsn ≤ before.writer.written.lsn + 1 := by
    rw [written]
    exact Nat.le_succ _
  have back {v : Disk} (rests : Rests v handle i.table i.lsn) : Stays before handle v before.table :=
    ((table ▸ rests).later lsn).stays fun spent => spent.changed rfl
  have ended := ends keeps holding.careful.mends
  simp only [Store.whileLocked, show Store.lock s = (.ok (), t) from locks]
  generalize body t = outcome at ended ⊢
  rcases outcome with ⟨fault | value, u⟩
  · obtain ⟨held, c, kept, within, nothing⟩ := ended
    have short : c.appended.length ≤ 1 := by rw [nothing]; exact Nat.zero_le 1
    obtain ⟨sized, _, _⟩ := oneMore keeps kept short size
    rcases unlockRests kept (holding.within within) short sized with
      ⟨v, done, rests⟩ | ⟨other, v, failed, _, some, _⟩
    · simp only [show Store.unlock u = (.ok (), v) from done]
      rw [kept.table, nothing, Image.addNothing] at rests
      exact back rests
    · exact absurd nothing some
  · obtain ⟨within, ⟨held, c, kept, short, changed⟩ | ⟨operation, overran, new, changed⟩⟩ := ended
    · obtain ⟨sized, next, last⟩ := oneMore keeps kept short size
      rcases unlockRests kept (holding.within within) short sized with
        ⟨v, done, rests⟩ | ⟨other, v, failed, _, _, rests⟩
      · simp only [show Store.unlock u = (.ok (), v) from done]
        exact ⟨held.table, changed,
          (rests.later next).stays fun spent => spent.changed (last spent.last)⟩
      · simp only [show Store.unlock u = (.error other, v) from failed]
        exact back rests
    · have sized := Nat.lt_of_le_of_lt (Table.sizeApply before.table operation) size
      rcases unlockOverran keeps holding within overran sized with
        ⟨v, done, spoiled | ⟨empty, rests⟩⟩ | ⟨other, v, failed, rests⟩
      · simp only [show Store.unlock u = (.ok (), v) from done]
        obtain ⟨_, behind⟩ := spoiled.files
        have spent : Spent before v.folder (before.table.apply operation) :=
          ⟨keeps.number ▸ overran.last, new, behind.entry⟩
        exact ⟨_, changed, fun unspent => absurd spent unspent, fun _ => spoiled⟩
      · simp only [show Store.unlock u = (.ok (), v) from done]
        refine ⟨_, changed, (rests.later (Nat.zero_le _)).stays fun spent => ?_⟩
        obtain ⟨bytes, covered, file, there⟩ := spent.entry
        rw [empty] at file
        cases file
        exact there rfl
      · simp only [show Store.unlock u = (.error other, v) from failed]
        exact back rests

theorem allocateSettles (r : Allocator) (owner : String) :
    Settles (Stays before handle) before.table (Grants before.table owner) (r.allocate owner s) :=
  Settles.leased (whileLockedSettles unheld locks loaded size (r.pick owner) _
    fun keeps mends => pickEnds keeps mends r owner)

theorem releaseSettles (r : Allocator) (owner : String) :
    Settles (Stays before handle) before.table (Frees before.table owner) (r.release owner s) :=
  whileLockedSettles unheld locks loaded size (Store.releaseOwner owner) _
    fun keeps mends => releaseEnds keeps mends owner

end Unlocking

theorem Rests.settles (rests : Rests s handle table number) (few : number + 1 < space 8)
    (size : table.size + 1 < space 8) {α : Type} (body : Disk → Except Fault α × Disk)
    (change : α → Table → Prop)
    (ends : ∀ {t before i synced}, before.table = table → Keeps t before i ⟨[], [], synced⟩ →
      t.folder.Mends → Ends t before i synced change (body t)) :
    Settles (Rests · handle · (number + 1)) table change (Store.whileLocked body s) := by
  obtain ⟨held, t, locks, loaded, rfl, low⟩ := rests.locks
  have settles := whileLockedSettles rests.toUnheld locks loaded size body change
    fun keeps mends => ends rfl keeps mends
  refine settles.imp fun u table stays => ?_
  have unspent : ¬ Spent held u.folder table := fun spent => by
    have last := spent.last
    omega
  exact (stays.1 unspent).later (Nat.succ_le_succ low)

section Requests

variable (few : number + 1 < space 8) (size : table.size ≤ number)
variable (rests : Rests s handle table number) (r : Allocator) (owner : String)
include few size rests

theorem Rests.grants :
    Settles (Rests · handle · (number + 1)) table (Grants table owner) (r.allocate owner s) := by
  have settles := rests.settles few (by omega) (r.pick owner)
    (fun a after => table.owner? a = none ∧ after = table.put a owner) ?_
  · exact settles.leased
  · rintro t before i synced rfl keeps mends
    exact pickEnds keeps mends r owner

theorem Rests.frees :
    Settles (Rests · handle · (number + 1)) table (Frees table owner) (r.release owner s) := by
  refine rests.settles few (by omega) (Store.releaseOwner owner) _ ?_
  rintro t before i synced rfl keeps mends
  exact releaseEnds keeps mends owner

end Requests
end Disk
namespace Memory

variable (t : Table) (r : Allocator) (owner : String)

theorem grants : Settles (fun u table => u = Memory.mk false ⟨false, table⟩) t (Grants t owner)
    (r.allocate owner (Memory.mk false ⟨false, t⟩)) := by
  have locked : Store.lock (Memory.mk false ⟨false, t⟩) = (.ok (), ⟨true, ⟨true, t⟩⟩) := rfl
  have settles : Settles (fun u table => u = Memory.mk false ⟨false, table⟩) t
      (fun a table => t.owner? a = none ∧ table = t.put a owner)
      (Store.whileLocked (r.pick owner) (Memory.mk false ⟨false, t⟩)) := by
    have once := Allocator.pickOnce r owner (steady t)
    simp only [Store.whileLocked, locked]
    generalize r.pick owner (Memory.mk true ⟨true, t⟩) = outcome at once
    cases once with
    | none fault => rfl
    | failed unowned called =>
      simp [Store.reserve, reserve] at called
    | @reserved a u unowned called =>
      simp only [Store.reserve, reserve, Table.tryReserveFree unowned, if_true] at called
      obtain rfl := (Prod.mk.inj called).2
      exact ⟨t.put a owner, ⟨unowned, rfl⟩, rfl⟩
  exact settles.leased

theorem frees : Settles (fun u table => u = Memory.mk false ⟨false, table⟩) t (Frees t owner)
    (r.release owner (Memory.mk false ⟨false, t⟩)) := ⟨_, rfl, rfl⟩

end Memory

variable {before table : Table} {owner : String}

theorem grantsSize {lease : Lease} (grants : Grants before owner lease table) :
    table.size ≤ before.size + 1 := by
  rw [grants.2]
  exact Table.sizePut before lease.address owner

theorem freesSize {done : Unit} (frees : Frees before owner done table) :
    table.size ≤ before.size + 1 := by
  rw [Frees] at frees
  rw [frees]
  exact Nat.le_succ_of_le (Table.sizeFreeAll before _)

end AddressPool
