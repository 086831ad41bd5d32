import AddressPool.Proofs.Allocator.Search
import AddressPool.Proofs.Store.Atomic

/-! What a request is answered and what it leaves, by the table it finds. Without an address of its
own it gets the first address in the order of turns that nobody owns, or hears that all are owned;
an address asked for is refused or leased by the table alone. No call of the store fails. -/
namespace AddressPool
open Bytes

namespace Allocator

def HasTurn (r : Allocator) (t : Table) (a : Address) : Prop :=
  r.range.contains a = true ∧ a ≠ r.gateway ∧ t.marker ≠ some a

def grant (r : Allocator) (t : Table) (a : Address) : Except Fault Address :=
  if a = r.gateway then .error (.requestedGateway r.gateway)
  else if r.network.subnet.contains a = false then
    .error (.requestedOutside a r.network.subnet)
  else if t.owner? a ≠ none then .error (.unavailable a r.network.name)
  else .ok a

def Decides (r : Allocator) (t : Table) (choice : Except Fault Address) : Prop :=
  match r.network.requested with
  | some a => choice = r.grant t a
  | none =>
      match choice with
      | .ok a => r.HasTurn t a ∧ t.owner? a = none ∧
          ∀ b, r.HasTurn t b → t.owner? b = none → b = a ∨ r.range.Earlier t.marker a b
      | .error fault => fault = .exhausted r.network.name ∧ ∀ a, r.HasTurn t a → t.owner? a ≠ none

def Changes (before : Table) (owner : String) (choice : Except Fault Address) (after : Table) :
    Prop :=
  match choice with
  | .ok a => after = before.put a owner ∧ after.marker = some a ∧
      ∀ b, after.owner? b = if a = b then some owner else before.owner? b
  | .error _ => after = before

section Choice

variable {r : Allocator} {t : Table} {a : Address} {choice other : Except Fault Address}

theorem decidesOnce (first : r.Decides t choice) (second : r.Decides t other) :
    other = choice := by
  unfold Decides at first second
  split at first
  · next asked =>
    rw [asked] at second
    exact second.trans first.symm
  · next unasked =>
    rw [unasked] at second
    rcases choice with fault | a <;> rcases other with fault' | b
    · rw [first.1, second.1]
    · exact absurd second.2.1 (first.2 b second.1)
    · exact absurd first.2.1 (second.2 a first.1)
    · obtain ⟨turn, unowned, soonest⟩ := first
      obtain ⟨turn', unowned', soonest'⟩ := second
      rcases soonest b turn' unowned' with rfl | earlier
      · rfl
      rcases soonest' a turn unowned with rfl | later
      · rfl
      · exact absurd later earlier.asymm

theorem vacantIff : r.vacant t a = true ↔ a ≠ r.gateway ∧ t.owner? a = none := decide_eq_true_iff

def verdict (r : Allocator) (t : Table) : Except Fault Address :=
  match r.network.requested with
  | some a => r.grant t a
  | none =>
      match r.nextFree t with
      | some a => .ok a
      | none => .error (.exhausted r.network.name)

theorem verdictDecides (bounded : r.range.Bounded) (t : Table) : r.Decides t (r.verdict t) := by
  have turn (a : Address) : r.HasTurn t a ↔ a ∈ r.range.turns t.marker ∧ a ≠ r.gateway := by
    rw [HasTurn, Range.turnsIff bounded]
    tauto
  unfold Decides verdict
  cases r.network.requested with
  | some a => rfl
  | none =>
    cases next : r.nextFree t with
    | none =>
      refine ⟨rfl, fun a mine unowned => ?_⟩
      obtain ⟨member, apart⟩ := (turn a).mp mine
      exact List.find?_eq_none.mp next a member (vacantIff.mpr ⟨apart, unowned⟩)
    | some a =>
      obtain ⟨apart, unowned⟩ := vacantIff.mp (List.find?_some next)
      refine ⟨(turn a).mpr ⟨List.mem_of_find?_eq_some next, apart⟩, unowned, ?_⟩
      intro b mine free
      obtain ⟨member, differ⟩ := (turn b).mp mine
      exact soonest (Range.turnsEarlier bounded t.marker) next member (vacantIff.mpr ⟨differ, free⟩)

theorem verdictUnowned (bounded : r.range.Bounded) (chosen : r.verdict t = .ok a) :
    t.owner? a = none := by
  unfold verdict at chosen
  split at chosen
  · unfold grant at chosen
    split at chosen
    · contradiction
    split at chosen
    · contradiction
    split at chosen
    · contradiction
    next free =>
      cases chosen
      exact not_not.mp free
  · split at chosen
    · next next =>
      cases chosen
      exact (nextFreeVacant bounded next).2
    · contradiction

end Choice
section Willing

variable {σ : Type} [Store σ] {s u : σ} {t : Table} {r : Allocator}
variable {takes : Operation → Prop} {leaves : σ → Table → Prop}

structure Willing (s : σ) (t : Table) (takes : Operation → Prop) (leaves : σ → Table → Prop) :
    Prop where
  begins : ∃ u, Store.lock s = (.ok (), u) ∧ Steady u t ∧
    (∃ v, Store.unlock u = (.ok (), v) ∧ leaves v t) ∧
    ∀ owner a, t.owner? a = none → takes (.reserve a owner) →
      ∃ v w, Store.reserve owner a u = (.ok true, v) ∧ Store.unlock v = (.ok (), w) ∧
        leaves w (t.put a owner)

def perform (owner : String) (u : σ) : Except Fault Address → Except Fault Address × σ
  | .error fault => (.error fault, u)
  | .ok a =>
      match Store.reserve owner a u with
      | (.error fault, u) => (.error fault, u)
      | (.ok _, u) => (.ok a, u)

theorem takePerforms (steady : Steady u t) (owner : String) (a : Address) :
    r.take owner a u = perform owner u (r.grant t a) := by
  unfold take grant
  split
  · rfl
  · by_cases inside : r.network.subnet.contains a = true
    · rw [if_pos inside, if_neg (by rw [inside]; simp)]
      by_cases owned : t.owner? a ≠ none
      · rw [if_pos owned, steady.owned owner a owned]
        rfl
      · have free := steady.free owner a (not_not.mp owned)
        rw [if_neg owned, perform]
        generalize Store.reserve owner a u = outcome at free
        rcases outcome with ⟨fault | done, v⟩
        · rfl
        · cases done with
          | true => rfl
          | false => exact absurd rfl free
    · rw [if_neg inside, if_pos (by simpa using inside)]
      rfl

theorem pickPerforms (bounded : r.range.Bounded) (steady : Steady u t) (owner : String) :
    r.pick owner u = perform owner u (r.verdict t) := by
  unfold verdict
  cases asked : r.network.requested with
  | some a =>
    rw [pick, asked]
    exact takePerforms steady owner a
  | none =>
    rw [pickTurn asked bounded steady owner]
    cases r.nextFree t with
    | none => rfl
    | some a => rfl

theorem allocateWilling (bounded : r.range.Bounded) (willing : Willing s t takes leaves)
    (owner : String) (fits : ∀ a, r.verdict t = .ok a → takes (.reserve a owner)) :
    ∃ after v, Changes t owner (r.verdict t) after ∧
      r.allocate owner s = ((r.verdict t).map r.lease, v) ∧ leaves v after := by
  obtain ⟨u, locks, steady, ⟨v, unlocks, left⟩, reserves⟩ := willing.begins
  have picked := pickPerforms bounded steady owner
  simp only [allocate, Store.whileLocked, locks, picked]
  cases chosen : r.verdict t with
  | error fault =>
    refine ⟨t, v, rfl, ?_, left⟩
    simp only [perform, unlocks]
  | ok a =>
    obtain ⟨v, w, reserved, unlocks, left⟩ :=
      reserves owner a (verdictUnowned bounded chosen) (fits a chosen)
    refine ⟨t.put a owner, w, ⟨rfl, rfl, fun b => Table.ownerPut t a b owner⟩, ?_, left⟩
    simp only [perform, reserved, unlocks]

end Willing
end Allocator

theorem Memory.willing (t : Table) :
    Allocator.Willing (Memory.mk false ⟨false, t⟩) t (fun _ => True)
      fun v table => v = Memory.mk false ⟨false, table⟩ where
  begins := by
    refine ⟨Memory.mk true ⟨true, t⟩, rfl, steady t, ⟨_, rfl, rfl⟩, ?_⟩
    intro owner a unowned _
    refine ⟨Memory.mk true ⟨true, t.put a owner⟩, _, ?_, rfl, rfl⟩
    simp [Store.reserve, reserve, Table.tryReserveFree unowned, withTable]

namespace Disk

variable {s t : Disk} {handle : Folder.LockHandle} {before : LockedState} {i : Image} {synced : Nat}

theorem recordObeyed (keeps : Keeps t before i ⟨[], [], synced⟩) (obeys : t.folder.Obeys)
    (few : before.writer.written.lsn + 1 < space 8) {operation : Operation}
    (fits : operation.Fits) :
    ∃ u, t.record before operation (before.table.apply operation) = (.ok (), u) := by
  have room : (i.add (Course.mk [] [] synced).appended).lsn + 1 < space 8 := keeps.number ▸ few
  obtain ⟨result, u, held, after, recorded, _, _, moves⟩ :=
    recordMoves keeps (obeys.obeysIn _) room operation
  cases moves with
  | flushed | pending => exact ⟨u, recorded⟩
  | refused large => exact absurd fits large
  | undone fault fails => exact absurd (obeys.obeysIn _) fails

theorem Unheld.willing (unheld : Unheld s handle) (obeys : s.folder.Obeys)
    (locks : s.lock = (.ok (), t)) (loaded : t.store.locked = some before)
    (few : before.writer.written.lsn + 1 < space 8) (size : before.table.size + 1 < space 8) :
    Allocator.Willing s before.table Operation.Fits Offers where
  begins := by
    obtain ⟨_, holding, i, synced, keeps⟩ := unheld.takes locks loaded
    have mends := holding.careful.mends
    have obeyed : t.folder.Obeys := by
      obtain ⟨_, _, _, fate⟩ := lockKeeps unheld.unlocked unheld.tidy locks loaded
      exact obeys.same fate
    -- Whatever the section has recorded, the unlock makes it the table of the next one.
    have given {u : Disk} {held : LockedState} {c : Course} (kept : Keeps u held i c)
        (within : Within t u) (short : c.appended.length ≤ 1) :
        ∃ v, Store.unlock u = (.ok (), v) ∧ Offers v held.table := by
      obtain ⟨sized, _⟩ := oneMore keeps kept short size
      rcases unlockRests kept (holding.within within) short sized with
        ⟨v, done, rests⟩ | ⟨_, _, _, fails, _⟩
      · exact ⟨v, done, rests.offers⟩
      · exact absurd (obeyed.same within.follows.fate) fails
    refine ⟨t, locks, steadyLocked keeps, given keeps (.refl t) (Nat.zero_le 1), ?_⟩
    intro owner a unowned fits
    have ends := reserveEnds keeps mends owner unowned
    obtain ⟨u, recorded⟩ := recordObeyed keeps obeyed few fits
    rw [Table.applyReserve unowned] at recorded
    have reserved : t.reserve owner a = (.ok true, u) := by
      simp only [reserve, keeps.loaded, Table.tryReserveFree unowned, recorded]
    rw [reserved] at ends
    obtain ⟨within, ⟨held, c, kept, short, _, table⟩ | ⟨_, overran, _⟩⟩ := ends
    · obtain ⟨w, unlocks, offers⟩ := given kept within short
      exact ⟨u, w, reserved, unlocks, table ▸ offers⟩
    · exact absurd (keeps.number ▸ overran.last) (Nat.ne_of_lt few)

end Disk

namespace Allocator

/-- An answer and the table afterwards are decided by the table before, over any table in memory and
over any that a folder without failures holds. -/
theorem allocateDecided {n : Network} {r : Allocator} (accepted : Allocator.ofNetwork n = .ok r)
    (less : ¬ (r.range.start.isZero ∧ r.range.stop.isZero)) (t : Table) (owner : String) :
    ∃ choice, (∀ other, r.Decides t other ↔ other = choice) ∧
      (∃ after, Changes t owner choice after ∧
        r.allocate owner (Memory.mk false ⟨false, t⟩) =
          (choice.map r.lease, Memory.mk false ⟨false, after⟩)) ∧
      ∀ (s u : Disk) (handle : Folder.LockHandle) (before : LockedState), s.Unheld handle →
        s.folder.Obeys → s.lock = (.ok (), u) → u.store.locked = some before → before.table = t →
        before.writer.written.lsn + 1 < space 8 → t.size + 1 < space 8 →
        (∀ a, choice = .ok a → Operation.Fits (.reserve a owner)) →
        ∃ after v, Changes t owner choice after ∧ r.allocate owner s = (choice.map r.lease, v) ∧
          v.Offers after := by
  have bounded : r.range.Bounded := ⟨Network.rangeFamily (networkOf accepted).2, less⟩
  have decided := verdictDecides bounded t
  refine ⟨r.verdict t, fun other => ⟨decidesOnce decided, ?_⟩, ?_, ?_⟩
  · rintro rfl
    exact decided
  · obtain ⟨after, v, changes, answered, rfl⟩ :=
      allocateWilling bounded (Memory.willing t) owner fun _ _ => trivial
    exact ⟨after, changes, answered⟩
  · rintro s u handle before unheld obeys locks loaded rfl few size fits
    exact allocateWilling bounded (unheld.willing obeys locks loaded few size) owner fits

def quartet : Allocator where
  network := ⟨"net", .around (.wrap .v4 0x0A000000) 29, none, some (.wrap .v4 0x0A000004), none, none,
    []⟩
  range := ⟨.wrap .v4 0x0A000001, .wrap .v4 0x0A000005⟩

def ahead : Table :=
  (Table.empty.put (.wrap .v4 0x0A000004) "a").setMarker (some (.wrap .v4 0x0A000003))

theorem quartetDecided :
    let second : Address := .wrap .v4 0x0A000002
    quartet.Decides ahead (.ok second) ∧
    (quartet.allocate "b" (Memory.mk false ⟨false, ahead⟩)).1 = .ok (quartet.lease second) ∧
    (quartet.allocate "b" (Disk.onEmpty {} fun _ _ => .done)).1 = .ok (quartet.lease second) ∧
    (quartet.allocate "b" (Disk.onEmpty {} fun _ _ => .done)).2.Offers
      (Table.empty.put second "b") := by
  intro second
  have accepted : Allocator.ofNetwork quartet.network = .ok quartet := rfl
  have less : ¬ (quartet.range.start.isZero ∧ quartet.range.stop.isZero) := by decide
  have only {choice : Except Fault Address}
      (seen : .ok (quartet.lease second) = choice.map quartet.lease) : choice = .ok second := by
    cases choice with
    | error fault => cases seen
    | ok a => exact congrArg Except.ok (congrArg Lease.address (Except.ok.inj seen)).symm
  have answered : (quartet.allocate "b" (Memory.mk false ⟨false, ahead⟩)).1 =
      .ok (quartet.lease second) := by decide +kernel
  have first : (quartet.allocate "b" (Memory.mk false ⟨false, .empty⟩)).1 =
      .ok (quartet.lease second) := by decide +kernel
  obtain ⟨choice, decides, ⟨_, _, recalled⟩, _⟩ := allocateDecided accepted less ahead "b"
  obtain ⟨other, _, ⟨_, _, fresh⟩, onDisk⟩ := allocateDecided accepted less .empty "b"
  rw [recalled] at answered
  rw [fresh] at first
  obtain rfl := only answered.symm
  obtain rfl := only first.symm
  have unheld : (Disk.onEmpty {} fun _ _ => .done).Unheld ⟨0, 0⟩ :=
    ⟨rfl, rfl, rfl, rfl, Disk.onEmptyTidy _ _, fun _ _ _ => rfl⟩
  have loaded : (Disk.onEmpty {} fun _ _ => .done).lock.2.store.locked =
      some ⟨.empty, 1, .everyWrite, ⟨0, 0, 0⟩, 0, ⟨0, 0, 0⟩⟩ := rfl
  have fits : Operation.Fits (.reserve second "b") := by decide
  obtain ⟨after, v, ⟨rfl, _⟩, leased, offers⟩ := onDisk (Disk.onEmpty {} fun _ _ => .done) _ _ _ unheld
    (fun _ _ => rfl) rfl loaded rfl (by decide) (by decide) fun a same => by cases same; exact fits
  rw [leased]
  exact ⟨(decides _).mpr rfl, by rw [recalled]; rfl, rfl, offers⟩

end Allocator
end AddressPool
