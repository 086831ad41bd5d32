import AddressPool.Proofs.Allocator.Lease
import AddressPool.Proofs.Network.Turns

/-! What a search finds. Over a store that answers from a table it reserves the first address
in the order of turns that nobody owns, the gateway apart, and it says that the pool is exhausted
if there is none. -/
namespace AddressPool

inductive Range.Trail (r : Range) (stop : Address) : Address → List Address → Prop where
  | done : Trail r stop stop []
  | step {a : Address} {passed : List Address} (apart : a ≠ stop)
      (rest : Trail r stop (r.after a) passed) : Trail r stop a (a :: passed)

namespace Range

section Trails

variable {r : Range} (bounded : r.Bounded)
include bounded

theorem trailUp (stop : Address) {passed : List Address} (k count : Nat)
    (within : k + count ≤ r.size)
    (apart : ∀ i, k ≤ i → i < k + count → r.nth i ≠ stop)
    (rest : r.Trail stop (r.nth (k + count)) passed) :
    r.Trail stop (r.nth k) ((List.range' k count).map r.nth ++ passed) := by
  induction count generalizing k with
  | zero => exact rest
  | succ count ih =>
    rw [List.range'_succ, List.map_cons, List.cons_append]
    refine .step (apart k (Nat.le_refl k) (by omega)) ?_
    rw [afterNth bounded (by omega)]
    refine ih (k + 1) (by omega) (fun i _ _ => apart i (by omega) (by omega)) ?_
    rwa [Nat.add_right_comm]

theorem trailWhole (some : 0 < r.size) : r.Trail r.stop r.start r.members := by
  have stop := nthSize bounded some
  have trail := trailUp bounded r.stop 0 r.size (by omega)
    (fun i _ below => nthApart bounded (by omega))
    (by rw [Nat.zero_add, stop]; exact .done)
  rwa [nthZero, List.append_nil, ← List.range_eq_range'] at trail

theorem trailRound {k : Nat} (inside : k < r.size) :
    r.Trail (r.nth k) (r.after (r.nth k))
      ((List.range' (k + 1) (r.size - (k + 1))).map r.nth ++ r.stop :: (List.range k).map r.nth) := by
  have some : 0 < r.size := Nat.zero_lt_of_lt inside
  have apart {i : Nat} (differ : i ≠ k) (below : i < r.size) : r.nth i ≠ r.nth k := by
    intro same
    rcases Nat.lt_or_gt_of_ne differ with less | more
    · exact Address.ltIrrefl _ (same ▸ nthLess bounded less inside)
    · exact Address.ltIrrefl _ (same ▸ nthLess bounded more below)
  have front := trailUp bounded (r.nth k) 0 k (by omega)
    (fun i _ below => apart (by omega) (by omega))
    (by rw [Nat.zero_add]; exact .done)
  rw [nthZero, List.append_nil, ← List.range_eq_range'] at front
  rw [afterNth bounded inside]
  refine trailUp bounded _ (k + 1) (r.size - (k + 1)) (by omega)
    (fun i _ below => apart (by omega) (by omega)) ?_
  rw [show k + 1 + (r.size - (k + 1)) = r.size by omega, nthSize bounded some]
  refine .step (nthApart bounded inside).symm ?_
  rw [after, if_pos rfl]
  exact front

end Trails
end Range

namespace Allocator

def vacant (r : Allocator) (t : Table) (a : Address) : Bool :=
  decide (a ≠ r.gateway ∧ t.owner? a = none)

def nextFree (r : Allocator) (t : Table) : Option Address :=
  (r.range.turns t.marker).find? (r.vacant t)

def candidates (r : Allocator) : List Address := r.range.members.filter (· ≠ r.gateway)

theorem soonest {before : Address → Address → Prop} {turns : List Address} {free : Address → Bool}
    {a c : Address} (ordered : turns.Pairwise before) (found : turns.find? free = some a)
    (turn : c ∈ turns) (vacant : free c = true) : c = a ∨ before a c := by
  obtain ⟨_, passed, behind, rfl, refused⟩ := List.find?_eq_some_iff_append.mp found
  rcases List.mem_append.mp turn with early | late
  · have passedOver := refused c early
    rw [vacant] at passedOver
    contradiction
  · rcases List.mem_cons.mp late with rfl | later
    · exact .inl rfl
    · exact .inr ((List.pairwise_cons.mp (List.pairwise_append.mp ordered).2.1).1 c later)

section Candidates

variable {r : Allocator} (bounded : r.range.Bounded) {t : Table} {a c m : Address}
include bounded

theorem memCandidates : a ∈ r.candidates ↔ r.range.contains a = true ∧ a ≠ r.gateway := by
  rw [candidates, List.mem_filter, Range.memMembers bounded, decide_eq_true_eq]

theorem candidatesAscending : r.candidates.Pairwise (· < ·) :=
  (Range.membersAscending bounded).filter _

theorem nextFreeVacant (found : r.nextFree t = some a) :
    a ∈ r.candidates ∧ t.owner? a = none := by
  have free : r.vacant t a = true := List.find?_some found
  obtain ⟨apart, unowned⟩ := of_decide_eq_true free
  have inside := Range.turnsContained bounded (List.mem_of_find?_eq_some found)
  exact ⟨(memCandidates bounded).mpr ⟨inside, apart⟩, unowned⟩

theorem nextFreeInside (found : r.nextFree t = some a) : r.range.contains a = true :=
  ((memCandidates bounded).mp (nextFreeVacant bounded found).1).1

theorem nextFreeSoonest (found : r.nextFree t = some a) (marker : t.marker = some m)
    (inside : r.range.contains m = true) (candidate : c ∈ r.candidates)
    (unowned : t.owner? c = none) (apart : c ≠ m) : c = a ∨ Address.Sooner m a c := by
  obtain ⟨member, differ⟩ := (memCandidates bounded).mp candidate
  rw [nextFree, marker] at found
  exact soonest (Range.turnsSooner bounded inside) found (Range.memTurns bounded member apart)
    (decide_eq_true ⟨differ, unowned⟩)

end Candidates
section Searching

variable {σ : Type} [Store σ] {s : σ} {t : Table}

def claim (r : Allocator) (owner : String) (s : σ) : Option Address → Except Fault Address × σ
  | none => (.error (.exhausted r.network.name), s)
  | some a =>
      match Store.reserve owner a s with
      | (.error fault, s) => (.error fault, s)
      | (.ok _, s) => (.ok a, s)

variable (r : Allocator) (owner : String)

theorem walkTrail (steady : Steady s t) {stop a : Address} {passed : List Address}
    (trail : r.range.Trail stop a passed) {steps : Nat} (enough : passed.length < steps) :
    r.walk owner stop steps a s =
      r.claim owner s ((passed.filter r.range.contains).find? (r.vacant t)) := by
  induction trail generalizing steps with
  | done =>
    obtain ⟨fuel, rfl⟩ := Nat.exists_eq_succ_of_ne_zero (Nat.ne_of_gt enough)
    simp only [walk, if_true]
    rfl
  | @step a passed apart rest ih =>
    rw [List.length_cons] at enough
    obtain ⟨fuel, rfl⟩ := Nat.exists_eq_succ_of_ne_zero (by omega : steps ≠ 0)
    have tail := ih (show passed.length < fuel by omega)
    simp only [walk, if_neg apart]
    by_cases inside : r.range.contains a = true
    · rw [List.filter_cons_of_pos inside]
      by_cases free : r.vacant t a = true
      · rw [List.find?_cons_of_pos free]
        obtain ⟨differ, unowned⟩ := of_decide_eq_true free
        have heard := steady.free owner a unowned
        rw [if_pos ⟨differ, inside⟩, claim]
        generalize Store.reserve owner a s = outcome at heard
        rcases outcome with ⟨fault | done, u⟩
        · rfl
        · cases done with
          | true => rfl
          | false => exact absurd rfl heard
      · rw [List.find?_cons_of_neg free]
        -- It is the gateway or somebody's, and the store stays as it is.
        by_cases differ : a ≠ r.gateway
        · have owned : t.owner? a ≠ none := fun unowned =>
            free (decide_eq_true ⟨differ, unowned⟩)
          rw [if_pos ⟨differ, inside⟩, steady.owned owner a owned]
          exact tail
        · rw [if_neg fun both => differ both.1]
          exact tail
    · rw [List.filter_cons_of_neg inside, if_neg fun both => inside both.2]
      exact tail

theorem nextFreeEmpty (none : r.range.size = 0) (t : Table) : r.nextFree t = .none := by
  have members : r.range.members = [] := by rw [Range.members, none]; rfl
  have turns : r.range.turns t.marker = [] := by
    unfold Range.turns
    split
    · split
      · rw [members]; rfl
      · exact members
    · exact members
  rw [nextFree, turns, List.find?_nil]

section Walking

variable (bounded : r.range.Bounded) (steady : Steady s t)
include bounded steady

theorem walkWhole (some : 0 < r.range.size) :
    r.walk owner r.range.stop (r.range.start.family.space + 1) r.range.start s =
      r.claim owner s (r.range.members.find? (r.vacant t)) := by
  have enough : r.range.members.length < r.range.start.family.space + 1 := by
    have room := bounded.room some
    rw [Range.members, List.length_map, List.length_range]
    omega
  have passed := walkTrail r owner steady (Range.trailWhole bounded some) enough
  rwa [List.filter_eq_self.mpr fun a member => (Range.memMembers bounded).mp member] at passed

theorem walkRound {m : Address} (inside : r.range.contains m = true) :
    r.walk owner m (r.range.start.family.space + 1) (r.range.after m) s =
      r.claim owner s ((r.range.turns (some m)).find? (r.vacant t)) := by
  obtain ⟨k, below, rfl⟩ := Range.nthOf bounded inside
  have room := bounded.room (Nat.zero_lt_of_lt below)
  have split := Range.membersSplit below
  have trail := Range.trailRound bounded below
  generalize (List.range k).map r.range.nth = lower at split trail
  generalize (List.range' (k + 1) (r.range.size - (k + 1))).map r.range.nth = upper at split trail
  have enough : (upper ++ r.range.stop :: lower).length < r.range.start.family.space + 1 := by
    have length := congrArg List.length split
    rw [Range.members, List.length_map, List.length_range] at length
    simp only [List.length_append, List.length_cons] at length ⊢
    omega
  -- Of what the walk passes, the bound alone is no member.
  have kept : (upper ++ r.range.stop :: lower).filter r.range.contains = upper ++ lower := by
    have stop : ¬ r.range.contains r.range.stop = true := by
      rw [Range.stopOutside bounded]
      exact Bool.false_ne_true
    rw [List.filter_append, List.filter_cons_of_neg stop, ← List.filter_append,
      List.filter_eq_self]
    intro a member
    rw [← Range.memMembers bounded, split]
    simp only [List.mem_append, List.mem_cons] at member ⊢
    tauto
  rw [walkTrail r owner steady trail enough, kept, Range.turnsSplit bounded split]

theorem searchTurn : r.search owner s = r.claim owner s (r.nextFree t) := by
  unfold search
  split
  · next empty =>
    have none : r.range.size = 0 := by
      by_contra some
      have start := Range.nthContained bounded (Nat.pos_of_ne_zero some)
      rw [Range.nthZero] at start
      simp [Range.isEmpty, start] at empty
    rw [nextFreeEmpty r none]
    rfl
  · next inhabited =>
    have start : r.range.contains r.range.start = true := by
      simpa [Range.isEmpty] using inhabited
    obtain ⟨_, below, _⟩ := Range.nthOf bounded start
    have whole := walkWhole r owner bounded steady (Nat.zero_lt_of_lt below)
    simp only [steady.marker, nextFree]
    cases t.marker with
    | none => exact whole
    | some m =>
      by_cases inside : r.range.contains m = true
      · simp only [walkBounds, inside, if_true]
        exact walkRound r owner bounded steady inside
      · simp only [walkBounds, inside, Range.turns]
        exact whole

end Walking
end Searching
section Requests

variable {σ : Type} [Store σ] {free held : List Operation → σ → Prop}
variable {room : List Operation → Prop} {takes : Operation → Prop} {log : List Operation} {s : σ}

def Turned (r : Allocator) (takes : Operation → Prop) (log : List Operation) (owner : String)
    (answer : Except Fault Lease) (longer : List Operation) : Prop :=
  match r.nextFree (tableOf log) with
  | none => answer = .error (.exhausted r.network.name) ∧ longer = log
  | some a => takes (.reserve a owner) →
      answer = .ok (r.lease a) ∧ longer = log ++ [.reserve a owner]

theorem pickTurn {r : Allocator} {t : Table} (unasked : r.network.requested = none)
    (bounded : r.range.Bounded) (steady : Steady s t) (owner : String) :
    r.pick owner s = r.claim owner s (r.nextFree t) := by
  rw [pick, unasked]
  exact searchTurn r owner bounded steady

theorem allocateTurn (laws : Laws σ free held room takes) {r : Allocator}
    (unasked : r.network.requested = none) (bounded : r.range.Bounded) (owner : String)
    (idle : free log s) (roomy : room log) :
    ∃ answer longer t, r.allocate owner s = (answer, t) ∧ free longer t ∧
      longer.length ≤ log.length + 1 ∧ Turned r takes log owner answer longer := by
  obtain ⟨locked, taken, holds⟩ := laws.lock idle
  have picked := pickTurn unasked bounded (steadyHeld laws holds roomy) owner
  simp only [allocate, Store.whileLocked, taken, picked, Turned]
  cases next : r.nextFree (tableOf log) with
  | none =>
    obtain ⟨t, given, idle⟩ := laws.unlock holds
    refine ⟨.error (.exhausted r.network.name), log, t, ?_, idle, Nat.le_succ _, rfl, rfl⟩
    simp only [claim, given]
    rfl
  | some a =>
    have unowned := (nextFreeVacant bounded next).2
    rcases laws.reserve holds roomy owner a unowned with
      ⟨after, reserved, holds⟩ | ⟨large, fault, after, failed, holds⟩
    · obtain ⟨t, given, idle⟩ := laws.unlock holds
      refine ⟨.ok (r.lease a), _, t, ?_, idle, by simp, fun _ => ⟨rfl, rfl⟩⟩
      simp only [claim, reserved, given]
      rfl
    · obtain ⟨t, given, idle⟩ := laws.unlock holds
      refine ⟨.error fault, log, t, ?_, idle, Nat.le_succ _, fun fits => absurd fits large⟩
      simp only [claim, failed, given]
      rfl

end Requests
end Allocator
end AddressPool
