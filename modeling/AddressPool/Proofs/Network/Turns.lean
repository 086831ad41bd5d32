import AddressPool.Proofs.Network.Bounds

/-! The members of a range in ascending order, and their turns: those above the marker come
first, then those below it. A range that is not the whole of its family has a bound that is no
member, and a walk from one member to another passes over nothing but members and that bound. -/
namespace AddressPool

namespace Address

theorem ltIrrefl (a : Address) : ¬ a < a := Nat.lt_irrefl a.rank

theorem ltAsymm {a b : Address} (less : a < b) : ¬ b < a := Nat.lt_asymm less

section Split

variable {lower upper : List Address} {m : Address}

theorem filterAbove (ascending : (lower ++ m :: upper).Pairwise (· < ·)) :
    (lower ++ m :: upper).filter (m < ·) = upper := by
  obtain ⟨_, rest, across⟩ := List.pairwise_append.mp ascending
  have above := (List.pairwise_cons.mp rest).1
  have none : lower.filter (m < ·) = [] := by
    rw [List.filter_eq_nil_iff]
    intro a member
    rw [decide_eq_true_eq]
    exact ltAsymm (across a member m List.mem_cons_self)
  have all : upper.filter (m < ·) = upper := by
    rw [List.filter_eq_self]
    intro a member
    rw [decide_eq_true_eq]
    exact above a member
  rw [List.filter_append, none, List.nil_append, List.filter_cons_of_neg, all]
  rw [decide_eq_true_eq]
  exact ltIrrefl m

theorem filterBelow (ascending : (lower ++ m :: upper).Pairwise (· < ·)) :
    (lower ++ m :: upper).filter (· < m) = lower := by
  obtain ⟨_, rest, across⟩ := List.pairwise_append.mp ascending
  have above := (List.pairwise_cons.mp rest).1
  have none : upper.filter (· < m) = [] := by
    rw [List.filter_eq_nil_iff]
    intro a member
    rw [decide_eq_true_eq]
    exact ltAsymm (above a member)
  have all : lower.filter (· < m) = lower := by
    rw [List.filter_eq_self]
    intro a member
    rw [decide_eq_true_eq]
    exact across a member m List.mem_cons_self
  rw [List.filter_append, all, List.filter_cons_of_neg, none, List.append_nil]
  rw [decide_eq_true_eq]
  exact ltIrrefl m

end Split

/-- Going up from `m` and round past the top, `a` comes before `b`; `m` itself comes last. -/
def Sooner (m a b : Address) : Prop := m < a ∧ (b ≤ m ∨ a < b) ∨ a < b ∧ b ≤ m

section Sooner

variable {m a b c : Address}

theorem soonerRank : Sooner m a b ↔
    m.rank < a.rank ∧ (b.rank ≤ m.rank ∨ a.rank < b.rank) ∨ a.rank < b.rank ∧ b.rank ≤ m.rank :=
  Iff.rfl

theorem soonerSelf (apart : a ≠ m) : Sooner m a m := by
  have ranks : a.rank ≠ m.rank := fun same => apart (rankInj same)
  rw [soonerRank]
  omega

theorem Sooner.apart (sooner : Sooner m a b) : m ≠ a := by
  rintro rfl
  rw [soonerRank] at sooner
  omega

theorem Sooner.asymm (sooner : Sooner m a b) : ¬ Sooner m b a := by
  rw [soonerRank] at sooner ⊢
  omega

theorem Sooner.onward (first : Sooner m a b) (second : Sooner m b c) : Sooner a b c := by
  rw [soonerRank] at first second ⊢
  omega

end Sooner
end Address

namespace Range

def size (r : Range) : Nat :=
  (if r.stop.isZero then r.start.family.space else r.stop.value) - r.start.value

def nth (r : Range) (k : Nat) : Address := .wrap r.start.family (r.start.value + k)

def members (r : Range) : List Address := (List.range r.size).map r.nth

def turns (r : Range) (marker : Option Address) : List Address :=
  match marker with
  | some m =>
      if r.contains m then r.members.filter (m < ·) ++ r.members.filter (· < m) else r.members
  | none => r.members

structure Bounded (r : Range) : Prop where
  family : r.stop.family = r.start.family
  less : ¬ (r.start.isZero ∧ r.stop.isZero)

theorem nthZero (r : Range) : r.nth 0 = r.start := Address.wrapValue r.start

theorem nthFamily (r : Range) (k : Nat) : (r.nth k).family = r.start.family := rfl

section Members

variable {r : Range} (bounded : r.Bounded) {k : Nat} {a c : Address}
include bounded

theorem Bounded.nonzero : ¬ (r.start.value = 0 ∧ r.stop.value = 0) := by
  simpa [Address.isZero] using bounded.less

theorem Bounded.room (some : 0 < r.size) :
    r.stop.value = 0 ∧ r.start.value + r.size = r.start.family.space ∨
      r.start.value + r.size = r.stop.value ∧ r.stop.value < r.start.family.space := by
  have start := r.start.bound
  have stop := r.stop.bound
  rw [bounded.family] at stop
  simp only [size, Address.isZero, beq_iff_eq] at some ⊢
  split at some <;> rename_i zero
  · rw [if_pos zero]
    omega
  · rw [if_neg zero]
    omega

theorem nthValue (inside : k < r.size) : (r.nth k).value = r.start.value + k := by
  apply Nat.mod_eq_of_lt
  have room := bounded.room (Nat.zero_lt_of_lt inside)
  omega

theorem nthContained (inside : k < r.size) : r.contains (r.nth k) = true := by
  have room := bounded.room (Nat.zero_lt_of_lt inside)
  rw [containsIff (nthFamily r k) bounded.family, nthValue bounded inside]
  omega

theorem nthOf (inside : r.contains a = true) : ∃ k, k < r.size ∧ r.nth k = a := by
  have family := containsFamily inside
  have top := a.bound
  rw [family] at top
  rw [containsIff family bounded.family] at inside
  have below : a.value - r.start.value < r.size := by
    simp only [size, Address.isZero, beq_iff_eq]
    split <;> omega
  refine ⟨a.value - r.start.value, below, Address.alike family.symm ?_⟩
  rw [nthValue bounded below]
  omega

theorem memMembers : a ∈ r.members ↔ r.contains a = true := by
  rw [members, List.mem_map]
  constructor
  · rintro ⟨k, below, rfl⟩
    exact nthContained bounded (List.mem_range.mp below)
  · intro inside
    obtain ⟨k, below, rfl⟩ := nthOf bounded inside
    exact ⟨k, List.mem_range.mpr below, rfl⟩

theorem nthLess {i j : Nat} (less : i < j) (inside : j < r.size) : r.nth i < r.nth j := by
  rw [Address.ltIff ((nthFamily r i).trans (nthFamily r j).symm), nthValue bounded (Nat.lt_trans less inside), nthValue bounded inside]
  omega

theorem membersAscending : r.members.Pairwise (· < ·) := by
  rw [members, List.pairwise_map]
  refine List.Pairwise.imp_of_mem ?_ List.pairwise_lt_range
  intro i j _ below less
  exact nthLess bounded less (List.mem_range.mp below)

theorem nthSize (some : 0 < r.size) : r.nth r.size = r.stop := by
  apply Address.alike ((nthFamily r _).trans bounded.family.symm)
  change (r.start.value + r.size) % r.start.family.space = r.stop.value
  rcases bounded.room some with ⟨zero, whole⟩ | ⟨whole, below⟩
  · rw [whole, Nat.mod_self, zero]
  · rw [whole, Nat.mod_eq_of_lt below]

theorem stopOutside : r.contains r.stop = false := by
  have nonzero := bounded.nonzero
  rw [← Bool.not_eq_true, containsIff bounded.family bounded.family]
  omega

theorem nthApart (inside : k < r.size) : r.nth k ≠ r.stop := by
  intro same
  have contained := nthContained bounded inside
  rw [same, stopOutside bounded] at contained
  contradiction

theorem afterNth (inside : k < r.size) : r.after (r.nth k) = r.nth (k + 1) := by
  rw [after, if_neg (nthApart bounded inside), Address.next, nthValue bounded inside]
  rfl

theorem turnsSplit {lower upper : List Address} {m : Address}
    (split : r.members = lower ++ m :: upper) : r.turns (some m) = upper ++ lower := by
  have ascending := membersAscending bounded
  have inside : r.contains m = true := by
    rw [← memMembers bounded, split]
    simp
  rw [split] at ascending
  rw [turns, if_pos inside, split, Address.filterAbove ascending, Address.filterBelow ascending]

theorem turnsSooner {m : Address} (inside : r.contains m = true) :
    (r.turns (some m)).Pairwise (Address.Sooner m) := by
  have ascending := membersAscending bounded
  rw [turns, if_pos inside, List.pairwise_append]
  refine ⟨?_, ?_, ?_⟩
  · refine List.Pairwise.imp_of_mem ?_ (ascending.filter _)
    intro a b first _ less
    exact .inl ⟨of_decide_eq_true (List.mem_filter.mp first).2, .inr less⟩
  · refine List.Pairwise.imp_of_mem ?_ (ascending.filter _)
    intro a b _ second less
    exact .inr ⟨less, Nat.le_of_lt (of_decide_eq_true (List.mem_filter.mp second).2)⟩
  · intro a first b second
    exact .inl ⟨of_decide_eq_true (List.mem_filter.mp first).2,
      .inl (Nat.le_of_lt (of_decide_eq_true (List.mem_filter.mp second).2))⟩

theorem memTurns {m : Address} (inside : r.contains a = true) (apart : a ≠ m) :
    a ∈ r.turns (some m) := by
  have member := (memMembers bounded).mpr inside
  unfold turns
  split
  · next here =>
    cases here
    split
    · rw [List.mem_append, List.mem_filter, List.mem_filter, decide_eq_true_eq, decide_eq_true_eq]
      rcases Nat.lt_or_gt_of_ne fun same => apart (Address.rankInj same) with less | more
      · exact .inr ⟨member, less⟩
      · exact .inl ⟨member, more⟩
    · exact member
  · exact member

theorem turnsContained {marker : Option Address} (turn : a ∈ r.turns marker) :
    r.contains a = true := by
  rw [← memMembers bounded]
  unfold turns at turn
  split at turn
  · split at turn
    · rcases List.mem_append.mp turn with above | below
      · exact (List.mem_filter.mp above).1
      · exact (List.mem_filter.mp below).1
    · exact turn
  · exact turn

theorem turnsIff {marker : Option Address} :
    a ∈ r.turns marker ↔ r.contains a = true ∧ marker ≠ some a := by
  constructor
  · intro turn
    have inside := turnsContained bounded turn
    refine ⟨inside, ?_⟩
    rintro rfl
    rw [turns, if_pos inside, List.mem_append, List.mem_filter,
      List.mem_filter, decide_eq_true_eq, or_self] at turn
    exact Address.ltIrrefl a turn.2
  · rintro ⟨inside, apart⟩
    cases marker with
    | none => exact (memMembers bounded).mpr inside
    | some m => exact memTurns bounded inside fun same => apart (congrArg some same.symm)

def Earlier (r : Range) (marker : Option Address) (a b : Address) : Prop :=
  match marker with
  | some m => if r.contains m then Address.Sooner m a b else a < b
  | none => a < b

theorem turnsEarlier (marker : Option Address) :
    (r.turns marker).Pairwise (r.Earlier marker) := by
  unfold Earlier
  split
  · next m =>
    split
    · next inside => exact turnsSooner bounded inside
    · next outside =>
      rw [turns, if_neg outside]
      exact membersAscending bounded
  · exact membersAscending bounded

omit bounded in
theorem Earlier.asymm {marker : Option Address} (earlier : r.Earlier marker a c) :
    ¬ r.Earlier marker c a := by
  unfold Earlier at earlier ⊢
  split at earlier
  · split at earlier
    · next inside =>
      rw [if_pos inside]
      exact earlier.asymm
    · next outside =>
      rw [if_neg outside]
      exact Address.ltAsymm earlier
  · exact Address.ltAsymm earlier

omit bounded in
theorem membersSplit (inside : k < r.size) :
    r.members =
      (List.range k).map r.nth ++
        r.nth k :: (List.range' (k + 1) (r.size - (k + 1))).map r.nth := by
  have joined := @List.range'_append_1 0 k (r.size - (k + 1) + 1)
  rw [Nat.zero_add, List.range'_succ, ← List.range_eq_range',
    show k + (r.size - (k + 1) + 1) = r.size by omega, ← List.range_eq_range'] at joined
  rw [members, ← joined, List.map_append, List.map_cons]

end Members
end Range

namespace Network

theorem rangeFamily {n : Network} {r : Range} (accepted : n.range = .ok r) :
    r.stop.family = r.start.family := by
  have member {a : Address} {done : Unit} (passed : n.subnet.checkInside a = .ok done) :
      a.family = n.subnet.address.family := by
    have inside := checkInsideOk passed
    simp only [Subnet.contains, Bool.and_eq_true, beq_iff_eq] at inside
    exact inside.1.2
  simp only [range, bind, Except.bind, pure, Except.pure] at accepted
  split at accepted
  · contradiction
  next bounds found =>
  have outer : bounds.1.next.family = n.subnet.address.family ∧
      bounds.2.family = n.subnet.address.family := by
    simp only [Subnet.bounds, Subnet.bounds?] at found
    split at found
    · next given =>
      split at given
      · cases given
        cases found
        exact ⟨rfl, rfl⟩
      · contradiction
    · contradiction
  split at accepted
  · contradiction
  next passed =>
  have start : (n.first.getD bounds.1.next).family = n.subnet.address.family := by
    cases first : n.first with
    | none => exact outer.1
    | some a =>
      rw [first] at passed
      exact member passed
  split at accepted
  · cases accepted
    exact outer.2.trans start.symm
  · split at accepted
    · contradiction
    next within =>
    split at accepted
    · contradiction
    · cases accepted
      exact (member within).trans start.symm

end Network
end AddressPool
