import AddressPool.Network.Range
import AddressPool.Proofs.Subnet.Numeric

/-! The range of a network against its subnet. The bounds are counted with wrapping
increments and a zero bound means the top, so the range lies inside its subnet except for a
subnet of one address at either end of its family. -/
namespace AddressPool

namespace Address

theorem ltIff {a b : Address} (same : a.family = b.family) : a < b ↔ a.value < b.value := by
  change a.rank < b.rank ↔ a.value < b.value
  unfold rank
  rw [same]
  cases b.family with
  | v4 => exact Iff.rfl
  | v6 => exact Nat.add_lt_add_iff_left

theorem leIff {a b : Address} (same : a.family = b.family) : a ≤ b ↔ a.value ≤ b.value := by
  change a.rank ≤ b.rank ↔ a.value ≤ b.value
  unfold rank
  rw [same]
  cases b.family with
  | v4 => exact Iff.rfl
  | v6 => exact Nat.add_le_add_iff_left

theorem nextValue (a : Address) :
    a.value + 1 < a.family.space ∧ a.next.value = a.value + 1 ∨
      a.value + 1 = a.family.space ∧ a.next.value = 0 := by
  rcases Nat.lt_or_eq_of_le a.bound with inside | last
  · exact .inl ⟨inside, Nat.mod_eq_of_lt inside⟩
  · refine .inr ⟨last, ?_⟩
    change (a.value + 1) % a.family.space = 0
    rw [show a.value + 1 = a.family.space from last, Nat.mod_self]

end Address

namespace Range

theorem containsIff {r : Range} {a : Address} (start : a.family = r.start.family)
    (stop : r.stop.family = r.start.family) :
    r.contains a = true ↔ r.start.value ≤ a.value ∧
      (r.start.value < r.stop.value ∧ a.value < r.stop.value ∨
        r.stop.value = 0) := by
  simp only [contains, if_pos start, Address.ltIff stop.symm, Address.leIff start.symm,
    Address.ltIff (start.trans stop.symm), Address.isZero, beq_iff_eq]
  split
  · simp only [Bool.and_eq_true, decide_eq_true_eq]
    omega
  · split
    · simp only [decide_eq_true_eq]
      omega
    · simp
      omega

theorem containsFamily {r : Range} {a : Address} (inside : r.contains a = true) :
    a.family = r.start.family := by
  unfold contains at inside
  split at inside
  · assumption
  · contradiction

end Range

namespace Network

variable {n : Network} {r : Range} {x : Address} {length : Nat}

structure Spans (n : Network) (r : Range) (x : Address) (length : Nat) : Prop where
  subnet : n.subnet = Subnet.around x length
  start : r.start.family = x.family
  stop : r.stop.family = x.family
  first : ∀ a, n.first = some a → r.start = a ∧ n.subnet.contains a = true
  lowest : n.first = none → r.start = n.subnet.address.next
  last : ∀ a, n.last = some a →
    r.stop = a.next ∧ n.subnet.contains a = true ∧ r.start.value ≤ a.value
  highest : n.last = none →
    r.stop.value = n.subnet.address.value + (Subnet.hosts length x.family.width - 1)

theorem checkInsideOk {s : Subnet} {a : Address} {done : Unit}
    (passed : s.checkInside a = .ok done) : s.contains a = true := by
  unfold Subnet.checkInside at passed
  split at passed
  · assumption
  · contradiction

theorem boundPassed {s : Subnet} {bound : Option Address} :
    checkBound s bound = .ok () ↔ ∀ a, bound = some a → s.contains a = true := by
  cases bound with
  | none => simp [checkBound]
  | some a => simp [checkBound, Subnet.checkInside]

theorem boundRefused {s : Subnet} {bound : Option Address} {fault : Fault}
    (refused : checkBound s bound = .error fault) : ∃ cause, fault = .range cause := by
  cases bound with
  | none => cases refused
  | some a =>
    simp only [checkBound, Subnet.checkInside] at refused
    split at refused
    · contradiction
    · cases refused
      exact ⟨_, rfl⟩

theorem rangeSpans (subnet : n.subnet = Subnet.around x length) (accepted : n.range = .ok r) :
    Spans n r x length := by
  obtain ⟨top, bounds, family, value⟩ := Subnet.boundsAround x length
  rw [← subnet] at bounds value
  have member {a : Address} (inside : n.subnet.contains a = true) : a.family = x.family := by
    rw [subnet] at inside
    exact ((Subnet.containsAround x length a).mp inside).1
  have own : n.subnet.address.family = x.family := by rw [subnet, Subnet.aroundFamily]
  simp only [range, Subnet.bounds, bounds, bind, Except.bind, pure, Except.pure] at accepted
  split at accepted
  · contradiction
  next passed =>
  have first := boundPassed.mp passed
  have start : (n.first.getD n.subnet.address.next).family = x.family := by
    cases given : n.first with
    | none => exact own
    | some a => exact member (first a given)
  split at accepted
  · next absent =>
    cases accepted
    refine ⟨subnet, start, family, ?_, ?_, ?_, fun _ => value⟩
    · intro a given
      exact ⟨by rw [given]; rfl, first a given⟩
    · intro given
      rw [given]
      rfl
    · intro a given
      rw [absent] at given
      contradiction
  · next last given =>
    split at accepted
    · contradiction
    next within =>
    have inside := checkInsideOk within
    split at accepted
    · contradiction
    next ordered =>
    rw [Address.ltIff ((member inside).trans start.symm)] at ordered
    cases accepted
    have stop : last.family = x.family := member inside
    refine ⟨subnet, start, stop, ?_, ?_, ?_, ?_⟩
    · intro a chosen
      exact ⟨by rw [chosen]; rfl, first a chosen⟩
    · intro none
      rw [none]
      rfl
    · intro a chosen
      rw [given] at chosen
      cases chosen
      exact ⟨rfl, inside, Nat.not_lt.mp ordered⟩
    · intro none
      rw [none] at given
      contradiction

/-- One address only, at an end of its family, with the bound beyond it left open. -/
def Wraps (n : Network) (length : Nat) : Prop :=
  length = 8 * n.subnet.address.family.width ∧
    (n.subnet.address.isZero ∧ n.last = none ∨ n.subnet.address.next.isZero ∧ n.first = none)

namespace Spans

variable (spans : Spans n r x length)
include spans

theorem own : n.subnet.address.family = x.family := by rw [spans.subnet, Subnet.aroundFamily]

theorem member (a : Address) :
    n.subnet.contains a = true ↔ a.family = x.family ∧ n.subnet.address.value ≤ a.value ∧
      a.value < n.subnet.address.value + Subnet.hosts length x.family.width := by
  rw [spans.subnet]
  exact Subnet.containsAround x length a

theorem room :
    n.subnet.address.value + Subnet.hosts length x.family.width ≤ x.family.space := by
  rw [spans.subnet, Subnet.aroundValue]
  exact Subnet.baseRoom x.bound

theorem next :
    n.subnet.address.value + 1 < x.family.space ∧
        n.subnet.address.next.value = n.subnet.address.value + 1 ∨
      n.subnet.address.value + 1 = x.family.space ∧ n.subnet.address.next.value = 0 := by
  rw [← spans.own]
  exact n.subnet.address.nextValue

theorem contains (a : Address) (family : a.family = x.family) :
    r.contains a = true ↔ r.start.value ≤ a.value ∧
      (r.start.value < r.stop.value ∧ a.value < r.stop.value ∨ r.stop.value = 0) :=
  Range.containsIff (family.trans spans.start.symm) (spans.stop.trans spans.start.symm)

theorem within (whole : length ≤ 8 * x.family.width) (straight : ¬ n.Wraps length) {a : Address}
    (inside : r.contains a = true) : n.subnet.contains a = true := by
  have family : a.family = x.family := (Range.containsFamily inside).trans spans.start
  rw [spans.contains a family] at inside
  rw [spans.member a]
  refine ⟨family, ?_⟩
  have positive := Subnet.hostsPos length x.family.width
  have room := spans.room
  have next := spans.next
  have top : a.value < x.family.space := family ▸ a.bound
  -- With two addresses or more neither bound can wrap past the other.
  have single : Subnet.hosts length x.family.width = 1 →
      ¬ (n.subnet.address.value = 0 ∧ n.last = none) ∧
        ¬ (n.subnet.address.next.value = 0 ∧ n.first = none) := by
    intro one
    have full := Nat.le_antisymm whole (Subnet.hostsOne one)
    rw [← spans.own] at full
    simpa [Wraps, full, Address.isZero, not_or] using straight
  cases first : n.first with
  | none =>
    have start := congrArg Address.value (spans.lowest first)
    cases last : n.last with
    | none =>
      have stop := spans.highest last
      simp only [first, last, and_true] at single
      omega
    | some b =>
      obtain ⟨after, held, above⟩ := spans.last b last
      rw [spans.member b] at held
      have stop := b.nextValue
      rw [← after, held.1] at stop
      simp only [first, and_true] at single
      omega
  | some c =>
    obtain ⟨here, held⟩ := spans.first c first
    rw [spans.member c] at held
    have start := congrArg Address.value here
    cases last : n.last with
    | none =>
      have stop := spans.highest last
      simp only [last, and_true] at single
      omega
    | some b =>
      obtain ⟨after, bound, above⟩ := spans.last b last
      rw [spans.member b] at bound
      have stop := b.nextValue
      rw [← after, bound.1] at stop
      omega

section Edges

variable (wide : length < 8 * x.family.width) {a : Address} (inside : r.contains a = true)
include wide inside

theorem firstNamed (lowest : a.value = n.subnet.address.value) : n.first = some a := by
  have family : a.family = x.family := (Range.containsFamily inside).trans spans.start
  rw [spans.contains a family] at inside
  have two := Subnet.hostsTwo wide
  have room := spans.room
  have next := spans.next
  cases first : n.first with
  | none =>
    have start := congrArg Address.value (spans.lowest first)
    omega
  | some c =>
    obtain ⟨here, held⟩ := spans.first c first
    rw [spans.member c] at held
    have start := congrArg Address.value here
    rw [show c = a from Address.alike (held.1.trans family.symm) (by omega)]

theorem lastNamed (highest : a.value = n.subnet.address.value +
    (Subnet.hosts length x.family.width - 1)) : n.last = some a := by
  have family : a.family = x.family := (Range.containsFamily inside).trans spans.start
  rw [spans.contains a family] at inside
  have two := Subnet.hostsTwo wide
  have room := spans.room
  cases last : n.last with
  | none =>
    have stop := spans.highest last
    omega
  | some b =>
    obtain ⟨after, held, above⟩ := spans.last b last
    rw [spans.member b] at held
    have stop := b.nextValue
    rw [← after, held.1] at stop
    rw [show b = a from Address.alike (held.1.trans family.symm) (by omega)]

end Edges

theorem beyond (wraps : n.Wraps length) {a : Address} (family : a.family = x.family)
    (low : 1 ≤ a.value) (high : a.value ≤ 3) :
    r.contains a = true ∧ r.stop.value ≠ a.value ∧
      (2 ≤ a.value → n.subnet.contains a = false) := by
  obtain ⟨full, edge⟩ := wraps
  rw [spans.own] at full
  have one : Subnet.hosts length x.family.width = 1 := by
    rw [full, Subnet.hosts, Nat.sub_self]
    rfl
  have wide : 256 ≤ x.family.space := by
    cases x.family <;> decide
  have next := spans.next
  have outside : ¬ n.subnet.contains a = true ↔ _ := not_congr (spans.member a)
  rw [spans.contains a family, ← Bool.not_eq_true, outside]
  simp only [Address.isZero, beq_iff_eq] at edge
  rw [one]
  rcases edge with ⟨zero, last⟩ | ⟨top, first⟩
  · have stop := spans.highest last
    have start : r.start.value ≤ 1 := by
      cases first : n.first with
      | none =>
        rw [spans.lowest first]
        omega
      | some c =>
        obtain ⟨here, held⟩ := spans.first c first
        rw [spans.member c] at held
        rw [here]
        omega
    omega
  · have start := congrArg Address.value (spans.lowest first)
    cases last : n.last with
    | none =>
      have stop := spans.highest last
      omega
    | some b =>
      obtain ⟨after, held, above⟩ := spans.last b last
      rw [spans.member b] at held
      have stop := b.nextValue
      rw [← after, held.1] at stop
      omega

end Spans
end Network
end AddressPool
