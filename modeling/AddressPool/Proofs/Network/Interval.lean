import AddressPool.Allocator
import AddressPool.Proofs.Network.Bounds
import AddressPool.Proofs.Subnet.Membership

/-! The range of a network as an interval of numbers that do not wrap. With two addresses or more in
the subnet the wrapping bounds are nowhere to be seen: the range has exactly the numbers from its
least to its greatest, and bounds are refused only where they make no such interval in the subnet. -/
namespace AddressPool

namespace Network

def least (n : Network) (lowest : Address) : Int :=
  match n.first with
  | some a => a.value
  | none => lowest.value + 1

def greatest (n : Network) (highest : Address) : Int :=
  match n.last with
  | some a => a.value
  | none => highest.value - 1

structure Admits (n : Network) (lowest : Address) : Prop where
  first : ∀ a, n.first = some a → n.subnet.contains a = true
  last : ∀ a, n.last = some a → n.subnet.contains a = true ∧ n.least lowest ≤ a.value

variable {n : Network} {r : Range} {x lowest highest : Address} {length : Nat}

section Refusals

variable (bounds : n.subnet.bounds = .ok (lowest, highest))
include bounds

theorem rangeRefusal {fault : Fault} (refused : n.range = .error fault) :
    ∃ cause, fault = .range cause := by
  simp only [range, bounds, bind, Except.bind, pure, Except.pure] at refused
  split at refused
  · next failed =>
    cases refused
    exact boundRefused failed
  · split at refused
    · contradiction
    · next last _ =>
      split at refused
      · next failed =>
        cases refused
        exact @boundRefused _ (some last) _ failed
      · split at refused
        · cases refused
          exact ⟨_, rfl⟩
        · contradiction

theorem rangeAdmitted (first : ∀ a, n.first = some a → n.subnet.contains a = true)
    (last : ∀ a, n.last = some a →
      n.subnet.contains a = true ∧ ¬ a < n.first.getD lowest.next) : ∃ r, n.range = .ok r := by
  have passed := boundPassed.mpr first
  simp only [range, bounds, passed, bind, Except.bind, pure, Except.pure]
  cases given : n.last with
  | none => exact ⟨_, rfl⟩
  | some a =>
    obtain ⟨inside, ordered⟩ := last a given
    simp only [Subnet.checkInside, if_pos inside, if_neg ordered]
    exact ⟨_, rfl⟩

end Refusals
section Wide

variable (subnet : n.subnet = Subnet.around x length) (wide : length < 8 * x.family.width)
variable (bounds : n.subnet.bounds = .ok (lowest, highest))
include subnet wide bounds

theorem subnetEnds : lowest = n.subnet.address ∧ lowest.family = x.family ∧
    highest.value = lowest.value + (Subnet.hosts length x.family.width - 1) ∧
    2 ≤ Subnet.hosts length x.family.width ∧
    lowest.value + Subnet.hosts length x.family.width ≤ x.family.space := by
  obtain ⟨top, ends, _, value⟩ := Subnet.boundsAround x length
  have room := @Subnet.baseRoom length _ _ x.bound
  rw [← Subnet.aroundValue] at room
  rw [Subnet.bounds, subnet, ends] at bounds
  cases bounds
  exact ⟨by rw [subnet], rfl, value, Subnet.hostsTwo wide, room⟩

theorem startLeast : ((n.first.getD lowest.next).value : Int) = n.least lowest := by
  obtain ⟨_, family, _, two, room⟩ := subnetEnds subnet wide bounds
  have next := lowest.nextValue
  rw [family] at next
  unfold least
  cases n.first with
  | none =>
    simp only [Option.getD_none]
    omega
  | some a => rfl

theorem admitted (admits : n.Admits lowest) : ∃ r, n.range = .ok r := by
  obtain ⟨_, family, _⟩ := subnetEnds subnet wide bounds
  have start := startLeast subnet wide bounds
  have member {a : Address} (inside : n.subnet.contains a = true) : a.family = x.family := by
    rw [subnet] at inside
    exact ((Subnet.containsAround x length a).mp inside).1
  have here : (n.first.getD lowest.next).family = x.family := by
    cases given : n.first with
    | none => exact family
    | some a => exact member (admits.first a given)
  refine rangeAdmitted bounds admits.first fun a given => ?_
  obtain ⟨inside, ordered⟩ := admits.last a given
  rw [Address.ltIff ((member inside).trans here.symm)]
  exact ⟨inside, by omega⟩

end Wide

namespace Spans

variable (spans : Spans n r x length) (wide : length < 8 * x.family.width)
include spans

theorem straight (wide : length < 8 * x.family.width) : ¬ n.Wraps length := by
  rintro ⟨full, _⟩
  rw [spans.own] at full
  omega

variable (bounds : n.subnet.bounds = .ok (lowest, highest))
include wide bounds

theorem begins : (r.start.value : Int) = n.least lowest := by
  rw [← startLeast spans.subnet wide bounds]
  obtain ⟨here, _⟩ := subnetEnds spans.subnet wide bounds
  cases first : n.first with
  | none => rw [spans.lowest first, here, Option.getD_none]
  | some a => rw [(spans.first a first).1, Option.getD_some]

theorem admits : n.Admits lowest where
  first a given := (spans.first a given).2
  last a given := by
    obtain ⟨_, inside, ordered⟩ := spans.last a given
    have start := spans.begins wide bounds
    exact ⟨inside, by omega⟩

theorem containsInterval (a : Address) :
    r.contains a = true ↔
      a.family = x.family ∧ n.least lowest ≤ a.value ∧ a.value ≤ n.greatest highest := by
  obtain ⟨here, _, value, two, room⟩ := subnetEnds spans.subnet wide bounds
  have start := spans.begins wide bounds
  by_cases family : a.family = x.family
  · have top := a.bound
    rw [family] at top
    rw [spans.contains a family, and_iff_right family, ← start, greatest]
    cases last : n.last with
    | none =>
      have stop := spans.highest last
      rw [← here] at stop
      dsimp only
      omega
    | some b =>
      obtain ⟨after, held, above⟩ := spans.last b last
      rw [spans.member b] at held
      -- The bound after the last address of a family is zero.
      have stop := b.nextValue
      rw [← after, held.1] at stop
      dsimp only
      omega
  · constructor
    · intro inside
      exact absurd ((Range.containsFamily inside).trans spans.start) family
    · intro inside
      exact absurd inside.1 family

theorem emptyInterval : r.isEmpty = true ↔ n.greatest highest < n.least lowest := by
  rw [Range.isEmpty, Bool.not_eq_true', ← Bool.not_eq_true, spans.containsInterval wide bounds,
    and_iff_right spans.start, spans.begins wide bounds, and_iff_right (Int.le_refl _),
    Int.not_le]

end Spans
end Network

namespace Allocator

theorem ofNetworkRange (n : Network) : ofNetwork n = n.range.map (Allocator.mk n) := by
  unfold ofNetwork
  cases n.range with
  | error fault => rfl
  | ok range => rfl

/-- A network over a subnet with a host bit is accepted if its bounds admit an interval, and refused
for its range otherwise; its range then is that interval, within the subnet. -/
theorem rangeExact {n : Network} {x : Address} {length : Nat}
    (cidr : Subnet.ofLength x length = .ok n.subnet) (wide : length < 8 * x.family.width) :
    ∃ lowest highest, n.subnet.bounds = .ok (lowest, highest) ∧
      ((∃ r, ofNetwork n = .ok r) ↔ n.Admits lowest) ∧
      (¬ n.Admits lowest → ∃ cause, ofNetwork n = .error (.range cause)) ∧
      ∀ r, ofNetwork n = .ok r →
        (∀ a, r.range.contains a = true ↔
          a.family = x.family ∧ n.least lowest ≤ a.value ∧ a.value ≤ n.greatest highest) ∧
        (r.range.isEmpty = true ↔ n.greatest highest < n.least lowest) ∧
        ∀ a, r.range.contains a = true → n.subnet.contains a = true := by
  have subnet := (Subnet.ofLengthIff.mp cidr).2
  obtain ⟨highest, ends, _⟩ := Subnet.boundsAround x length
  have bounds : n.subnet.bounds = .ok ((Subnet.around x length).address, highest) := by
    rw [Subnet.bounds, subnet, ends]
  refine ⟨_, highest, bounds, ?_⟩
  rw [ofNetworkRange]
  cases made : n.range with
  | error fault =>
    obtain ⟨cause, rfl⟩ := Network.rangeRefusal bounds made
    refine ⟨⟨?_, ?_⟩, fun _ => ⟨cause, rfl⟩, ?_⟩
    · rintro ⟨r, accepted⟩
      cases accepted
    · intro admits
      obtain ⟨r, accepted⟩ := Network.admitted subnet wide bounds admits
      cases made.symm.trans accepted
    · intro r accepted
      cases accepted
  | ok range =>
    have spans := Network.rangeSpans subnet made
    have admits := spans.admits wide bounds
    refine ⟨⟨fun _ => admits, fun _ => ⟨_, rfl⟩⟩, fun refused => absurd admits refused, ?_⟩
    rintro r ⟨⟩
    refine ⟨spans.containsInterval wide bounds, spans.emptyInterval wide bounds, fun a inside => ?_⟩
    exact spans.within (Nat.le_of_lt wide) (spans.straight wide) inside

def uppermost (last : Address) : Network :=
  ⟨"net", .around (.wrap .v4 0xFFFFFFF8) 29, none, some last, none, none, []⟩

theorem uppermostInterval :
    let own : Address := .wrap .v4 0xFFFFFFF8
    let top : Address := .wrap .v4 0xFFFFFFFF
    (∀ last, Subnet.ofLength own 29 = .ok (uppermost last).subnet) ∧ 29 < 8 * own.family.width ∧
      (∃ r, ofNetwork (uppermost top) = .ok r ∧ r.range.isEmpty = false ∧
        r.range.contains top = true ∧ r.range.contains own = false ∧
        r.range.contains (.wrap .v4 0) = false ∧ r.range.contains (.wrap .v6 0xFFFFFFFF) = false) ∧
      ∃ cause, ofNetwork (uppermost own) = .error (.range cause) := by
  intro own top
  have cidr (last : Address) : Subnet.ofLength own 29 = .ok (uppermost last).subnet := rfl
  have wide : 29 < 8 * own.family.width := by decide
  obtain ⟨_, _, bounds, accepted, _, exact⟩ := rangeExact (cidr top) wide
  obtain ⟨_, _, ends, _, refused, _⟩ := rangeExact (cidr own) wide
  cases bounds
  cases ends
  refine ⟨cidr, wide, ?_, refused ?_⟩
  · obtain ⟨r, made⟩ := accepted.mpr ⟨by rintro _ ⟨⟩, by rintro _ ⟨⟩; decide⟩
    obtain ⟨members, empty, _⟩ := exact r made
    refine ⟨r, made, ?_⟩
    simp only [← Bool.not_eq_true, members, empty]
    decide
  · intro admits
    exact absurd (admits.last own rfl).2 (by decide)

end Allocator
end AddressPool
