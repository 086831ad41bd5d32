import AddressPool.Proofs.Network.Bounds

/-! What validation checks of a network, and what it overlooks. Every address that is given lies in the
subnet, so the range is refused only where none is given to show that the mask has another width, or
where the last address stands before the first. -/
namespace AddressPool

namespace Network

variable {n : Network} {fault : Fault}

inductive Overlooks (n : Network) : Fault → Prop where
  | width (wrong : n.subnet.mask.length ≠ n.subnet.address.family.width)
      (first : n.first = none) (last : n.last = none) (gateway : n.gateway = none) :
      Overlooks n (.subnet (.maskWidth n.subnet.address n.subnet.mask.length))
  | reversed {last : Address} (given : n.last = some last)
      (before : last < n.first.getD n.subnet.address.next) :
      Overlooks n (.range (.reversed last (n.first.getD n.subnet.address.next)))

structure Valid (n : Network) : Prop where
  name : checkName n.name = .ok ()
  first : ∀ a, n.first = some a → n.subnet.contains a = true
  last : ∀ a, n.last = some a → n.subnet.contains a = true
  gateway : ∀ a, n.gateway = some a → n.subnet.contains a = true

theorem validated (accepted : n.validate = .ok ()) : n.Valid := by
  simp only [validate, bind, Except.bind] at accepted
  split at accepted
  · cases accepted
  next name =>
  split at accepted
  · cases accepted
  next first =>
  split at accepted
  · cases accepted
  next last =>
  refine ⟨name, boundPassed.mp first, boundPassed.mp last, fun a given => ?_⟩
  simp only [given] at accepted
  split at accepted
  · assumption
  · cases accepted

theorem validateFault (refused : n.validate = .error fault) :
    fault.isConfigurationFault = true := by
  simp only [validate, bind, Except.bind] at refused
  split at refused
  · next name =>
    cases refused
    unfold checkName at name
    split at name <;> cases name
    rfl
  split at refused
  · next first =>
    cases refused
    obtain ⟨cause, rfl⟩ := boundRefused first
    rfl
  split at refused
  · next last =>
    cases refused
    obtain ⟨cause, rfl⟩ := boundRefused last
    rfl
  split at refused
  · split at refused <;> cases refused
    rfl
  · cases refused

theorem maskOfMember {s : Subnet} {a : Address} (member : s.contains a = true) :
    s.mask.length = s.address.family.width := by
  simp only [Subnet.contains, Bool.and_eq_true, beq_iff_eq] at member
  exact member.1.1

theorem rangeOverlooked (valid : n.Valid) : n.range = .error fault ↔ n.Overlooks fault := by
  have first := boundPassed.mpr valid.first
  by_cases width : n.subnet.mask.length = n.subnet.address.family.width
  · simp only [range, Subnet.bounds, Subnet.bounds?, if_pos width, bind, Except.bind, pure,
      Except.pure, first]
    cases given : n.last with
    | none =>
      constructor
      · intro refused
        cases refused
      · intro overlooks
        cases overlooks with
        | width wrong => exact absurd width wrong
        | reversed last => cases given.symm.trans last
    | some last =>
      simp only [Subnet.checkInside, if_pos (valid.last last given)]
      constructor
      · intro refused
        split at refused <;> cases refused
        exact .reversed given ‹_›
      · intro overlooks
        cases overlooks with
        | width wrong => exact absurd width wrong
        | reversed same before =>
          cases given.symm.trans same
          exact if_pos before
  · have unchecked (bound : Option Address)
        (inside : ∀ a, bound = some a → n.subnet.contains a = true) : bound = none := by
      cases bound with
      | none => rfl
      | some a => exact absurd (maskOfMember (inside a rfl)) width
    simp only [range, Subnet.bounds, Subnet.bounds?, if_neg width, bind, Except.bind]
    constructor
    · intro refused
      cases refused
      exact .width width (unchecked n.first valid.first) (unchecked n.last valid.last)
        (unchecked n.gateway valid.gateway)
    · intro overlooks
      cases overlooks with
      | width => rfl
      | reversed given => exact absurd (maskOfMember (valid.last _ given)) width

end Network

end AddressPool
