import AddressPool.Proofs.Subnet.Numeric
import AddressPool.Subnet.Reading

/-! What it is to be a member of a subnet given by its length. The test works byte by byte under the
mask; the same addresses lie between the bounds in numeric order, and the same addresses have this
very subnet around them. -/
namespace AddressPool.Subnet

theorem ofLengthIff {a : Address} {length : Nat} {s : Subnet} :
    ofLength a length = .ok s ↔ length ≤ 8 * a.family.width ∧ s = around a length := by
  unfold ofLength
  split
  · next long => simp [Nat.not_le.mpr long]
  · next short => simp [Nat.not_lt.mp short, eq_comm]

theorem containsIff {x a : Address} {length : Nat} :
    (around x length).contains a = true ↔ a.family = x.family ∧
      base length x.family.width a.value = base length x.family.width x.value := by
  rw [containsAround, aroundValue, ← baseIff]

theorem aroundIff {x a : Address} {length : Nat} (family : a.family = x.family) :
    around a length = around x length ↔
      base length x.family.width a.value = base length x.family.width x.value := by
  have left := aroundValue a length
  rw [family] at left
  rw [← left, ← aroundValue x length]
  constructor
  · intro same
    rw [same]
  · intro value
    have address : (around a length).address = (around x length).address :=
      Address.alike family value
    have mask : (around a length).mask = (around x length).mask := by
      change lengthMask length a.family.width = lengthMask length x.family.width
      rw [family]
    calc around a length = ⟨(around a length).address, (around a length).mask⟩ := rfl
      _ = ⟨(around x length).address, (around x length).mask⟩ := by rw [address, mask]

/-- A subnet begins at a multiple of its size and holds as many addresses, among them the one it was
made from. A member is told by the bits under the mask, by its number, or by the subnet around it. -/
theorem membersExact (x : Address) {length : Nat} (whole : length ≤ 8 * x.family.width) :
    ∃ s first last, ofLength x length = .ok s ∧ s.bounds = .ok (first, last) ∧
      first.family = x.family ∧ last.family = x.family ∧
      2 ^ (8 * x.family.width - length) ∣ first.value ∧
      last.value = first.value + (2 ^ (8 * x.family.width - length) - 1) ∧
      s.contains x = true ∧
      ∀ a, (s.contains a = true ↔
          a.family = x.family ∧ first.value ≤ a.value ∧ a.value ≤ last.value) ∧
        (s.contains a = true ↔ a.family = x.family ∧ ofLength a length = .ok s) := by
  obtain ⟨last, bounds, family, value⟩ := boundsAround x length
  refine ⟨around x length, (around x length).address, last, ofLengthIff.mpr ⟨whole, rfl⟩,
    by rw [Subnet.bounds, bounds], rfl, family, ?_, value, containsIff.mpr ⟨rfl, rfl⟩,
    fun a => ⟨?_, ?_⟩⟩
  · rw [aroundValue, base]
    exact Nat.dvd_mul_left _ _
  · have positive := hostsPos length x.family.width
    rw [containsAround, value]
    refine and_congr_right fun _ => and_congr_right fun _ => ?_
    omega
  · rw [containsIff]
    refine and_congr_right fun same => ?_
    rw [ofLengthIff, @eq_comm _ (around x length), aroundIff same, same]
    exact (and_iff_right whole).symm

theorem eightMembers :
    let host : Address := .wrap .v4 0x0A00000D
    29 ≤ 8 * host.family.width ∧
      ∃ s, ofLength host 29 = .ok s ∧ s.contains host = true ∧
        s.contains (.wrap .v4 0x0A00000F) = true ∧ s.contains (.wrap .v4 0x0A000010) = false := by
  intro host
  have whole : 29 ≤ 8 * host.family.width := by decide
  obtain ⟨s, first, last, made, bounds, _, _, _, _, own, members⟩ := membersExact host whole
  obtain ⟨_, rfl⟩ := ofLengthIff.mp made
  have ends : first = .wrap .v4 0x0A000008 ∧ last = .wrap .v4 0x0A00000F := by
    cases bounds
    decide
  obtain ⟨rfl, rfl⟩ := ends
  refine ⟨whole, _, made, own, ?_, ?_⟩
  · rw [(members _).1]
    decide
  · rw [← Bool.not_eq_true, (members _).1]
    decide

end AddressPool.Subnet
