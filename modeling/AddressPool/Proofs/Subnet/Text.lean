import AddressPool.Network
import AddressPool.Proofs.Address.Text
import AddressPool.Proofs.Subnet.Mask
import AddressPool.Proofs.Subnet.Membership

/-! Subnets and routes in text. A subnet with a length is written as its own address, a slash and
the length; around that address lies the same subnet, so it is read back. No written subnet holds
a comma, so a gateway can follow one. -/
namespace AddressPool.Subnet

theorem aroundOwn (x : Address) (length : Nat) :
    around (around x length).address length = around x length := by
  rw [aroundIff (aroundFamily x length), aroundValue, baseBase]

theorem lengthByte {family : Family} {length : Nat} (whole : length ≤ 8 * family.width) :
    length ≤ 255 := by
  refine Nat.le_trans whole ?_
  cases family <;> decide

theorem aroundLength {x : Address} {length : Nat} (whole : length ≤ 8 * x.family.width) :
    (around x length).length? = some length :=
  maskLengthIff.mpr ⟨lengthByte whole, lengthMaskLeads whole⟩

theorem charsAround {x : Address} {length : Nat} (whole : length ≤ 8 * x.family.width) :
    (around x length).chars = (around x length).address.chars ++ '/' :: Numeral.write length := by
  rw [chars, aroundLength whole]

theorem textAround {x : Address} {length : Nat} (whole : length ≤ 8 * x.family.width) :
    ofText (around x length).text = .ok (around x length) := by
  have slashless : '/' ∉ (around x length).address.chars := fun member =>
    (Address.charsWritten member).apart.1 rfl
  rw [ofText, text, String.toList_ofList, charsAround whole, Fields.cutAppend _ slashless]
  simp only [Address.textRead, Numeral.readWritten (lengthByte whole)]
  exact ofLengthIff.mpr ⟨whole, (aroundOwn x length).symm⟩

theorem charsAroundApart {x : Address} {length : Nat} (whole : length ≤ 8 * x.family.width)
    {c : Char} (member : c ∈ (around x length).chars) : c ≠ ',' ∧ Blank.isBlank c = false := by
  rw [charsAround whole] at member
  rcases List.mem_append.mp member with address | later
  · exact (Address.charsWritten address).apart.2
  · rcases List.mem_cons.mp later with rfl | digit
    · decide
    · exact (Address.decimalApart digit).1.apart.2

/-- A subnet given by an address and a length is read from its own text, and with a comma and the
text of a gateway after it the route to it is read. -/
theorem writtenRead (x : Address) {length : Nat} (whole : length ≤ 8 * x.family.width) :
    ∃ s, ofLength x length = .ok s ∧ ofText s.text = .ok s ∧
      ∀ gateway : Address,
        Route.ofText (s.text ++ "," ++ gateway.text) = .ok ⟨s, some gateway⟩ := by
  refine ⟨_, ofLengthIff.mpr ⟨whole, rfl⟩, textAround whole, fun gateway => ?_⟩
  have commaless : ',' ∉ (around x length).chars := fun member =>
    (charsAroundApart whole member).1 rfl
  have front : Blank.trim (around x length).chars = (around x length).chars :=
    Blank.trimPlain fun c member => (charsAroundApart whole member).2
  have back : Blank.trim gateway.chars = gateway.chars :=
    Blank.trimPlain fun c member => (Address.charsWritten member).apart.2.2
  have joined : ((around x length).text ++ "," ++ gateway.text).toList =
      (around x length).chars ++ ',' :: gateway.chars := by
    simp [text, Address.text]
  rw [Route.ofText, joined, Fields.cutAppend _ commaless]
  simp only [back, Address.textRead, front]
  rw [show String.ofList (around x length).chars = (around x length).text from rfl, textAround whole]
  rfl

theorem middleRead :
    let host : Address := .wrap .v6 0x20010db8000000000000fffff2345678
    let gateway : Address := .wrap .v6 0xffff0a0000fe
    99 ≤ 8 * host.family.width ∧
      ∃ s, ofLength host 99 = .ok s ∧ s.text = "2001:db8::ffff:e000:0/99" ∧ ofText s.text = .ok s ∧
        gateway.text = "::ffff:10.0.0.254" ∧
        Route.ofText (s.text ++ "," ++ gateway.text) = .ok ⟨s, some gateway⟩ := by
  intro host gateway
  have whole : 99 ≤ 8 * host.family.width := by decide
  obtain ⟨s, made, read, routes⟩ := writtenRead host whole
  obtain ⟨_, rfl⟩ := ofLengthIff.mp made
  exact ⟨whole, _, made, by decide +kernel, read, by decide +kernel, routes gateway⟩

end AddressPool.Subnet
