import AddressPool.Fault

/-! Subnets from text and from an address with a length, the bounds of a subnet, and
the check that an address lies inside. Each refusal names its cause. -/
namespace AddressPool.Subnet

def ofLength (a : Address) (length : Nat) : Except Fault Subnet :=
  if 8 * a.family.width < length then .error (.subnet (.tooLong length a))
  else .ok (around a length)

def ofText (text : String) : Except Fault Subnet :=
  match Fields.cut '/' text.toList with
  | none => .error (.subnet (.withoutLength text))
  | some (front, back) =>
      match Address.ofText? front with
      | none => .error (.subnet (.badAddress text))
      | some address =>
          match Numeral.read 255 back with
          | .error fault => .error (.subnet (.badLength text fault))
          | .ok length => ofLength address length

def bounds (s : Subnet) : Except Fault (Address × Address) :=
  match s.bounds? with
  | some bounds => .ok bounds
  | none => .error (.subnet (.maskWidth s.address s.mask.length))

def checkInside (s : Subnet) (a : Address) : Except Fault Unit :=
  if s.contains a then .ok () else .error (.range (.outside a s))

end AddressPool.Subnet
