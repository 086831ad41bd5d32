import AddressPool.Address.Text
import AddressPool.Subnet

/-! A subnet is written with its length, or with the digits of a mask that has none. -/
namespace AddressPool.Subnet

def chars (s : Subnet) : List Char :=
  s.address.chars ++ '/' ::
    match s.length? with
    | some length => Numeral.write length
    | none => s.mask.flatMap Hex.ofByte

def text (s : Subnet) : String := String.ofList s.chars

instance : ToString Subnet := ⟨text⟩

end AddressPool.Subnet
