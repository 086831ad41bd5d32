import AddressPool.Bytes

/-! Lower-case hexadecimal text. -/
namespace AddressPool.Hex

def digit (n : Nat) : Char := Nat.digitChar (n % 16)

def ofByte (b : UInt8) : List Char := [digit (b.toNat / 16), digit b.toNat]

def ofBytes (bytes : Bytes) : String :=
  bytes.foldl (fun text b => (text.push (digit (b.toNat / 16))).push (digit b.toNat)) ""

def ofNat (n : Nat) : String := String.ofList (Nat.toDigits 16 n)

def ofWord (w : UInt32) : String := "0x" ++ ofBytes (Bytes.bigEndian 4 w.toNat)

def value? (c : Char) : Option Nat :=
  if c.isDigit then some (c.toNat - '0'.toNat)
  else if 'a' ≤ c ∧ c ≤ 'f' then some (c.toNat - 'a'.toNat + 10)
  else if 'A' ≤ c ∧ c ≤ 'F' then some (c.toNat - 'A'.toNat + 10)
  else none

end AddressPool.Hex
