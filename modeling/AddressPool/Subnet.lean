import AddressPool.Address

/-! A subnet is an address with raw mask bytes, so that masks of any width and shape
can be held and refused by the arithmetic. A subnet whose mask does not have its
address's width contains nothing and has no bounds. -/
namespace AddressPool

structure Subnet where
  address : Address
  mask : Bytes
  deriving DecidableEq, Repr

namespace Subnet

def onesByte : (count : Nat) → UInt8
  | 0 => 0x00
  | 1 => 0x80
  | 2 => 0xC0
  | 3 => 0xE0
  | 4 => 0xF0
  | 5 => 0xF8
  | 6 => 0xFC
  | 7 => 0xFE
  | _ => 0xFF

def lengthMask : (length width : Nat) → Bytes
  | _, 0 => []
  | length, width + 1 => onesByte length :: lengthMask (length - 8) width

def byteOnes (b : UInt8) : Nat := (List.range 8).countP fun i => b.toNat.testBit i

def maskOnes : (mask : Bytes) → Nat
  | [] => 0
  | b :: rest => byteOnes b + maskOnes rest

/-- The number of leading ones, if no one follows a zero. The count is kept in eight
bits, so a mask of 256 ones or more has no length. -/
def maskLength? (mask : Bytes) : Option Nat :=
  let length := maskOnes mask % 256
  if lengthMask length mask.length = mask then some length else none

def length? (s : Subnet) : Option Nat := maskLength? s.mask

def around (a : Address) (length : Nat) : Subnet :=
  let mask := lengthMask length a.family.width
  ⟨.ofOctets a.family (a.octets.zipWith (· &&& ·) mask), mask⟩

def contains (s : Subnet) (a : Address) : Bool :=
  s.mask.length == s.address.family.width && a.family == s.address.family &&
    s.address.octets.zipWith (· &&& ·) s.mask == a.octets.zipWith (· &&& ·) s.mask

def bounds? (s : Subnet) : Option (Address × Address) :=
  if s.mask.length = s.address.family.width then
    some (s.address,
      .ofOctets s.address.family (s.address.octets.zipWith (fun b m => b ||| ~~~m) s.mask))
  else none

@[simp] theorem lengthMaskLength (length width : Nat) :
    (lengthMask length width).length = width := by
  induction width generalizing length with
  | zero => rfl
  | succ width ih => simp [lengthMask, ih]

end Subnet
end AddressPool
