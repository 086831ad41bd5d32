import AddressPool.Bytes

/-! Addresses of both families as numbers below their family's space. Octets are the
number's big-endian bytes; the order puts every IPv4 address before every IPv6 one
and is numeric within a family. -/
namespace AddressPool

inductive Family where
  | v4
  | v6
  deriving DecidableEq, Repr

def Family.width : Family → Nat
  | .v4 => 4
  | .v6 => 16

def Family.space (family : Family) : Nat := Bytes.space family.width

theorem Family.spaceNonzero (family : Family) : 0 < family.space := Bytes.spacePos _

structure Address where
  family : Family
  value : Nat
  bound : value < family.space
  deriving DecidableEq, Repr

namespace Address

def wrap (family : Family) (value : Nat) : Address :=
  ⟨family, value % family.space, Nat.mod_lt _ family.spaceNonzero⟩

def octets (a : Address) : Bytes := Bytes.bigEndian a.family.width a.value

def ofOctets (family : Family) (bytes : Bytes) : Address := wrap family (Bytes.ofBigEndian bytes)

def ofOctets? (bytes : Bytes) : Option Address :=
  if bytes.length = Family.v4.width then some (ofOctets .v4 bytes)
  else if bytes.length = Family.v6.width then some (ofOctets .v6 bytes)
  else none

def next (a : Address) : Address := wrap a.family (a.value + 1)

def isZero (a : Address) : Bool := a.value == 0

def rank (a : Address) : Nat :=
  match a.family with
  | .v4 => a.value
  | .v6 => Family.v4.space + a.value

instance : LT Address := ⟨fun a b => a.rank < b.rank⟩
instance : LE Address := ⟨fun a b => a.rank ≤ b.rank⟩
instance (a b : Address) : Decidable (a < b) := inferInstanceAs (Decidable (a.rank < b.rank))
instance (a b : Address) : Decidable (a ≤ b) := inferInstanceAs (Decidable (a.rank ≤ b.rank))
instance : Ord Address := ⟨fun a b => compare a.rank b.rank⟩

theorem rankInj {a b : Address} (same : a.rank = b.rank) : a = b := by
  obtain ⟨f, x, hx⟩ := a
  obtain ⟨g, y, hy⟩ := b
  cases f <;> cases g <;> simp only [rank] at same
  · subst same; rfl
  · omega
  · omega
  · obtain rfl : x = y := by omega
    rfl

private theorem natOrder : Std.TransOrd Nat := inferInstance
private theorem natEqual : Std.LawfulEqOrd Nat := inferInstance

instance : Std.TransOrd Address where
  eq_swap {a b} := natOrder.eq_swap (a := a.rank) (b := b.rank)
  isLE_trans {a b c} h := natOrder.isLE_trans (a := a.rank) (b := b.rank) (c := c.rank) h

instance : Std.LawfulEqOrd Address where
  compare_self {a} := natEqual.compare_self (a := a.rank)
  eq_of_compare h := rankInj (natEqual.eq_of_compare h)

@[simp] theorem octetsLength (a : Address) : a.octets.length = a.family.width := by
  simp [octets]

theorem wrapValue (a : Address) : wrap a.family a.value = a := by
  obtain ⟨family, value, bound⟩ := a
  simp [wrap, Nat.mod_eq_of_lt bound]

theorem octetsValue (a : Address) : Bytes.ofBigEndian a.octets = a.value := by
  have written := (Bytes.ofLittleEndianWritten a.family.width a.value).trans
    (Nat.mod_eq_of_lt a.bound)
  simpa only [Bytes.ofBigEndian, octets, Bytes.bigEndian, List.reverse_reverse] using written

theorem ofOctetsValue {family : Family} {bytes : Bytes} (width : bytes.length = family.width) :
    (ofOctets family bytes).value = Bytes.ofBigEndian bytes := by
  have bound := Bytes.ofBigEndianBound bytes
  rw [width] at bound
  exact Nat.mod_eq_of_lt bound

theorem ofOctetsOctets (a : Address) : ofOctets a.family a.octets = a := by
  rw [ofOctets, octetsValue, wrapValue]

theorem octetsOfOctets {family : Family} {bytes : Bytes} (full : bytes.length = family.width) :
    (ofOctets family bytes).octets = bytes := by
  have digits := Bytes.littleEndianRead bytes.reverse
  rw [List.length_reverse, full] at digits
  rw [octets, ofOctetsValue full, Bytes.bigEndian, Bytes.ofBigEndian,
    show (ofOctets family bytes).family = family from rfl, digits, List.reverse_reverse]

end Address
end AddressPool
