import AddressPool.Subnet
import Mathlib.Tactic.Ring

/-! Masks as arithmetic. A mask of `length` ones cuts a number down to a multiple of the host
count, and its complement fills the number up to the last one before the next multiple, so
the members of a subnet are an interval. -/
namespace AddressPool

namespace Bytes

theorem spacePow (width : Nat) : space width = 2 ^ (8 * width) := by
  induction width with
  | zero => rfl
  | succ width ih =>
    rw [space, ih, Nat.mul_add, Nat.pow_add]
    exact Nat.mul_comm 256 _

theorem ofLittleEndianLast (front : Bytes) (b : UInt8) :
    ofLittleEndian (front ++ [b]) = ofLittleEndian front + space front.length * b.toNat := by
  induction front with
  | nil => simp [ofLittleEndian, space]
  | cons a rest ih =>
    simp only [List.cons_append, ofLittleEndian, ih, List.length_cons, space]
    ring

theorem ofBigEndianCons (b : UInt8) (rest : Bytes) :
    ofBigEndian (b :: rest) = space rest.length * b.toNat + ofBigEndian rest := by
  rw [ofBigEndian, List.reverse_cons, ofLittleEndianLast, List.length_reverse, Nat.add_comm]
  rfl

theorem ofBigEndianInj {xs ys : Bytes} (width : xs.length = ys.length)
    (same : ofBigEndian xs = ofBigEndian ys) : xs = ys := by
  have left := littleEndianRead xs.reverse
  have right := littleEndianRead ys.reverse
  rw [List.length_reverse] at left right
  apply List.reverse_inj.mp
  rw [← left, ← right, width]
  exact congrArg (littleEndian ys.length) same

end Bytes

namespace Address

theorem alike {a b : Address} (family : a.family = b.family) (value : a.value = b.value) : a = b := by
  cases a
  cases b
  simp_all

end Address

namespace Subnet
open Bytes

def hosts (length width : Nat) : Nat := 2 ^ (8 * width - length)

theorem hostsPos (length width : Nat) : 0 < hosts length width := Nat.two_pow_pos _

theorem hostsOne {length width : Nat} (one : hosts length width = 1) : 8 * width ≤ length := by
  rw [hosts, Nat.pow_eq_one] at one
  omega

theorem hostsTwo {length width : Nat} (wide : length < 8 * width) : 2 ≤ hosts length width := by
  have positive := hostsPos length width
  by_contra few
  have none := hostsOne (show hosts length width = 1 by omega)
  omega

theorem hostsPast {length : Nat} (past : 8 ≤ length) (width : Nat) :
    hosts length (width + 1) = hosts (length - 8) width := by
  rw [hosts, hosts]
  congr 1
  omega

theorem hostsWithin {length : Nat} (within : length < 8) (width : Nat) :
    hosts length (width + 1) = space width * 2 ^ (8 - length) := by
  rw [hosts, spacePow, ← Nat.pow_add]
  congr 1
  omega

theorem hostsDvd (length width : Nat) : hosts length width ∣ space width := by
  rw [hosts, spacePow]
  exact Nat.pow_dvd_pow 2 (Nat.sub_le _ _)

def base (length width value : Nat) : Nat := value / hosts length width * hosts length width

theorem onesByteAnd {length : Nat} (within : length < 8) (b : UInt8) :
    (b &&& onesByte length).toNat = b.toNat / 2 ^ (8 - length) * 2 ^ (8 - length) := by
  have all : ∀ length : Fin 8, ∀ x : Fin 256, x.val &&& (onesByte length).toNat =
      x.val / 2 ^ (8 - length.val) * 2 ^ (8 - length.val) := by decide +kernel
  rw [UInt8.toNat_and]
  exact all ⟨length, within⟩ ⟨b.toNat, b.toNat_lt⟩

theorem onesByteOr {length : Nat} (within : length < 8) (b : UInt8) :
    (b ||| ~~~onesByte length).toNat =
      b.toNat / 2 ^ (8 - length) * 2 ^ (8 - length) + (2 ^ (8 - length) - 1) := by
  have all : ∀ length : Fin 8, ∀ x : Fin 256, x.val ||| (~~~onesByte length).toNat =
      x.val / 2 ^ (8 - length.val) * 2 ^ (8 - length.val) + (2 ^ (8 - length.val) - 1) := by
    decide +kernel
  rw [UInt8.toNat_or]
  exact all ⟨length, within⟩ ⟨b.toNat, b.toNat_lt⟩

theorem onesBytePast {length : Nat} (past : 8 ≤ length) : onesByte length = 0xFF := by
  match length, past with
  | length + 8, _ => rfl

theorem basePast {length width : Nat} (past : 8 ≤ length) (high low : Nat) :
    base length (width + 1) (space width * high + low) =
      space width * high + base (length - 8) width low := by
  obtain ⟨factor, whole⟩ := hostsDvd (length - 8) width
  rw [base, base, hostsPast past, whole, Nat.mul_assoc, Nat.mul_add_div (hostsPos _ _)]
  ring

theorem baseWithin {length width : Nat} (within : length < 8) {high low : Nat}
    (bound : low < space width) :
    base length (width + 1) (space width * high + low) =
      space width * (high / 2 ^ (8 - length) * 2 ^ (8 - length)) := by
  rw [base, hostsWithin within, ← Nat.div_div_eq_div_mul, Nat.mul_add_div (spacePos width),
    Nat.div_eq_of_lt bound, Nat.add_zero]
  ring

theorem maskedValue (length : Nat) (bytes : Bytes) :
    ofBigEndian (bytes.zipWith (· &&& ·) (lengthMask length bytes.length)) =
      base length bytes.length (ofBigEndian bytes) := by
  induction bytes generalizing length with
  | nil => simp [ofBigEndian, ofLittleEndian, base]
  | cons b rest ih =>
    have width : (rest.zipWith (· &&& ·) (lengthMask (length - 8) rest.length)).length =
        rest.length := by simp
    simp only [List.length_cons, lengthMask, List.zipWith_cons_cons, ofBigEndianCons, ih, width]
    by_cases within : length < 8
    · have nothing : length - 8 = 0 := by omega
      have low := ofBigEndianBound rest
      have cleared : base 0 rest.length (ofBigEndian rest) = 0 := by
        rw [base, hosts, Nat.sub_zero, ← spacePow, Nat.div_eq_of_lt low, Nat.zero_mul]
      rw [baseWithin within low, nothing, cleared, onesByteAnd within, Nat.add_zero]
    · have past : 8 ≤ length := Nat.not_lt.mp within
      have kept : b &&& 0xFF = b := UInt8.and_neg_one
      rw [basePast past, onesBytePast past, kept]

theorem filledValue (length : Nat) (bytes : Bytes) :
    ofBigEndian (bytes.zipWith (fun b m => b ||| ~~~m) (lengthMask length bytes.length)) =
      base length bytes.length (ofBigEndian bytes) + (hosts length bytes.length - 1) := by
  induction bytes generalizing length with
  | nil => simp [ofBigEndian, ofLittleEndian, base, hosts]
  | cons b rest ih =>
    have width : (rest.zipWith (fun b m => b ||| ~~~m)
        (lengthMask (length - 8) rest.length)).length = rest.length := by simp
    simp only [List.length_cons, lengthMask, List.zipWith_cons_cons, ofBigEndianCons, ih, width]
    by_cases within : length < 8
    · have nothing : length - 8 = 0 := by omega
      have low := ofBigEndianBound rest
      have cleared : base 0 rest.length (ofBigEndian rest) = 0 := by
        rw [base, hosts, Nat.sub_zero, ← spacePow, Nat.div_eq_of_lt low, Nat.zero_mul]
      have all : hosts 0 rest.length = space rest.length := by
        rw [hosts, Nat.sub_zero, spacePow]
      rw [baseWithin within low, nothing, cleared, all, onesByteOr within, hostsWithin within,
        Nat.zero_add, Nat.mul_add, Nat.mul_sub, Nat.mul_one]
      have one := spacePos rest.length
      have more : space rest.length ≤ space rest.length * 2 ^ (8 - length) :=
        Nat.le_mul_of_pos_right _ (Nat.two_pow_pos _)
      omega
    · have past : 8 ≤ length := Nat.not_lt.mp within
      have kept : b ||| ~~~0xFF = b := UInt8.or_zero
      rw [basePast past, onesBytePast past, hostsPast past, kept, Nat.add_assoc]

section Around

variable (x : Address) (length : Nat)

@[simp] theorem aroundFamily : (around x length).address.family = x.family := rfl

theorem aroundValue :
    (around x length).address.value = base length x.family.width x.value := by
  have masked := maskedValue length x.octets
  rw [Address.octetsLength, Address.octetsValue] at masked
  rw [← masked]
  exact Address.ofOctetsValue (by simp)

theorem aroundMaskLength :
    (around x length).mask.length = (around x length).address.family.width :=
  lengthMaskLength length x.family.width

theorem baseIff {length width : Nat} (a b : Nat) :
    base length width a = base length width b ↔
      base length width b ≤ a ∧ a < base length width b + hosts length width := by
  have positive := hostsPos length width
  have below := Nat.div_mul_le_self a (hosts length width)
  have above := Nat.lt_div_mul_add positive (a := a)
  constructor
  · intro same
    rw [← same]
    exact ⟨below, above⟩
  · rintro ⟨least, most⟩
    have quotient : a / hosts length width = b / hosts length width := by
      rw [Nat.div_eq_iff positive]
      unfold base at least most
      omega
    rw [base, base, quotient]

theorem baseRoom {length width value : Nat} (bound : value < space width) :
    base length width value + hosts length width ≤ space width := by
  obtain ⟨count, whole⟩ := hostsDvd length width
  have quotient : value / hosts length width < count := by
    rw [Nat.div_lt_iff_lt_mul (hostsPos length width), Nat.mul_comm, ← whole]
    exact bound
  calc base length width value + hosts length width
      = hosts length width * (value / hosts length width + 1) := by rw [base]; ring
    _ ≤ hosts length width * count := Nat.mul_le_mul_left _ quotient
    _ = space width := whole.symm

theorem baseBase (length width value : Nat) :
    base length width (base length width value) = base length width value := by
  rw [base, base, Nat.mul_div_cancel _ (hostsPos length width)]

theorem containsAround (a : Address) :
    (around x length).contains a = true ↔ a.family = x.family ∧
      (around x length).address.value ≤ a.value ∧
      a.value < (around x length).address.value + hosts length x.family.width := by
  have mine := maskedValue length (around x length).address.octets
  have other := maskedValue length a.octets
  rw [Address.octetsLength, Address.octetsValue] at mine other
  rw [aroundFamily, aroundValue, baseBase] at mine
  simp only [contains, Bool.and_eq_true, beq_iff_eq, aroundMaskLength, true_and, aroundFamily]
  refine and_congr_right fun family => ?_
  rw [family] at other
  rw [aroundValue, ← baseIff, ← other, ← mine]
  constructor
  · intro same
    exact congrArg ofBigEndian same.symm
  · intro same
    exact ofBigEndianInj (by simp [family]) same.symm

theorem boundsAround :
    ∃ top, (around x length).bounds? = some ((around x length).address, top) ∧
      top.family = x.family ∧
      top.value = (around x length).address.value + (hosts length x.family.width - 1) := by
  have filled := filledValue length (around x length).address.octets
  rw [Address.octetsLength, Address.octetsValue, aroundFamily] at filled
  refine ⟨_, if_pos (aroundMaskLength x length), rfl, ?_⟩
  rw [aroundFamily, Address.ofOctetsValue]
  · rw [aroundValue, baseBase, ← aroundValue] at filled
    exact filled
  · rw [List.length_zipWith, Address.octetsLength, aroundMaskLength, aroundFamily, Nat.min_self]

end Around
end Subnet
end AddressPool
