/-! Byte strings and the fixed-width numbers written in them. `littleEndian` and
`ofLittleEndian` undo each other on numbers that fit; a wider number loses its
high bytes. `split` gives the first bytes of a string only when all are there. -/
namespace AddressPool

abbrev Bytes := List UInt8

namespace Bytes

def littleEndian : (width value : Nat) → Bytes
  | 0, _ => []
  | width + 1, value => UInt8.ofNat value :: littleEndian width (value / 256)

def ofLittleEndian : Bytes → Nat
  | [] => 0
  | b :: rest => b.toNat + 256 * ofLittleEndian rest

def bigEndian (width value : Nat) : Bytes := (littleEndian width value).reverse

def ofBigEndian (bytes : Bytes) : Nat := ofLittleEndian bytes.reverse

def space : (width : Nat) → Nat
  | 0 => 1
  | width + 1 => 256 * space width

def split (count : Nat) (bytes : Bytes) : Option (Bytes × Bytes) :=
  let front := bytes.take count
  if front.length = count then some (front, bytes.drop count) else none

@[simp] theorem littleEndianLength (width value : Nat) :
    (littleEndian width value).length = width := by
  induction width generalizing value with
  | zero => rfl
  | succ width ih => simp [littleEndian, ih]

@[simp] theorem bigEndianLength (width value : Nat) :
    (bigEndian width value).length = width := by
  simp [bigEndian]

theorem spacePos (width : Nat) : 0 < space width := by
  induction width with
  | zero => decide
  | succ width ih => simp only [space]; omega

theorem ofLittleEndianBound (bytes : Bytes) : ofLittleEndian bytes < space bytes.length := by
  induction bytes with
  | nil => decide
  | cons b rest ih =>
    have byte := b.toNat_lt
    simp only [ofLittleEndian, List.length_cons, space]
    omega

theorem ofBigEndianBound (bytes : Bytes) : ofBigEndian bytes < space bytes.length := by
  simpa [ofBigEndian] using ofLittleEndianBound bytes.reverse

theorem ofLittleEndianWritten (width value : Nat) :
    ofLittleEndian (littleEndian width value) = value % space width := by
  induction width generalizing value with
  | zero => simp [littleEndian, ofLittleEndian, space, Nat.mod_one]
  | succ width ih =>
    simp only [littleEndian, ofLittleEndian, ih, space]
    rw [Nat.mod_mul]
    simp

theorem littleEndianRead (bytes : Bytes) :
    littleEndian bytes.length (ofLittleEndian bytes) = bytes := by
  induction bytes with
  | nil => rfl
  | cons b rest ih =>
    have byte := b.toNat_lt
    have low : UInt8.ofNat (b.toNat + 256 * ofLittleEndian rest) = b := by
      apply UInt8.toNat.inj
      simp only [UInt8.toNat_ofNat']
      omega
    have high : (b.toNat + 256 * ofLittleEndian rest) / 256 = ofLittleEndian rest := by omega
    simp [littleEndian, ofLittleEndian, low, high, ih]

theorem splitExact {count : Nat} {bytes front rest : Bytes} :
    split count bytes = some (front, rest) ↔ bytes = front ++ rest ∧ front.length = count := by
  constructor
  · intro h
    simp only [split] at h
    split at h
    · next full =>
      obtain ⟨rfl, rfl⟩ := Prod.mk.inj (Option.some.inj h)
      exact ⟨(List.take_append_drop count bytes).symm, full⟩
    · contradiction
  · rintro ⟨rfl, rfl⟩
    simp [split]

theorem splitNone {count : Nat} {bytes : Bytes} :
    split count bytes = none ↔ bytes.length < count := by
  simp only [split, List.length_take]
  split <;> simp <;> omega

theorem splitTake {count : Nat} {bytes front rest : Bytes} :
    split count bytes = some (front, rest) ↔
      count ≤ bytes.length ∧ front = bytes.take count ∧ rest = bytes.drop count := by
  rw [splitExact]
  constructor
  · rintro ⟨rfl, rfl⟩
    simp
  · rintro ⟨full, rfl, rfl⟩
    exact ⟨(List.take_append_drop count bytes).symm, List.length_take_of_le full⟩

theorem fieldBound (width : Nat) (bytes : Bytes) : ofLittleEndian (bytes.take width) < space width := by
  induction width generalizing bytes with
  | zero => simp [ofLittleEndian, space]
  | succ width ih =>
    cases bytes with
    | nil => exact spacePos _
    | cons b rest =>
      have byte := b.toNat_lt
      have tail := ih rest
      simp only [List.take_succ_cons, ofLittleEndian, space]
      omega

theorem fieldRead {width : Nat} {bytes : Bytes} (full : width ≤ bytes.length) :
    littleEndian width (ofLittleEndian (bytes.take width)) = bytes.take width := by
  have read := littleEndianRead (bytes.take width)
  rwa [List.length_take, Nat.min_eq_left full] at read

theorem wordIff {n : Nat} (small : n < space 4) (sum : UInt32) :
    UInt32.ofNat n = sum ↔ n = sum.toNat := by
  constructor
  · rintro rfl
    exact (Nat.mod_eq_of_lt small).symm
  · rintro rfl
    exact UInt32.ofNat_toNat

end Bytes
end AddressPool
