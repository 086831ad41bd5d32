import AddressPool.Proofs.Subnet.Numeric

/-! Masks as rows of bits. A mask has a length exactly if its bits are ones and then only zeros, and
the ones are few enough to be counted in eight bits. -/
namespace AddressPool.Subnet

def byteBits (b : UInt8) : List Bool := (List.range 8).map fun i => b.toNat.testBit (7 - i)

def bits (mask : Bytes) : List Bool := mask.flatMap byteBits

def Leads (ones : Nat) (row : List Bool) : Prop :=
  ∃ zeros, row = List.replicate ones true ++ List.replicate zeros false

theorem byteBitsInj {a b : UInt8} (same : byteBits a = byteBits b) : a = b := by
  have agree := List.map_inj_left.mp same
  refine UInt8.toNat.inj (Nat.eq_of_testBit_eq fun i => ?_)
  by_cases inside : i < 8
  · have bit := agree (7 - i) (List.mem_range.mpr (by omega))
    rwa [show 7 - (7 - i) = i by omega] at bit
  · have high (c : UInt8) : c.toNat.testBit i = false :=
      Nat.testBit_lt_two_pow
        (Nat.lt_of_lt_of_le c.toNat_lt (Nat.pow_le_pow_right (by decide) (Nat.not_lt.mp inside)))
    rw [high a, high b]

theorem byteBitsLength (b : UInt8) : (byteBits b).length = 8 := by
  simp [byteBits]

theorem bitsLength (mask : Bytes) : (bits mask).length = 8 * mask.length := by
  induction mask with
  | nil => rfl
  | cons b rest ih =>
    have step : bits (b :: rest) = byteBits b ++ bits rest := rfl
    rw [step, List.length_append, byteBitsLength, ih, List.length_cons]
    omega

theorem bitsInj {a b : Bytes} (same : bits a = bits b) : a = b := by
  have width : a.length = b.length := by
    have bits := congrArg List.length same
    rw [bitsLength, bitsLength] at bits
    omega
  induction a generalizing b with
  | nil => exact (List.length_eq_zero_iff.mp width.symm).symm
  | cons x xs ih =>
    cases b with
    | nil => cases width
    | cons y ys =>
      obtain ⟨head, tail⟩ := List.append_inj same (by rw [byteBitsLength, byteBitsLength])
      rw [byteBitsInj head, ih tail (Nat.succ.inj width)]

theorem onesCount (mask : Bytes) : maskOnes mask = (bits mask).count true := by
  have byte (b : UInt8) : byteOnes b = (byteBits b).count true := by
    have all : ∀ x : Fin 256, ((List.range 8).countP fun i => x.val.testBit i) =
        ((List.range 8).map fun i => x.val.testBit (7 - i)).count true := by decide +kernel
    exact all ⟨b.toNat, b.toNat_lt⟩
  induction mask with
  | nil => rfl
  | cons b rest ih =>
    rw [maskOnes, byte, ih]
    exact List.count_append.symm

theorem Leads.count {ones : Nat} {row : List Bool} (leads : Leads ones row) :
    row.count true = ones := by
  obtain ⟨zeros, rfl⟩ := leads
  simp [List.count_replicate]

theorem onesByteBits (length : Nat) :
    byteBits (onesByte length) =
      List.replicate (min length 8) true ++ List.replicate (8 - length) false := by
  by_cases within : length < 8
  · have all : ∀ length : Fin 8, byteBits (onesByte length) =
        List.replicate (min length.val 8) true ++ List.replicate (8 - length.val) false := by decide
    exact all ⟨length, within⟩
  · have past : 8 ≤ length := Nat.not_lt.mp within
    rw [onesBytePast past, Nat.min_eq_right past, Nat.sub_eq_zero_of_le past]
    decide

theorem lengthMaskBits (length width : Nat) :
    bits (lengthMask length width) =
      List.replicate (min length (8 * width)) true ++
        List.replicate (8 * width - length) false := by
  induction width generalizing length with
  | zero => simp [lengthMask, bits]
  | succ width ih =>
    have step : bits (lengthMask length (width + 1)) =
        byteBits (onesByte length) ++ bits (lengthMask (length - 8) width) := rfl
    rw [step, onesByteBits, ih]
    rcases Nat.le_total length 8 with within | past
    · -- The ones end in this byte.
      rw [Nat.min_eq_left within, Nat.sub_eq_zero_of_le within, Nat.zero_min, List.replicate_zero,
        List.nil_append, Nat.sub_zero, List.append_assoc, List.replicate_append_replicate,
        Nat.min_eq_left (by omega : length ≤ 8 * (width + 1))]
      congr 2
      omega
    · rw [Nat.min_eq_right past, Nat.sub_eq_zero_of_le past, List.replicate_zero, List.append_nil,
        ← List.append_assoc, List.replicate_append_replicate]
      congr 2 <;> omega

theorem lengthMaskLeads {length width : Nat} (whole : length ≤ 8 * width) :
    Leads length (bits (lengthMask length width)) :=
  ⟨_, by rw [lengthMaskBits, Nat.min_eq_left whole]⟩

theorem maskLengthIff {mask : Bytes} {length : Nat} :
    maskLength? mask = some length ↔ length ≤ 255 ∧ Leads length (bits mask) := by
  simp only [maskLength?, onesCount]
  constructor
  · intro found
    split at found <;> cases found
    next rebuilt =>
    -- The count kept in eight bits is no larger than the count, so the mask rebuilt from it has
    -- as many ones as it says.
    have whole : (bits mask).count true % 256 ≤ 8 * mask.length :=
      Nat.le_trans (Nat.mod_le _ _) (bitsLength mask ▸ List.count_le_length)
    refine ⟨Nat.le_of_lt_succ (Nat.mod_lt _ (by decide)), ?_⟩
    have leads := lengthMaskLeads whole
    rwa [rebuilt] at leads
  · rintro ⟨small, leads⟩
    have ones := leads.count
    obtain ⟨zeros, row⟩ := leads
    have width := congrArg List.length row
    simp only [bitsLength, List.length_append, List.length_replicate] at width
    rw [ones, Nat.mod_eq_of_lt (Nat.lt_succ_of_le small), if_pos]
    apply bitsInj
    rw [lengthMaskBits, row, Nat.min_eq_left (by omega), width, Nat.add_sub_cancel_left]

/-- The length of a mask of any width is the number of ones it leads with, if nothing but zeros
follows and the number has eight bits; with more ones there is none, although the count wraps. -/
theorem lengthExact (s : Subnet) :
    (∀ length, s.length? = some length ↔ length ≤ 255 ∧ Leads length (bits s.mask)) ∧
      (256 ≤ (bits s.mask).count true → s.length? = none) := by
  have exact (length : Nat) : s.length? = some length ↔ length ≤ 255 ∧ Leads length (bits s.mask) :=
    maskLengthIff
  refine ⟨exact, fun many => ?_⟩
  cases found : s.length? with
  | none => rfl
  | some length =>
    obtain ⟨small, leads⟩ := (exact length).mp found
    have count := leads.count
    omega

theorem wideLengthless :
    let zero : Address := .wrap .v4 0
    let ones : Bytes := List.replicate 32 0xFF
    256 ≤ (bits ones).count true ∧ 256 ≤ (bits (ones ++ [0xF0])).count true ∧
      (Subnet.mk zero ones).length? = none ∧ (Subnet.mk zero (ones ++ [0xF0])).length? = none ∧
      (Subnet.mk zero (ones.drop 1 ++ [0xFE])).length? = some 255 := by
  intro zero ones
  have many : 256 ≤ (bits ones).count true := by decide +kernel
  have more : 256 ≤ (bits (ones ++ [0xF0])).count true := by decide +kernel
  exact ⟨many, more, (lengthExact ⟨zero, ones⟩).2 many, (lengthExact ⟨zero, ones ++ [0xF0]⟩).2 more,
    ((lengthExact ⟨zero, ones.drop 1 ++ [0xFE]⟩).1 255).mpr
      ⟨Nat.le_refl _, 1, by decide +kernel⟩⟩

end AddressPool.Subnet
