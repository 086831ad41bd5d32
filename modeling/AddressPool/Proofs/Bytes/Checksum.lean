import AddressPool.Bytes.Checksum

/-! What the checksum detects. A step of the register loses nothing, neither of the register
nor of the byte that it absorbs, so two texts that differ in one byte never have the same sum. -/
namespace AddressPool

namespace Bytes

def Altered (place : Nat) (bytes other : Bytes) : Prop :=
  ∃ old new, bytes[place]? = some old ∧ new ≠ old ∧ other = bytes.set place new

variable {place : Nat} {bytes other front rest : Bytes}

theorem Altered.length (altered : Altered place bytes other) : other.length = bytes.length := by
  obtain ⟨old, new, _, _, rfl⟩ := altered
  exact List.length_set

theorem Altered.inside (altered : Altered place bytes other) : place < bytes.length := by
  obtain ⟨old, _, there, _⟩ := altered
  exact (List.getElem?_eq_some_iff.mp there).1

theorem Altered.differs (altered : Altered place bytes other) : other ≠ bytes := by
  obtain ⟨old, new, there, differ, rfl⟩ := altered
  intro same
  have found := List.getElem?_set_self (a := new) (List.getElem?_eq_some_iff.mp there).1
  rw [same, there] at found
  exact differ (Option.some.inj found).symm

theorem Altered.parts (altered : Altered place bytes other) :
    ∃ before old new after, bytes = before ++ old :: after ∧ other = before ++ new :: after ∧
      new ≠ old := by
  obtain ⟨old, new, there, differ, rfl⟩ := altered
  obtain ⟨inside, here⟩ := List.getElem?_eq_some_iff.mp there
  refine ⟨bytes.take place, old, new, bytes.drop (place + 1), ?_, ?_, differ⟩
  · rw [← here, List.getElem_cons_drop, List.take_append_drop]
  · rw [List.set_eq_take_append_cons_drop, if_pos inside]

theorem alteredAppend (altered : Altered place (front ++ rest) other) :
    (∃ piece, Altered place front piece ∧ other = piece ++ rest) ∨
    ∃ piece, front.length ≤ place ∧ Altered (place - front.length) rest piece ∧
      other = front ++ piece := by
  obtain ⟨old, new, there, differ, rfl⟩ := altered
  rw [List.getElem?_append] at there
  rw [List.set_append]
  split at there
  · next inside =>
    rw [if_pos inside]
    exact .inl ⟨_, ⟨old, new, there, differ, rfl⟩, rfl⟩
  · next past =>
    rw [if_neg past]
    exact .inr ⟨_, Nat.le_of_not_lt past, ⟨old, new, there, differ, rfl⟩, rfl⟩

theorem ofLittleEndianInj (long : front.length = rest.length)
    (same : ofLittleEndian front = ofLittleEndian rest) : front = rest := by
  rw [← littleEndianRead front, ← littleEndianRead rest, long, same]

end Bytes

namespace Checksum
open Bytes

theorem halves (r : UInt32) : (r >>> 1).toNat = r.toNat / 2 := by
  rw [UInt32.toNat_shiftRight]
  exact Nat.shiftRight_eq_div_pow r.toNat 1

theorem oddIff (r : UInt32) : r &&& 1 = 1 ↔ r.toNat % 2 = 1 := by
  rw [← UInt32.toNat_inj, UInt32.toNat_and]
  exact Iff.of_eq (congrArg (· = 1) (Nat.and_one_is_mod r.toNat))

theorem addedApart (r s : UInt32) : (r >>> 1) ^^^ generator ≠ s >>> 1 := by
  intro same
  have sum : (r >>> 1) ^^^ (s >>> 1) = generator := by
    rw [← same, ← UInt32.xor_assoc, UInt32.xor_self, UInt32.zero_xor]
  have first : (r >>> 1).toNat < 2 ^ 31 := by
    have small := r.toNat_lt
    rw [halves]
    omega
  have second : (s >>> 1).toNat < 2 ^ 31 := by
    have small := s.toNat_lt
    rw [halves]
    omega
  have low := Nat.xor_lt_two_pow first second
  rw [← UInt32.toNat_xor, sum] at low
  exact absurd low (by decide)

theorem shiftInj {r s : UInt32} (same : shift r = shift s) : r = s := by
  have whole (parity : r.toNat % 2 = s.toNat % 2) (half : r >>> 1 = s >>> 1) : r = s := by
    have halved := congrArg UInt32.toNat half
    rw [halves, halves] at halved
    apply UInt32.toNat_inj.mp
    omega
  simp only [shift, oddIff] at same
  split at same
  · next odd =>
    split at same
    · next other => exact whole (odd.trans other.symm) ((UInt32.xor_left_inj generator).mp same)
    · exact absurd same (addedApart r s)
  · next even =>
    split at same
    · exact absurd same.symm (addedApart s r)
    · next other => exact whole (by omega) same

theorem absorbInj {r s : UInt32} {b c : UInt8} (same : absorb r b = absorb s c) :
    r ^^^ b.toUInt32 = s ^^^ c.toUInt32 := by
  unfold absorb at same
  iterate 8 replace same := shiftInj same
  exact same

theorem absorbRegister {r s : UInt32} {b : UInt8} (same : absorb r b = absorb s b) : r = s :=
  (UInt32.xor_left_inj b.toUInt32).mp (absorbInj same)

theorem absorbByte {r : UInt32} {b c : UInt8} (same : absorb r b = absorb r c) : b = c := by
  have wide := (UInt32.xor_right_inj r).mp (absorbInj same)
  have number := congrArg UInt32.toNat wide
  rw [UInt8.toNat_toUInt32, UInt8.toNat_toUInt32] at number
  exact UInt8.toNat_inj.mp number

theorem absorbAll {r s : UInt32} {bytes : Bytes} (same : bytes.foldl absorb r = bytes.foldl absorb s) :
    r = s := by
  induction bytes generalizing r s with
  | nil => exact same
  | cons b rest ih => exact absorbRegister (ih same)

theorem crcAltered {place : Nat} {bytes other : Bytes} (altered : Altered place bytes other) :
    crc32 other ≠ crc32 bytes := by
  obtain ⟨front, old, new, rest, rfl, rfl, differ⟩ := altered.parts
  intro same
  have registers := (UInt32.xor_left_inj 0xFFFFFFFF).mp same
  rw [registerAppend, registerAppend, List.foldl_cons, List.foldl_cons] at registers
  exact differ (absorbByte (absorbAll registers))

theorem pairAltered {place : Nat} {body text sum : Bytes}
    (altered : Altered place body text ∧ sum = littleEndian 4 (crc32 body).toNat ∨
      text = body ∧ Altered place (littleEndian 4 (crc32 body).toNat) sum) :
    text.length = body.length ∧ sum.length = 4 ∧ ofLittleEndian sum ≠ (crc32 text).toNat := by
  have read : ofLittleEndian (littleEndian 4 (crc32 body).toNat) = (crc32 body).toNat := by
    rw [ofLittleEndianWritten]
    exact Nat.mod_eq_of_lt (crc32 body).toNat_lt
  rcases altered with ⟨changed, rfl⟩ | ⟨rfl, changed⟩
  · refine ⟨changed.length, littleEndianLength 4 _, ?_⟩
    rw [read]
    intro same
    exact crcAltered changed (UInt32.toNat_inj.mp same).symm
  · have long := changed.length
    refine ⟨rfl, long.trans (littleEndianLength 4 _), ?_⟩
    intro same
    exact changed.differs (ofLittleEndianInj long (same.trans read.symm))

theorem sumBehindAltered {place : Nat} {body other : Bytes}
    (altered : Altered place (body ++ littleEndian 4 (crc32 body).toNat) other) :
    ∃ text sum, other = text ++ sum ∧ text.length = body.length ∧ sum.length = 4 ∧
      ofLittleEndian sum ≠ (crc32 text).toNat := by
  rcases alteredAppend altered with ⟨text, changed, rfl⟩ | ⟨sum, _, changed, rfl⟩
  · exact ⟨text, _, rfl, pairAltered (.inl ⟨changed, rfl⟩)⟩
  · exact ⟨body, sum, rfl, pairAltered (.inr ⟨rfl, changed⟩)⟩

theorem sumBeforeAltered {place : Nat} {body other : Bytes}
    (altered : Altered place (littleEndian 4 (crc32 body).toNat ++ body) other) :
    ∃ sum text, other = sum ++ text ∧ text.length = body.length ∧ sum.length = 4 ∧
      ofLittleEndian sum ≠ (crc32 text).toNat := by
  rcases alteredAppend altered with ⟨sum, changed, rfl⟩ | ⟨text, _, changed, rfl⟩
  · exact ⟨sum, body, rfl, pairAltered (.inr ⟨rfl, changed⟩)⟩
  · exact ⟨_, text, rfl, pairAltered (.inl ⟨changed, rfl⟩)⟩

end Checksum
end AddressPool
