import AddressPool.Proofs.Journal.Entry

/-! Which bytes are an entry. `Framed` says by position alone what a reader has to find, and
reading accepts exactly that; among the bytes it accepts for one entry, those without
anything left over in the payload are the ones that writing gives. -/
namespace AddressPool.Journal
open Bytes

theorem readHeaderIff (bytes : Bytes) (h : Header) :
    readHeader bytes = .ok h ↔
      ofLittleEndian ((bytes.drop 12).take 4) = (Checksum.crc32 (bytes.take 12)).toNat ∧
      h.length ≤ payloadLimit ∧ h.lsn = ofLittleEndian (bytes.take 8) ∧
      h.length = ofLittleEndian ((bytes.drop 8).take 4) ∧
      h.checksum.toNat = ofLittleEndian ((bytes.drop 16).take 4) := by
  have stored := wordIff (fieldBound 4 (bytes.drop 12)) (Checksum.crc32 (bytes.take 12))
  have summed := wordIff (fieldBound 4 (bytes.drop 16))
  constructor
  · intro read
    simp only [readHeader] at read
    split at read
    · next same =>
      split at read
      · contradiction
      · next fits =>
        cases read
        exact ⟨stored.mp same, Nat.not_lt.mp fits, rfl, rfl, ((summed _).mp rfl).symm⟩
    · contradiction
  · rintro ⟨same, fits, lsn, length, checksum⟩
    obtain ⟨_, _, _⟩ := h
    subst lsn length
    simp only [readHeader, word, if_pos (stored.mpr same), if_neg (Nat.not_lt.mpr fits),
      (summed _).mpr checksum.symm]

theorem readHeaderTake (bytes : Bytes) : readHeader (bytes.take headerSize) = readHeader bytes := by
  simp [readHeader, headerSize, List.drop_take, List.take_take]

namespace Entry

theorem ofPartsIff {h : Header} {payload : Bytes} (short : payload.length < space 8) (e : Entry) :
    ofParts h payload = .ok e ↔
      h.checksum = Checksum.crc32 payload ∧ e.lsn = h.lsn ∧ e.payload <+: payload ∧
        e.time < space 8 := by
  constructor
  · intro parts
    simp only [ofParts] at parts
    split at parts
    · next same =>
      split at parts
      · next rest read =>
        cases parts
        obtain ⟨whole, small⟩ := readBodyTakes read
        exact ⟨same.symm, rfl, ⟨rest, whole.symm⟩, small⟩
      · contradiction
    · contradiction
  · rintro ⟨same, lsn, ⟨rest, whole⟩, small⟩
    have inside : (writeOperation e.operation).length < space 8 := by
      rw [← whole, List.length_append, payloadLength] at short
      omega
    have read := @readBodyWritten ⟨e.operation, e.time⟩ inside rest
    rw [show Body.write ⟨e.operation, e.time⟩ ++ rest = payload from whole] at read
    simp only [ofParts, same, if_true, read, Nat.mod_eq_of_lt small, ← lsn]

def announced (bytes : Bytes) : Nat := ofLittleEndian ((bytes.drop 8).take 4)

def enclosed (bytes : Bytes) : Bytes := (bytes.drop headerSize).take (announced bytes)

structure Framed (e : Entry) (bytes : Bytes) : Prop where
  header : headerSize ≤ bytes.length
  checked : ofLittleEndian ((bytes.drop 12).take 4) = (Checksum.crc32 (bytes.take 12)).toNat
  limited : announced bytes ≤ payloadLimit
  there : headerSize + announced bytes ≤ bytes.length
  summed : ofLittleEndian ((bytes.drop 16).take 4) = (Checksum.crc32 (enclosed bytes)).toNat
  begins : e.payload <+: enclosed bytes
  time : e.time < space 8
  lsn : e.lsn = ofLittleEndian (bytes.take 8)

theorem readFramed (bytes : Bytes) (e : Entry) : read bytes = .ok e ↔ e.Framed bytes := by
  have limit : payloadLimit < space 8 := by decide
  have short {h : Header} (limited : h.length ≤ payloadLimit) :
      ((bytes.drop headerSize).take h.length).length < space 8 := by
    rw [List.length_take]
    omega
  constructor
  · intro found
    simp only [read] at found
    split at found
    · contradiction
    next cut =>
    obtain ⟨header, rfl, rfl⟩ := splitTake.mp cut
    split at found
    · contradiction
    next h checked =>
    rw [readHeaderTake, readHeaderIff] at checked
    obtain ⟨sum, limited, lsn, length, checksum⟩ := checked
    split at found
    · contradiction
    next cutPayload =>
    obtain ⟨there, rfl, _⟩ := splitTake.mp cutPayload
    obtain ⟨same, number, begins, small⟩ := (ofPartsIff (short limited) e).mp found
    rw [List.length_drop, length] at there
    rw [length] at same begins limited
    refine ⟨header, sum, limited, ?_, ?_, begins, small, number.trans lsn⟩
    · rw [announced]
      omega
    · rw [← checksum, same]
      rfl
  · intro framed
    let h : Header := ⟨e.lsn, announced bytes, Checksum.crc32 (enclosed bytes)⟩
    have cut : split headerSize bytes = some (bytes.take headerSize, bytes.drop headerSize) :=
      splitTake.mpr ⟨framed.header, rfl, rfl⟩
    have checked : readHeader (bytes.take headerSize) = .ok h := by
      rw [readHeaderTake, readHeaderIff]
      exact ⟨framed.checked, framed.limited, framed.lsn, rfl, framed.summed.symm⟩
    have cutPayload : split h.length (bytes.drop headerSize) =
        some (enclosed bytes, (bytes.drop headerSize).drop h.length) := by
      refine splitTake.mpr ⟨?_, rfl, rfl⟩
      rw [List.length_drop]
      exact Nat.le_sub_of_add_le' framed.there
    have small : (enclosed bytes).length < space 8 := short (h := h) framed.limited
    have parts : ofParts h (enclosed bytes) = .ok e :=
      (ofPartsIff small e).mpr ⟨rfl, rfl, framed.begins, framed.time⟩
    simp only [read, cut, checked, cutPayload, parts]

theorem writeFramed {bytes : Bytes} {e : Entry} (framed : e.Framed bytes)
    (full : e.payload.length = announced bytes) :
    e.write = .ok (bytes.take (headerSize + e.payload.length)) := by
  have size : (enclosed bytes).length = announced bytes := by
    rw [enclosed, List.length_take, List.length_drop]
    exact Nat.min_eq_left (Nat.le_sub_of_add_le' framed.there)
  have whole : e.payload = enclosed bytes := framed.begins.eq_of_length (full.trans size.symm)
  have header := framed.header
  rw [headerSize] at header
  have field (offset width : Nat) (inside : offset + width ≤ 20) :
      littleEndian width (ofLittleEndian ((bytes.drop offset).take width)) =
        (bytes.drop offset).take width := by
    apply fieldRead
    rw [List.length_drop]
    omega
  have lsn := field 0 8 (by decide)
  have length := field 8 4 (by decide)
  have sum := field 12 4 (by decide)
  have checksum := field 16 4 (by decide)
  rw [List.drop_zero] at lsn
  have front : headerFront e.lsn e.payload.length = bytes.take 12 := by
    rw [headerFront, framed.lsn, lsn, full, announced, length, ← List.take_add]
  have raw : writeHeader ⟨e.lsn, e.payload.length, Checksum.crc32 e.payload⟩ = bytes.take headerSize := by
    rw [writeHeader, front, ← framed.checked, sum, whole, ← framed.summed, checksum,
      ← List.take_add, ← List.take_add]
    rfl
  have fits : ¬ payloadLimit < e.payload.length := by
    rw [full]
    exact Nat.not_lt.mpr framed.limited
  simp only [write, if_neg fits, raw]
  rw [List.take_add, full, whole]
  rfl

theorem writeRead {e : Entry} (lsn : e.lsn < space 8) (time : e.time < space 8)
    (fits : e.operation.Fits) (rest : Bytes) : read (e.bytes ++ rest) = .ok e := by
  have sound : e.Sound := ⟨fits, lsn, time⟩
  have cut : split headerSize (e.bytes ++ rest) = some (writeHeader e.header, e.payload ++ rest) :=
    splitExact.mpr ⟨List.append_assoc .., writeHeaderLength e.header⟩
  have cutPayload : split e.header.length (e.payload ++ rest) = some (e.payload, rest) :=
    splitAppend e.payload rest
  simp only [read, cut, readHeaderOf sound, cutPayload, ofPartsWritten sound]

theorem framesExact (e : Entry) :
    (e.lsn < space 8 → e.time < space 8 →
      if payloadLimit < e.payload.length then
        e.write = .error (.tooLarge e.payload.length payloadLimit)
      else ∃ bytes, e.write = .ok bytes ∧ ∀ rest, read (bytes ++ rest) = .ok e) ∧
    (∀ bytes, read bytes = .ok e ↔ e.Framed bytes) ∧
    ∀ bytes, read bytes = .ok e → e.payload.length = announced bytes →
      e.write = .ok (bytes.take (headerSize + e.payload.length)) := by
  refine ⟨?_, fun bytes => readFramed bytes e, ?_⟩
  · intro lsn time
    have limit : e.operation.Fits ↔ ¬ payloadLimit < e.payload.length := by
      rw [payloadLength, Nat.not_lt]
      exact Iff.rfl
    split
    · next large => exact writeTooLarge fun fits => limit.mp fits large
    · next small =>
      have fits := limit.mpr small
      exact ⟨e.bytes, writeFitting fits, writeRead lsn time fits⟩
  · intro bytes found full
    exact writeFramed ((readFramed bytes e).mp found) full

theorem reservationFramed :
    let e : Entry := ⟨7, .reserve ⟨.v4, 0x0A000002, by decide⟩ "a", 1234⟩
    (∃ bytes, e.write = .ok bytes ∧ ∀ rest, read (bytes ++ rest) = .ok e) ∧
    e.Framed (e.bytes ++ [1, 2, 3]) ∧
    e.write = .ok ((e.bytes ++ [1, 2, 3]).take (headerSize + e.payload.length)) := by
  intro e
  obtain ⟨written, framed, spelled⟩ := framesExact e
  have back := written (by decide) (by decide)
  rw [if_neg (by decide)] at back
  have longer : read (e.bytes ++ [1, 2, 3]) = .ok e := by decide +kernel
  exact ⟨back, (framed _).mp longer, spelled _ longer (by decide +kernel)⟩

end Entry
end AddressPool.Journal
