import AddressPool.Journal.Entry
import AddressPool.Proofs.Journal.Payload

/-! An entry that can be written and whose numbers fit their fields is read back as it was,
whatever follows it. -/
namespace AddressPool

def Operation.Fits (operation : Operation) : Prop :=
  (Journal.writeOperation operation).length + 8 ≤ Journal.payloadLimit

instance (operation : Operation) : Decidable operation.Fits :=
  inferInstanceAs (Decidable (_ ≤ _))

namespace Journal
open Bytes

theorem writeAddressLength (a : Address) : (writeAddress a).length = 4 + a.family.width := by
  simp [writeAddress, a.octetsLength]

theorem writeReserveLength (a : Address) (owner : String) :
    (writeOperation (.reserve a owner)).length =
      a.family.width + (Utf8.encode owner).length + 16 := by
  simp only [writeOperation, writeText, List.length_append, littleEndianLength,
    writeAddressLength]
  omega

theorem writeReleaseLength (owner : String) (addresses : List Address) :
    (writeOperation (.release owner addresses)).length =
      (Utf8.encode owner).length + (addresses.flatMap writeAddress).length + 20 := by
  simp only [writeOperation, writeText, writeAddresses, List.length_append, littleEndianLength]
  omega

theorem headerFrontLength (lsn length : Nat) : (headerFront lsn length).length = 12 := by
  simp [headerFront]

theorem writeHeaderLength (h : Header) : (writeHeader h).length = headerSize := by
  simp [writeHeader, headerFrontLength, headerSize]

theorem wordWritten (n : UInt32) : word (ofLittleEndian (littleEndian 4 n.toNat)) = n := by
  have small : n.toNat < space 4 := n.toNat_lt
  rw [ofLittleEndianWritten, Nat.mod_eq_of_lt small, word, UInt32.ofNat_toNat]

theorem readHeaderWritten {h : Header} (lsn : h.lsn < space 8) (length : h.length ≤ payloadLimit) :
    readHeader (writeHeader h) = .ok h := by
  have short : h.length < space 4 := Nat.lt_of_le_of_lt length (by decide)
  have number : (writeHeader h).take 8 = littleEndian 8 h.lsn := by
    simp only [writeHeader, headerFront, List.append_assoc]
    exact List.take_left' (littleEndianLength 8 h.lsn)
  have size : ((writeHeader h).drop 8).take 4 = littleEndian 4 h.length := by
    simp only [writeHeader, headerFront, List.append_assoc]
    rw [List.drop_left' (littleEndianLength 8 h.lsn)]
    exact List.take_left' (littleEndianLength 4 h.length)
  have covered : (writeHeader h).take 12 = headerFront h.lsn h.length := by
    simp only [writeHeader, List.append_assoc]
    exact List.take_left' (headerFrontLength h.lsn h.length)
  have stored : ((writeHeader h).drop 12).take 4 =
      littleEndian 4 (Checksum.crc32 (headerFront h.lsn h.length)).toNat := by
    simp only [writeHeader, List.append_assoc]
    rw [List.drop_left' (headerFrontLength h.lsn h.length)]
    exact List.take_left' (littleEndianLength 4 _)
  have last : ((writeHeader h).drop 16).take 4 = littleEndian 4 h.checksum.toNat := by
    have front : (headerFront h.lsn h.length ++
        littleEndian 4 (Checksum.crc32 (headerFront h.lsn h.length)).toNat).length = 16 := by
      simp [headerFrontLength]
    simp only [writeHeader]
    rw [List.drop_left' front]
    exact List.take_of_length_le (Nat.le_of_eq (littleEndianLength 4 _))
  simp only [readHeader, number, size, covered, stored, last, wordWritten]
  rw [if_pos trivial, ofLittleEndianWritten, ofLittleEndianWritten, Nat.mod_eq_of_lt lsn,
    Nat.mod_eq_of_lt short, if_neg (Nat.not_lt.mpr length)]

namespace Entry

def header (e : Entry) : Header := ⟨e.lsn, e.payload.length, Checksum.crc32 e.payload⟩

def bytes (e : Entry) : Bytes := writeHeader e.header ++ e.payload

theorem payloadLength (e : Entry) : e.payload.length = (writeOperation e.operation).length + 8 := by
  simp [payload, Body.write]

theorem bytesLength (e : Entry) : e.bytes.length = headerSize + e.payload.length := by
  rw [bytes, List.length_append, writeHeaderLength]

theorem bytesPos (e : Entry) : 0 < e.bytes.length := by
  rw [bytesLength, headerSize]
  omega

theorem bytesThere (e : Entry) (rest : Bytes) : e.bytes ++ rest ≠ [] := by
  have pos := e.bytesPos
  intro none
  simp [(List.append_eq_nil_iff.mp none).1] at pos

theorem writeFitting {e : Entry} (fits : e.operation.Fits) : e.write = .ok e.bytes := by
  have short : ¬ payloadLimit < e.payload.length := by
    rw [payloadLength]
    exact Nat.not_lt.mpr fits
  simp only [write, if_neg short, bytes, header]

theorem writeTooLarge {e : Entry} (large : ¬ e.operation.Fits) :
    e.write = .error (.tooLarge e.payload.length payloadLimit) := by
  have long : payloadLimit < e.payload.length := by
    rw [payloadLength]
    exact Nat.lt_of_not_le large
  simp only [write, if_pos long]

structure Sound (e : Entry) : Prop where
  fits : e.operation.Fits
  lsn : e.lsn < space 8
  time : e.time < space 8

theorem Sound.short {e : Entry} (sound : e.Sound) : e.payload.length ≤ payloadLimit := by
  rw [payloadLength]
  exact sound.fits

theorem readHeaderOf {e : Entry} (sound : Sound e) : readHeader (writeHeader e.header) = .ok e.header :=
  readHeaderWritten sound.lsn sound.short

theorem ofPartsWritten {e : Entry} (sound : Sound e) : ofParts e.header e.payload = .ok e := by
  have limit : payloadLimit < space 8 := by decide
  have fits : (writeOperation e.operation).length + 8 ≤ payloadLimit := sound.fits
  have short : (writeOperation e.operation).length < space 8 := by omega
  have body := @readBodyWritten ⟨e.operation, e.time⟩ short []
  rw [List.append_nil] at body
  simp only [ofParts, header, payload, if_true, body, Nat.mod_eq_of_lt sound.time]

theorem bytesStamped (lsn : Nat) (operation : Operation) (time : Nat) :
    (Entry.mk lsn operation time).bytes = (Entry.mk lsn operation (time % space 8)).bytes := by
  have same (width n : Nat) : littleEndian width n = littleEndian width (n % space width) := by
    rw [← ofLittleEndianWritten]
    have read := littleEndianRead (littleEndian width n)
    rw [littleEndianLength] at read
    exact read.symm
  simp only [bytes, header, payload, Body.write]
  rw [same 8 time]

end Entry
end Journal
end AddressPool
