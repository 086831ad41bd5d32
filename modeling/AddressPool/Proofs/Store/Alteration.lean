import AddressPool.Proofs.Bytes.Checksum
import AddressPool.Proofs.Store.Recovery

/-! A journal with one byte altered. An alteration in an entry's header up to its checksum makes
the header unreadable, and one behind it makes the payload's checksum fail. So recovery refuses
the journal, unless it is the payload checksum or the payload of the last entry that suffered:
then that entry is dropped as a torn one would be. -/
namespace AddressPool
open Journal Bytes

namespace Journal

variable {place : Nat} {e : Entry} {other : Bytes}

theorem readHeaderUnsummed {raw : Bytes}
    (apart : ofLittleEndian ((raw.drop 12).take 4) ≠ (Checksum.crc32 (raw.take 12)).toNat) :
    ∃ fault, readHeader raw = .error fault := by
  cases found : readHeader raw with
  | error fault => exact ⟨fault, rfl⟩
  | ok h => exact absurd ((readHeaderIff raw h).mp found).1 apart

theorem zerosNumber {bytes : Bytes} (zeros : ∀ b ∈ bytes, b = 0) : ofLittleEndian bytes = 0 := by
  induction bytes with
  | nil => rfl
  | cons b rest ih =>
    obtain ⟨rfl, others⟩ := List.forall_mem_cons.mp zeros
    simp only [ofLittleEndian, ih others]
    rfl

theorem alteredNonzero {lsn length : Nat} {rest : Bytes} (number : 0 < lsn % space 8)
    (size : 0 < length % space 4)
    (altered : Altered place (littleEndian 8 lsn ++ (littleEndian 4 length ++ rest)) other) :
    ¬ ∀ b ∈ other, b = 0 := by
  intro zeros
  rcases alteredAppend altered with ⟨piece, _, rfl⟩ | ⟨piece, _, _, rfl⟩
  · have none := zerosNumber fun b member =>
      zeros b (List.mem_append_right piece (List.mem_append_left rest member))
    rw [ofLittleEndianWritten] at none
    omega
  · have none := zerosNumber fun b member => zeros b (List.mem_append_left piece member)
    rw [ofLittleEndianWritten] at none
    omega

theorem payloadSome (e : Entry) : 0 < e.payload.length := by
  rw [e.payloadLength]
  omega

namespace Entry

def checked (e : Entry) : Bytes :=
  headerFront e.lsn e.payload.length ++
    littleEndian 4 (Checksum.crc32 (headerFront e.lsn e.payload.length)).toNat

def summed (e : Entry) : Bytes := littleEndian 4 (Checksum.crc32 e.payload).toNat ++ e.payload

theorem bytesParts (e : Entry) : e.bytes = e.checked ++ e.summed := by
  simp [bytes, writeHeader, header, checked, summed]

theorem checkedLength (e : Entry) : e.checked.length = 16 := by
  simp [checked, headerFrontLength]

end Entry

theorem frontChecked (offset : Nat) (sound : e.Sound) (numbered : 0 < e.lsn)
    (altered : Altered place e.checked other) (rest : Bytes) :
    ∃ damage, front offset (other ++ (e.summed ++ rest)) = .refused (.damage damage) := by
  have number : 0 < e.lsn % space 8 := by
    rw [Nat.mod_eq_of_lt sound.lsn]
    exact numbered
  have size : 0 < e.payload.length % space 4 := by
    have limit : payloadLimit < space 4 := by decide
    rw [Nat.mod_eq_of_lt (Nat.lt_of_le_of_lt sound.short limit)]
    exact payloadSome e
  have nonzero : ¬ ∀ b ∈ other, b = 0 := by
    rw [Entry.checked, headerFront, List.append_assoc] at altered
    exact alteredNonzero number size altered
  obtain ⟨text, sum, rfl, twelve, four, apart⟩ := Checksum.sumBehindAltered altered
  rw [headerFrontLength] at twelve
  let raw := text ++ sum ++ littleEndian 4 (Checksum.crc32 e.payload).toNat
  have whole : text ++ sum ++ (e.summed ++ rest) = raw ++ (e.payload ++ rest) := by
    simp [raw, Entry.summed]
  have full : raw.length = headerSize := by
    simp [raw, twelve, four, headerSize]
  have unsummed : ofLittleEndian ((raw.drop 12).take 4) ≠ (Checksum.crc32 (raw.take 12)).toNat := by
    simp only [raw, List.append_assoc]
    rw [List.drop_left' twelve, List.take_left' four, List.take_left' twelve]
    exact apart
  obtain ⟨fault, refused⟩ := readHeaderUnsummed unsummed
  have some : ¬ (raw.all (· == 0) && (e.payload ++ rest).all (· == 0)) = true := by
    rw [Bool.and_eq_true, List.all_eq_true]
    intro zeros
    refine nonzero fun b member => ?_
    exact beq_iff_eq.mp (zeros.1 b (List.mem_append_left _ member))
  refine ⟨.journal (.headerAt offset fault), ?_⟩
  rw [whole, frontOfHeader offset full]
  simp only [refused, if_neg some]

theorem frontSummed (offset : Nat) (sound : e.Sound) (altered : Altered place e.summed other)
    (rest : Bytes) :
    front offset (e.checked ++ (other ++ rest)) = .badChecksum e.bytes.length rest := by
  obtain ⟨sum, text, rfl, long, four, apart⟩ := Checksum.sumBeforeAltered altered
  have small : ofLittleEndian sum < space 4 := four ▸ ofLittleEndianBound sum
  let h : Header := ⟨e.lsn, e.payload.length, word (ofLittleEndian sum)⟩
  have number : h.checksum.toNat = ofLittleEndian sum := ((wordIff small _).mp rfl).symm
  have raw : e.checked ++ sum = writeHeader h := by
    have digits := littleEndianRead sum
    rw [four] at digits
    rw [writeHeader, number, digits, Entry.checked]
  have whole : e.checked ++ (sum ++ text ++ rest) = writeHeader h ++ (text ++ rest) := by
    rw [← raw]
    simp
  have checked : readHeader (writeHeader h) = .ok h :=
    readHeaderWritten sound.lsn sound.short
  have cutPayload : split h.length (text ++ rest) = some (text, rest) :=
    splitExact.mpr ⟨rfl, long⟩
  have unsummed : Checksum.crc32 text ≠ h.checksum := by
    intro same
    exact apart (number.symm.trans (congrArg UInt32.toNat same).symm)
  rw [whole, frontOfHeader offset (writeHeaderLength h)]
  simp only [checked, cutPayload, Entry.ofParts, if_neg unsummed]
  rw [e.bytesLength]

theorem frontAltered (offset : Nat) (sound : e.Sound) (numbered : 0 < e.lsn)
    (altered : Altered place e.bytes other) (rest : Bytes) :
    place < 16 ∧ (∃ damage, front offset (other ++ rest) = .refused (.damage damage)) ∨
    16 ≤ place ∧ front offset (other ++ rest) = .badChecksum e.bytes.length rest := by
  rw [e.bytesParts] at altered
  rcases alteredAppend altered with ⟨piece, changed, rfl⟩ | ⟨piece, past, changed, rfl⟩
  · have inside := changed.inside
    rw [e.checkedLength] at inside
    rw [List.append_assoc]
    exact .inl ⟨inside, frontChecked offset sound numbered changed rest⟩
  · rw [e.checkedLength] at past
    rw [List.append_assoc]
    exact .inr ⟨past, frontSummed offset sound changed rest⟩

theorem walkOfRefused {offset : Nat} {bytes : Bytes} {fault : Fault}
    (found : front offset bytes = .refused fault) : walkFrom offset bytes = ⟨[], .refused fault⟩ := by
  rw [walkFrom]
  split <;> simp_all

theorem walkOfBad {offset size : Nat} {bytes rest : Bytes}
    (found : front offset bytes = .badChecksum size rest) :
    walkFrom offset bytes = ⟨[], .badChecksum offset (offset + size) rest.length⟩ := by
  rw [walkFrom]
  split <;> simp_all

theorem walkBehind {first : List Entry} (sound : ∀ e ∈ first, e.Sound) {tail : Bytes}
    {ending : Ending} (stopped : walkFrom (written first).length tail = ⟨[], ending⟩) :
    walk (written first ++ tail) = ⟨ends 0 first, ending⟩ := by
  have whole := walkWritten 0 sound .nothing
  rw [List.append_nil] at whole
  have past := walkPast 0 (readsWritten sound) tail
  rw [Nat.zero_add, stopped, whole, List.append_nil] at past
  exact past

theorem alteredWritten {entries : List Entry} (altered : Altered place (written entries) other) :
    ∃ first e last at' piece, entries = first ++ e :: last ∧ Altered at' e.bytes piece ∧
      other = written first ++ (piece ++ written last) ∧
      place = (written first).length + at' := by
  induction entries generalizing place other with
  | nil => exact absurd altered.inside (Nat.not_lt_zero place)
  | cons e rest ih =>
    rcases alteredAppend altered with ⟨piece, changed, rfl⟩ | ⟨piece, past, changed, rfl⟩
    · exact ⟨[], e, rest, place, piece, rfl, changed, rfl, (Nat.zero_add place).symm⟩
    · obtain ⟨first, found, last, at', bytes, rfl, here, rfl, position⟩ := ih changed
      refine ⟨e :: first, found, last, at', bytes, rfl, here, ?_, ?_⟩
      · rw [writtenCons, List.append_assoc]
      · rw [writtenCons, List.length_append]
        omega

theorem risingBackwards {last : Nat} {entries : List Entry}
    (rising : (last :: entries.map Entry.lsn).Pairwise (· < ·)) : backwards? last entries = none := by
  induction entries generalizing last with
  | nil => rfl
  | cons e rest ih =>
    obtain ⟨above, others⟩ := List.pairwise_cons.mp rising
    have first : last < e.lsn := above e.lsn List.mem_cons_self
    rw [backwards?, if_neg (Nat.not_le.mpr first)]
    exact ih others

theorem recoverAltered (path : String) {entries : List Entry} (sound : ∀ e ∈ entries, e.Sound)
    (rising : backwards? 0 entries = none) (altered : Altered place (written entries) other) :
    place < (written entries.dropLast).length + 16 ∧
      (∃ damage, recover path other = .error (.damage damage)) ∨
    (written entries.dropLast).length + 16 ≤ place ∧ written entries.dropLast <+: other ∧
      recover path other = .ok ⟨entries.dropLast, 1, lsnAfter 0 entries.dropLast, true,
        (written entries.dropLast).length⟩ := by
  obtain ⟨first, e, last, at', piece, rfl, changed, rfl, position⟩ := alteredWritten altered
  have soundFirst : ∀ e ∈ first, e.Sound := fun e member => sound e (List.mem_append_left _ member)
  have here : e ∈ first ++ e :: last := by simp
  have numbered : 0 < e.lsn := (risingNumbers rising).1 e here
  have risingFirst := (backwardsAppend.mp rising).1
  have stop := endsLast 0 first
  rw [Nat.zero_add] at stop
  rcases frontAltered (written first).length (sound e here) numbered changed (written last) with
    ⟨early, damage, refused⟩ | ⟨late, bad⟩
  · have before : place < (written (first ++ e :: last).dropLast).length + 16 := by
      rw [List.dropLast_append_cons, writtenAppend, List.length_append]
      omega
    refine .inl ⟨before, damage, ?_⟩
    simp only [recover, walkBehind soundFirst (walkOfRefused refused), endsEntries, risingFirst]
  · have walked := walkBehind soundFirst (walkOfBad bad)
    have inside := changed.inside
    cases last with
    | nil =>
      have shorter : (written first).length < (written first ++ (piece ++ written [])).length := by
        rw [List.length_append, List.length_append, changed.length]
        omega
      rw [List.dropLast_concat]
      refine .inr ⟨by omega, List.prefix_append _ _, ?_⟩
      simp only [recover, walked, endsEntries, risingFirst, stop, shorter]
      rfl
    | cons next rest =>
      have before : place < (written (first ++ e :: next :: rest).dropLast).length + 16 := by
        rw [List.dropLast_append_cons, List.dropLast_cons_cons, writtenAppend, writtenCons,
          List.length_append, List.length_append]
        omega
      have more : 0 < (written (next :: rest)).length := by
        have some := next.bytesPos
        rw [writtenCons, List.length_append]
        omega
      refine .inl ⟨before, ?_⟩
      simp only [recover, walked, endsEntries, risingFirst, if_pos more]
      exact ⟨_, rfl⟩

end Journal

namespace DiskStore

variable {path : String} {d : Folder} {place : Nat} {entries : List Entry} {pieces : List Bytes}
variable {bytes : Bytes}

theorem alterationsCaught (path : String) (serialized : entries.mapM Entry.write = .ok pieces)
    (words : ∀ e ∈ entries, e.lsn < space 8 ∧ e.time < space 8)
    (rising : (0 :: entries.map Entry.lsn).Pairwise (· < ·))
    (altered : Altered place pieces.flatten bytes) (file : d.Filed .journal bytes)
    (obeys : d.ObeysIn [.repair, .syncRepair]) :
    if place < pieces.dropLast.flatten.length + 16 then
      ∃ damage, recoverJournal path d = (.error (.damage damage), d)
    else
      ∃ lsn e, recoverJournal path d =
          (.ok (some ⟨entries.dropLast, 1, lsn, true, pieces.dropLast.flatten.length⟩), e) ∧
        e.Filed .journal pieces.dropLast.flatten := by
  obtain ⟨fits, rfl⟩ := serializedIff.mp serialized
  have sound : ∀ e ∈ entries, e.Sound :=
    fun e member => ⟨fits e member, (words e member).1, (words e member).2⟩
  have whole (entries : List Entry) : (entries.map Entry.bytes).flatten = written entries := rfl
  rw [← List.map_dropLast, whole]
  rw [whole] at altered
  rcases recoverAltered (FileName.journal.path path) sound (risingBackwards rising) altered with
    ⟨early, damage, refused⟩ | ⟨late, front, accepted⟩
  · rw [if_pos early]
    exact ⟨damage, recoverRefused file refused⟩
  · obtain ⟨e, recovered, cut⟩ := recoverAccepted file obeys accepted
    rw [← List.prefix_iff_eq_take.mp front] at cut
    rw [if_neg (Nat.not_lt.mpr late)]
    exact ⟨_, e, recovered, cut⟩

def twoEntries : List Entry :=
  [⟨1, .reserve (.wrap .v4 5) "pod", 10⟩, ⟨2, .release "pod" [.wrap .v4 5], 20⟩]

def spoilt (place : Nat) : Bytes := (written twoEntries).set place 9

theorem twoCaught :
    (twoEntries.mapM Entry.write = .ok (twoEntries.map Entry.bytes) ∧
      (∀ e ∈ twoEntries, e.lsn < space 8 ∧ e.time < space 8) ∧
      (0 :: twoEntries.map Entry.lsn).Pairwise (· < ·) ∧
      Altered 0 (twoEntries.map Entry.bytes).flatten (spoilt 0) ∧
      Altered 100 (twoEntries.map Entry.bytes).flatten (spoilt 100) ∧
      ∀ place, (Folder.only .journal (spoilt place)).ObeysIn [.repair, .syncRepair]) ∧
    (∃ damage, recoverJournal "/data/net" (Folder.only .journal (spoilt 0)) =
      (.error (.damage damage), Folder.only .journal (spoilt 0))) ∧
    ∃ lsn e, recoverJournal "/data/net" (Folder.only .journal (spoilt 100)) =
        (.ok (some ⟨twoEntries.dropLast, 1, lsn, true, 51⟩), e) ∧
      e.Filed .journal (written twoEntries.dropLast) := by
  have serialized : twoEntries.mapM Entry.write = .ok (twoEntries.map Entry.bytes) :=
    serializedIff.mpr ⟨by decide, rfl⟩
  have words : ∀ e ∈ twoEntries, e.lsn < space 8 ∧ e.time < space 8 := by decide
  have rising : (0 :: twoEntries.map Entry.lsn).Pairwise (· < ·) := by decide
  have first : Altered 0 (twoEntries.map Entry.bytes).flatten (spoilt 0) :=
    ⟨1, 9, by decide +kernel, by decide, rfl⟩
  have last : Altered 100 (twoEntries.map Entry.bytes).flatten (spoilt 100) :=
    ⟨0, 9, by decide +kernel, by decide, rfl⟩
  have obeys (place : Nat) : (Folder.only .journal (spoilt place)).ObeysIn [.repair, .syncRepair] :=
    fun _ _ _ => rfl
  have refused := alterationsCaught "/data/net" serialized words rising first
    (Folder.onlyFiled .journal _) (obeys 0)
  have dropped := alterationsCaught "/data/net" serialized words rising last
    (Folder.onlyFiled .journal _) (obeys 100)
  have front : (twoEntries.map Entry.bytes).dropLast.flatten.length = 51 := by decide +kernel
  rw [front] at refused dropped
  exact ⟨⟨serialized, words, rising, first, last, obeys⟩, refused, dropped⟩

end DiskStore
end AddressPool
