import AddressPool.Proofs.Table.Replay
import AddressPool.Snapshot

/-! A written snapshot is read back as it was, when its numbers fit their fields: the
records of a table, put one by one into an empty one, make the table again. -/
namespace AddressPool
open Bytes

namespace Table

def putAll (t : Table) (records : List (Address × String)) : Table :=
  records.foldl (fun t r => t.put r.1 r.2) t

theorem ownerPutAll {t : Table} {records : List (Address × String)}
    (distinct : records.Pairwise (fun r s => r.1 ≠ s.1)) (a : Address) :
    (t.putAll records).owner? a = ((records.find? (·.1 = a)).map Prod.snd).or (t.owner? a) := by
  induction records generalizing t with
  | nil => simp [putAll]
  | cons r rest ih =>
    obtain ⟨apart, distinct⟩ := List.pairwise_cons.mp distinct
    have tail := ih (t := t.put r.1 r.2) distinct
    simp only [putAll, List.foldl_cons] at tail ⊢
    rw [tail, ownerPut]
    by_cases here : r.1 = a
    · have absent : rest.find? (·.1 = a) = none := by
        rw [List.find?_eq_none]
        intro s member same
        exact apart s member (here.trans (of_decide_eq_true same).symm)
      simp [here, absent]
    · simp [here]

theorem inversePutAll {t : Table} (i : Inverse t) {records : List (Address × String)}
    (distinct : records.Pairwise (fun r s => r.1 ≠ s.1))
    (fresh : ∀ r ∈ records, t.owner? r.1 = none) : Inverse (t.putAll records) := by
  induction records generalizing t with
  | nil => exact i
  | cons r rest ih =>
    obtain ⟨apart, distinct⟩ := List.pairwise_cons.mp distinct
    refine ih (inversePut i (fresh r List.mem_cons_self) r.2) distinct ?_
    intro s member
    rw [ownerPut, if_neg (apart s member)]
    exact fresh s (List.mem_cons_of_mem r member)

theorem putAllToList {t : Table} (i : Inverse t) :
    (empty.putAll t.toList).setMarker t.marker = t := by
  have made := inversePutAll inverseEmpty (distinctRecords t) (fun r _ => ownerEmpty r.1)
  apply sameTable (inverseSetMarker made t.marker) i
  · intro a
    rw [ownerSetMarker, ownerPutAll (distinctRecords t), ownerEmpty, Option.or_none]
    cases found : t.toList.find? (·.1 = a) with
    | none =>
      cases owned : t.owner? a with
      | none => rfl
      | some owner =>
        have absent := List.find?_eq_none.mp found (a, owner) ((memToList t a owner).mpr owned)
        simp at absent
    | some r =>
      have here : r.1 = a := by simpa using List.find?_some found
      have member := (memToList t r.1 r.2).mp (List.mem_of_find?_eq_some found)
      rw [here] at member
      exact member.symm
  · rfl

end Table

namespace Snapshot

theorem needWritten (front rest : Bytes) : need front.length (front ++ rest) = .ok (front, rest) := by
  have cut : split front.length (front ++ rest) = some (front, rest) := splitExact.mpr ⟨rfl, rfl⟩
  simp only [need, cut]

theorem acceptOctets (a : Address) : Address.ofOctets? a.octets = some a := by
  have read := Address.ofOctetsOctets a
  have length := a.octetsLength
  cases family : a.family <;> rw [family] at length read <;>
    simp [Address.ofOctets?, length, read, Family.width]

theorem readAddressWritten (a : Option Address) (rest : Bytes) :
    readAddress (writeAddress a ++ rest) = .ok (a, rest) := by
  cases a with
  | none =>
    rw [readAddress, writeAddress, show need 1 ([0] ++ rest) = _ from needWritten [0] rest]
    rfl
  | some a =>
    have first := needWritten [UInt8.ofNat a.family.width] (a.octets ++ rest)
    have octets := needWritten a.octets rest
    have number : ofLittleEndian [UInt8.ofNat a.family.width] = a.family.width := by
      cases a.family <;> rfl
    rw [a.octetsLength] at octets
    simp only [readAddress, writeAddress, List.cons_append, List.nil_append] at first ⊢
    rw [show (1 : Nat) = [UInt8.ofNat a.family.width].length from rfl, first]
    simp only [bind, Except.bind, number]
    split
    · next zero => cases family : a.family <;> rw [family] at zero <;> contradiction
    · simp only [octets, acceptOctets]
      rfl

theorem readRecordWritten {record : Address × String}
    (short : (Utf8.encode record.2).length < space 4) (rest : Bytes) :
    readRecord (writeRecord record ++ rest) = .ok (record, rest) := by
  have length := needWritten (littleEndian 4 (Utf8.encode record.2).length)
    (Utf8.encode record.2 ++ rest)
  have owner := needWritten (Utf8.encode record.2) rest
  rw [littleEndianLength] at length
  simp only [readRecord, writeRecord, List.append_assoc, readAddressWritten, length, bind,
    Except.bind, ofLittleEndianWritten, Nat.mod_eq_of_lt short, owner, Utf8.decodeEncode]
  rfl

theorem readRecordsWritten {records : List (Address × String)} {t : Table}
    (short : ∀ r ∈ records, (Utf8.encode r.2).length < space 4)
    (distinct : records.Pairwise (fun r s => r.1 ≠ s.1))
    (fresh : ∀ r ∈ records, t.owner? r.1 = none) (rest : Bytes) :
    readRecords records.length t (records.flatMap writeRecord ++ rest) =
      .ok (t.putAll records, rest) := by
  induction records generalizing t with
  | nil => rfl
  | cons r others ih =>
    obtain ⟨apart, distinct⟩ := List.pairwise_cons.mp distinct
    have head := fresh r List.mem_cons_self
    simp only [List.length_cons, readRecords, List.flatMap_cons, List.append_assoc,
      readRecordWritten (short r List.mem_cons_self), Table.tryReserveFree head]
    apply ih (fun s member => short s (List.mem_cons_of_mem r member)) distinct
    intro s member
    rw [Table.ownerPut, if_neg (apart s member)]
    exact fresh s (List.mem_cons_of_mem r member)

def spell (records : List (Address × String)) (marker : Option Address) (lsn : Nat) : Bytes :=
  magic ++ littleEndian 2 version ++ littleEndian 8 records.length ++ littleEndian 8 lsn ++
    records.flatMap writeRecord ++ writeAddress marker

def stamp (body : Bytes) : Bytes := body ++ littleEndian footerSize (Checksum.crc32 body).toNat

theorem writeSpells (s : Snapshot) : s.write = stamp (spell s.table.toList s.table.marker s.lastLsn) := by
  have sized : s.table.toList.length = s.table.size := Std.ExtTreeMap.length_toList
  rw [spell, sized]
  rfl

section Spelled

variable {records : List (Address × String)} {marker : Option Address} {lsn : Nat}

theorem readBodySpelled (short : ∀ r ∈ records, (Utf8.encode r.2).length < space 4)
    (distinct : records.Pairwise (fun r s => r.1 ≠ s.1)) (few : records.length < space 8)
    (small : lsn < space 8) :
    readBody (spell records marker lsn) = .ok ⟨(Table.empty.putAll records).setMarker marker, lsn⟩ := by
  have magicLength : magic.length = 4 := rfl
  have found : (spell records marker lsn).take 4 = magic := by
    simp only [spell, List.append_assoc]
    exact List.take_left' magicLength
  have number : ((spell records marker lsn).drop 4).take 2 = littleEndian 2 version := by
    simp only [spell, List.append_assoc]
    rw [List.drop_left' magicLength]
    exact List.take_left' (littleEndianLength 2 version)
  have count : ((spell records marker lsn).drop 6).take 8 = littleEndian 8 records.length := by
    have front : (magic ++ littleEndian 2 version).length = 6 := by simp [magicLength]
    simp only [spell, List.append_assoc]
    rw [← List.append_assoc, List.drop_left' front]
    exact List.take_left' (littleEndianLength 8 records.length)
  have last : ((spell records marker lsn).drop 14).take 8 = littleEndian 8 lsn := by
    have front : (magic ++ littleEndian 2 version ++ littleEndian 8 records.length).length = 14 := by
      simp [magicLength]
    simp only [spell, List.append_assoc]
    rw [← List.append_assoc, ← List.append_assoc, List.drop_left' front]
    exact List.take_left' (littleEndianLength 8 lsn)
  have rest : (spell records marker lsn).drop headerSize =
      records.flatMap writeRecord ++ writeAddress marker := by
    have front : (magic ++ littleEndian 2 version ++ littleEndian 8 records.length ++
        littleEndian 8 lsn).length = headerSize := by simp [magicLength, headerSize]
    rw [spell, List.append_assoc, List.drop_left' front]
  have filled := readRecordsWritten short distinct (fun r _ => Table.ownerEmpty r.1)
    (writeAddress marker)
  have closing := readAddressWritten marker []
  rw [List.append_nil] at closing
  have known : version % space 2 = version := by decide
  simp only [readBody, found, number, count, last, rest, ofLittleEndianWritten, known,
    Nat.mod_eq_of_lt few, Nat.mod_eq_of_lt small, filled, closing, bind, Except.bind]
  rfl

theorem spellLength : headerSize ≤ (spell records marker lsn).length := by
  have magicLength : magic.length = 4 := rfl
  simp only [spell, List.length_append, littleEndianLength, headerSize]
  omega

end Spelled

theorem readStamped {body : Bytes} (header : headerSize ≤ body.length) :
    read (stamp body) = readBody body := by
  have total : (stamp body).length = body.length + footerSize := by simp [stamp]
  have front : (stamp body).take ((stamp body).length - footerSize) = body := by
    rw [total, Nat.add_sub_cancel, stamp]
    exact List.take_left' rfl
  have footer : (stamp body).drop ((stamp body).length - footerSize) =
      littleEndian footerSize (Checksum.crc32 body).toNat := by
    rw [total, Nat.add_sub_cancel, stamp]
    exact List.drop_left' rfl
  have small : (Checksum.crc32 body).toNat < space footerSize := (Checksum.crc32 body).toNat_lt
  have long : ¬ (stamp body).length < headerSize + footerSize := by omega
  simp only [read, if_neg long, front, footer, ofLittleEndianWritten, Nat.mod_eq_of_lt small,
    UInt32.ofNat_toNat, ne_eq, not_true_eq_false, if_false]

structure Sound (s : Snapshot) : Prop where
  indexes : s.table.Inverse
  owners : ∀ r ∈ s.table.toList, (Utf8.encode r.2).length < space 4
  size : s.table.size < space 8
  lsn : s.lastLsn < space 8

theorem readWritten {s : Snapshot} (sound : Sound s) : read s.write = .ok s := by
  have sized : s.table.toList.length = s.table.size := Std.ExtTreeMap.length_toList
  have few : s.table.toList.length < space 8 := sized ▸ sound.size
  rw [writeSpells, readStamped spellLength,
    readBodySpelled sound.owners (Table.distinctRecords s.table) few sound.lsn,
    Table.putAllToList sound.indexes]

end Snapshot
end AddressPool
