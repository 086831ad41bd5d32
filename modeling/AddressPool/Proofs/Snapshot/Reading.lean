import AddressPool.Proofs.Journal.Reading
import AddressPool.Proofs.Snapshot.RoundTrip

/-! A snapshot of unknown origin. Whatever its file looks like, the table read from it is one
that can be written again: no record of it was put twice, and no owner's name is longer than
its length field can say. -/
namespace AddressPool
open Bytes

structure Table.Proper (t : Table) : Prop where
  indexes : t.Inverse
  owners : ∀ {a : Address} {owner : String}, t.owner? a = some owner →
    (Utf8.encode owner).length < space 4

namespace Table

theorem properEmpty : empty.Proper := ⟨inverseEmpty, by simp⟩

theorem Proper.put {t : Table} (proper : t.Proper) {a : Address} (unowned : t.owner? a = none)
    {owner : String} (short : (Utf8.encode owner).length < space 4) : (t.put a owner).Proper where
  indexes := inversePut proper.indexes unowned owner
  owners {b other} owned := by
    rw [ownerPut] at owned
    split at owned
    · cases owned
      exact short
    · exact proper.owners owned

theorem Proper.setMarker {t : Table} (proper : t.Proper) (marker : Option Address) :
    (t.setMarker marker).Proper :=
  ⟨inverseSetMarker proper.indexes marker, proper.owners⟩

theorem Proper.applyAll {t : Table} (proper : t.Proper) {operations : List Operation}
    (short : ∀ operation ∈ operations, (Utf8.encode operation.owner).length < space 4) :
    (t.applyAll operations).Proper where
  indexes := inverseApplyAll proper.indexes operations
  owners {a owner} owned := by
    rcases ownerApplyAll owned with before | ⟨b, made⟩
    · exact proper.owners before
    · exact short _ made

end Table

namespace Snapshot

section Takes

variable {bytes rest : Bytes}

theorem needTakes {count : Nat} {front : Bytes} (needed : need count bytes = .ok (front, rest)) :
    bytes = front ++ rest ∧ front.length = count := by
  simp only [need] at needed
  split at needed
  · next cut =>
    cases needed
    exact splitExact.mp cut
  · contradiction

theorem ofOctetsTakes {octets : Bytes} {a : Address} (found : Address.ofOctets? octets = some a) :
    a.octets = octets ∧ octets.length = a.family.width := by
  simp only [Address.ofOctets?] at found
  split at found
  · next width =>
    cases found
    exact ⟨Address.octetsOfOctets width, width⟩
  split at found
  · next width =>
    cases found
    exact ⟨Address.octetsOfOctets width, width⟩
  · contradiction

theorem readAddressTakes {a : Option Address} (read : readAddress bytes = .ok (a, rest)) :
    bytes = writeAddress a ++ rest := by
  simp only [readAddress, bind, Except.bind, pure, Except.pure] at read
  split at read
  · contradiction
  next first needed =>
  obtain ⟨rfl, one⟩ := needTakes needed
  obtain ⟨width, first⟩ := first
  obtain ⟨w, rfl⟩ := List.length_eq_one_iff.mp one
  have number : ofLittleEndian [w] = w.toNat := rfl
  simp only [number] at read
  split at read
  · next zero =>
    cases read
    rw [UInt8.toNat.inj (a := w) (b := 0) zero]
    rfl
  · split at read
    · contradiction
    next needed =>
    obtain ⟨rfl, full⟩ := needTakes needed
    split at read
    · next a found =>
      cases read
      obtain ⟨octets, width⟩ := ofOctetsTakes found
      rw [writeAddress, octets, ← width, full, UInt8.ofNat_toNat]
      rfl
    · contradiction

theorem readRecordTakes {record : Address × String} (read : readRecord bytes = .ok (record, rest)) :
    bytes = writeRecord record ++ rest ∧ (Utf8.encode record.2).length < space 4 := by
  simp only [readRecord, bind, Except.bind, pure, Except.pure] at read
  split at read
  · contradiction
  next address =>
  split at read
  · contradiction
  next found =>
  split at read
  · contradiction
  next length number =>
  split at read
  · contradiction
  next encoded =>
  split at read
  · next decoded =>
    cases read
    have bound := ofLittleEndianBound length.1
    obtain ⟨front, four⟩ := needTakes number
    obtain ⟨text, full⟩ := needTakes encoded
    have digits := littleEndianRead length.1
    rw [four] at bound digits
    refine ⟨?_, ?_⟩
    · rw [readAddressTakes address, found, front, text, writeRecord, Utf8.encodeOfDecode decoded,
        full, digits, List.append_assoc, List.append_assoc]
    · rw [Utf8.encodeOfDecode decoded, full]
      exact bound
  · contradiction

theorem readRecordsTakes {count : Nat} {t filled : Table}
    (read : readRecords count t bytes = .ok (filled, rest)) :
    ∃ records, records.length = count ∧ bytes = records.flatMap writeRecord ++ rest ∧
      filled = t.putAll records ∧ records.Pairwise (fun r s => r.1 ≠ s.1) ∧
      (∀ r ∈ records, t.owner? r.1 = none) ∧
      ∀ r ∈ records, (Utf8.encode r.2).length < space 4 := by
  induction count generalizing t bytes with
  | zero =>
    cases read
    exact ⟨[], rfl, rfl, rfl, .nil, by simp, by simp⟩
  | succ count ih =>
    simp only [readRecords] at read
    split at read
    · contradiction
    next a owner _ head =>
    obtain ⟨whole, short⟩ := readRecordTakes head
    cases owned : t.owner? a with
    | none =>
      rw [Table.tryReserveFree owned] at read
      obtain ⟨records, length, tail, filled, distinct, fresh, others⟩ := ih read
      have apart (r : Address × String) (member : r ∈ records) : a ≠ r.1 ∧ t.owner? r.1 = none := by
        have unowned := fresh r member
        rw [Table.ownerPut] at unowned
        split at unowned
        · contradiction
        · next differ => exact ⟨differ, unowned⟩
      refine ⟨(a, owner) :: records, by simp [length], ?_, filled,
        List.pairwise_cons.mpr ⟨fun r member => (apart r member).1, distinct⟩, ?_, ?_⟩
      · rw [whole, tail, List.flatMap_cons, List.append_assoc]
      · intro r member
        rcases List.mem_cons.mp member with rfl | later
        · exact owned
        · exact (apart r later).2
      · intro r member
        rcases List.mem_cons.mp member with rfl | later
        · exact short
        · exact others r later
    | some other =>
      rw [Table.tryReserveOwned (by simp [owned])] at read
      contradiction

end Takes

theorem readRecordsProper {count : Nat} {t filled : Table} {bytes rest : Bytes}
    (proper : t.Proper) (read : readRecords count t bytes = .ok (filled, rest)) :
    filled.Proper := by
  induction count generalizing t bytes with
  | zero =>
    cases read
    exact proper
  | succ count ih =>
    simp only [readRecords] at read
    split at read
    · contradiction
    next a owner _ record =>
    cases owned : t.owner? a with
    | none =>
      rw [Table.tryReserveFree owned] at read
      exact ih (proper.put owned (readRecordTakes record).2) read
    | some other =>
      rw [Table.tryReserveOwned (by simp [owned])] at read
      contradiction

theorem readProper {bytes : Bytes} {s : Snapshot} (found : read bytes = .ok s) :
    s.table.Proper := by
  simp only [read] at found
  split at found
  · contradiction
  split at found
  · contradiction
  simp only [readBody, bind, Except.bind] at found
  split at found
  · contradiction
  split at found
  · contradiction
  split at found
  · contradiction
  next records =>
  split at found
  · contradiction
  split at found
  · cases found
    exact (readRecordsProper Table.properEmpty records).setMarker _
  · contradiction

theorem soundOf {s : Snapshot} (proper : s.table.Proper) (size : s.table.size < space 8)
    (lsn : s.lastLsn < space 8) : s.Sound where
  indexes := proper.indexes
  owners r member := proper.owners ((Table.memToList s.table r.1 r.2).mp member)
  size := size
  lsn := lsn

end Snapshot
end AddressPool
