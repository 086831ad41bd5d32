import AddressPool.Proofs.Snapshot.Access
import AddressPool.Proofs.Snapshot.Reading

/-! Which bytes are a snapshot. The records of a file may stand in any order; what counts is
that no address has two of them. Reading accepts exactly these files, and the one of them
with its records in ascending order is the file that is written. -/
namespace AddressPool
open Bytes

namespace Table

inductive Reachable : Table → Prop where
  | empty : Reachable empty
  | tryReserve {t : Table} (before : Reachable t) (owner : String) (a : Address) :
      Reachable (t.tryReserve owner a).2
  | free {t : Table} (before : Reachable t) (a : Address) : Reachable (t.free a)
  | apply {t : Table} (before : Reachable t) (operation : Operation) :
      Reachable (t.apply operation)
  | setMarker {t : Table} (before : Reachable t) (marker : Option Address) :
      Reachable (t.setMarker marker)

theorem Reachable.indexes {t : Table} (reachable : t.Reachable) : t.Inverse := by
  induction reachable with
  | empty => exact inverseEmpty
  | @tryReserve t before owner a ih =>
    cases owned : t.owner? a with
    | none =>
      rw [tryReserveFree owned]
      exact inversePut ih owned owner
    | some other =>
      rw [tryReserveOwned (by simp [owned])]
      exact ih
  | free before a ih => exact inverseFree ih a
  | apply before operation ih => exact inverseApply ih operation
  | setMarker before marker ih => exact inverseSetMarker ih marker

section Records

variable {records : List (Address × String)}

theorem ownerPutAllIff (distinct : records.Pairwise (fun r s => r.1 ≠ s.1)) (a : Address)
    (owner : String) : (empty.putAll records).owner? a = some owner ↔ (a, owner) ∈ records := by
  rw [ownerPutAll distinct, ownerEmpty, Option.or_none, Option.map_eq_some_iff]
  constructor
  · rintro ⟨⟨b, _⟩, found, rfl⟩
    obtain rfl : b = a := by simpa using List.find?_some found
    exact List.mem_of_find?_eq_some found
  · intro member
    induction records with
    | nil => contradiction
    | cons r rest ih =>
      obtain ⟨apart, distinct⟩ := List.pairwise_cons.mp distinct
      rcases List.mem_cons.mp member with rfl | later
      · exact ⟨_, List.find?_cons_of_pos (by simp), rfl⟩
      · rw [List.find?_cons_of_neg (by simpa using apart _ later)]
        exact ih distinct later

theorem toListOfAscending {t : Table} (ascending : records.Pairwise (fun r s => r.1 < s.1))
    (holds : ∀ a owner, t.owner? a = some owner ↔ (a, owner) ∈ records) : t.toList = records := by
  have sorted := t.recordsAscending
  have once {list : List (Address × String)} (sorted : list.Pairwise (fun r s => r.1 < s.1)) :
      list.Nodup := by
    refine sorted.imp ?_
    rintro r _ less rfl
    exact Nat.lt_irrefl r.1.rank less
  have same : t.toList.Perm records := by
    rw [List.perm_ext_iff_of_nodup (once sorted) (once ascending)]
    rintro ⟨a, owner⟩
    rw [memToList, holds]
  refine same.eq_of_pairwise ?_ sorted ascending
  intro r s _ _ below above
  exact (Nat.lt_asymm below above).elim

end Records
end Table

namespace Snapshot

structure Spelled (s : Snapshot) (bytes : Bytes) (records : List (Address × String)) : Prop where
  file : bytes = stamp (spell records s.table.marker s.lastLsn)
  distinct : records.Pairwise (fun r s => r.1 ≠ s.1)
  few : records.length < space 8
  lsn : s.lastLsn < space 8
  short : ∀ r ∈ records, (Utf8.encode r.2).length < space 4
  holds : ∀ a owner, s.table.owner? a = some owner ↔ (a, owner) ∈ records
  indexes : s.table.Inverse

theorem Spelled.sized {s : Snapshot} {bytes : Bytes} {records : List (Address × String)}
    (spelled : s.Spelled bytes records) : 4 * s.table.size ≤ bytes.length := by
  have whole : s.table.size ≤ records.length := by
    have listed : s.table.toList.length = s.table.size := Std.ExtTreeMap.length_toList
    have distinct : s.table.toList.Nodup :=
      s.table.distinctRecords.imp fun apart same => apart (congrArg Prod.fst same)
    have held : s.table.toList ⊆ records := fun r member =>
      (spelled.holds r.1 r.2).mp ((s.table.memToList r.1 r.2).mp member)
    exact listed ▸ distinct.length_le_of_subset held
  have each : 4 * records.length ≤ (records.flatMap writeRecord).length := by
    clear spelled whole
    induction records with
    | nil => exact Nat.le_refl 0
    | cons r rest ih =>
      simp only [List.flatMap_cons, List.length_append, List.length_cons, writeRecord,
        littleEndianLength]
      omega
  rw [spelled.file, stamp, spell]
  simp only [List.length_append]
  omega

theorem spellParts {body : Bytes} (header : headerSize ≤ body.length) :
    body = body.take 4 ++ littleEndian 2 (ofLittleEndian ((body.drop 4).take 2)) ++
      littleEndian 8 (ofLittleEndian ((body.drop 6).take 8)) ++
      littleEndian 8 (ofLittleEndian ((body.drop 14).take 8)) ++ body.drop headerSize := by
  have field (offset width : Nat) (inside : offset + width ≤ headerSize) :
      littleEndian width (ofLittleEndian ((body.drop offset).take width)) =
        (body.drop offset).take width := by
    apply fieldRead
    rw [List.length_drop]
    omega
  rw [field 4 2 (by decide), field 6 8 (by decide), field 14 8 (by decide), ← List.take_add,
    ← List.take_add, ← List.take_add]
  exact (List.take_append_drop headerSize body).symm

theorem readBodyTakes {body : Bytes} {s : Snapshot} (header : headerSize ≤ body.length)
    (found : readBody body = .ok s) : ∃ records, s.Spelled (stamp body) records := by
  have parts := spellParts header
  simp only [readBody, bind, Except.bind, pure, Except.pure] at found
  split at found
  · contradiction
  next letters =>
  split at found
  · contradiction
  next number =>
  split at found
  · contradiction
  next filled =>
  split at found
  · contradiction
  next closing =>
  split at found
  · next last =>
    cases found
    obtain ⟨records, length, whole, made, distinct, fresh, short⟩ := readRecordsTakes filled
    have marker := readAddressTakes closing
    rw [Decidable.not_not.mp letters, Decidable.not_not.mp number, ← length, whole, marker, last,
      List.append_nil] at parts
    refine ⟨records, ?_, distinct, ?_, fieldBound 8 _, short, ?_, ?_⟩
    · rw [spell, List.append_assoc]
      exact congrArg stamp parts
    · rw [length]
      exact fieldBound 8 _
    · intro a owner
      rw [made]
      exact Table.ownerPutAllIff distinct a owner
    · rw [made]
      exact Table.inverseSetMarker (Table.inversePutAll Table.inverseEmpty distinct fresh) _
  · contradiction

theorem readSpelled (bytes : Bytes) (s : Snapshot) :
    read bytes = .ok s ↔ ∃ records, s.Spelled bytes records := by
  constructor
  · intro found
    simp only [read] at found
    split at found
    · contradiction
    next long =>
    split at found
    · contradiction
    next sum =>
    have header : headerSize ≤ (bytes.take (bytes.length - footerSize)).length := by
      rw [List.length_take]
      omega
    have four : (bytes.drop (bytes.length - footerSize)).length = footerSize := by
      rw [List.length_drop]
      omega
    obtain ⟨records, spelled⟩ := readBodyTakes header found
    have footer := littleEndianRead (bytes.drop (bytes.length - footerSize))
    have small := ofLittleEndianBound (bytes.drop (bytes.length - footerSize))
    rw [four] at footer small
    have stored := (wordIff small _).mp (Decidable.not_not.mp sum)
    have whole : stamp (bytes.take (bytes.length - footerSize)) = bytes := by
      rw [stamp, ← stored, footer, List.take_append_drop]
    rw [whole] at spelled
    exact ⟨records, spelled⟩
  · rintro ⟨records, spelled⟩
    have table : (Table.empty.putAll records).setMarker s.table.marker = s.table := by
      have made := Table.inversePutAll Table.inverseEmpty spelled.distinct
        (fun r _ => Table.ownerEmpty r.1)
      refine Table.sameTable (Table.inverseSetMarker made _) spelled.indexes ?_ rfl
      intro a
      apply Option.ext
      intro owner
      rw [Table.ownerSetMarker, Table.ownerPutAllIff spelled.distinct, spelled.holds]
    rw [spelled.file, readStamped spellLength,
      readBodySpelled spelled.short spelled.distinct spelled.few spelled.lsn, table]

theorem writeSpelled {s : Snapshot} {bytes : Bytes} {records : List (Address × String)}
    (spelled : s.Spelled bytes records) (ascending : records.Pairwise (fun r t => r.1 < t.1)) :
    s.write = bytes := by
  rw [writeSpells, Table.toListOfAscending ascending spelled.holds, spelled.file]

theorem spellingsExact :
    (∀ s : Snapshot, s.table.Reachable →
      (∀ a owner, s.table.owner? a = some owner → (Utf8.encode owner).length < space 4) →
      s.table.size < space 8 → s.lastLsn < space 8 → read s.write = .ok s) ∧
    (∀ (d : Folder) (bytes : Bytes), d.read .snapshot = .ok (some bytes) →
      (∀ s, load d = .ok (some s) ↔ ∃ records, Spelled s bytes records) ∧
      ((∀ s records, ¬ Spelled s bytes records) →
        ∃ fault, load d = .error (.damage (.snapshot fault)))) ∧
    (∀ (s : Snapshot) bytes records, s.Spelled bytes records →
      records.Pairwise (fun r t => r.1 < t.1) → s.write = bytes) ∧
    ∀ bytes, Access.read bytes = some (read bytes) := by
  refine ⟨?_, ?_, fun s bytes records => writeSpelled, Access.readInside⟩
  · intro s reachable short size lsn
    have proper : s.table.Proper := ⟨reachable.indexes, fun owned => short _ _ owned⟩
    exact readWritten (soundOf proper size lsn)
  · intro d bytes file
    simp only [load, file]
    cases found : read bytes with
    | ok s =>
      constructor
      · intro t
        rw [← readSpelled, found]
        simp
      · intro nothing
        obtain ⟨records, spelled⟩ := (readSpelled bytes s).mp found
        exact (nothing s records spelled).elim
    | error fault =>
      constructor
      · intro t
        rw [← readSpelled, found]
        simp
      · intro _
        exact ⟨fault, rfl⟩

def filed (bytes : Bytes) : Folder :=
  { Folder.absent with
    shape := .folder
    names := fun name => if name = .snapshot then some 0 else none
    nodes := [⟨.file bytes 0, none⟩] }

def lower : Address := ⟨.v4, 0x0A000002, by decide⟩

def upper : Address := ⟨.v6, 9, by decide⟩

def descended : Snapshot := ⟨((Table.empty.tryReserve "b" upper).2.tryReserve "a" lower).2, 5⟩

theorem descendedSpelled :
    let backwards := stamp (spell [(upper, "b"), (lower, "a")] (some lower) 5)
    let forwards := stamp (spell [(lower, "a"), (upper, "b")] (some lower) 5)
    read descended.write = .ok descended ∧ load (filed backwards) = .ok (some descended) ∧
      descended.write = forwards ∧ ∃ fault, load (filed []) = .error (.damage (.snapshot fault)) := by
  intro backwards forwards
  obtain ⟨written, files, canonical, _⟩ := spellingsExact
  have reachable : descended.table.Reachable := .tryReserve (.tryReserve .empty "b" upper) "a" lower
  have listed : descended.table.toList = [(lower, "a"), (upper, "b")] := by decide +kernel
  have holds (a : Address) (owner : String) :
      descended.table.owner? a = some owner ↔ (a, owner) ∈ [(lower, "a"), (upper, "b")] := by
    rw [← listed, Table.memToList]
  have short : ∀ r ∈ [(lower, "a"), (upper, "b")], (Utf8.encode r.2).length < space 4 := by decide
  have spelled : descended.Spelled forwards [(lower, "a"), (upper, "b")] :=
    ⟨rfl, by decide, by decide, by decide, short, holds, reachable.indexes⟩
  have turned : descended.Spelled backwards [(upper, "b"), (lower, "a")] := by
    refine ⟨rfl, by decide, by decide, by decide, by decide, ?_, reachable.indexes⟩
    intro a owner
    rw [holds, List.mem_cons, List.mem_cons, List.mem_cons, List.mem_cons, or_left_comm]
  have bad : load (filed []) = .error (.damage (.snapshot (.short 0))) := rfl
  refine ⟨?_, ?_, ?_, ?_⟩
  · refine written descended reachable ?_ (by decide +kernel) (by decide)
    intro a owner owned
    exact short _ ((holds a owner).mp owned)
  · exact ((files (filed backwards) backwards rfl).1 descended).mpr ⟨_, turned⟩
  · exact canonical descended forwards _ spelled (by decide)
  · refine (files (filed []) [] rfl).2 ?_
    intro s records spelled
    have fine := ((files (filed []) [] rfl).1 s).mpr ⟨records, spelled⟩
    rw [bad] at fine
    contradiction

end Snapshot
end AddressPool
