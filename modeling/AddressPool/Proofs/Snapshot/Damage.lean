import AddressPool.Proofs.Bytes.Checksum
import AddressPool.Proofs.Medium.Lock
import AddressPool.Proofs.Snapshot.Codec
import AddressPool.Store.Disk

/-! Snapshots that have suffered. An alteration of one byte makes the checksum fail. A file that
lost its end is refused whatever its last bytes say as a checksum, because the number of records,
the lengths in them and the marker say where a snapshot ends: no snapshot begins with another. -/
namespace AddressPool
open Bytes

namespace Snapshot

inductive Damaged (bytes : Bytes) : Bytes → Prop where
  | altered {place : Nat} {other : Bytes} (changed : Altered place bytes other) :
      Damaged bytes other
  | cut {count : Nat} (short : count < bytes.length) : Damaged bytes (bytes.take count)

theorem readUnsummed {text sum : Bytes} (header : headerSize ≤ text.length)
    (four : sum.length = footerSize) (apart : ofLittleEndian sum ≠ (Checksum.crc32 text).toNat) :
    ∃ fault, read (text ++ sum) = .error fault := by
  have long : ¬ (text ++ sum).length < headerSize + footerSize := by
    rw [List.length_append]
    omega
  have size : (text ++ sum).length - footerSize = text.length := by
    rw [List.length_append, four, Nat.add_sub_cancel]
  have small : ofLittleEndian sum < space 4 := by
    have bound := ofLittleEndianBound sum
    rwa [four] at bound
  have unequal : UInt32.ofNat (ofLittleEndian sum) ≠ Checksum.crc32 text :=
    fun same => apart ((wordIff small _).mp same)
  simp only [read, if_neg long, size, List.take_left, List.drop_left]
  rw [if_pos unequal]
  exact ⟨_, rfl⟩

theorem readAltered (s : Snapshot) {place : Nat} {other : Bytes}
    (altered : Altered place s.write other) : ∃ fault, read other = .error fault := by
  rw [writeSpells, stamp] at altered
  obtain ⟨text, sum, rfl, long, four, apart⟩ := Checksum.sumBehindAltered altered
  have header : headerSize ≤ text.length := by
    rw [long]
    exact spellLength
  exact readUnsummed header four apart

section Prefix

variable {x y : Bytes}

theorem recordInj {r t : Address × String} (short : (Utf8.encode r.2).length < space 4)
    (small : (Utf8.encode t.2).length < space 4)
    (same : writeRecord r ++ x = writeRecord t ++ y) : r = t ∧ x = y := by
  have first := readRecordWritten short x
  rw [same, readRecordWritten small y] at first
  cases first
  exact ⟨rfl, rfl⟩

theorem recordsInj {records others : List (Address × String)}
    (short : ∀ r ∈ records, (Utf8.encode r.2).length < space 4)
    (small : ∀ r ∈ others, (Utf8.encode r.2).length < space 4)
    (count : records.length = others.length)
    (same : records.flatMap writeRecord ++ x = others.flatMap writeRecord ++ y) : x = y := by
  induction records generalizing others with
  | nil =>
    have none : others = [] := List.eq_nil_of_length_eq_zero count.symm
    rw [none] at same
    exact same
  | cons r rest ih =>
    cases others with
    | nil => contradiction
    | cons t more =>
      rw [List.flatMap_cons, List.flatMap_cons, List.append_assoc, List.append_assoc] at same
      obtain ⟨shortHead, shortTail⟩ := List.forall_mem_cons.mp short
      obtain ⟨smallHead, smallTail⟩ := List.forall_mem_cons.mp small
      exact ih shortTail smallTail (Nat.succ.inj count) (recordInj shortHead smallHead same).2

theorem numberInj {width n m : Nat} (same : littleEndian width n ++ x = littleEndian width m ++ y) :
    n % space width = m % space width ∧ x = y := by
  obtain ⟨digits, rest⟩ := List.append_inj same (by rw [littleEndianLength, littleEndianLength])
  have number := congrArg ofLittleEndian digits
  rw [ofLittleEndianWritten, ofLittleEndianWritten] at number
  exact ⟨number, rest⟩

theorem spellInj {records others : List (Address × String)} {marker last : Option Address}
    {lsn number : Nat} (short : ∀ r ∈ records, (Utf8.encode r.2).length < space 4)
    (small : ∀ r ∈ others, (Utf8.encode r.2).length < space 4) (few : records.length < space 8)
    (less : others.length < space 8)
    (same : spell records marker lsn ++ x = spell others last number ++ y) : x = y := by
  simp only [spell, List.append_assoc, List.append_cancel_left_eq] at same
  obtain ⟨count, same⟩ := numberInj same
  obtain ⟨_, same⟩ := numberInj same
  rw [Nat.mod_eq_of_lt few, Nat.mod_eq_of_lt less] at count
  have address := readAddressWritten marker x
  rw [recordsInj short small count same, readAddressWritten] at address
  cases address
  rfl

end Prefix

theorem readCut {s : Snapshot} (owners : ∀ r ∈ s.table.toList, (Utf8.encode r.2).length < space 4)
    (size : s.table.size < space 8) {count : Nat} (short : count < s.write.length) :
    ∃ fault, read (s.write.take count) = .error fault := by
  cases found : read (s.write.take count) with
  | error fault => exact ⟨fault, rfl⟩
  | ok t =>
    obtain ⟨records, spelled⟩ := (readSpelled _ t).mp found
    have sized : s.table.toList.length = s.table.size := Std.ExtTreeMap.length_toList
    have lost : 0 < (s.write.drop count).length := by
      rw [List.length_drop]
      omega
    have whole := List.take_append_drop count s.write
    generalize s.write.drop count = rest at lost whole
    rw [spelled.file, writeSpells, stamp, stamp, List.append_assoc] at whole
    have footers := spellInj spelled.short owners spelled.few (sized ▸ size) whole
    have length := congrArg List.length footers
    rw [List.length_append, littleEndianLength, littleEndianLength] at length
    omega

theorem readDamaged {s : Snapshot}
    (owners : ∀ r ∈ s.table.toList, (Utf8.encode r.2).length < space 4)
    (size : s.table.size < space 8) {bytes : Bytes} (damaged : Damaged s.write bytes) :
    ∃ fault, read bytes = .error fault := by
  cases damaged with
  | altered changed => exact readAltered s changed
  | cut short => exact readCut owners size short

end Snapshot

namespace Folder

variable {d : Folder} {handle : LockHandle} {name : FileName}

theorem setHolderRead (d : Folder) (node : Nat) (holder : Option Nat) (name : FileName) :
    (d.setHolder node holder).read name = d.read name := by
  have same : (d.setHolder node holder).content? = d.content? :=
    funext fun id => setHolderContent d node id holder
  simp only [read, same]
  rfl

theorem dropTaken (free : d.holder? handle.node = none) :
    (d.setHolder handle.node (some handle.id)).dropLock handle = d := by
  have same (nodes : List Node) (all : nodes = d.nodes) : { d with nodes } = d := by rw [all]
  cases there : d.nodes[handle.node]? with
  | none =>
    have short := List.getElem?_eq_none_iff.mp there
    have kept (holder : Option Nat) : d.setHolder handle.node holder = d :=
      same _ (List.modify_eq_self short)
    rw [kept, dropLock, if_neg (by simp [free])]
  | some node =>
    have unheld : node.holder = none := by simpa [holder?, there] using free
    have held : (d.setHolder handle.node (some handle.id)).holder? handle.node = some handle.id := by
      simp [holder?, setHolder, there]
    rw [dropLock, if_pos held]
    refine same _ (List.ext_getElem? fun id => ?_)
    simp only [setHolder, List.getElem?_modify]
    split
    · next here =>
      rw [← here, there]
      exact congrArg some (congrArg (Node.mk node.content) unheld.symm)
    · cases d.nodes[id]? <;> rfl

end Folder

namespace Disk

variable {s : Disk} {handle : Folder.LockHandle}

theorem lockRefuses (unlocked : s.store.locked = none) (opened : s.store.handle = some handle)
    (free : s.folder.holder? handle.node = none) {bytes : Bytes} {fault : SnapshotFault}
    (file : s.folder.read .snapshot = .ok (some bytes))
    (refused : Snapshot.read bytes = .error fault) :
    s.lock = (.error (.damage (.snapshot fault)), s) := by
  have isLocked : ¬ s.isLocked = true := by simp [isLocked, unlocked]
  have took : s.folder.takeLock handle = (true, s.folder.setHolder handle.node (some handle.id)) := by
    simp only [Folder.takeLock, free]
  have loaded : DiskStore.load s.store.path s.store.settings.policy
      (s.folder.setHolder handle.node (some handle.id)) =
      (.error (.damage (.snapshot fault)), s.folder.setHolder handle.node (some handle.id)) := by
    simp only [DiskStore.load, Snapshot.load, Folder.setHolderRead, file, refused]
  simp only [lock, if_neg isLocked, opened, took, loaded, Folder.dropTaken free]
  rw [withLocked, ← unlocked]

/-- No damage goes by: the file is not loaded, and a store that would take the lock stays without
it, in a folder where nothing has changed and nobody has the lock. -/
theorem damageRefused {s : Snapshot}
    (owners : ∀ a owner, s.table.owner? a = some owner → (Utf8.encode owner).length < space 4)
    (size : s.table.size < space 8) {bytes : Bytes} (damaged : Snapshot.Damaged s.write bytes) :
    ∃ fault,
      (∀ d : Folder, d.read .snapshot = .ok (some bytes) →
        Snapshot.load d = .error (.damage (.snapshot fault))) ∧
      ∀ (disk : Disk) (handle : Folder.LockHandle), disk.folder.read .snapshot = .ok (some bytes) →
        disk.store.locked = none → disk.store.handle = some handle →
        disk.folder.holder? handle.node = none →
        disk.lock = (.error (.damage (.snapshot fault)), disk) := by
  have short : ∀ r ∈ s.table.toList, (Utf8.encode r.2).length < space 4 :=
    fun r member => owners r.1 r.2 ((Table.memToList s.table r.1 r.2).mp member)
  obtain ⟨fault, refused⟩ := Snapshot.readDamaged short size damaged
  refine ⟨fault, ?_, ?_⟩
  · intro d file
    simp only [Snapshot.load, file, refused]
  · intro disk handle file unlocked opened free
    exact lockRefuses unlocked opened free file refused

def onSnapshot (bytes : Bytes) : Disk :=
  ⟨⟨"/data/net", {}, some ⟨0, 0⟩, none⟩,
    { Folder.absent with
      shape := .folder
      names := fun
        | .lock => some 0
        | .snapshot => some 1
        | _ => none
      nodes := [⟨.file [] 0, none⟩, ⟨.file bytes bytes.length, none⟩]
      handles := 1 }⟩

theorem descendedRefused :
    let s := Snapshot.descended
    ((∀ a owner, s.table.owner? a = some owner → (Utf8.encode owner).length < space 4) ∧
      s.table.size < space 8 ∧ Snapshot.Damaged s.write (s.write.set 61 0) ∧
      Snapshot.Damaged s.write (s.write.take 40)) ∧
    (∃ fault, (onSnapshot (s.write.set 61 0)).lock =
      (.error (.damage (.snapshot fault)), onSnapshot (s.write.set 61 0))) ∧
    ∃ fault, (onSnapshot (s.write.take 40)).lock =
      (.error (.damage (.snapshot fault)), onSnapshot (s.write.take 40)) := by
  intro s
  have short : ∀ r ∈ s.table.toList, (Utf8.encode r.2).length < space 4 := by decide +kernel
  have owners (a : Address) (owner : String) (owned : s.table.owner? a = some owner) :
      (Utf8.encode owner).length < space 4 :=
    short (a, owner) ((Table.memToList s.table a owner).mpr owned)
  have size : s.table.size < space 8 := by decide +kernel
  have altered : Snapshot.Damaged s.write (s.write.set 61 0) :=
    .altered ⟨_, 0, (List.getElem?_eq_getElem (by decide +kernel)), by decide +kernel, rfl⟩
  have cut : Snapshot.Damaged s.write (s.write.take 40) := .cut (by decide +kernel)
  obtain ⟨first, _, refused⟩ := damageRefused owners size altered
  obtain ⟨second, _, stopped⟩ := damageRefused owners size cut
  exact ⟨⟨owners, size, altered, cut⟩, ⟨first, refused (onSnapshot _) ⟨0, 0⟩ rfl rfl rfl rfl⟩,
    ⟨second, stopped (onSnapshot _) ⟨0, 0⟩ rfl rfl rfl rfl⟩⟩

end Disk
end AddressPool
