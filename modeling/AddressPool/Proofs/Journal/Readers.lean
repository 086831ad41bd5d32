import AddressPool.Proofs.Journal.Codec
import AddressPool.Proofs.Journal.Reading

/-! Three readers of one journal: entries read singly at their offsets, the strict reading that
gives a fault as its last item, and recovery. Where recovery accepts a journal, all three agree
on its entries, and the cut that recovery calls for is in front of the strict reader's fault. -/
namespace AddressPool.Journal
open Bytes

namespace Entry

def readEach (bytes : Bytes) : Except Fault (List Entry) :=
  if bytes = [] then .ok []
  else
    match read bytes with
    | .error fault => .error fault
    | .ok e =>
        match readEach (bytes.drop (headerSize + announced bytes)) with
        | .error fault => .error fault
        | .ok rest => .ok (e :: rest)
termination_by bytes.length
decreasing_by
  have there : 0 < bytes.length := List.length_pos_iff.mpr ‹_›
  rw [List.length_drop, headerSize]
  omega

variable {e : Entry} {spelling : Bytes}

theorem Spelled.read (spelled : e.Spelled spelling) (rest : Bytes) :
    Entry.read (spelling ++ rest) = .ok e := by
  obtain ⟨raw, header, payload, rfl, full, checked, length, parts⟩ := spelled
  have cut : split headerSize (raw ++ payload ++ rest) = some (raw, payload ++ rest) :=
    splitExact.mpr ⟨List.append_assoc raw payload rest, full⟩
  have cutPayload : split header.length (payload ++ rest) = some (payload, rest) :=
    splitExact.mpr ⟨rfl, length⟩
  simp only [Entry.read, cut, checked, cutPayload, parts]

theorem Spelled.announced (spelled : e.Spelled spelling) (rest : Bytes) :
    spelling.length = headerSize + Entry.announced (spelling ++ rest) := by
  obtain ⟨raw, header, payload, rfl, full, checked, length, _⟩ := spelled
  have front : (raw ++ payload ++ rest).take headerSize = raw := by
    rw [List.append_assoc]
    exact List.take_left' full
  rw [← front, readHeaderTake, readHeaderIff] at checked
  obtain ⟨_, _, _, size, _⟩ := checked
  rw [List.length_append, full, length, size]
  rfl

theorem readEachReads {bytes : Bytes} {entries : List Entry} (reads : Reads bytes entries) :
    readEach bytes = .ok entries := by
  induction reads with
  | nothing =>
    rw [readEach, if_pos rfl]
  | @more spelling rest e entries head tail ih =>
    have there : spelling ++ rest ≠ [] := by
      have size := head.announced rest
      intro none
      rw [(List.append_eq_nil_iff.mp none).1, List.length_nil, headerSize] at size
      omega
    rw [readEach, if_neg there]
    simp only [head.read rest, ← head.announced rest, List.drop_left, ih]

end Entry

theorem frontNothing {offset : Nat} {bytes : Bytes} : front offset bytes = .nothing ↔ bytes = [] := by
  constructor
  · intro found
    unfold front at found
    split at found
    · rfl
    · split at found <;> try contradiction
      split at found <;> try contradiction
      · split at found <;> contradiction
      · split at found <;> try contradiction
        split at found <;> contradiction
  · rintro rfl
    rfl

theorem endOfNothing {offset : Nat} {bytes : Bytes} (there : front offset bytes ≠ .nothing) :
    endOf offset [] ≠ offset + bytes.length := by
  have some : 0 < bytes.length :=
    List.length_pos_iff.mpr fun none => there (frontNothing.mpr none)
  simp only [endOf, List.getLast?_nil, Option.map_none, Option.getD_none]
  omega

theorem walkClean (offset : Nat) (bytes : Bytes) :
    (walkFrom offset bytes).ending = .clean ↔
      endOf offset (walkFrom offset bytes).entries = offset + bytes.length := by
  fun_induction walkFrom offset bytes with
  | case1 offset bytes found =>
    rw [frontNothing.mp found]
    exact iff_of_true rfl rfl
  | case2 offset bytes e size rest found walk ih =>
    obtain ⟨spelling, rfl, rfl, spelled⟩ := frontSpelled.mp found
    rw [endOfCons, List.length_append, ← Nat.add_assoc]
    exact ih
  | case3 offset bytes found => exact iff_of_false (by simp) (endOfNothing (by simp [found]))
  | case4 offset bytes size rest found =>
    exact iff_of_false (by simp) (endOfNothing (by simp [found]))
  | case5 offset bytes fault found =>
    exact iff_of_false (by simp) (endOfNothing (by simp [found]))

structure Recovery.Exact (found : Recovery) (bytes : Bytes) : Prop where
  rising : (found.entries.map Entry.lsn).Pairwise (· < ·)
  each : Entry.readEach (bytes.take found.validLength) = .ok found.entries
  items : ∃ faults : List Fault,
    readAll bytes = found.entries.map .ok ++ faults.map .error ∧ faults.length = found.dropped
  dropped : found.dropped = if found.truncated then 1 else 0
  truncated : found.truncated = true ↔ found.validLength < bytes.length
  inside : found.validLength ≤ bytes.length

section Recovered

variable {path : String} {bytes : Bytes} {found : Recovery}

theorem recoverEnds (recovered : recover path bytes = .ok found) :
    ∃ faults : List Fault,
      readAll bytes = found.entries.map .ok ++ faults.map .error ∧
      faults.length = found.dropped ∧
      found.dropped = (if (walk bytes).ending = .clean then 0 else 1) ∧
      found.validLength = endOf 0 (walk bytes).entries := by
  have listed : (walk bytes).entries.map (fun found => (.ok found.1 : Except Fault Entry)) =
      ((walk bytes).entries.map Prod.fst).map .ok := List.map_map.symm
  simp only [recover] at recovered
  split at recovered
  · contradiction
  · split at recovered
    · next clean =>
      cases recovered
      exact ⟨[], by simp only [readAll, clean, listed]; rfl, rfl, by rw [clean]; rfl, rfl⟩
    · next torn =>
      cases recovered
      exact ⟨[_], by simp only [readAll, torn, listed]; rfl, rfl, by rw [torn]; rfl, rfl⟩
    · next bad =>
      split at recovered
      · contradiction
      · cases recovered
        exact ⟨[_], by simp only [readAll, bad, listed]; rfl, rfl, by rw [bad]; rfl, rfl⟩
    · contradiction

theorem recoverExact (recovered : recover path bytes = .ok found) : found.Exact bytes := by
  obtain ⟨faults, items, count, dropped, stop⟩ := recoverEnds recovered
  obtain ⟨whole, left, rfl, reads, rising, _, valid, truncated⟩ := recoverFound recovered
  have cut : found.truncated = true ↔ found.validLength < (whole ++ left).length := by
    rw [truncated, valid, List.length_append, ← List.length_pos_iff]
    omega
  have inside : found.validLength ≤ (whole ++ left).length := by
    rw [valid, List.length_append]
    omega
  have clean : (walk (whole ++ left)).ending = .clean ↔ ¬ found.truncated = true := by
    rw [cut, walk, walkClean 0, ← walk, ← stop]
    omega
  refine ⟨(risingNumbers rising).2, ?_, ⟨faults, items, count⟩, ?_, cut, inside⟩
  · rw [valid, List.take_left]
    exact Entry.readEachReads reads
  · rw [dropped]
    simp only [clean]
    split <;> simp_all

theorem recoverAgain (recovered : recover path bytes = .ok found) (other : String) :
    recover other (bytes.take found.validLength) =
      .ok { found with dropped := 0, truncated := false } := by
  obtain ⟨whole, left, rfl, reads, rising, last, valid, _⟩ := recoverFound recovered
  rw [valid, List.take_left, recoverReads other reads rising, ← last, ← valid]

end Recovered

end AddressPool.Journal
