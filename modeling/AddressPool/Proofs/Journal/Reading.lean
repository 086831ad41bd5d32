import AddressPool.Proofs.Journal.Scan

/-! A journal of unknown origin. Its entries need not be spelled as they would be written
here, but each of them has bytes of its own, and these are read as the same entry wherever
they stand. So a journal may be cut after an entry or continued at its end. -/
namespace AddressPool

def Operation.owner : Operation → String
  | .reserve _ owner => owner
  | .release owner _ => owner

namespace Journal
open Bytes

theorem ownerInside (operation : Operation) :
    (Utf8.encode operation.owner).length ≤ (writeOperation operation).length := by
  cases operation with
  | reserve a owner => simp only [Operation.owner, writeReserveLength]; omega
  | release owner addresses => simp only [Operation.owner, writeReleaseLength]; omega

theorem readBodyOwner {bytes rest : Bytes} {body : Body} (read : Body.read bytes = .ok (body, rest)) :
    (Utf8.encode body.operation.owner).length ≤ bytes.length := by
  have inside := ownerInside body.operation
  obtain ⟨rfl, _⟩ := readBodyTakes read
  simp only [Body.write, List.length_append]
  omega

def Entry.Spelled (e : Entry) (bytes : Bytes) : Prop :=
  ∃ raw header payload, bytes = raw ++ payload ∧ raw.length = headerSize ∧
    readHeader raw = .ok header ∧ payload.length = header.length ∧
    Entry.ofParts header payload = .ok e

theorem frontSpelled {offset size : Nat} {bytes rest : Bytes} {e : Entry} :
    front offset bytes = .entry e size rest ↔
      ∃ spelling, bytes = spelling ++ rest ∧ size = spelling.length ∧ e.Spelled spelling := by
  constructor
  · intro found
    unfold front at found
    split at found <;> try contradiction
    split at found <;> try contradiction
    rename_i raw behind cut
    split at found <;> try contradiction
    · split at found <;> contradiction
    rename_i header checked
    split at found <;> try contradiction
    rename_i payload last cutPayload
    split at found <;> try contradiction
    rename_i entry parts
    cases found
    obtain ⟨whole, full⟩ := splitExact.mp cut
    obtain ⟨rfl, fullPayload⟩ := splitExact.mp cutPayload
    refine ⟨raw ++ payload, by rw [whole, List.append_assoc], ?_,
      raw, header, payload, rfl, full, checked, fullPayload, parts⟩
    rw [List.length_append, full, fullPayload]
  · rintro ⟨_, rfl, rfl, raw, header, payload, rfl, full, checked, fullPayload, parts⟩
    have cutPayload : split header.length (payload ++ rest) = some (payload, rest) :=
      splitExact.mpr ⟨rfl, fullPayload⟩
    rw [List.append_assoc, frontOfHeader offset full]
    simp only [checked, cutPayload, parts]
    rw [List.length_append, full, fullPayload]

namespace Entry

theorem spelledWritten {e : Entry} (sound : e.Sound) : e.Spelled e.bytes :=
  ⟨writeHeader e.header, e.header, e.payload, rfl, writeHeaderLength e.header,
    readHeaderOf sound, rfl, ofPartsWritten sound⟩

theorem Spelled.owner {e : Entry} {bytes : Bytes} (spelled : e.Spelled bytes) :
    (Utf8.encode e.operation.owner).length < space 4 := by
  obtain ⟨raw, header, payload, _, _, checked, length, parts⟩ := spelled
  have short : header.length ≤ payloadLimit := by
    simp only [readHeader] at checked
    split at checked
    · split at checked
      · contradiction
      · next fits =>
        cases checked
        exact Nat.not_lt.mp fits
    · contradiction
  have limit : payloadLimit < space 4 := by decide
  have inside : (Utf8.encode e.operation.owner).length ≤ payload.length := by
    simp only [ofParts] at parts
    split at parts
    · split at parts
      · next read =>
        cases parts
        exact readBodyOwner read
      · contradiction
    · contradiction
  omega

theorem Spelled.number {e : Entry} {bytes : Bytes} (spelled : e.Spelled bytes) :
    e.lsn < space 8 := by
  obtain ⟨raw, header, payload, _, _, checked, _, parts⟩ := spelled
  have numbered : header.lsn < space 8 := by
    simp only [readHeader] at checked
    split at checked
    · split at checked <;> cases checked
      exact fieldBound 8 raw
    · contradiction
  simp only [ofParts] at parts
  split at parts
  · split at parts <;> cases parts
    exact numbered
  · contradiction

end Entry

inductive Reads : Bytes → List Entry → Prop where
  | nothing : Reads [] []
  | more {spelling rest : Bytes} {e : Entry} {entries : List Entry} (head : e.Spelled spelling)
      (tail : Reads rest entries) : Reads (spelling ++ rest) (e :: entries)

theorem Reads.append {front rest : Bytes} {first last : List Entry} (reads : Reads front first)
    (others : Reads rest last) : Reads (front ++ rest) (first ++ last) := by
  induction reads with
  | nothing => exact others
  | more head tail ih =>
    rw [List.append_assoc]
    exact .more head ih

theorem readsWritten {entries : List Entry} (sound : ∀ e ∈ entries, e.Sound) :
    Reads (written entries) entries := by
  induction entries with
  | nil => exact .nothing
  | cons e rest ih =>
    exact .more (Entry.spelledWritten (sound e List.mem_cons_self))
      (ih fun other member => sound other (List.mem_cons_of_mem e member))

theorem Reads.every {p : Entry → Prop} (spelled : ∀ {e : Entry} {bytes}, e.Spelled bytes → p e)
    {bytes : Bytes} {entries : List Entry} (reads : Reads bytes entries) : ∀ e ∈ entries, p e := by
  induction reads with
  | nothing => simp
  | more head tail ih =>
    intro e member
    rcases List.mem_cons.mp member with rfl | later
    · exact spelled head
    · exact ih e later

theorem Reads.sized {bytes : Bytes} {entries : List Entry} (reads : Reads bytes entries) :
    headerSize * entries.length ≤ bytes.length := by
  induction reads with
  | nothing => exact Nat.le_refl 0
  | more head tail ih =>
    obtain ⟨raw, header, payload, rfl, full, _⟩ := head
    rw [List.length_cons, Nat.mul_succ, List.length_append, List.length_append, full]
    omega

def endOf (offset : Nat) (found : List (Entry × Nat)) : Nat :=
  (found.getLast?.map Prod.snd).getD offset

theorem endOfCons (offset stop : Nat) (e : Entry) (found : List (Entry × Nat)) :
    endOf offset ((e, stop) :: found) = endOf stop found := by
  cases last : found.getLast? with
  | none => simp [endOf, List.getLast?_cons, last]
  | some other => simp [endOf, List.getLast?_cons, last]

theorem walkReads (offset : Nat) {bytes : Bytes} {entries : List Entry}
    (reads : Reads bytes entries) :
    ∃ found, walkFrom offset bytes = ⟨found, .clean⟩ ∧ found.map Prod.fst = entries ∧
      endOf offset found = offset + bytes.length := by
  induction reads generalizing offset with
  | nothing => exact ⟨[], walkNothing offset, rfl, rfl⟩
  | @more spelling rest e entries head tail ih =>
    obtain ⟨found, walked, listed, stop⟩ := ih (offset + spelling.length)
    have here : front offset (spelling ++ rest) = .entry e spelling.length rest :=
      frontSpelled.mpr ⟨spelling, rfl, rfl, head⟩
    refine ⟨(e, offset + spelling.length) :: found, ?_, ?_, ?_⟩
    · rw [walkOfEntry here, walked]
    · rw [List.map_cons, listed]
    · rw [endOfCons, stop, List.length_append, Nat.add_assoc]

theorem walkPast (offset : Nat) {whole : Bytes} {entries : List Entry} (reads : Reads whole entries)
    (rest : Bytes) :
    walkFrom offset (whole ++ rest) =
      ⟨(walkFrom offset whole).entries ++ (walkFrom (offset + whole.length) rest).entries,
        (walkFrom (offset + whole.length) rest).ending⟩ := by
  induction reads generalizing offset with
  | nothing => simp [walkNothing]
  | @more spelling behind e entries head tail ih =>
    have alone : front offset (spelling ++ behind) = .entry e spelling.length behind :=
      frontSpelled.mpr ⟨spelling, rfl, rfl, head⟩
    have followed : front offset (spelling ++ (behind ++ rest)) =
        .entry e spelling.length (behind ++ rest) :=
      frontSpelled.mpr ⟨spelling, rfl, rfl, head⟩
    rw [List.append_assoc, walkOfEntry followed, walkOfEntry alone, ih (offset + spelling.length)]
    simp [Nat.add_assoc]

theorem walkSplit (offset : Nat) (bytes : Bytes) :
    ∃ whole left, bytes = whole ++ left ∧
      Reads whole ((walkFrom offset bytes).entries.map Prod.fst) ∧
      endOf offset (walkFrom offset bytes).entries = offset + whole.length := by
  fun_induction walkFrom offset bytes with
  | case2 offset bytes e size rest found walk ih =>
    obtain ⟨spelling, rfl, rfl, spelled⟩ := frontSpelled.mp found
    obtain ⟨whole, left, rfl, reads, stop⟩ := ih
    refine ⟨spelling ++ whole, left, by rw [List.append_assoc], .more spelled reads, ?_⟩
    rw [endOfCons, stop, List.length_append, Nat.add_assoc]
  | case1 | case3 | case4 | case5 => exact ⟨[], _, rfl, .nothing, rfl⟩

theorem recoverFound {path : String} {bytes : Bytes} {found : Recovery}
    (recovered : recover path bytes = .ok found) :
    ∃ whole left, bytes = whole ++ left ∧ Reads whole found.entries ∧
      backwards? 0 found.entries = none ∧ found.lastLsn = lsnAfter 0 found.entries ∧
      found.validLength = whole.length ∧ (found.truncated = true ↔ left ≠ []) := by
  obtain ⟨whole, left, rfl, reads, stop⟩ := walkSplit 0 bytes
  rw [Nat.zero_add] at stop
  refine ⟨whole, left, rfl, ?_⟩
  have told : found.entries = (walk (whole ++ left)).entries.map Prod.fst ∧
      backwards? 0 found.entries = none ∧ found.lastLsn = lsnAfter 0 found.entries ∧
      found.validLength = whole.length ∧
      found.truncated = decide (whole.length < (whole ++ left).length) := by
    have valid : ((walk (whole ++ left)).entries.getLast?.map Prod.snd).getD 0 = whole.length := stop
    simp only [recover, valid] at recovered
    split at recovered
    · contradiction
    · next rising =>
      split at recovered
      · cases recovered
        exact ⟨rfl, rising, rfl, rfl, rfl⟩
      · cases recovered
        exact ⟨rfl, rising, rfl, rfl, rfl⟩
      · split at recovered
        · contradiction
        · cases recovered
          exact ⟨rfl, rising, rfl, rfl, rfl⟩
      · contradiction
  obtain ⟨entries, rising, last, valid, cut⟩ := told
  refine ⟨?_, rising, last, valid, ?_⟩
  · rw [entries]
    exact reads
  · rw [cut, decide_eq_true_eq, List.length_append, ← List.length_pos_iff]
    omega

theorem recoverReads (path : String) {bytes : Bytes} {entries : List Entry}
    (reads : Reads bytes entries) (rising : backwards? 0 entries = none) :
    recover path bytes = .ok ⟨entries, 0, lsnAfter 0 entries, false, bytes.length⟩ := by
  obtain ⟨found, walked, listed, stop⟩ := walkReads 0 reads
  rw [Nat.zero_add] at stop
  have valid : (found.getLast?.map Prod.snd).getD 0 = bytes.length := stop
  simp only [recover, walk, walked, listed, rising, valid, Nat.lt_irrefl, decide_false]
  rfl

theorem recoverBackwards (path : String) {bytes : Bytes} {entries : List Entry} {lsn last : Nat}
    (reads : Reads bytes entries) (back : backwards? 0 entries = some (lsn, last)) :
    recover path bytes = .error (.damage (.journal (.backwards lsn last))) := by
  obtain ⟨found, walked, listed, _⟩ := walkReads 0 reads
  simp only [recover, walk, walked, listed, back]

theorem recoverAlike {path : String} {bytes : Bytes} {found : Recovery}
    (recovered : recover path bytes = .ok found) (other : String) :
    recover other bytes = .ok found := by
  simp only [recover] at recovered ⊢
  split at recovered
  · contradiction
  · split at recovered
    · simp_all
    · simp_all
    · split at recovered
      · contradiction
      · simp_all
    · contradiction

theorem risingNumbers {last : Nat} {entries : List Entry} (rising : backwards? last entries = none) :
    (∀ e ∈ entries, last < e.lsn) ∧ (entries.map Entry.lsn).Pairwise (· < ·) := by
  induction entries generalizing last with
  | nil => simp
  | cons e rest ih =>
    simp only [backwards?] at rising
    split at rising
    · contradiction
    · next above =>
      obtain ⟨later, pairwise⟩ := ih rising
      refine ⟨?_, ?_⟩
      · intro other member
        rcases List.mem_cons.mp member with rfl | behind
        · omega
        · exact Nat.lt_trans (Nat.lt_of_not_le above) (later other behind)
      · rw [List.map_cons, List.pairwise_cons]
        refine ⟨?_, pairwise⟩
        intro number member
        obtain ⟨other, behind, rfl⟩ := List.mem_map.mp member
        exact later other behind

end Journal
end AddressPool
