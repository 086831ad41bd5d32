import AddressPool.Journal.Recovery
import AddressPool.Proofs.Journal.Entry

/-! A journal of sound entries with what a crash may leave behind them: the beginning of
one more entry, or zeros. Walking it finds exactly the entries, and so does recovery, which
gives the length that holds them. -/
namespace AddressPool.Journal
open Bytes

def written (entries : List Entry) : Bytes := entries.flatMap Entry.bytes

@[simp] theorem writtenNil : written [] = [] := rfl

@[simp] theorem writtenCons (e : Entry) (rest : List Entry) :
    written (e :: rest) = e.bytes ++ written rest := rfl

@[simp] theorem writtenAppend (front rest : List Entry) :
    written (front ++ rest) = written front ++ written rest := by
  simp [written]

theorem serializedIff {entries : List Entry} {pieces : List Bytes} :
    entries.mapM Entry.write = .ok pieces ↔
      (∀ e ∈ entries, e.operation.Fits) ∧ pieces = entries.map Entry.bytes := by
  induction entries generalizing pieces with
  | nil => simp [pure, Except.pure, eq_comm]
  | cons e rest ih =>
    rw [List.mapM_cons, List.forall_mem_cons, List.map_cons]
    by_cases fits : e.operation.Fits
    · rw [Entry.writeFitting fits]
      cases found : rest.mapM Entry.write with
      | error fault =>
        have large : ¬ ∀ e ∈ rest, e.operation.Fits := by
          intro all
          have written := ih.mpr ⟨all, rfl⟩
          rw [found] at written
          contradiction
        exact iff_of_false (by simp [bind, Except.bind]) (fun both => large both.1.2)
      | ok others =>
        obtain ⟨all, rfl⟩ := ih.mp found
        exact ⟨fun written => ⟨⟨fits, all⟩, (Except.ok.inj written).symm⟩,
          fun both => congrArg Except.ok both.2.symm⟩
    · rw [Entry.writeTooLarge fits]
      exact iff_of_false (by simp [bind, Except.bind]) (fun both => fits both.1.1)

/-- What may follow the last whole entry after a crash. -/
inductive Remnant : Bytes → Prop where
  | nothing : Remnant []
  | part (e : Entry) (sound : e.Sound) (count : Nat) (some : 0 < count)
      (short : count < e.bytes.length) : Remnant (e.bytes.take count)
  | zeros (count : Nat) : Remnant (List.replicate (count + 1) 0)

theorem frontOfSplit (offset : Nat) {bytes : Bytes} (there : bytes ≠ []) :
    front offset bytes =
      match split headerSize bytes with
      | none => .torn
      | some (raw, rest) =>
          match readHeader raw with
          | .error fault =>
              if raw.all (· == 0) && rest.all (· == 0) then .torn
              else .refused (.damage (.journal (.headerAt offset fault)))
          | .ok header =>
              match split header.length rest with
              | none => .torn
              | some (payload, rest) =>
                  match Entry.ofParts header payload with
                  | .ok entry => .entry entry (headerSize + header.length) rest
                  | .error (.damage _) => .badChecksum (headerSize + header.length) rest
                  | .error fault => .refused fault := by
  cases bytes with
  | nil => contradiction
  | cons b rest => rfl

theorem frontOfHeader (offset : Nat) {raw : Bytes} (full : raw.length = headerSize) (rest : Bytes) :
    front offset (raw ++ rest) =
      match readHeader raw with
      | .error fault =>
          if raw.all (· == 0) && rest.all (· == 0) then .torn
          else .refused (.damage (.journal (.headerAt offset fault)))
      | .ok header =>
          match split header.length rest with
          | none => .torn
          | some (payload, rest) =>
              match Entry.ofParts header payload with
              | .ok entry => .entry entry (headerSize + header.length) rest
              | .error (.damage _) => .badChecksum (headerSize + header.length) rest
              | .error fault => .refused fault := by
  have there : raw ++ rest ≠ [] := by
    intro none
    rw [(List.append_eq_nil_iff.mp none).1] at full
    contradiction
  have cut : split headerSize (raw ++ rest) = some (raw, rest) := splitExact.mpr ⟨rfl, full⟩
  rw [frontOfSplit offset there, cut]

theorem frontEntry (offset : Nat) {e : Entry} (sound : e.Sound) (rest : Bytes) :
    front offset (e.bytes ++ rest) = .entry e e.bytes.length rest := by
  have payload : split e.header.length (e.payload ++ rest) = some (e.payload, rest) :=
    splitAppend e.payload rest
  rw [Entry.bytes, List.append_assoc, frontOfHeader offset (writeHeaderLength e.header)]
  simp only [Entry.readHeaderOf sound, payload, Entry.ofPartsWritten sound]
  rw [List.length_append, writeHeaderLength, Entry.header]

theorem frontPart (offset : Nat) {e : Entry} (sound : e.Sound) {count : Nat} (some : 0 < count)
    (short : count < e.bytes.length) : front offset (e.bytes.take count) = .torn := by
  by_cases within : count < headerSize
  · have there : e.bytes.take count ≠ [] := by
      intro none
      have length := congrArg List.length none
      simp only [List.length_take, List.length_nil] at length
      omega
    have cut : split headerSize (e.bytes.take count) = none := by
      rw [splitNone, List.length_take]
      omega
    rw [frontOfSplit offset there, cut]
  · have whole : e.bytes.take count =
        writeHeader e.header ++ e.payload.take (count - headerSize) := by
      rw [Entry.bytes, List.take_append, writeHeaderLength, List.take_of_length_le]
      rw [writeHeaderLength]
      omega
    have payload : split e.header.length (e.payload.take (count - headerSize)) = none := by
      rw [splitNone, Entry.header, List.length_take]
      rw [e.bytesLength] at short
      simp only
      omega
    rw [whole, frontOfHeader offset (writeHeaderLength e.header)]
    simp only [Entry.readHeaderOf sound, payload]

theorem readHeaderZeros : ∃ fault, readHeader (List.replicate headerSize 0) = .error fault :=
  ⟨.checksum 0 (Checksum.crc32 (List.replicate 12 0)), by decide +kernel⟩

theorem frontZeros (offset count : Nat) : front offset (List.replicate (count + 1) 0) = .torn := by
  by_cases within : count + 1 < headerSize
  · have cut : split headerSize (List.replicate (count + 1) (0 : UInt8)) = none := by
      rw [splitNone, List.length_replicate]
      exact within
    rw [frontOfSplit offset (by simp), cut]
  · have whole : List.replicate (count + 1) (0 : UInt8) =
        List.replicate headerSize 0 ++ List.replicate (count + 1 - headerSize) 0 := by
      rw [List.replicate_append_replicate]
      congr 1
      omega
    obtain ⟨fault, refused⟩ := readHeaderZeros
    rw [whole, frontOfHeader offset List.length_replicate]
    simp only [refused]
    rw [if_pos (by simp)]

theorem walkOfEntry {offset size : Nat} {bytes rest : Bytes} {e : Entry}
    (found : front offset bytes = .entry e size rest) :
    walkFrom offset bytes =
      ⟨(e, offset + size) :: (walkFrom (offset + size) rest).entries,
        (walkFrom (offset + size) rest).ending⟩ := by
  rw [walkFrom]
  split <;> simp_all

theorem walkOfTorn {offset : Nat} {bytes : Bytes} (found : front offset bytes = .torn) :
    walkFrom offset bytes = ⟨[], .torn offset⟩ := by
  rw [walkFrom]
  split <;> simp_all

theorem walkNothing (offset : Nat) : walkFrom offset [] = ⟨[], .clean⟩ := by
  rw [walkFrom]
  split <;> simp_all [front]

theorem walkRemnant (offset : Nat) {tail : Bytes} (remnant : Remnant tail) :
    walkFrom offset tail = ⟨[], if tail.isEmpty then .clean else .torn offset⟩ := by
  cases remnant with
  | nothing => exact walkNothing offset
  | part e sound count some short =>
    rw [walkOfTorn (frontPart offset sound some short), if_neg]
    rw [List.isEmpty_iff_length_eq_zero, List.length_take]
    omega
  | zeros count =>
    rw [walkOfTorn (frontZeros offset count), if_neg]
    simp

def ends (offset : Nat) : List Entry → List (Entry × Nat)
  | [] => []
  | e :: rest => (e, offset + e.bytes.length) :: ends (offset + e.bytes.length) rest

theorem endsEntries (offset : Nat) (entries : List Entry) :
    (ends offset entries).map Prod.fst = entries := by
  induction entries generalizing offset with
  | nil => rfl
  | cons e rest ih => simp [ends, ih]

theorem endsWithin {offset : Nat} {entries : List Entry} :
    ∀ found ∈ ends offset entries,
      offset < found.2 ∧ found.2 ≤ offset + (written entries).length := by
  induction entries generalizing offset with
  | nil => simp [ends]
  | cons e rest ih =>
    have pos := e.bytesPos
    intro found member
    rw [writtenCons, List.length_append]
    rcases List.mem_cons.mp member with rfl | later
    · simp only
      omega
    · obtain ⟨after, below⟩ := ih found later
      omega

theorem endsLast (offset : Nat) (entries : List Entry) :
    ((ends offset entries).getLast?.map Prod.snd).getD offset = offset + (written entries).length := by
  induction entries generalizing offset with
  | nil => rfl
  | cons e rest ih =>
    have tail := ih (offset + e.bytes.length)
    cases last : (ends (offset + e.bytes.length) rest).getLast? with
    | none =>
      simp only [last, Option.map_none, Option.getD_none] at tail
      simp only [ends, List.getLast?_cons, last, Option.getD_none, Option.map_some, Option.getD_some,
        writtenCons, List.length_append]
      omega
    | some found =>
      simp only [last, Option.map_some, Option.getD_some] at tail
      simp only [ends, List.getLast?_cons, last, Option.getD_some, Option.map_some, writtenCons,
        List.length_append]
      omega

theorem walkWritten (offset : Nat) {entries : List Entry} (sound : ∀ e ∈ entries, e.Sound)
    {tail : Bytes} (remnant : Remnant tail) :
    walkFrom offset (written entries ++ tail) =
      ⟨ends offset entries,
        if tail.isEmpty then .clean else .torn (offset + (written entries).length)⟩ := by
  induction entries generalizing offset with
  | nil => simpa [ends] using walkRemnant offset remnant
  | cons e rest ih =>
    have head := frontEntry offset (sound e List.mem_cons_self) (written rest ++ tail)
    have others := ih (offset + e.bytes.length)
      (fun other member => sound other (List.mem_cons_of_mem e member))
    rw [writtenCons, List.append_assoc, walkOfEntry head, others]
    simp only [ends, List.length_append, Nat.add_assoc]

theorem remnantTake {tail : Bytes} (remnant : Remnant tail) (count : Nat) :
    Remnant (tail.take count) := by
  cases remnant with
  | nothing =>
    rw [List.take_nil]
    exact .nothing
  | part e sound before some short =>
    rw [List.take_take]
    by_cases none : min count before = 0
    · rw [none]
      exact .nothing
    · exact .part e sound (min count before) (Nat.pos_of_ne_zero none) (by omega)
  | zeros before =>
    rw [List.take_replicate]
    cases min count (before + 1) with
    | zero => exact .nothing
    | succ left => exact .zeros left

theorem takeWritten {entries : List Entry} (sound : ∀ e ∈ entries, e.Sound) {tail : Bytes}
    (remnant : Remnant tail) (count : Nat) :
    ∃ front left, front <+: entries ∧ Remnant left ∧
      (written entries ++ tail).take count = written front ++ left ∧
      ∀ safe, safe <+: entries → (written safe).length ≤ count → safe <+: front := by
  induction entries generalizing count with
  | nil =>
    refine ⟨[], tail.take count, List.prefix_refl [], remnantTake remnant count, by simp, ?_⟩
    intro safe among _
    exact among
  | cons e rest ih =>
    -- Either the cut falls into the first entry, and that is the remnant, or it stays whole.
    by_cases within : count < e.bytes.length
    · have cut : (written (e :: rest) ++ tail).take count = e.bytes.take count := by
        rw [writtenCons, List.append_assoc, List.take_append_of_le_length (Nat.le_of_lt within)]
      have left : Remnant (e.bytes.take count) := by
        by_cases none : count = 0
        · rw [none]
          exact .nothing
        · exact .part e (sound e List.mem_cons_self) count (Nat.pos_of_ne_zero none) within
      refine ⟨[], e.bytes.take count, List.nil_prefix, left, cut, ?_⟩
      intro safe among before
      cases safe with
      | nil => exact List.nil_prefix
      | cons other more =>
        obtain ⟨rfl, _⟩ := List.cons_prefix_cons.mp among
        simp only [writtenCons, List.length_append] at before
        omega
    · obtain ⟨front, left, among, remains, cut, kept⟩ := ih
        (fun other member => sound other (List.mem_cons_of_mem e member)) (count - e.bytes.length)
      refine ⟨e :: front, left, List.cons_prefix_cons.mpr ⟨rfl, among⟩, remains, ?_, ?_⟩
      · rw [writtenCons, List.append_assoc, List.take_append, cut, writtenCons, List.append_assoc,
          List.take_of_length_le (Nat.le_of_not_lt within)]
      · intro safe amongAll before
        cases safe with
        | nil => exact List.nil_prefix
        | cons other more =>
          obtain ⟨rfl, amongRest⟩ := List.cons_prefix_cons.mp amongAll
          simp only [writtenCons, List.length_append] at before
          exact List.cons_prefix_cons.mpr ⟨rfl, kept more amongRest (by omega)⟩

def lsnAfter (last : Nat) (entries : List Entry) : Nat := (entries.getLast?.map Entry.lsn).getD last

@[simp] theorem lsnAfterNil (last : Nat) : lsnAfter last [] = last := rfl

@[simp] theorem lsnAfterCons (last : Nat) (e : Entry) (rest : List Entry) :
    lsnAfter last (e :: rest) = lsnAfter e.lsn rest := by
  cases found : rest.getLast? with
  | none => simp [lsnAfter, List.getLast?_cons, found]
  | some other => simp [lsnAfter, List.getLast?_cons, found]

theorem lsnAfterAppend (last : Nat) (front rest : List Entry) :
    lsnAfter last (front ++ rest) = lsnAfter (lsnAfter last front) rest := by
  induction front generalizing last with
  | nil => rfl
  | cons e others ih => simp [ih]

theorem backwardsAppend {last : Nat} {front rest : List Entry} :
    backwards? last (front ++ rest) = none ↔
      backwards? last front = none ∧ backwards? (lsnAfter last front) rest = none := by
  induction front generalizing last with
  | nil => simp [backwards?]
  | cons e others ih =>
    simp only [List.cons_append, backwards?, lsnAfterCons]
    split
    · simp
    · exact ih

theorem backwardsLast {last : Nat} {front : List Entry} (rising : backwards? last front = none)
    {e : Entry} (low : e.lsn ≤ lsnAfter last front) :
    backwards? last (front ++ [e]) = some (e.lsn, lsnAfter last front) := by
  induction front generalizing last with
  | nil => exact if_pos low
  | cons other rest ih =>
    rw [lsnAfterCons] at low ⊢
    simp only [backwards?] at rising
    split at rising
    · contradiction
    · next above => rw [List.cons_append, backwards?, if_neg above, ih rising low]

theorem recoverWritten (path : String) {entries : List Entry} (sound : ∀ e ∈ entries, e.Sound)
    (rising : backwards? 0 entries = none) {tail : Bytes} (remnant : Remnant tail) :
    recover path (written entries ++ tail) =
      .ok ⟨entries, if tail.isEmpty then 0 else 1, lsnAfter 0 entries, !tail.isEmpty,
        (written entries).length⟩ := by
  have found : walk (written entries ++ tail) = _ := walkWritten 0 sound remnant
  have last := endsLast 0 entries
  rw [Nat.zero_add] at last
  simp only [recover, found, endsEntries, rising, last]
  cases tail with
  | nil => simp [lastLsn, lsnAfter]
  | cons b rest => simp [lastLsn, lsnAfter]

end AddressPool.Journal
