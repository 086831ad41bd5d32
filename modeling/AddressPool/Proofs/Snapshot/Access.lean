import AddressPool.Proofs.Snapshot.RoundTrip

/-! The reader of a snapshot again, with each of its accesses to the bytes on its own: a check
of how many are left where there is one, and a taking that does not look. A taking past the
end has no answer. There is none in any run, and what the runs give is what reading gives. -/
namespace AddressPool.Snapshot.Access
open Bytes

/-- A fault ends the reading; an access past the end leaves it without an answer. -/
abbrev Step (α : Type) := ExceptT SnapshotFault Option α

def take (count : Nat) (bytes : Bytes) : Step (Bytes × Bytes) := ExceptT.lift (split count bytes)

def ensure (count : Nat) (bytes : Bytes) : Step Unit :=
  if bytes.length < count then throw (.truncated count bytes.length) else return

def readAddress (bytes : Bytes) : Step (Option Address × Bytes) := do
  ensure 1 bytes
  let (width, rest) ← take 1 bytes
  match ofLittleEndian width with
  | 0 => return (none, rest)
  | width =>
      ensure width rest
      let (octets, rest) ← take width rest
      match Address.ofOctets? octets with
      | some a => return (some a, rest)
      | none => throw (.width width)

def readRecord (bytes : Bytes) : Step ((Address × String) × Bytes) := do
  let (found, rest) ← readAddress bytes
  match found with
  | none => throw .withoutAddress
  | some a =>
      ensure 4 rest
      let (length, rest) ← take 4 rest
      ensure (ofLittleEndian length) rest
      let (encoded, rest) ← take (ofLittleEndian length) rest
      match Utf8.decode encoded with
      | .ok owner => return ((a, owner), rest)
      | .error fault => throw (.owner fault)

def readRecords : (count : Nat) → Table → Bytes → Step (Table × Bytes)
  | 0, table, bytes => return (table, bytes)
  | count + 1, table, bytes => do
      let ((a, owner), rest) ← readRecord bytes
      match table.tryReserve owner a with
      | (true, table) => readRecords count table rest
      | (false, _) => throw (.duplicate a)

def readBody (bytes : Bytes) : Step Snapshot := do
  let (found, rest) ← take 4 bytes
  if found ≠ magic then throw (.magic found)
  else
    let (number, rest) ← take 2 rest
    if ofLittleEndian number ≠ version then throw (.version (ofLittleEndian number))
    else
      let (count, rest) ← take 8 rest
      let (lastLsn, rest) ← take 8 rest
      let (table, rest) ← readRecords (ofLittleEndian count) .empty rest
      let (marker, rest) ← readAddress rest
      if rest = [] then return ⟨table.setMarker marker, ofLittleEndian lastLsn⟩
      else throw (.trailing rest.length)

def read (bytes : Bytes) : Step Snapshot :=
  let length := bytes.length
  if length < headerSize + footerSize then throw (.short length)
  else do
    let (body, footer) ← take (length - footerSize) bytes
    let (sum, _) ← take footerSize footer
    let stored := UInt32.ofNat (ofLittleEndian sum)
    let computed := Checksum.crc32 body
    if stored ≠ computed then throw (.checksum stored computed) else readBody body

def inside {α : Type} (answer : Except SnapshotFault α) : Step α := ExceptT.mk (some answer)

section Inside

variable {α β : Type}

theorem insideOk (value : α) : (pure value : Step α) = inside (.ok value) := rfl

theorem insideError (fault : SnapshotFault) : (throw fault : Step α) = inside (.error fault) := rfl

theorem insideThen (answer : Except SnapshotFault α) (go : α → Step β) :
    inside answer >>= go =
      match answer with
      | .ok value => go value
      | .error fault => inside (.error fault) := by
  cases answer <;> rfl

theorem insideBind (answer : Except SnapshotFault α) (go : α → Except SnapshotFault β) :
    inside (answer >>= go) = inside answer >>= fun value => inside (go value) := by
  cases answer <;> rfl

theorem takeInside {count : Nat} {bytes : Bytes} (there : count ≤ bytes.length) :
    take count bytes = inside (.ok (bytes.take count, bytes.drop count)) := by
  rw [take, splitTake.mpr ⟨there, rfl, rfl⟩]
  rfl

theorem needInside (count : Nat) (bytes : Bytes) (go : Bytes × Bytes → Step β) :
    (do ensure count bytes; let parts ← take count bytes; go parts) = inside (need count bytes) >>= go := by
  by_cases short : bytes.length < count
  · have none : split count bytes = none := splitNone.mpr short
    simp only [ensure, if_pos short, need, none, insideError, insideThen]
  · have there := Nat.not_lt.mp short
    have cut : split count bytes = some (bytes.take count, bytes.drop count) :=
      splitTake.mpr ⟨there, rfl, rfl⟩
    simp only [ensure, if_neg short, need, cut, takeInside there, insideOk, insideThen]

end Inside

theorem readAddressInside (bytes : Bytes) : readAddress bytes = inside (Snapshot.readAddress bytes) := by
  unfold readAddress Snapshot.readAddress
  rw [needInside, insideBind]
  apply bind_congr
  rintro ⟨width, rest⟩
  dsimp only
  cases ofLittleEndian width with
  | zero => rfl
  | succ less =>
    simp only [needInside, insideBind]
    apply bind_congr
    rintro ⟨octets, rest⟩
    cases Address.ofOctets? octets with
    | none => rfl
    | some a => rfl

theorem readRecordInside (bytes : Bytes) : readRecord bytes = inside (Snapshot.readRecord bytes) := by
  unfold readRecord Snapshot.readRecord
  rw [readAddressInside, insideBind]
  apply bind_congr
  rintro ⟨found, rest⟩
  cases found with
  | none => rfl
  | some a =>
    simp only [needInside, insideBind]
    apply bind_congr
    rintro ⟨length, rest⟩
    apply bind_congr
    rintro ⟨encoded, rest⟩
    cases Utf8.decode encoded with
    | error fault => rfl
    | ok owner => rfl

theorem readRecordsInside (count : Nat) (t : Table) (bytes : Bytes) :
    readRecords count t bytes = inside (Snapshot.readRecords count t bytes) := by
  induction count generalizing t bytes with
  | zero => rfl
  | succ count ih =>
    rw [readRecords, Snapshot.readRecords, readRecordInside]
    cases Snapshot.readRecord bytes with
    | error fault => rfl
    | ok head =>
      obtain ⟨⟨a, owner⟩, rest⟩ := head
      rw [insideThen]
      dsimp only
      cases t.tryReserve owner a with
      | mk free t =>
        cases free with
        | false => rfl
        | true => exact ih t rest

theorem readBodyInside {bytes : Bytes} (header : headerSize ≤ bytes.length) :
    readBody bytes = inside (Snapshot.readBody bytes) := by
  rw [headerSize] at header
  unfold readBody Snapshot.readBody
  rw [takeInside (by omega), insideThen]
  dsimp only
  split
  · rfl
  rw [takeInside (by simp; omega), insideThen]
  dsimp only
  split
  · rfl
  rw [takeInside (by simp; omega), insideThen]
  dsimp only
  rw [takeInside (by simp; omega), insideThen]
  simp only [List.drop_drop, readRecordsInside, readAddressInside, insideBind, headerSize]
  apply bind_congr
  rintro ⟨table, rest⟩
  apply bind_congr
  rintro ⟨marker, rest⟩
  split
  · rfl
  · rfl

theorem readInside (bytes : Bytes) : read bytes = inside (Snapshot.read bytes) := by
  unfold read Snapshot.read
  dsimp only
  split
  · rfl
  next long =>
  have header : headerSize ≤ (bytes.take (bytes.length - footerSize)).length := by
    rw [List.length_take]
    omega
  have four : (bytes.drop (bytes.length - footerSize)).length = footerSize := by
    rw [List.length_drop]
    omega
  rw [takeInside (Nat.sub_le _ _), insideThen]
  dsimp only
  rw [takeInside (Nat.le_of_eq four.symm), insideThen, List.take_of_length_le (Nat.le_of_eq four)]
  dsimp only
  split
  · rfl
  · exact readBodyInside header

end AddressPool.Snapshot.Access
