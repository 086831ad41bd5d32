import AddressPool.Bytes

/-! Text in UTF-8. Reading either gives the text or says where the first fault is:
the start of the sequence that cannot be completed, and how many of its bytes are
wrong, or that the data ends inside it. -/
namespace AddressPool.Utf8

structure Fault where
  start : Nat
  length : Option Nat
  deriving DecidableEq, Repr

def Fault.message (fault : Fault) : String :=
  match fault.length with
  | some length =>
      "invalid utf-8 sequence of " ++ toString length ++ " bytes from index " ++ toString fault.start
  | none => "incomplete utf-8 byte sequence from index " ++ toString fault.start

def following (first : UInt8) : Option (List (UInt8 × UInt8)) :=
  if first < 0x80 then some []
  else if first < 0xC2 then none
  else if first < 0xE0 then some [(0x80, 0xBF)]
  else if first = 0xE0 then some [(0xA0, 0xBF), (0x80, 0xBF)]
  else if first = 0xED then some [(0x80, 0x9F), (0x80, 0xBF)]
  else if first < 0xF0 then some [(0x80, 0xBF), (0x80, 0xBF)]
  else if first = 0xF0 then some [(0x90, 0xBF), (0x80, 0xBF), (0x80, 0xBF)]
  else if first < 0xF4 then some [(0x80, 0xBF), (0x80, 0xBF), (0x80, 0xBF)]
  else if first = 0xF4 then some [(0x80, 0x8F), (0x80, 0xBF), (0x80, 0xBF)]
  else none

def scan : (index start length : Nat) → (pending : List (UInt8 × UInt8)) → Bytes → Option Fault
  | _, _, _, [], [] => none
  | _, start, _, _ :: _, [] => some ⟨start, none⟩
  | index, start, length, (low, high) :: pending, b :: rest =>
      if low ≤ b ∧ b ≤ high then scan (index + 1) start (length + 1) pending rest
      else some ⟨start, some length⟩
  | index, _, _, [], b :: rest =>
      match following b with
      | some pending => scan (index + 1) index 1 pending rest
      | none => some ⟨index, some 1⟩

def fault? (bytes : Bytes) : Option Fault := scan 0 0 0 [] bytes

def encode (text : String) : Bytes := text.toByteArray.data.toList

def decode (bytes : Bytes) : Except Fault String :=
  match String.fromUTF8? bytes.toByteArray with
  | some text => .ok text
  | none => .error ((fault? bytes).getD ⟨0, none⟩)

theorem encodeRepeated (c : Char) (count : Nat) :
    (encode (String.ofList (List.replicate count c))).length = count * c.utf8Size := by
  simp [encode, String.ofList, List.utf8Encode]

theorem decodeEncode (text : String) : decode (encode text) = .ok text := by
  have same : (encode text).toByteArray = text.toByteArray := by
    apply ByteArray.ext
    simp [encode]
  simp only [decode, same, String.fromUTF8?]
  rw [dif_pos text.isValidUTF8]
  rfl

theorem encodeOfDecode {bytes : Bytes} {text : String} (h : decode bytes = .ok text) :
    encode text = bytes := by
  simp only [decode, String.fromUTF8?] at h
  split at h
  · next found =>
    split at found
    · cases Option.some.inj found
      cases h
      simp [encode, String.fromUTF8]
    · contradiction
  · contradiction

end AddressPool.Utf8
