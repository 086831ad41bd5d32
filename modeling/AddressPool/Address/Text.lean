import AddressPool.Address
import AddressPool.Text.Fields
import AddressPool.Text.Hex
import AddressPool.Text.Numeral

/-! The text form of addresses: dotted quads, and groups of hexadecimal digits where
`::` stands for a run of zero groups. Writing shortens the first of the longest runs
of at least two and shows IPv4-mapped addresses with a dotted quad; reading takes
every spelling of the groups, and a dotted quad as the last 32 bits. -/
namespace AddressPool.Address

def octet? (piece : List Char) : Option Nat :=
  if piece = [] ∨ 3 < piece.length ∨ (piece.head? = some '0' ∧ 1 < piece.length) then none
  else (Numeral.readFrom 255 0 piece).toOption

def quad? (text : List Char) : Option Nat :=
  match Fields.split '.' text with
  | [a, b, c, d] => do
      let a ← octet? a
      let b ← octet? b
      let c ← octet? c
      let d ← octet? d
      some (((a * 256 + b) * 256 + c) * 256 + d)
  | _ => none

def quadText (value : Nat) : List Char :=
  Fields.join '.' ((Bytes.bigEndian 4 value).map fun b => Numeral.write b.toNat)

def group? (piece : List Char) : Option Nat :=
  if piece = [] ∨ 4 < piece.length then none
  else piece.foldlM (fun value c => (Hex.value? c).map (value * 16 + ·)) 0

def groupsOf : List (List Char) → Option (List Nat)
  | [] => some []
  | [piece] =>
      match quad? piece with
      | some value => some [value / 65536, value % 65536]
      | none => (group? piece).map ([·])
  | piece :: pieces => do
      let head ← group? piece
      let tail ← groupsOf pieces
      some (head :: tail)

def groups? (text : List Char) : Option (List Nat) :=
  match Fields.cutTwice ':' text with
  | none => do
      let groups ← groupsOf (Fields.split ':' text)
      if groups.length = 8 then some groups else none
  | some (front, back) => do
      let head ← if front = [] then some [] else (Fields.split ':' front).mapM group?
      let tail ← if back = [] then some [] else groupsOf (Fields.split ':' back)
      -- the double colon stands for one group at least
      if head.length + tail.length ≤ 7 then
        some (head ++ List.replicate (8 - head.length - tail.length) 0 ++ tail)
      else none

def groupsValue (groups : List Nat) : Nat := groups.foldl (fun value g => value * 65536 + g) 0

def ofText? (text : List Char) : Option Address :=
  match quad? text with
  | some value => some (wrap .v4 value)
  | none => (groups? text).map fun groups => wrap .v6 (groupsValue groups)

def groupsFrom : (count value : Nat) → List Nat
  | 0, _ => []
  | count + 1, value => groupsFrom count (value / 65536) ++ [value % 65536]

def longestRun (groups : List Nat) : Nat × Nat :=
  (List.range groups.length).foldl (fun best start =>
    let length := ((groups.drop start).takeWhile (· = 0)).length
    if best.2 < length then (start, length) else best) (0, 0)

def groupText (group : Nat) : List Char := Nat.toDigits 16 group

def groupsText (groups : List Nat) : List Char :=
  let (start, length) := longestRun groups
  if 2 ≤ length then
    Fields.join ':' ((groups.take start).map groupText) ++ ':' :: ':' ::
      Fields.join ':' ((groups.drop (start + length)).map groupText)
  else Fields.join ':' (groups.map groupText)

def mappedFront : Nat := 0xFFFF

def chars (a : Address) : List Char :=
  match a.family with
  | .v4 => quadText a.value
  | .v6 =>
      if a.value / Family.v4.space = mappedFront then
        [':', ':', 'f', 'f', 'f', 'f', ':'] ++ quadText (a.value % Family.v4.space)
      else groupsText (groupsFrom 8 a.value)

def text (a : Address) : String := String.ofList a.chars

instance : ToString Address := ⟨text⟩

end AddressPool.Address
