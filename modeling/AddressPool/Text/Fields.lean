/-! Text taken apart at a separator: everywhere, or at its first place only. -/
namespace AddressPool.Fields

def split (separator : Char) : List Char → List (List Char)
  | [] => [[]]
  | c :: rest =>
      if c = separator then [] :: split separator rest
      else match split separator rest with
        | [] => [[c]]
        | piece :: pieces => (c :: piece) :: pieces

def cut (separator : Char) : List Char → Option (List Char × List Char)
  | [] => none
  | c :: rest =>
      if c = separator then some ([], rest)
      else (cut separator rest).map fun (front, back) => (c :: front, back)

def cutTwice (separator : Char) : List Char → Option (List Char × List Char)
  | c :: d :: rest =>
      if c = separator ∧ d = separator then some ([], rest)
      else (cutTwice separator (d :: rest)).map fun (front, back) => (c :: front, back)
  | _ => none

def join (separator : Char) : List (List Char) → List Char
  | [] => []
  | [piece] => piece
  | piece :: pieces => piece ++ separator :: join separator pieces

theorem cutAppend {separator : Char} {front : List Char} (back : List Char)
    (free : separator ∉ front) : cut separator (front ++ separator :: back) = some (front, back) := by
  induction front with
  | nil => simp [cut]
  | cons c front ih =>
    obtain ⟨head, tail⟩ := not_or.mp (fun h => free (List.mem_cons.mpr h))
    simp [cut, Ne.symm head, ih tail]

end AddressPool.Fields
