import AddressPool.Text.Fields

/-! Joined pieces taken apart again. Pieces without the separator come back from a split; a cut at a
doubled separator passes over pieces joined by single ones, if none of them is empty. -/
namespace AddressPool.Fields

variable {separator c : Char} {front text : List Char} {pieces : List (List Char)}

theorem splitFree (free : separator ∉ text) : split separator text = [text] := by
  induction text with
  | nil => rfl
  | cons c text ih =>
    obtain ⟨head, tail⟩ := not_or.mp fun h => free (List.mem_cons.mpr h)
    simp [split, Ne.symm head, ih tail]

theorem splitAppend (free : separator ∉ front) (back : List Char) :
    split separator (front ++ separator :: back) = front :: split separator back := by
  induction front with
  | nil => simp [split]
  | cons c front ih =>
    obtain ⟨head, tail⟩ := not_or.mp fun h => free (List.mem_cons.mpr h)
    simp [split, Ne.symm head, ih tail]

theorem joinNext (piece next : List Char) (rest : List (List Char)) :
    join separator (piece :: next :: rest) = piece ++ separator :: join separator (next :: rest) :=
  rfl

theorem splitJoin (filled : pieces ≠ []) (free : ∀ piece ∈ pieces, separator ∉ piece) :
    split separator (join separator pieces) = pieces := by
  induction pieces with
  | nil => exact absurd rfl filled
  | cons piece rest ih =>
    have head := free piece List.mem_cons_self
    cases rest with
    | nil => exact splitFree head
    | cons next rest =>
      rw [joinNext, splitAppend head,
        ih (List.cons_ne_nil next rest) fun p member => free p (List.mem_cons_of_mem _ member)]

theorem joinFront (front piece : List Char) (rest : List (List Char)) :
    front ++ join separator (piece :: rest) = join separator ((front ++ piece) :: rest) := by
  cases rest with
  | nil => rfl
  | cons next rest => simp [join]

theorem memJoin (member : c ∈ join separator pieces) :
    c = separator ∨ ∃ piece ∈ pieces, c ∈ piece := by
  induction pieces with
  | nil => cases member
  | cons piece rest ih =>
    cases rest with
    | nil => exact .inr ⟨piece, List.mem_cons_self, member⟩
    | cons next rest =>
      rw [joinNext, List.mem_append, List.mem_cons] at member
      rcases member with here | same | later
      · exact .inr ⟨piece, List.mem_cons_self, here⟩
      · exact .inl same
      · rcases ih later with same | ⟨found, among, inside⟩
        · exact .inl same
        · exact .inr ⟨found, List.mem_cons_of_mem _ among, inside⟩

section Twice

def behind (front : List Char) (found : List Char × List Char) : List Char × List Char :=
  (front ++ found.1, found.2)

theorem behindNothing (found : Option (List Char × List Char)) : found.map (behind []) = found :=
  Option.map_id_apply

theorem cutTwicePast (other : c ≠ separator) (text : List Char) :
    cutTwice separator (c :: text) = (cutTwice separator text).map (behind [c]) := by
  cases text with
  | nil => rfl
  | cons d rest =>
    rw [cutTwice, if_neg fun both => other both.1]
    rfl

theorem cutTwiceSingle (single : text.head? ≠ some separator) :
    cutTwice separator (separator :: text) =
      (cutTwice separator text).map (behind [separator]) := by
  cases text with
  | nil => rfl
  | cons d rest =>
    rw [cutTwice, if_neg fun both => single (congrArg some both.2)]
    rfl

theorem cutTwiceFree (free : separator ∉ front) (text : List Char) :
    cutTwice separator (front ++ text) = (cutTwice separator text).map (behind front) := by
  induction front with
  | nil => exact (behindNothing _).symm
  | cons c front ih =>
    obtain ⟨head, tail⟩ := not_or.mp fun h => free (List.mem_cons.mpr h)
    rw [List.cons_append, cutTwicePast (Ne.symm head), ih tail, Option.map_map]
    rfl

theorem cutTwiceJoin (whole : ∀ piece ∈ pieces, piece ≠ [] ∧ separator ∉ piece)
    (text : List Char) :
    cutTwice separator (join separator pieces ++ text) =
      (cutTwice separator text).map (behind (join separator pieces)) := by
  induction pieces with
  | nil => exact (behindNothing _).symm
  | cons piece rest ih =>
    have head := (whole piece List.mem_cons_self).2
    cases rest with
    | nil => exact cutTwiceFree head text
    | cons next rest =>
      -- The next piece is not empty, so the separator before it stands alone.
      have ⟨filled, free⟩ := whole next (by simp)
      have single : (join separator (next :: rest) ++ text).head? ≠ some separator := by
        obtain ⟨c, tail, rfl⟩ := List.exists_cons_of_ne_nil filled
        have other : c ≠ separator := fun same => free (same ▸ List.mem_cons_self)
        cases rest <;> simpa [join] using other
      rw [joinNext, List.append_assoc, cutTwiceFree head,
        List.cons_append, cutTwiceSingle single,
        ih fun p member => whole p (List.mem_cons_of_mem _ member), Option.map_map, Option.map_map]
      congr 1
      funext found
      simp [behind]

end Twice
end AddressPool.Fields
