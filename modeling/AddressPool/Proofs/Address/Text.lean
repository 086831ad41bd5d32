import AddressPool.Address.Text
import AddressPool.Proofs.Text.Digits
import AddressPool.Proofs.Text.Fields
import AddressPool.Text.Blank

/-! Written addresses read again. A dotted quad is read piece by piece. In groups the one doubled
colon is where the longest run of zeros was left out, since no group is written empty, and the zeros
it stands for fill the row up to eight. -/
namespace AddressPool.Address

inductive Written : Char → Prop where
  | digit {d : Nat} (small : d < 16) : Written d.digitChar
  | point : Written '.'
  | colon : Written ':'

theorem Written.apart {c : Char} (written : Written c) :
    c ≠ '/' ∧ c ≠ ',' ∧ Blank.isBlank c = false := by
  cases written with
  | @digit d small =>
    have all : ∀ d : Fin 16, d.val.digitChar ≠ '/' ∧ d.val.digitChar ≠ ',' ∧
        Blank.isBlank d.val.digitChar = false := by decide
    exact all ⟨d, small⟩
  | point => decide
  | colon => decide

theorem digitApart {base n : Nat} {c : Char} (positional : 1 < base) (short : base ≤ 16)
    (member : c ∈ Nat.toDigits base n) : Written c ∧ c ≠ '.' ∧ c ≠ ':' := by
  obtain ⟨d, small, rfl⟩ := memDigits positional member
  have all : ∀ d : Fin 16, d.val.digitChar ≠ '.' ∧ d.val.digitChar ≠ ':' := by decide
  exact ⟨.digit (Nat.lt_of_lt_of_le small short), all ⟨d, Nat.lt_of_lt_of_le small short⟩⟩

section Quads

theorem decimalApart {n : Nat} {c : Char} (member : c ∈ Numeral.write n) :
    Written c ∧ c ≠ '.' ∧ c ≠ ':' :=
  digitApart (by decide) (by decide) member

theorem octetWritten {n : Nat} (small : n < 256) : octet? (Numeral.write n) = some n := by
  have all : ∀ n : Fin 256, octet? (Numeral.write n.val) = some n.val := by decide +kernel
  exact all ⟨n, small⟩

theorem quadParts (value : Nat) : ∃ a b c d, a < 256 ∧ b < 256 ∧ c < 256 ∧ d < 256 ∧
    ((a * 256 + b) * 256 + c) * 256 + d = value % Family.v4.space ∧
    quadText value = Fields.join '.' ([a, b, c, d].map Numeral.write) := by
  have byte (n : Nat) : (UInt8.ofNat n).toNat = n % 256 := rfl
  have space : Family.v4.space = 4294967296 := rfl
  refine ⟨value / 256 / 256 / 256 % 256, value / 256 / 256 % 256, value / 256 % 256, value % 256,
    by omega, by omega, by omega, by omega, by rw [space]; omega, ?_⟩
  simp only [quadText, Bytes.bigEndian, Bytes.littleEndian, List.reverse_cons, List.reverse_nil,
    List.nil_append, List.cons_append, List.map_cons, List.map_nil, byte]

theorem quadApart {value : Nat} {c : Char} (member : c ∈ quadText value) :
    Written c ∧ c ≠ ':' := by
  obtain ⟨a, b, c, d, _, _, _, _, _, text⟩ := quadParts value
  rw [text] at member
  rcases Fields.memJoin member with rfl | ⟨piece, among, inside⟩
  · exact ⟨.point, by decide⟩
  · obtain ⟨n, _, rfl⟩ := List.mem_map.mp among
    obtain ⟨written, _, other⟩ := decimalApart inside
    exact ⟨written, other⟩

theorem quadWritten (value : Nat) : quad? (quadText value) = some (value % Family.v4.space) := by
  obtain ⟨a, b, c, d, small, less, least, last, whole, text⟩ := quadParts value
  have free : ∀ piece ∈ [a, b, c, d].map Numeral.write, '.' ∉ piece := by
    intro piece member point
    obtain ⟨n, _, rfl⟩ := List.mem_map.mp member
    exact (decimalApart point).2.1 rfl
  rw [quad?, text, Fields.splitJoin (by simp) free]
  simp only [List.map_cons, List.map_nil, octetWritten small, octetWritten less, octetWritten least,
    octetWritten last, ← whole]
  rfl

theorem quadPointless {text : List Char} (free : '.' ∉ text) : quad? text = none := by
  rw [quad?, Fields.splitFree free]

theorem quadBehind {front : List Char} (free : '.' ∉ front) (long : 3 ≤ front.length)
    (value : Nat) : quad? (front ++ quadText value) = none := by
  obtain ⟨a, b, c, d, _, _, _, _, _, text⟩ := quadParts value
  have apart (n : Nat) : '.' ∉ Numeral.write n := fun point => (decimalApart point).2.1 rfl
  have pieces : ∀ piece ∈ (front ++ Numeral.write a) :: [b, c, d].map Numeral.write,
      '.' ∉ piece := by
    intro piece member
    rcases List.mem_cons.mp member with rfl | later
    · simp [free, apart]
    · obtain ⟨n, _, rfl⟩ := List.mem_map.mp later
      exact apart n
  have some : 0 < (Numeral.write a).length := Nat.length_toDigits_pos
  have refused : octet? (front ++ Numeral.write a) = none := by
    rw [octet?, if_pos]
    exact .inr (.inl (by rw [List.length_append]; omega))
  rw [quad?, text, List.map_cons, Fields.joinFront, Fields.splitJoin (by simp) pieces]
  simp only [List.map_cons, List.map_nil, refused]
  rfl

end Quads

section Groups

theorem groupWritten {g : Nat} (small : g < 65536) : group? (groupText g) = some g := by
  have short : (groupText g).length ≤ 4 :=
    (Nat.length_toDigits_le_iff (by decide) (by decide)).mpr small
  have long : groupText g ≠ [] := Nat.toDigits_ne_nil
  rw [group?, if_neg (not_or.mpr ⟨long, Nat.not_lt.mpr short⟩)]
  exact Hex.valuesWritten g

theorem groupApart {g : Nat} {c : Char} (member : c ∈ groupText g) :
    Written c ∧ c ≠ '.' ∧ c ≠ ':' :=
  digitApart (by decide) (Nat.le_refl 16) member

theorem groupPointless (g : Nat) : '.' ∉ groupText g := fun member => (groupApart member).2.1 rfl

theorem groupColonless (g : Nat) : ':' ∉ groupText g := fun member => (groupApart member).2.2 rfl

variable {groups : List Nat} (small : ∀ g ∈ groups, g < 65536)

theorem joinedApart {c : Char} (member : c ∈ Fields.join ':' (groups.map groupText)) :
    Written c ∧ c ≠ '.' := by
  rcases Fields.memJoin member with rfl | ⟨piece, among, inside⟩
  · exact ⟨.colon, by decide⟩
  · obtain ⟨g, _, rfl⟩ := List.mem_map.mp among
    exact ⟨(groupApart inside).1, (groupApart inside).2.1⟩

theorem piecesWhole (groups : List Nat) :
    ∀ piece ∈ groups.map groupText, piece ≠ [] ∧ ':' ∉ piece := by
  intro piece member
  obtain ⟨g, _, rfl⟩ := List.mem_map.mp member
  exact ⟨Nat.toDigits_ne_nil, groupColonless g⟩

def Reads (read : List (List Char) → Option (List Nat)) (text : List Char) (groups : List Nat) :
    Prop :=
  text = [] ∧ groups = [] ∨ text ≠ [] ∧ read (Fields.split ':' text) = some groups

theorem joinedSplit (some : groups ≠ []) :
    Fields.split ':' (Fields.join ':' (groups.map groupText)) = groups.map groupText :=
  Fields.splitJoin (by simpa using some) fun piece member => (piecesWhole groups piece member).2

theorem joinedReads {read : List (List Char) → Option (List Nat)}
    (reads : read (groups.map groupText) = some groups) :
    Reads read (Fields.join ':' (groups.map groupText)) groups := by
  cases groups with
  | nil => exact .inl ⟨rfl, rfl⟩
  | cons g rest =>
    have some : groupText g ≠ [] := Nat.toDigits_ne_nil
    refine .inr ⟨?_, by rw [joinedSplit (List.cons_ne_nil g rest), reads]⟩
    cases rest <;> simp [Fields.join, some]

theorem groupsCut {text front back : List Char} {head tail : List Nat}
    (cut : Fields.cutTwice ':' text = some (front, back))
    (before : Reads (fun pieces => pieces.mapM group?) front head) (after : Reads groupsOf back tail)
    (room : head.length + tail.length ≤ 7) :
    groups? text =
      some (head ++ List.replicate (8 - head.length - tail.length) 0 ++ tail) := by
  rw [groups?, cut]
  rcases before with ⟨rfl, rfl⟩ | ⟨filled, read⟩ <;> rcases after with ⟨rfl, rfl⟩ | ⟨more, rest⟩ <;>
    simp_all

include small

theorem groupsMapped : (groups.map groupText).mapM group? = some groups := by
  induction groups with
  | nil => rfl
  | cons g rest ih =>
    rw [List.map_cons, List.mapM_cons, groupWritten (small g List.mem_cons_self),
      ih fun g member => small g (List.mem_cons_of_mem _ member)]
    rfl

theorem groupsListed : groupsOf (groups.map groupText) = some groups := by
  induction groups with
  | nil => rfl
  | cons g rest ih =>
    have head := groupWritten (small g List.mem_cons_self)
    have tail := ih fun g member => small g (List.mem_cons_of_mem _ member)
    cases rest with
    | nil =>
      simp only [List.map_cons, List.map_nil, groupsOf, quadPointless (groupPointless g), head]
      rfl
    | cons next rest =>
      rw [List.map_cons] at tail
      simp only [List.map_cons, groupsOf, head, tail]
      rfl

end Groups

section Runs

def ZeroRun (groups : List Nat) (run : Nat × Nat) : Prop :=
  (groups.drop run.1).take run.2 = List.replicate run.2 0

theorem longestZeroRun (groups : List Nat) : ZeroRun groups (longestRun groups) := by
  have here (start : Nat) :
      ZeroRun groups (start, ((groups.drop start).takeWhile (· = 0)).length) := by
    have front := List.prefix_iff_eq_take.mp (List.takeWhile_prefix (l := groups.drop start) (· = 0))
    rw [ZeroRun, ← front]
    refine List.eq_replicate_of_mem fun g member => ?_
    exact of_decide_eq_true (List.all_eq_true.mp List.all_takeWhile g member)
  have kept (starts : List Nat) (best : Nat × Nat) (run : ZeroRun groups best) :
      ZeroRun groups (starts.foldl (fun best start =>
        let length := ((groups.drop start).takeWhile (· = 0)).length
        if best.2 < length then (start, length) else best) best) := by
    induction starts generalizing best with
    | nil => exact run
    | cons start rest ih =>
      refine ih _ ?_
      dsimp only
      split
      · exact here start
      · exact run
  exact kept _ _ rfl

theorem ZeroRun.parts {groups : List Nat} {start length : Nat}
    (run : ZeroRun groups (start, length)) :
    groups = groups.take start ++ List.replicate length 0 ++ groups.drop (start + length) := by
  rw [ZeroRun] at run
  rw [← run, ← List.drop_drop, List.append_assoc, List.take_append_drop, List.take_append_drop]

end Runs

section Rows

variable {groups : List Nat}

theorem groupsTextApart {c : Char} (member : c ∈ groupsText groups) : Written c ∧ c ≠ '.' := by
  simp only [groupsText] at member
  split at member
  · rcases List.mem_append.mp member with before | later
    · exact joinedApart before
    · rcases List.mem_cons.mp later with rfl | later
      · exact ⟨.colon, by decide⟩
      · rcases List.mem_cons.mp later with rfl | after
        · exact ⟨.colon, by decide⟩
        · exact joinedApart after
  · exact joinedApart member

theorem groupsRead (eight : groups.length = 8) (small : ∀ g ∈ groups, g < 65536) :
    groups? (groupsText groups) = some groups := by
  have run := longestZeroRun groups
  simp only [groupsText]
  generalize longestRun groups = longest at run ⊢
  obtain ⟨start, length⟩ := longest
  dsimp only
  split
  · next two =>
    have parts := run.parts
    have room := congrArg List.length parts
    generalize front : groups.take start = head at parts room ⊢
    generalize behind : groups.drop (start + length) = tail at parts room ⊢
    subst parts
    simp only [List.length_append, List.length_replicate] at room eight
    have smallHead : ∀ g ∈ head, g < 65536 := fun g member => small g (by simp [member])
    have smallTail : ∀ g ∈ tail, g < 65536 := fun g member => small g (by simp [member])
    have cut : Fields.cutTwice ':' (Fields.join ':' (head.map groupText) ++ ':' :: ':' ::
        Fields.join ':' (tail.map groupText)) =
        some (Fields.join ':' (head.map groupText), Fields.join ':' (tail.map groupText)) := by
      simp [Fields.cutTwiceJoin (piecesWhole head), Fields.cutTwice, Fields.behind]
    rw [groupsCut cut (joinedReads (groupsMapped smallHead)) (joinedReads (groupsListed smallTail))
      (by omega), show 8 - head.length - tail.length = length by omega]
  · have some : groups ≠ [] := by
      rintro rfl
      cases eight
    have single : Fields.cutTwice ':' (Fields.join ':' (groups.map groupText)) = none := by
      have joined := Fields.cutTwiceJoin (piecesWhole groups) []
      rwa [List.append_nil] at joined
    rw [groups?, single]
    simp only [joinedSplit some, groupsListed small, bind, Option.bind, if_pos eight]

theorem groupsFromLength (count value : Nat) : (groupsFrom count value).length = count := by
  induction count generalizing value with
  | zero => rfl
  | succ count ih => simp [groupsFrom, ih]

theorem groupsFromSmall (count value : Nat) : ∀ g ∈ groupsFrom count value, g < 65536 := by
  induction count generalizing value with
  | zero => nofun
  | succ count ih =>
    intro g member
    rcases List.mem_append.mp member with high | low
    · exact ih _ g high
    · rw [List.mem_singleton.mp low]
      exact Nat.mod_lt _ (by decide)

theorem groupsFromValue {count value : Nat} (bound : value < Bytes.space (2 * count)) :
    groupsValue (groupsFrom count value) = value := by
  induction count generalizing value with
  | zero => exact (Nat.lt_one_iff.mp bound).symm
  | succ count ih =>
    have high : value / 65536 < Bytes.space (2 * count) := by
      change value < 256 * (256 * Bytes.space (2 * count)) at bound
      omega
    rw [groupsFrom, groupsValue, List.foldl_append, ← groupsValue, ih high]
    exact Nat.div_add_mod' value 65536

end Rows

theorem mappedRead (value : Nat) :
    ofText? ([':', ':', 'f', 'f', 'f', 'f', ':'] ++ quadText value) =
      some (wrap .v6 (mappedFront * Family.v4.space + value % Family.v4.space)) := by
  have colonless : ':' ∉ quadText value := fun member => (quadApart member).2 rfl
  have front : group? ['f', 'f', 'f', 'f'] = some mappedFront := by decide
  have quad := quadWritten value
  generalize value % Family.v4.space = low at quad ⊢
  have pieces : groupsOf (Fields.split ':' (['f', 'f', 'f', 'f'] ++ ':' :: quadText value)) =
      some [mappedFront, low / 65536, low % 65536] := by
    rw [Fields.splitAppend (by decide), Fields.splitFree colonless]
    simp only [groupsOf, front, quad]
    rfl
  have cut : Fields.cutTwice ':' (':' :: ':' :: (['f', 'f', 'f', 'f'] ++ ':' :: quadText value)) =
      some ([], ['f', 'f', 'f', 'f'] ++ ':' :: quadText value) := rfl
  have read := groupsCut cut (.inl ⟨rfl, rfl⟩) (.inr ⟨nofun, pieces⟩) (by simp)
  have text : [':', ':', 'f', 'f', 'f', 'f', ':'] ++ quadText value =
      ':' :: ':' :: (['f', 'f', 'f', 'f'] ++ ':' :: quadText value) := rfl
  rw [ofText?, quadBehind (by decide) (by decide), text]
  dsimp only
  rw [read]
  have whole : groupsValue ([] ++ List.replicate 5 0 ++ [mappedFront, low / 65536, low % 65536]) =
      mappedFront * Family.v4.space + low := by
    change (mappedFront * 65536 + low / 65536) * 65536 + low % 65536 =
      mappedFront * 4294967296 + low
    omega
  exact congrArg some (congrArg (wrap .v6) whole)

theorem textRead (a : Address) : ofText? a.chars = some a := by
  obtain ⟨family, value, bound⟩ := a
  cases family with
  | v4 =>
    rw [chars, ofText?, quadWritten, Nat.mod_eq_of_lt bound]
    exact congrArg some (wrapValue ⟨.v4, value, bound⟩)
  | v6 =>
    simp only [chars]
    split
    · next mapped =>
      rw [mappedRead, Nat.mod_mod, ← mapped, Nat.div_add_mod']
      exact congrArg some (wrapValue ⟨.v6, value, bound⟩)
    · have pointless : '.' ∉ groupsText (groupsFrom 8 value) := fun member =>
        (groupsTextApart member).2 rfl
      rw [ofText?, quadPointless pointless,
        groupsRead (groupsFromLength 8 value) (groupsFromSmall 8 value), Option.map_some,
        groupsFromValue bound]
      exact congrArg some (wrapValue ⟨.v6, value, bound⟩)

theorem charsWritten {a : Address} {c : Char} (member : c ∈ a.chars) : Written c := by
  unfold chars at member
  split at member
  · exact (quadApart member).1
  · split at member
    · rcases List.mem_append.mp member with front | quad
      · have f : Written 'f' := .digit (d := 15) (by decide)
        simp only [List.mem_cons, List.not_mem_nil, or_false] at front
        rcases front with rfl | rfl | rfl | rfl | rfl | rfl | rfl <;> first | exact .colon | exact f
      · exact (quadApart quad).1
    · exact (groupsTextApart member).1

end AddressPool.Address
