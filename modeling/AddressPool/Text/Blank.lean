/-! White space by its Unicode property, and its removal at both ends of a text. -/
namespace AddressPool.Blank

def isBlank (c : Char) : Bool :=
  let n := c.toNat
  (0x09 ≤ n && n ≤ 0x0D) || n == 0x20 || n == 0x85 || n == 0xA0 || n == 0x1680 ||
  (0x2000 ≤ n && n ≤ 0x200A) || n == 0x2028 || n == 0x2029 || n == 0x202F || n == 0x205F ||
  n == 0x3000

def trim (text : List Char) : List Char :=
  ((text.dropWhile isBlank).reverse.dropWhile isBlank).reverse

theorem trimPlain {text : List Char} (plain : ∀ c ∈ text, isBlank c = false) :
    trim text = text := by
  have whole : ∀ l : List Char, (∀ c ∈ l, isBlank c = false) → l.dropWhile isBlank = l := by
    intro l h
    cases l with
    | nil => rfl
    | cons c rest => simp [List.dropWhile, h c]
  unfold trim
  rw [whole text plain, whole text.reverse (fun c h => plain c (List.mem_reverse.mp h)),
    List.reverse_reverse]

end AddressPool.Blank
