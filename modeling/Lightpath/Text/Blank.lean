/-!
# White space

Which characters count as white space in the texts that devices, operators and the path computation
engine write, and what is left of a text once the white space around it is gone.
-/

namespace Lightpath.Text

/-! ## Classes -/

/-- A character with the white space property of the Unicode standard. -/
def isSpace (c : Char) : Bool :=
  let n := c.toNat
  (9 ≤ n && n ≤ 13) || n == 32 || n == 0x85 || n == 0xA0 || n == 0x1680
    || (0x2000 ≤ n && n ≤ 0x200A) || n == 0x2028 || n == 0x2029 || n == 0x202F
    || n == 0x205F || n == 0x3000

/-- White space of running text: the white space property and the four information separators. -/
def isBlank (c : Char) : Bool :=
  isSpace c || (28 ≤ c.toNat && c.toNat ≤ 31)

/-! ## Trimming -/

/-- Drops the characters of a class at both ends. -/
def trimBy (p : Char → Bool) (cs : List Char) : List Char :=
  ((cs.dropWhile p).reverse.dropWhile p).reverse

/-- Drops the white space at both ends. -/
def trim (cs : List Char) : List Char :=
  trimBy isBlank cs

/-- A text without the white space around it. -/
def trimmed (s : String) : String :=
  String.ofList (trim s.toList)

/-- A text that neither starts nor ends with white space is left as it is. -/
theorem trimBy_eq_self {p : Char → Bool} {cs : List Char}
    (hd : ∀ c ∈ cs.head?, p c = false) (hl : ∀ c ∈ cs.getLast?, p c = false) :
    trimBy p cs = cs := by
  have h1 : cs.dropWhile p = cs := by
    cases cs with
    | nil => rfl
    | cons c r => simp [List.dropWhile, hd c (by simp)]
  have h2 : cs.reverse.dropWhile p = cs.reverse := by
    cases h : cs.reverse with
    | nil => rfl
    | cons c r =>
      have hc : c ∈ cs.getLast? := by
        rw [← List.head?_reverse, h]; simp
      simp [List.dropWhile, hl c hc]
  rw [trimBy, h1, h2, List.reverse_reverse]

end Lightpath.Text
