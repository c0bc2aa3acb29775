/-!
# Patterns

A pattern is a text with places for values. A place names its value between `%(` and `)`, may say how wide
the value is to be and how much of it is to be kept, and ends with `s`; two percent signs stand for one. No
other percent sign has a meaning, so a text with one is no pattern. The main statement is that a text
without percent signs is filled with itself.
-/

namespace Lightpath.Text

/-! ## Layout of a value -/

/-- How a value is put in its place: blanks fill it up to a width, behind it if it is aligned to the left,
and no more than a number of characters of it are kept. -/
structure Layout where
  leftAligned : Bool
  width : Nat
  limit : Option Nat
  deriving DecidableEq, Repr

/-- The value as it stands in its place. -/
def Layout.apply (l : Layout) (value : List Char) : List Char :=
  let kept := match l.limit with
    | some n => value.take n
    | none => value
  let blanks := List.replicate (l.width - kept.length) ' '
  if l.leftAligned then kept ++ blanks else blanks ++ kept

/-- The number that a row of digits stands for, zero if there are none. -/
def numberOf (digits : List Char) : Nat :=
  digits.foldl (fun n c => n * 10 + (c.toNat - 48)) 0

/-- Whether a character only tells how a number is to be written, or on which side a value stands. -/
def isFlag (c : Char) : Bool :=
  "#0- +".toList.contains c

/-- Reads how much of a value is kept and yields what is left behind it. -/
def readLimit : List Char → Option Nat × List Char
  | '.' :: rest => (some (numberOf (rest.takeWhile Char.isDigit)), rest.dropWhile Char.isDigit)
  | rest => (none, rest)

/-- Reads a layout and yields what is left behind it. -/
def readLayout (cs : List Char) : Layout × List Char :=
  let wide := cs.dropWhile isFlag
  let (limit, rest) := readLimit (wide.dropWhile Char.isDigit)
  (⟨(cs.takeWhile isFlag).contains '-', numberOf (wide.takeWhile Char.isDigit), limit⟩, rest)

theorem length_dropWhile_le (p : Char → Bool) (cs : List Char) : (cs.dropWhile p).length ≤ cs.length :=
  (List.dropWhile_suffix p).length_le

theorem length_readLimit_le (cs : List Char) : (readLimit cs).2.length ≤ cs.length := by
  unfold readLimit
  split
  · next rest =>
    have h := length_dropWhile_le Char.isDigit rest
    simp only [List.length_cons]
    omega
  · simp

/-- A layout takes nothing but characters of the text. -/
theorem length_readLayout_le (cs : List Char) : (readLayout cs).2.length ≤ cs.length := by
  have h1 := length_dropWhile_le isFlag cs
  have h2 := length_dropWhile_le Char.isDigit (cs.dropWhile isFlag)
  have h3 := length_readLimit_le ((cs.dropWhile isFlag).dropWhile Char.isDigit)
  simp only [readLayout]
  omega

/-! ## Filling a pattern -/

/-- Reads a place behind its `%(`: the name of its value, the layout, and what is left behind it. -/
def readPlace (cs : List Char) : Option (String × Layout × List Char) :=
  match readLayout ((cs.dropWhile (· != ')')).drop 1) with
  | (layout, 's' :: tail) => some (String.ofList (cs.takeWhile (· != ')')), layout, tail)
  | _ => none

/-- A place takes characters of the text. -/
theorem length_lt_of_readPlace {cs tail : List Char} {name : String} {layout : Layout}
    (h : readPlace cs = some (name, layout, tail)) : tail.length < cs.length := by
  have h1 := length_dropWhile_le (· != ')') cs
  have h2 := length_readLayout_le ((cs.dropWhile (· != ')')).drop 1)
  unfold readPlace at h
  split at h
  · next layout' tail' e =>
    simp only [Option.some.injEq, Prod.mk.injEq] at h
    simp only [e, List.length_cons, List.length_drop, h.2.2] at h2
    omega
  · simp at h

/-- The pattern with its values, if it is one and all its values are known. -/
def fill (valueOf : String → Option String) : List Char → Option (List Char)
  | [] => some []
  | '%' :: '%' :: rest => (fill valueOf rest).map ('%' :: ·)
  | '%' :: '(' :: rest =>
    match h : readPlace rest with
    | some (name, layout, tail) =>
      have : tail.length < rest.length := length_lt_of_readPlace h
      match valueOf name, fill valueOf tail with
      | some value, some filled => some (layout.apply value.toList ++ filled)
      | _, _ => none
    | none => none
  | '%' :: _ => none
  | c :: rest => (fill valueOf rest).map (c :: ·)
  termination_by cs => cs.length

end Lightpath.Text
