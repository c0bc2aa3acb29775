import Lightpath.Proofs.Numeral.WholeText
import Lightpath.Proofs.Text.Trim

/-!
# The grammar of whole numbers

Which texts are read as a whole number, and as which one: white space, at most one sign, digits of any
script with at most one low line between two of them, and white space again. Main statement: the reader
accepts exactly these texts, as long as their digits are not too many (`readWhole_eq_some_iff`).
-/

namespace Lightpath.Numeral

open Lightpath.Text

/-! ## Grammar -/

/-- Digits in a row, with at most one low line between two of them, and what the digits stand for. -/
inductive Run : List Char → List Nat → Prop
  | last {c : Char} {d : Nat} (digit : digit? c = some d) : Run [c] [d]
  | next {c : Char} {d : Nat} {cs : List Char} {ds : List Nat} (digit : digit? c = some d)
      (more : Run cs ds) : Run (c :: cs) (d :: ds)
  | line {c : Char} {d : Nat} {cs : List Char} {ds : List Nat} (digit : digit? c = some d)
      (more : Run cs ds) : Run (c :: '_' :: cs) (d :: ds)

/-- What may stand in front of the digits, and whether it makes the number negative. -/
inductive Sign : List Char → Bool → Prop
  | none : Sign [] false
  | plus : Sign ['+'] false
  | minus : Sign ['-'] true

/-- **A text writes a whole number.** -/
inductive Writes : List Char → Int → Prop
  | intro {before sign body after : List Char} {negative : Bool} {ds : List Nat}
      (hbefore : ∀ c ∈ before, isSpace c = true) (hsign : Sign sign negative) (hbody : Run body ds)
      (hlength : ds.length ≤ maxDigits) (hafter : ∀ c ∈ after, isSpace c = true) :
      Writes (before ++ (sign ++ body) ++ after) (signed negative (ofDigits ds))

/-! ## Runs of digits -/

/-- Behind a digit a run may end, go on, or go on behind a low line. -/
def Continues (cs : List Char) (ds : List Nat) : Prop :=
  (cs = [] ∧ ds = []) ∨ Run cs ds ∨ ∃ rest, cs = '_' :: rest ∧ Run rest ds

/-- A run starts with a digit, and what is behind it continues it. -/
theorem run_cons_iff {c : Char} {cs : List Char} {ds : List Nat} :
    Run (c :: cs) ds ↔ ∃ d rest, digit? c = some d ∧ ds = d :: rest ∧ Continues cs rest := by
  constructor
  · intro h
    cases h with
    | last hd => exact ⟨_, [], hd, rfl, Or.inl ⟨rfl, rfl⟩⟩
    | next hd more => exact ⟨_, _, hd, rfl, Or.inr (Or.inl more)⟩
    | line hd more => exact ⟨_, _, hd, rfl, Or.inr (Or.inr ⟨_, rfl, more⟩)⟩
  · rintro ⟨d, rest, hd, rfl, ⟨rfl, rfl⟩ | more | ⟨more, rfl, hmore⟩⟩
    · exact .last hd
    · exact .next hd more
    · exact .line hd hmore

/-- What may stand around digits is no digit. -/
theorem digit?_mark {c : Char} (h : c = '_' ∨ c = '+' ∨ c = '-') : digit? c = none := by
  rcases h with rfl | rfl | rfl <;> decide

/-- No run starts with a low line. -/
theorem not_run_lowLine {cs : List Char} {ds : List Nat} : ¬ Run ('_' :: cs) ds := by
  rw [run_cons_iff]
  rintro ⟨d, rest, hd, -⟩
  exact absurd hd (by simp [digit?_mark])

theorem continues_nil_iff {ds : List Nat} : Continues [] ds ↔ ds = [] := by
  constructor
  · rintro (⟨-, h⟩ | h | ⟨rest, h, -⟩)
    · exact h
    · exact absurd h nofun
    · exact absurd h (by simp)
  · exact fun h => Or.inl ⟨rfl, h⟩

/-- Behind a low line there is a run again. -/
theorem continues_lowLine_iff {cs : List Char} {ds : List Nat} :
    Continues ('_' :: cs) ds ↔ Run cs ds := by
  constructor
  · rintro (⟨h, -⟩ | h | ⟨rest, h, hrest⟩)
    · exact absurd h (by simp)
    · exact absurd h not_run_lowLine
    · rwa [(List.cons.inj h).2]
  · exact fun h => Or.inr (Or.inr ⟨cs, rfl, h⟩)

theorem continues_cons_iff {c : Char} (hline : c ≠ '_') {cs : List Char} {ds : List Nat} :
    Continues (c :: cs) ds ↔ Run (c :: cs) ds := by
  constructor
  · rintro (⟨h, -⟩ | h | ⟨rest, h, -⟩)
    · exact absurd h (by simp)
    · exact h
    · exact absurd (List.cons.inj h).1 hline
  · exact fun h => Or.inr (Or.inl h)

/-- The reader reads the runs of digits, and what may follow a digit where one stands before. -/
theorem digitsFrom_eq_some_iff {cs : List Char} (ds : List Nat) :
    (digitsFrom digit? false cs = some ds ↔ Run cs ds) ∧
      (digitsFrom digit? true cs = some ds ↔ Continues cs ds) := by
  induction cs generalizing ds with
  | nil =>
    refine ⟨iff_of_false (by simp [digitsFrom]) nofun, ?_⟩
    rw [continues_nil_iff, digitsFrom, if_pos rfl, Option.some.injEq, eq_comm]
  | cons c cs ih =>
    by_cases hline : c = '_'
    · subst hline
      refine ⟨iff_of_false (by simp [digitsFrom]) not_run_lowLine, ?_⟩
      rw [digitsFrom, if_pos rfl, if_pos rfl, (ih ds).1, continues_lowLine_iff]
    · -- in front of a digit it makes no difference whether one stands before
      have hread (follows : Bool) : digitsFrom digit? follows (c :: cs) = some ds
          ↔ Run (c :: cs) ds := by
        rw [digitsFrom, if_neg hline, run_cons_iff]
        cases digit? c with
        | none => simp
        | some d =>
          simp only [Option.map_eq_some_iff, (ih _).2, Option.some.injEq, exists_and_left,
            exists_eq_left']
          constructor
          · rintro ⟨rest, hrest, rfl⟩
            exact ⟨rest, rfl, hrest⟩
          · rintro ⟨rest, rfl, hrest⟩
            exact ⟨rest, hrest, rfl⟩
      exact ⟨hread false, (hread true).trans (continues_cons_iff hline).symm⟩

/-- The digits that are read are those of a run. -/
theorem digits?_eq_some_iff {cs : List Char} {ds : List Nat} : digits? cs = some ds ↔ Run cs ds :=
  (digitsFrom_eq_some_iff ds).1

/-! ## White space around a number -/

/-- No row of digits has white space in it. -/
theorem zeroDigits_bounds : ∀ z ∈ zeroDigits, (32 < z ∧ z + 9 < 0x85) ∨
    (0xA0 < z ∧ z + 9 < 0x1680) ∨ (0x1680 < z ∧ z + 9 < 0x2000) ∨ 0x3000 < z := by
  decide

/-- No decimal digit of any script is white space. -/
theorem isSpace_of_digit? {c : Char} {d : Nat} (h : digit? c = some d) : isSpace c = false := by
  have hrow : ∃ z ∈ zeroDigits, z ≤ c.toNat ∧ c.toNat ≤ z + 9 := by
    rw [digit?, latinDigit?] at h
    split at h
    · rename_i hlatin
      split at hlatin
      · rename_i hc
        exact ⟨0x30, by decide, hc.1, hc.2⟩
      · exact absurd hlatin (by simp)
    · obtain ⟨z, hz, -⟩ := Option.map_eq_some_iff.mp h
      have hbounds := List.find?_some hz
      rw [Bool.and_eq_true, decide_eq_true_eq, decide_eq_true_eq] at hbounds
      exact ⟨z, List.mem_of_find?_eq_some hz, hbounds⟩
  obtain ⟨z, hz, hlow, hhigh⟩ := hrow
  have hbounds := zeroDigits_bounds z hz
  simp only [isSpace, Bool.or_eq_false_iff, Bool.and_eq_false_iff, decide_eq_false_iff_not,
    beq_eq_false_iff_ne]
  omega

theorem isSpace_of_mem_sign {sign : List Char} {negative : Bool} (h : Sign sign negative) :
    ∀ c ∈ sign, isSpace c = false := by
  cases h with
  | none => exact List.forall_mem_nil _
  | plus => exact List.forall_mem_singleton.mpr (by decide)
  | minus => exact List.forall_mem_singleton.mpr (by decide)

theorem isSpace_of_mem_run {cs : List Char} {ds : List Nat} (h : Run cs ds) :
    ∀ c ∈ cs, isSpace c = false := by
  induction h with
  | last hd => exact List.forall_mem_singleton.mpr (isSpace_of_digit? hd)
  | next hd _ ih => exact List.forall_mem_cons.mpr ⟨isSpace_of_digit? hd, ih⟩
  | line hd _ ih =>
    exact List.forall_mem_cons.mpr ⟨isSpace_of_digit? hd, List.forall_mem_cons.mpr ⟨by decide, ih⟩⟩

/-! ## Signs -/

/-- Splitting off a sign leaves what stands behind it. -/
theorem exists_splitSign (cs : List Char) :
    ∃ sign negative body, splitSign cs = (negative, body) ∧ cs = sign ++ body ∧
      Sign sign negative := by
  unfold splitSign
  split
  · exact ⟨['-'], true, _, rfl, rfl, .minus⟩
  · exact ⟨['+'], false, _, rfl, rfl, .plus⟩
  · exact ⟨[], false, _, rfl, rfl, .none⟩

/-- A run of digits starts with no sign. -/
theorem splitSign_append_run {sign cs : List Char} {negative : Bool} {ds : List Nat}
    (h : Sign sign negative) (hcs : Run cs ds) : splitSign (sign ++ cs) = (negative, cs) := by
  cases h with
  | minus => rfl
  | plus => rfl
  | none =>
    cases cs with
    | nil => exact absurd hcs nofun
    | cons c cs =>
      obtain ⟨d, -, hd, -⟩ := run_cons_iff.mp hcs
      have hminus : c ≠ '-' := by
        rintro rfl
        exact absurd hd (by simp [digit?_mark])
      have hplus : c ≠ '+' := by
        rintro rfl
        exact absurd hd (by simp [digit?_mark])
      simp [splitSign, hminus, hplus]

/-! ## Reading -/

/-- **The reader accepts exactly the texts that write a whole number**, and reads that number. -/
theorem readWhole_eq_some_iff {text : List Char} {n : Int} :
    readWhole text = some n ↔ Writes text n := by
  constructor
  · intro h
    obtain ⟨before, after, htext, hbefore, hafter⟩ := exists_append_trimBy isSpace text
    rw [readWhole] at h
    generalize trimBy isSpace text = inner at htext h
    obtain ⟨sign, negative, body, hsplit, rfl, hsign⟩ := exists_splitSign inner
    rw [hsplit] at h
    simp only at h
    cases hds : digits? body with
    | none =>
      rw [hds] at h
      exact absurd h (by simp)
    | some ds =>
      rw [hds] at h
      simp only at h
      split at h
      case isFalse => exact absurd h (by simp)
      case isTrue hlength =>
        rw [← Option.some.inj h, htext]
        exact .intro hbefore hsign (digits?_eq_some_iff.mp hds) hlength hafter
  · rintro ⟨hbefore, hsign, hbody, hlength, hafter⟩
    -- neither a sign nor a run has white space at which trimming could go on
    have hspace : ∀ c ∈ _, isSpace c = false :=
      List.forall_mem_append.mpr ⟨isSpace_of_mem_sign hsign, isSpace_of_mem_run hbody⟩
    rw [readWhole, trimBy_append hbefore hspace hafter, splitSign_append_run hsign hbody]
    simp only
    rw [digits?_eq_some_iff.mpr hbody]
    exact if_pos hlength

/-- A number that is read has no more digits than are read, so it can be written. -/
theorem writable_of_readWhole {text : List Char} {n : Int} (h : readWhole text = some n) :
    Writable n :=
  writable_iff.mpr (natAbs_lt_of_readWhole h)

end Lightpath.Numeral
