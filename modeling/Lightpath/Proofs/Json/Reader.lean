import Lightpath.Json.Reader
import Lightpath.Proofs.Json.Everywhere
import Lightpath.Proofs.Numeral.WholeText
import Lightpath.Proofs.OrderedMap

/-!
# What is read from a text

However a text nests lists and objects, no whole number that is read from it has more digits than
are read. Main statement: `written_of_parse`.
-/

namespace Lightpath.Json

open Lightpath.Text Lightpath.Numeral

variable {α β : Type}

/-! ## Steps of the reader -/

/-- What a step reads, if it reads anything, is as it should be. -/
def Gives (P : α → Prop) (step : Step α) : Prop :=
  ∀ a tail, step = .ok (a, tail) → P a

namespace Gives

variable {P : α → Prop} {Q : β → Prop} {step : Step α}

theorem error (e : Trouble) : Gives P (.error e) :=
  fun _ _ h => absurd h (by simp)

theorem ok {a : α} {tail : List Char} (h : P a) : Gives P (.ok (a, tail)) := by
  intro a' tail' heq
  rwa [← (Prod.mk.inj (Except.ok.inj heq)).1]

/-- What is made of what a step gives is as it should be if it is made so. -/
theorem map {f : α × List Char → β × List Char} (h : Gives P step)
    (hf : ∀ a tail, P a → Q (f (a, tail)).1) : Gives Q (step.map f) := by
  cases step with
  | error e => exact error e
  | ok r => exact ok (hf r.1 r.2 (h r.1 r.2 rfl))

end Gives

/-! ## Numbers -/

/-- A value is no whole number with more digits than are read. -/
def Short (v : Json) : Prop :=
  ∀ n, v = .int n → n.natAbs < 10 ^ maxDigits

/-- **Neither a value nor a field in it is a whole number with more digits than are read.** -/
def Written (v : Json) : Prop :=
  Short v ∧ Everywhere (fun _ w => Short w) v

/-- Digits are below ten. -/
theorem lt_ten_of_spanDigits (cs : List Char) : ∀ d ∈ (spanDigits latinDigit? cs).1, d < 10 := by
  induction cs with
  | nil => exact fun d hd => absurd hd List.not_mem_nil
  | cons c cs ih =>
    rw [spanDigits]
    cases hc : latinDigit? c with
    | none => exact fun d hd => absurd hd List.not_mem_nil
    | some d => exact List.forall_mem_cons.mpr ⟨latinDigit?_lt hc, ih⟩

theorem lt_ten_of_wholePart {cs rest : List Char} {ds : List Nat}
    (h : wholePart cs = some (ds, rest)) : ∀ d ∈ ds, d < 10 := by
  unfold wholePart at h
  split at h
  · rw [← (Prod.mk.inj (Option.some.inj h)).1]
    decide
  · have hspan := lt_ten_of_spanDigits cs
    split at h
    · exact absurd h (by simp)
    case h_2 digits tail _ hdigits =>
      rw [← (Prod.mk.inj (Option.some.inj h)).1]
      rwa [hdigits] at hspan

theorem written_float (x : Float) : Written (.float x) :=
  ⟨fun _ h => absurd h (by simp), trivial⟩

/-- A number of a text has no more digits than are read. -/
theorem gives_number (cs : List Char) : Gives Written (number cs) := by
  unfold number
  simp only
  split
  · exact Gives.error _
  case h_2 whole rest hwhole =>
    split
    · split
      case isTrue hlength =>
        refine Gives.ok ⟨fun n hn => ?_, trivial⟩
        rw [← Json.int.inj hn, natAbs_signed]
        exact ofDigits_lt (lt_ten_of_wholePart hwhole) hlength
      case isFalse => exact Gives.error _
    · exact Gives.ok (written_float _)

/-- A value without parts has no more digits than are read. -/
theorem gives_scalar (cs : List Char) : Gives Written (scalar cs) := by
  have hwords : ∀ w ∈ words, Written w.2 := by
    have hnumber (n : Int) (w : List Char × Json) (hw : w ∈ words) : w.2 ≠ .int n := by
      intro heq
      simp only [words, List.mem_cons, List.not_mem_nil, or_false] at hw
      rcases hw with rfl | rfl | rfl | rfl | rfl | rfl <;> exact absurd heq (by simp)
    intro w hw
    refine ⟨fun n hn => absurd hn (hnumber n w hw), ?_⟩
    simp only [words, List.mem_cons, List.not_mem_nil, or_false] at hw
    rcases hw with rfl | rfl | rfl | rfl | rfl | rfl <;> trivial
  rw [scalar]
  split
  case h_1 w v hfind => exact Gives.ok (hwords _ (List.mem_of_find?_eq_some hfind))
  case h_2 => exact gives_number cs

/-! ## Values -/

theorem written_arr {vs : List Json} (h : ∀ v ∈ vs, Written v) : Written (.arr vs) :=
  ⟨fun _ hn => absurd hn (by simp), everywhere_arr.mpr fun v hv => (h v hv).2⟩

theorem written_obj {fs : List (String × Json)} (h : ∀ f ∈ fs, Written f.2) : Written (.obj fs) :=
  ⟨fun _ hn => absurd hn (by simp), everywhere_obj.mpr h⟩

/-- Of each name the last value is kept. -/
theorem written_ofPairs {fs : List (String × Json)} (h : ∀ f ∈ fs, Written f.2) :
    ∀ f ∈ OrderedMap.ofPairs fs, Written f.2 :=
  fun f hf => h f (OrderedMap.mem_of_mem_ofPairs hf)

/-- What is read with so much fuel: a value, items or fields. -/
theorem gives_written (fuel : Nat) :
    (∀ cs, Gives Written (value fuel cs)) ∧
      (∀ cs, Gives (fun vs => ∀ v ∈ vs, Written v) (items fuel cs)) ∧
      ∀ cs, Gives (fun fs => ∀ f ∈ fs, Written f.2) (members fuel cs) := by
  induction fuel with
  | zero => exact ⟨fun _ => Gives.error _, fun _ => Gives.error _, fun _ => Gives.error _⟩
  | succ fuel ih =>
    obtain ⟨hvalue, hitems, hmembers⟩ := ih
    refine ⟨fun cs => ?_, fun cs => ?_, fun cs => ?_⟩
    · unfold value
      split
      · refine Gives.map (P := fun _ => True) (fun _ _ _ => trivial) fun s tail _ => ?_
        exact ⟨fun _ hn => absurd hn (by simp), trivial⟩
      · split
        · exact Gives.ok (written_arr (by simp))
        · exact (hitems _).map fun vs _ hvs => written_arr hvs
      · split
        · exact Gives.ok (written_obj (by simp))
        · exact (hmembers _).map fun fs _ hfs => written_obj (written_ofPairs hfs)
      · exact gives_scalar cs
    · rw [items]
      cases hread : value fuel cs with
      | error e => exact Gives.error e
      | ok r =>
        have hv := hvalue cs r.1 r.2 hread
        simp only
        split
        · exact Gives.ok (by simpa using hv)
        · exact (hitems _).map fun vs _ hvs => List.forall_mem_cons.mpr ⟨hv, hvs⟩
        · exact Gives.error _
    · unfold members
      split
      · cases string _ with
        | error e => exact Gives.error e
        | ok r =>
          simp only
          split
          case h_1 rest _ =>
            cases hread : value fuel (skipSpace rest) with
            | error e => exact Gives.error e
            | ok r =>
              have hv := hvalue _ r.1 r.2 hread
              simp only
              split
              · exact Gives.ok (by simpa using hv)
              · exact (hmembers _).map fun fs _ hfs => List.forall_mem_cons.mpr ⟨hv, hfs⟩
              · exact Gives.error _
          case h_2 => exact Gives.error _
      · exact Gives.error _

/-- **No whole number that is read from a text has more digits than are read.** -/
theorem written_of_parse {text : String} {v : Json} (h : parse text = .ok v) : Written v := by
  have hchars : parseChars text.toList = .ok v := by
    unfold parse at h
    simp only at h
    split at h
    · exact absurd h (by simp)
    · split at h
      case h_1 w hw => rw [hw, Except.ok.inj h]
      · exact absurd h (by simp)
      · exact absurd h (by simp)
  rw [parseChars] at hchars
  have hvalue := (gives_written (2 * text.toList.length + 2)).1 (skipSpace text.toList)
  cases hread : value (2 * text.toList.length + 2) (skipSpace text.toList) with
  | error e =>
    rw [hread] at hchars
    exact absurd hchars (by simp)
  | ok r =>
    rw [hread] at hchars
    simp only at hchars
    split at hchars
    · rw [← Except.ok.inj hchars]
      exact hvalue r.1 r.2 hread
    · exact absurd hchars (by simp [stop])

end Lightpath.Json
