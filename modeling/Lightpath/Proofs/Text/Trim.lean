import Lightpath.Text.Blank
import Mathlib.Data.List.DropRight

/-!
# Laws of trimming

Trimming drops characters and adds none, trimming twice is trimming once, and a text without white
space is left alone.
-/

namespace Lightpath.Text

variable {p : Char → Bool} {cs : List Char}

/-- Trimming drops characters at the front and then at the end. -/
theorem trimBy_eq (p : Char → Bool) (cs : List Char) :
    trimBy p cs = (cs.dropWhile p).rdropWhile p := rfl

theorem mem_of_mem_trimBy {c : Char} (h : c ∈ trimBy p cs) : c ∈ cs := by
  rw [trimBy_eq] at h
  exact (List.dropWhile_suffix p).subset ((List.rdropWhile_prefix p _).subset h)

/-- A trimmed text does not start with a character that is trimmed. -/
theorem head?_trimBy : ∀ c ∈ (trimBy p cs).head?, p c = false := by
  intro c hc
  obtain ⟨rest, hrest⟩ := List.rdropWhile_prefix p (cs.dropWhile p)
  rw [trimBy_eq] at hc
  have hhead : (cs.dropWhile p).head? = some c := by
    rw [← hrest, List.head?_append, hc]
    rfl
  have hnot := List.head?_dropWhile_not p cs
  rw [hhead] at hnot
  exact hnot

/-- A trimmed text does not end with a character that is trimmed. -/
theorem getLast?_trimBy : ∀ c ∈ (trimBy p cs).getLast?, p c = false := by
  intro c hc
  rw [trimBy_eq] at hc
  obtain ⟨hne, hlast⟩ := List.mem_getLast?_eq_getLast hc
  rw [hlast]
  exact Bool.eq_false_iff.mpr (List.rdropWhile_last_not p _ hne)

theorem trimBy_trimBy : trimBy p (trimBy p cs) = trimBy p cs :=
  trimBy_eq_self head?_trimBy getLast?_trimBy

/-- A text without characters that are trimmed is left alone. -/
theorem trimBy_of_forall (h : ∀ c ∈ cs, p c = false) : trimBy p cs = cs :=
  trimBy_eq_self (fun c hc => h c (List.mem_of_mem_head? hc)) fun c hc =>
    h c (List.mem_of_mem_getLast? hc)

/-- What trimming drops stands around what it leaves. -/
theorem exists_append_trimBy (p : Char → Bool) (cs : List Char) :
    ∃ before after, cs = before ++ trimBy p cs ++ after ∧ (∀ c ∈ before, p c = true) ∧
      ∀ c ∈ after, p c = true := by
  refine ⟨cs.takeWhile p, (cs.dropWhile p).rtakeWhile p, ?_, fun c hc => List.mem_takeWhile_imp hc,
    fun c hc => List.mem_rtakeWhile_imp hc⟩
  rw [trimBy_eq, List.append_assoc, List.rdropWhile_append_rtakeWhile,
    List.takeWhile_append_dropWhile]

/-- Trimming drops what stands around a text without characters that are trimmed. -/
theorem trimBy_append {before after : List Char} (hbefore : ∀ c ∈ before, p c = true)
    (h : ∀ c ∈ cs, p c = false) (hafter : ∀ c ∈ after, p c = true) :
    trimBy p (before ++ cs ++ after) = cs := by
  rw [trimBy, List.append_assoc, List.dropWhile_append_of_pos hbefore]
  cases cs with
  | nil => rw [List.nil_append, List.dropWhile_eq_nil_iff.mpr hafter]; rfl
  | cons c rest =>
    have hc : ¬p c = true := by simp [h c List.mem_cons_self]
    have hafter' : ∀ c ∈ after.reverse, p c = true := fun c hc =>
      hafter c (List.mem_reverse.mp hc)
    have htrim := trimBy_of_forall h
    rw [trimBy, List.dropWhile_cons_of_neg hc] at htrim
    rw [List.cons_append, List.dropWhile_cons_of_neg hc, ← List.cons_append, List.reverse_append,
      List.dropWhile_append_of_pos hafter', htrim]

/-! ## Texts -/

theorem trimmed_trimmed (s : String) : trimmed (trimmed s) = trimmed s := by
  rw [trimmed, trimmed, String.toList_ofList, trim, trim, trimBy_trimBy]

theorem mem_of_mem_trimmed {s : String} {c : Char} (h : c ∈ (trimmed s).toList) : c ∈ s.toList := by
  rw [trimmed, String.toList_ofList] at h
  exact mem_of_mem_trimBy h

/-- A text without white space is left alone. -/
theorem trimmed_of_forall {s : String} (h : ∀ c ∈ s.toList, isBlank c = false) : trimmed s = s := by
  rw [trimmed, trim, trimBy_of_forall h, String.ofList_toList]

end Lightpath.Text
