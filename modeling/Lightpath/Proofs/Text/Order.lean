import Lightpath.Text.Order
import Mathlib.Data.List.Nodup

/-!
# Laws of ordered texts

Texts that are put in order and taken once each ascend, and they are the texts that were there.
-/

namespace Lightpath.Text

variable {texts : List String}

/-- Different texts that are put in order ascend. -/
theorem pairwise_sorted (h : texts.Nodup) : (sorted texts).Pairwise (· < ·) := by
  have hle : (sorted texts).Pairwise fun a b => decide (a ≤ b) = true := by
    refine List.pairwise_mergeSort (fun a b c hab hbc => ?_) (fun a b => ?_) texts
    · exact decide_eq_true (String.le_trans (of_decide_eq_true hab) (of_decide_eq_true hbc))
    · rw [Bool.or_eq_true, decide_eq_true_eq, decide_eq_true_eq]
      exact String.le_total a b
  have hnodup : (sorted texts).Nodup := (List.mergeSort_perm texts _).nodup_iff.mpr h
  refine (hle.and hnodup).imp fun {a b} hab => ?_
  exact String.not_le.mp fun hba => hab.2 (String.le_antisymm (of_decide_eq_true hab.1) hba)

/-- What is left when each text is kept where it stands first has no text twice. -/
theorem nodup_eraseDups : ∀ texts : List String, texts.eraseDups.Nodup
  | [] => List.nodup_nil
  | s :: rest => by
    rw [List.eraseDups_cons, List.nodup_cons, List.mem_eraseDups, List.mem_filter]
    have hlength : (rest.filter fun t => !t == s).length ≤ rest.length := List.length_filter_le _ _
    exact ⟨by simp, nodup_eraseDups _⟩
termination_by texts => texts.length

/-- Texts in order, each of them once, ascend. -/
theorem pairwise_sortedOnce (texts : List String) : (sortedOnce texts).Pairwise (· < ·) :=
  pairwise_sorted (nodup_eraseDups texts)

theorem mem_sortedOnce {s : String} : s ∈ sortedOnce texts ↔ s ∈ texts := by
  rw [sortedOnce, mem_sorted, List.mem_eraseDups]

end Lightpath.Text
