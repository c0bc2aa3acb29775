import Lightpath.Form.Record

/-!
# What a check accepts

Checks put side by side accept a value when each of them accepts its part, and a field accepts what its own
check does.
-/

namespace Lightpath.Form

variable {α β : Type}

namespace Checked

theorem map_eq_ok_iff {f : α → β} {c : Checked α} {b : β} :
    f <$> c = .ok b ↔ ∃ a, c = .ok a ∧ f a = b := by
  cases c with
  | bad is =>
    refine iff_of_false (fun h => ?_) ?_
    · exact absurd h (by simp [Functor.map, map])
    · rintro ⟨a, h, -⟩
      exact absurd h (by simp)
  | ok a =>
    constructor
    · intro h
      exact ⟨a, rfl, Checked.ok.inj h⟩
    · rintro ⟨a', h, rfl⟩
      rw [Checked.ok.inj h]
      rfl

/-- Two checks side by side accept when both do. -/
theorem seq_eq_ok_iff {f : Checked (α → β)} {c : Checked α} {b : β} :
    f <*> c = .ok b ↔ ∃ g, f = .ok g ∧ ∃ a, c = .ok a ∧ g a = b := by
  cases f with
  | bad is =>
    refine iff_of_false (fun h => ?_) ?_
    · cases c <;> exact absurd h (by simp [Seq.seq, both])
    · rintro ⟨g, h, -⟩
      exact absurd h (by simp)
  | ok g =>
    simp only [Checked.ok.injEq, exists_eq_left', ← map_eq_ok_iff]
    cases c with
    | bad is => exact Iff.rfl
    | ok a => exact Iff.rfl

theorem under_eq_ok_iff {step : Step} {c : Checked α} {a : α} : c.under step = .ok a ↔ c = .ok a := by
  cases c with
  | bad is => simp [under]
  | ok a' => exact Iff.rfl

/-- A rule accepts what keeps it. -/
theorem ensure_eq_ok_iff {p : α → Bool} {fault : Fault} {c : Checked α} {a : α} :
    c.ensure p fault = .ok a ↔ c = .ok a ∧ p a = true := by
  cases c with
  | bad is => simp [ensure, andThen]
  | ok a' =>
    rw [ensure, andThen]
    by_cases h : p a' = true
    · rw [if_pos h, Checked.ok.injEq]
      constructor
      · rintro rfl
        exact ⟨rfl, h⟩
      · exact And.left
    · rw [if_neg h, Checked.ok.injEq]
      refine iff_of_false (by simp [fail]) ?_
      rintro ⟨rfl, hp⟩
      exact h hp

end Checked

theorem record_eq_ok_iff {check : Fields → Checked α} {v : Json} {a : α} :
    record check v = .ok a ↔ ∃ fields, v = .obj fields ∧ check fields = .ok a := by
  cases v with
  | obj fields => simp [record]
  | _ => simp [record, Checked.fail]

/-- A field that has to be there is accepted when its value is. -/
theorem Fields.required_eq_ok_iff {fields : Fields} {name : String} {check : Check α} {a : α} :
    fields.required name check = .ok a ↔ ∃ v, OrderedMap.get? fields name = some v ∧ check v = .ok a := by
  have hfind : fields.find name name = OrderedMap.get? fields name := by
    rw [find]
    cases OrderedMap.get? fields name <;> rfl
  rw [required, requiredAs, hfind]
  cases OrderedMap.get? fields name with
  | none => simp [Checked.fail, Checked.under]
  | some v => simp only [Checked.under_eq_ok_iff, Option.some.injEq, exists_eq_left']

theorem Fields.required_ensure_eq_ok_iff {fields : Fields} {name : String} {check : Check α}
    {p : α → Bool} {fault : Fault} {a : α} :
    fields.required name (fun v => (check v).ensure p fault) = .ok a
      ↔ fields.required name check = .ok a ∧ p a = true := by
  simp only [required_eq_ok_iff, Checked.ensure_eq_ok_iff, ← and_assoc, exists_and_right]

end Lightpath.Form
