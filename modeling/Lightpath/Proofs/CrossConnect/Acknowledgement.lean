import Lightpath.Proofs.CrossConnect.DropListed
import Lightpath.Proofs.CrossConnect.Placement

/-!
# What a change to some rules tells

Whoever applies or removes rules is told one of three things: nothing, which means that the device
could not be read or did not take the edit; no rules, which means that none of them has a channel; or
the rules that the device has taken. Main statement: `agrees_apply_and_remove`, at every site.
-/

namespace Lightpath.CrossConnect.Reconciler

open Lightpath.Site

variable {r : Reconciler} {s : State} {device operation : String} {plan : List Channel}
  {change : Rule → Change} {rules : List Rule} {out : Option (List Rule)} {es : List Event}

/-! ## What can be told of a device -/

/-- A device has a session in which a plan can be read. -/
def HasPlan (r : Reconciler) (s : State) (device : String) (plan : List Channel) : Prop :=
  ∃ d, Serves s device d 1 ∧ r.planIn d = some plan

/-- An edit was sent to a device. -/
def Edited (device operation : String) (es : List Event) : Prop :=
  ∃ config, .edit device operation config ∈ es

/-- An edit was sent to a device and taken. -/
def Acknowledged (s : State) (device operation : String) (es : List Event) : Prop :=
  Edited device operation es ∧ ∃ d, Serves s device d 1 ∧ d.takes = true

/-- A device has one plan. -/
theorem HasPlan.unique {other : List Channel} (h : r.HasPlan s device plan)
    (k : r.HasPlan s device other) : plan = other := by
  obtain ⟨d, hd, hplan⟩ := h
  obtain ⟨e, he, hother⟩ := k
  have hsame : r.planIn d = r.planIn e := planIn_congr (hd.answers_eq he)
  exact Option.some.inj (by rw [← hplan, hsame, hother])

/-- A device without a session has no plan, -/
theorem not_hasPlan_of_lost (h : Lost s device) : ¬ r.HasPlan s device plan := by
  rintro ⟨d, hd, -⟩
  exact h d hd

/-- and neither has one whose reply holds none. -/
theorem not_hasPlan_of_planIn_eq_none {d : Device} (h : Serves s device d 1)
    (hnone : r.planIn d = none) : ¬ r.HasPlan s device plan := by
  rintro ⟨e, he, hplan⟩
  have hsame : r.planIn d = r.planIn e := planIn_congr (h.answers_eq he)
  exact absurd (hnone.symm.trans (hsame.trans hplan)) (by simp)

/-- An edit is acknowledged if it is sent and the device takes edits. -/
theorem acknowledged_iff_takes {d : Device} {n : Nat} (h : Serves s device d (n + 1)) :
    Acknowledged s device operation es ↔ Edited device operation es ∧ d.takes = true := by
  constructor
  · rintro ⟨hedited, e, he, htakes⟩
    have hsame : d.answers = e.answers := h.answers_eq he
    exact ⟨hedited, by rw [← Device.takes_answers, hsame, Device.takes_answers, htakes]⟩
  · rintro ⟨hedited, htakes⟩
    exact ⟨hedited, d, h.mono (Nat.le_add_left 1 n), htakes⟩

/-! ## Agreement -/

/-- **What is told of a change to some rules agrees with what the device was sent.** -/
structure Agrees (r : Reconciler) (device operation : String) (change : Rule → Change)
    (rules : List Rule) (s : State) (out : Option (List Rule)) (es : List Event) : Prop where
  /-- The device is read at most once and is sent at most one edit, in this order. -/
  sent : ∃ config, es <+: [.read device r.filter, .edit device operation config]
  /-- An edit is tried just when the plan was read, a rule has a channel and there still is a
  session. -/
  edited_iff : Edited device operation es ↔
    ∃ plan d, r.HasPlan s device plan ∧ owned plan rules ≠ [] ∧ Serves s device d 2
  /-- An edit is the one for the rules that have a channel. -/
  edit_eq : ∀ config, .edit device operation config ∈ es → ∃ plan, r.HasPlan s device plan ∧
    config = (editOf change (placed plan rules)).render r.dataSpace
  /-- Nothing is told of a device without a plan, and it is not edited. -/
  unread : (∀ plan, ¬ r.HasPlan s device plan) → out = none ∧ ¬ Edited device operation es
  /-- No rules are told just when the plan was read and no rule has a channel. -/
  empty_iff : out = some [] ↔ ∃ plan, r.HasPlan s device plan ∧ owned plan rules = []
  empty_silent : out = some [] → ¬ Edited device operation es
  /-- Some rules are told just when the device took an edit. -/
  changed_iff : (∃ changed, out = some changed ∧ changed ≠ []) ↔
    Acknowledged s device operation es
  /-- The rules that are told are those that have a channel, in their order. -/
  changed_eq : ∀ changed, out = some changed →
    ∃ plan, r.HasPlan s device plan ∧ changed = owned plan rules
  /-- Nothing is told of rules with a channel that the device did not take. -/
  refused : ∀ plan, r.HasPlan s device plan → owned plan rules ≠ [] →
    ¬ Acknowledged s device operation es → out = none

/-- A device that is only read is not edited. -/
theorem not_edited_read : ¬ Edited device operation [.read device r.filter] := by
  rintro ⟨config, hmem⟩
  exact absurd (List.mem_singleton.mp hmem) (by simp)

theorem not_edited_nil : ¬ Edited device operation [] := by
  rintro ⟨config, hmem⟩
  exact absurd hmem (by simp)

/-- A change to the rules of a device without a plan tells nothing. -/
theorem agrees_of_not_hasPlan (hno : ∀ plan, ¬ r.HasPlan s device plan)
    (hsent : es <+: [.read device r.filter]) (hedited : ¬ Edited device operation es) :
    r.Agrees device operation change rules s none es where
  sent := ⟨"", hsent.trans (List.prefix_append _ _)⟩
  edited_iff := by
    refine ⟨fun h => absurd h hedited, ?_⟩
    rintro ⟨plan, d, hplan, -⟩
    exact absurd hplan (hno plan)
  edit_eq := fun config hmem => absurd ⟨config, hmem⟩ hedited
  unread := fun _ => ⟨rfl, hedited⟩
  empty_iff := by
    refine ⟨by simp, ?_⟩
    rintro ⟨plan, hplan, -⟩
    exact absurd hplan (hno plan)
  empty_silent := by simp
  changed_iff := ⟨by simp, fun h => absurd h.1 hedited⟩
  changed_eq := by simp
  refused := fun plan hplan => absurd hplan (hno plan)

/-- A change to the rules of a device with a plan tells whether the device took the edit, if there
is something to edit. -/
theorem agrees_of_hasPlan (hplan : r.HasPlan s device plan)
    (hsent : ∃ config, es <+: [.read device r.filter, .edit device operation config])
    (hedited : Edited device operation es ↔ owned plan rules ≠ [] ∧ ∃ d, Serves s device d 2)
    (htext : ∀ config, .edit device operation config ∈ es →
      config = (editOf change (placed plan rules)).render r.dataSpace)
    (hempty : owned plan rules = [] → out = some [])
    (htaken : Acknowledged s device operation es → out = some (owned plan rules))
    (hrefused : owned plan rules ≠ [] → ¬ Acknowledged s device operation es → out = none) :
    r.Agrees device operation change rules s out es := by
  have hcases : (owned plan rules = [] ∧ out = some []) ∨
      (owned plan rules ≠ [] ∧ Acknowledged s device operation es ∧
        out = some (owned plan rules)) ∨
      (owned plan rules ≠ [] ∧ ¬ Acknowledged s device operation es ∧ out = none) := by
    by_cases howned : owned plan rules = []
    · exact Or.inl ⟨howned, hempty howned⟩
    · by_cases hack : Acknowledged s device operation es
      · exact Or.inr (Or.inl ⟨howned, hack, htaken hack⟩)
      · exact Or.inr (Or.inr ⟨howned, hack, hrefused howned hack⟩)
  have hone {p : List Channel → Prop} : (∃ other, r.HasPlan s device other ∧ p other) ↔ p plan := by
    refine ⟨?_, fun h => ⟨plan, hplan, h⟩⟩
    rintro ⟨other, hother, h⟩
    rwa [hplan.unique hother]
  refine
    { sent := hsent
      edited_iff := ?_
      edit_eq := fun config hmem => ⟨plan, hplan, htext config hmem⟩
      unread := fun hno => absurd hplan (hno plan)
      empty_iff := ?_
      empty_silent := ?_
      changed_iff := ?_
      changed_eq := ?_
      refused := ?_ }
  · rw [hedited, ← hone (p := fun other => owned other rules ≠ [] ∧ ∃ d, Serves s device d 2)]
    simp only [exists_and_left]
  · rw [hone (p := fun other => owned other rules = [])]
    obtain ⟨howned, rfl⟩ | ⟨howned, -, rfl⟩ | ⟨howned, -, rfl⟩ := hcases
    · simp [howned]
    · simp [howned]
    · simp [howned]
  · intro hout
    obtain ⟨howned, -⟩ | ⟨howned, -, rfl⟩ | ⟨-, -, rfl⟩ := hcases
    · exact fun h => (hedited.mp h).1 howned
    · exact absurd (Option.some.inj hout) howned
    · exact absurd hout (by simp)
  · obtain ⟨howned, rfl⟩ | ⟨howned, hack, rfl⟩ | ⟨-, hack, rfl⟩ := hcases
    · have hack : ¬ Acknowledged s device operation es := fun h => (hedited.mp h.1).1 howned
      simp [hack]
    · exact ⟨fun _ => hack, fun _ => ⟨_, rfl, howned⟩⟩
    · simp [hack]
  · intro changed hchanged
    refine ⟨plan, hplan, ?_⟩
    obtain ⟨howned, rfl⟩ | ⟨-, -, rfl⟩ | ⟨-, -, rfl⟩ := hcases
    · rw [howned, ← Option.some.inj hchanged]
    · exact (Option.some.inj hchanged).symm
    · exact absurd hchanged (by simp)
  · intro other hother howned hack
    rw [← hplan.unique hother] at howned
    exact hrefused howned hack

/-- **However a change to some rules goes, what is told of it agrees with what was sent.** -/
theorem Course.agrees (h : r.Course device operation change rules s out es) :
    r.Agrees device operation change rules s out es := by
  cases h with
  | lost hlost => exact agrees_of_not_hasPlan (fun _ => not_hasPlan_of_lost hlost) (by simp) not_edited_nil
  | unread hserves hnone =>
    exact agrees_of_not_hasPlan (fun _ => not_hasPlan_of_planIn_eq_none hserves hnone)
      (List.prefix_refl _) not_edited_read
  | @unplaced d plan hserves hplan hplaced =>
    have howned : owned plan rules = [] := placed_eq_nil_iff.mp hplaced
    refine agrees_of_hasPlan ⟨d, hserves, hplan⟩ ⟨"", List.prefix_append _ _⟩
      ⟨fun h => absurd h not_edited_read, fun h => absurd howned h.1⟩
      (fun config hmem => absurd ⟨config, hmem⟩ not_edited_read) (fun _ => rfl)
      (fun h => absurd h.1 not_edited_read) (fun h => absurd howned h)
  | @broken d plan hserves hplan hplaced hlost =>
    have howned : owned plan rules ≠ [] := mt placed_eq_nil_iff.mpr hplaced
    refine agrees_of_hasPlan ⟨d, hserves, hplan⟩ ⟨"", List.prefix_append _ _⟩
      ⟨fun h => absurd h not_edited_read, fun ⟨_, e, he⟩ => absurd he (hlost e)⟩
      (fun config hmem => absurd ⟨config, hmem⟩ not_edited_read) (fun h => absurd h howned)
      (fun h => absurd h.1 not_edited_read) (fun _ _ => rfl)
  | @edited d plan hserves hplan hplaced =>
    have howned : owned plan rules ≠ [] := mt placed_eq_nil_iff.mpr hplaced
    have hedited : Edited device operation [.read device r.filter,
        .edit device operation ((editOf change (placed plan rules)).render r.dataSpace)] :=
      ⟨_, List.mem_cons_of_mem _ List.mem_cons_self⟩
    refine agrees_of_hasPlan ⟨d, hserves.mono (by omega), hplan⟩ ⟨_, List.prefix_refl _⟩
      ⟨fun _ => ⟨howned, d, hserves⟩, fun _ => hedited⟩ (fun config hmem => ?_)
      (fun h => absurd h howned) (fun hack => ?_) (fun _ hack => ?_)
    · simpa using hmem
    · rw [if_pos ((acknowledged_iff_takes hserves).mp hack).2, map_fst_placed]
    · have htakes : ¬ d.takes = true :=
        fun h => hack ((acknowledged_iff_takes hserves).mpr ⟨hedited, h⟩)
      rw [if_neg htakes]

/-! ## Applying and removing -/

variable {given : Option DeviceType} {type : DeviceType}

/-- **Applying and removing rules tell the truth about the device.** At every site, whatever the
device answers or fails to answer, a change to the rules of a device that switches does not fail and
leaves the connection table alone, and what it tells agrees with the messages that it sends. -/
theorem agrees_apply_and_remove (ht : r.typeOf device given = .ok type)
    (hf : type.isFullBand = false) (rules : List Rule) (s : State) :
    (∃ out t es, Act.exec (r.apply device rules given) s = (.ok out, t) ∧ Sends es s t ∧
      t.table = s.table ∧ r.Agrees device "merge" (r.creation type) rules s out es) ∧
    ∃ out t es, Act.exec (r.remove device rules given) s = (.ok out, t) ∧ Sends es s t ∧
      t.table = s.table ∧ r.Agrees device "none" r.withdrawal rules s out es := by
  constructor
  · obtain ⟨out, t, es, hrun, hst, hcourse⟩ := exec_reconcile_course
      (onlyLogs_tellCreation r device) device "merge" (r.creation type) rules s
    exact ⟨out, t, es, by rw [exec_apply ht hf, hrun], hst, hst.table, hcourse.agrees⟩
  · obtain ⟨out, t, es, hrun, hst, hcourse⟩ := exec_reconcile_course
      (onlyLogs_tellWithdrawal r device) device "none" r.withdrawal rules s
    exact ⟨out, t, es, by rw [exec_remove ht hf, hrun], hst, hst.table, hcourse.agrees⟩

/-- A site at which the session of a line degree is gone after the first look-up. -/
def brokenSite : State :=
  .ofDevices [("r", { willing edgeReply with uses := some 1 })]

/-- A rule that the upper channel of the line degree owns. -/
def upperRule : Rule :=
  ⟨"r", 3, 100, ⟨.flex, .ghz6p25, 0, 4⟩, none⟩

/-- A session that is gone before the edit is accounted for. -/
theorem agrees_apply_and_remove_broken :
    (∃ out t es, Act.exec (lineReconciler.apply "r" [upperRule] none) brokenSite = (.ok out, t) ∧
      Sends es brokenSite t ∧ t.table = brokenSite.table ∧
      lineReconciler.Agrees "r" "merge" (lineReconciler.creation .lineDegree) [upperRule] brokenSite
        out es) ∧
    ∃ out t es, Act.exec (lineReconciler.remove "r" [upperRule] none) brokenSite = (.ok out, t) ∧
      Sends es brokenSite t ∧ t.table = brokenSite.table ∧
      lineReconciler.Agrees "r" "none" lineReconciler.withdrawal [upperRule] brokenSite out es :=
  agrees_apply_and_remove (r := lineReconciler) rfl rfl [upperRule] brokenSite

end Lightpath.CrossConnect.Reconciler
