import Lightpath.CrossConnect.Table
import Lightpath.Proofs.OrderedMap
import Lightpath.Proofs.CrossConnect.RuleKey
import Mathlib.Data.List.Induction

/-!
# Connections that stand

A history of demands on the memory of one device says by itself which connections stand at its end:
those whose last demand was to apply them. It also says since when a connection has stood without a
break. Main statement: a row of the table, changed demand by demand, lists the standing rules, each
once, in the order in which they came to stand (`remembers_row`).
-/

namespace Lightpath.CrossConnect

/-! ## Demands -/

/-- What is asked of the memory of one device. -/
inductive Demand where
  | apply (rule : Rule)
  | remove (rule : Rule)
  | forget

namespace Demand

/-- Whether a demand is about a connection. -/
def concerns : Demand → Connection → Prop
  | apply rule, c => rule.connection = c
  | remove rule, c => rule.connection = c
  | forget, _ => True

/-- Whether a demand ends a connection. -/
def ends : Demand → Connection → Prop
  | apply _, _ => False
  | remove rule, c => rule.connection = c
  | forget, _ => True

/-- What a demand makes of a row of the table. -/
def change (m : OrderedMap String Rule) : Demand → OrderedMap String Rule
  | apply rule => OrderedMap.put m rule.key rule
  | remove rule => OrderedMap.drop m rule.key
  | forget => []

theorem concerns_of_ends {d : Demand} {c : Connection} (h : d.ends c) : d.concerns c := by
  cases d with
  | apply rule => exact h.elim
  | remove rule => exact h
  | forget => trivial

end Demand

/-! ## Standing rules -/

/-- A rule stands at the end of a history: the last demand on its connection was to apply it. -/
def Stands (history : List Demand) (rule : Rule) : Prop :=
  ∃ before after, history = before ++ .apply rule :: after ∧
    ∀ d ∈ after, ¬d.concerns rule.connection

/-- A connection stands in some version. -/
def Held (history : List Demand) (c : Connection) : Prop :=
  ∃ rule, rule.connection = c ∧ Stands history rule

/-- A connection has stood since a demand: it did not stand before, that demand applied it, and
nothing has ended it after that. -/
def Since (history : List Demand) (c : Connection) (i : Nat) : Prop :=
  ∃ before rule after, history = before ++ .apply rule :: after ∧ before.length = i ∧
    rule.connection = c ∧ ¬Held before c ∧ ∀ d ∈ after, ¬d.ends c

/-- The last entry of a list that is split at some entry is that entry or stands behind it. -/
theorem append_singleton_eq_iff {α : Type} {l before after : List α} {a d : α} :
    l ++ [d] = before ++ a :: after ↔
      (after = [] ∧ d = a ∧ before = l) ∨
        ∃ rest, after = rest ++ [d] ∧ l = before ++ a :: rest := by
  rcases List.eq_nil_or_concat after with rfl | ⟨rest, x, rfl⟩
  · constructor
    · intro h
      obtain ⟨hl, hd⟩ := List.append_inj' h rfl
      exact Or.inl ⟨rfl, (List.cons.inj hd).1, hl.symm⟩
    · rintro (⟨-, rfl, rfl⟩ | ⟨rest, h, -⟩)
      · rfl
      · exact absurd h (by simp)
  · rw [List.concat_eq_append]
    constructor
    · intro h
      rw [← List.cons_append, ← List.append_assoc] at h
      obtain ⟨hl, hd⟩ := List.append_inj' h rfl
      exact Or.inr ⟨rest, by rw [(List.cons.inj hd).1], hl⟩
    · rintro (⟨h, -, -⟩ | ⟨rest', h, rfl⟩)
      · exact absurd h (by simp)
      · rw [h, List.append_assoc, List.cons_append]

/-- A rule stands after a demand that applies it, and after one that does not concern its connection if it
stood before. -/
theorem stands_append_singleton {history : List Demand} {d : Demand} {rule : Rule} :
    Stands (history ++ [d]) rule ↔
      d = .apply rule ∨ (¬d.concerns rule.connection ∧ Stands history rule) := by
  constructor
  · rintro ⟨before, after, h, hafter⟩
    rcases append_singleton_eq_iff.mp h with ⟨-, rfl, -⟩ | ⟨rest, rfl, hl⟩
    · exact Or.inl rfl
    · exact Or.inr ⟨hafter d (by simp), before, rest, hl, fun e he => hafter e (by simp [he])⟩
  · rintro (rfl | ⟨hd, before, after, rfl, hafter⟩)
    · exact ⟨history, [], rfl, by simp⟩
    · refine ⟨before, after ++ [d], by simp, fun e he => ?_⟩
      rcases List.mem_append.mp he with he | he
      · exact hafter e he
      · rw [List.mem_singleton.mp he]
        exact hd

/-- A connection is held after a demand that applies a rule of it, and after one that does not concern it if
it was held before. -/
theorem held_append_singleton {history : List Demand} {d : Demand} {c : Connection} :
    Held (history ++ [d]) c ↔
      (∃ rule, d = .apply rule ∧ rule.connection = c) ∨ (¬d.concerns c ∧ Held history c) := by
  constructor
  · rintro ⟨rule, rfl, h⟩
    rcases stands_append_singleton.mp h with h | ⟨hd, h⟩
    · exact Or.inl ⟨rule, h, rfl⟩
    · exact Or.inr ⟨hd, rule, rfl, h⟩
  · rintro (⟨rule, rfl, rfl⟩ | ⟨hd, rule, rfl, h⟩)
    · exact ⟨rule, rfl, stands_append_singleton.mpr (Or.inl rfl)⟩
    · exact ⟨rule, rfl, stands_append_singleton.mpr (Or.inr ⟨hd, h⟩)⟩

/-- A connection is held since the last demand if this one applies it anew. -/
theorem since_append_singleton {history : List Demand} {d : Demand} {c : Connection} {i : Nat} :
    Since (history ++ [d]) c i ↔
      (∃ rule, d = .apply rule ∧ rule.connection = c ∧ ¬Held history c ∧ i = history.length) ∨
        (¬d.ends c ∧ Since history c i) := by
  constructor
  · rintro ⟨before, rule, after, h, hi, hc, hbefore, hafter⟩
    rcases append_singleton_eq_iff.mp h with ⟨-, rfl, rfl⟩ | ⟨rest, rfl, hl⟩
    · exact Or.inl ⟨rule, rfl, hc, hbefore, hi.symm⟩
    · exact Or.inr ⟨hafter d (by simp), before, rule, rest, hl, hi, hc, hbefore,
        fun e he => hafter e (by simp [he])⟩
  · rintro (⟨rule, rfl, hc, hnot, rfl⟩ | ⟨hd, before, rule, after, rfl, hi, hc, hbefore, hafter⟩)
    · exact ⟨history, rule, [], rfl, rfl, hc, hnot, by simp⟩
    · refine ⟨before, rule, after ++ [d], by simp, hi, hc, hbefore, fun e he => ?_⟩
      rcases List.mem_append.mp he with he | he
      · exact hafter e he
      · rw [List.mem_singleton.mp he]
        exact hd

/-- A connection stands exactly when it has stood since some demand. -/
theorem held_iff_since {history : List Demand} {c : Connection} :
    Held history c ↔ ∃ i, Since history c i := by
  induction history using List.reverseRecOn with
  | nil =>
    constructor
    · rintro ⟨rule, -, before, after, h, -⟩
      exact absurd h.symm (by simp)
    · rintro ⟨i, before, rule, after, h, -⟩
      exact absurd h.symm (by simp)
  | append_singleton history d ih =>
    rw [held_append_singleton]
    constructor
    · rintro (⟨rule, rfl, hc⟩ | ⟨hd, h⟩)
      -- applied anew, a connection that is held keeps its place
      · by_cases h : Held history c
        · obtain ⟨i, hi⟩ := ih.mp h
          exact ⟨i, since_append_singleton.mpr (Or.inr ⟨id, hi⟩)⟩
        · exact ⟨_, since_append_singleton.mpr (Or.inl ⟨rule, rfl, hc, h, rfl⟩)⟩
      · obtain ⟨i, hi⟩ := ih.mp h
        exact ⟨i, since_append_singleton.mpr
          (Or.inr ⟨fun hends => hd (Demand.concerns_of_ends hends), hi⟩)⟩
    · rintro ⟨i, hi⟩
      rcases since_append_singleton.mp hi with ⟨rule, hd, hc, -, -⟩ | ⟨hends, hi⟩
      · exact Or.inl ⟨rule, hd, hc⟩
      · have h := ih.mpr ⟨i, hi⟩
        cases d with
        | apply rule =>
          by_cases hc : rule.connection = c
          · exact Or.inl ⟨rule, rfl, hc⟩
          · exact Or.inr ⟨hc, h⟩
        | remove rule => exact Or.inr ⟨hends, h⟩
        | forget => exact absurd trivial hends

/-- A connection has stood since one demand only. -/
theorem Since.unique {history : List Demand} {c : Connection} {i j : Nat} (hi : Since history c i)
    (hj : Since history c j) : i = j := by
  induction history using List.reverseRecOn with
  | nil =>
    obtain ⟨before, rule, after, h, -⟩ := hi
    exact absurd h.symm (by simp)
  | append_singleton history d ih =>
    rcases since_append_singleton.mp hi with ⟨-, -, -, hnot, rfl⟩ | ⟨-, hi⟩
    · rcases since_append_singleton.mp hj with ⟨-, -, -, -, rfl⟩ | ⟨-, hj⟩
      · rfl
      · exact absurd (held_iff_since.mpr ⟨j, hj⟩) hnot
    · rcases since_append_singleton.mp hj with ⟨-, -, -, hnot, rfl⟩ | ⟨-, hj⟩
      · exact absurd (held_iff_since.mpr ⟨i, hi⟩) hnot
      · exact ih hi hj

/-- A connection is held since a demand that was made. -/
theorem Since.lt_length {history : List Demand} {c : Connection} {i : Nat} (h : Since history c i) :
    i < history.length := by
  obtain ⟨before, rule, after, rfl, rfl, -⟩ := h
  simp

/-! ## Rows -/

/-- The connection `a` has stood for longer than `b`. -/
def Older (history : List Demand) (a b : Connection) : Prop :=
  ∀ i j, Since history a i → Since history b j → i < j

/-- A row remembers what stands after a history. -/
structure Remembers (history : List Demand) (m : OrderedMap String Rule) : Prop where
  keysOnce : (OrderedMap.keys m).Nodup
  keyed : ∀ p ∈ m, p.1 = p.2.key
  stands : ∀ rule, (rule.key, rule) ∈ m ↔ Stands history rule
  ordered : (m.map fun p => p.2.connection).Pairwise (Older history)

namespace Remembers

variable {history : List Demand} {m : OrderedMap String Rule}

/-- What is remembered under the key of a rule is this rule just when it stands. -/
theorem get?_eq_some_iff (h : Remembers history m) (rule : Rule) :
    OrderedMap.get? m rule.key = some rule ↔ Stands history rule := by
  rw [OrderedMap.get?_eq_some_iff_mem h.keysOnce, h.stands]

/-- Each connection that is remembered is held, -/
theorem held_of_mem (h : Remembers history m) {c : Connection}
    (hc : c ∈ m.map fun p => p.2.connection) : Held history c := by
  obtain ⟨p, hp, rfl⟩ := List.mem_map.mp hc
  refine ⟨p.2, rfl, (h.stands p.2).mp ?_⟩
  rw [← h.keyed p hp]
  exact hp

/-- and each one that is held is remembered. -/
theorem mem_of_held (h : Remembers history m) {rule : Rule} (hr : Held history rule.connection) :
    rule.key ∈ OrderedMap.keys m := by
  obtain ⟨other, hother, hs⟩ := hr
  have hmem := List.mem_map_of_mem (f := Prod.fst) ((h.stands other).mpr hs)
  rwa [(key_eq_iff_connection_eq other rule).mpr hother] at hmem

/-- What stands already has stood since the same demand after one more demand. -/
theorem since_of_since_append (h : Remembers history m) {d : Demand} {c : Connection} {i : Nat}
    (hc : c ∈ m.map fun p => p.2.connection) (hi : Since (history ++ [d]) c i) :
    Since history c i := by
  rcases since_append_singleton.mp hi with ⟨-, -, -, hnot, -⟩ | ⟨-, hi⟩
  · exact absurd (h.held_of_mem hc) hnot
  · exact hi

/-- The order of what stands already is kept. -/
theorem ordered_append (h : Remembers history m) (d : Demand) :
    (m.map fun p => p.2.connection).Pairwise (Older (history ++ [d])) :=
  h.ordered.imp_of_mem fun ha hb hab i j hi hj =>
    hab i j (h.since_of_since_append ha hi) (h.since_of_since_append hb hj)

/-- The connections of a row do not change where a rule takes the place of another version of
itself. -/
theorem map_connection_put (h : Remembers history m) {rule : Rule}
    (hk : rule.key ∈ OrderedMap.keys m) :
    ((OrderedMap.put m rule.key rule).map fun p => p.2.connection)
      = m.map fun p => p.2.connection := by
  rw [OrderedMap.put_of_mem h.keysOnce hk, List.map_map]
  refine List.map_congr_left fun p hp => ?_
  show (if p.1 = rule.key then (rule.key, rule) else p).2.connection = p.2.connection
  by_cases hkey : p.1 = rule.key
  · rw [if_pos hkey]
    rw [h.keyed p hp] at hkey
    exact ((key_eq_iff_connection_eq p.2 rule).mp hkey).symm
  · rw [if_neg hkey]

/-- A rule that is applied stands in its new version, in its old place if it stood before. -/
theorem change_apply (h : Remembers history m) (rule : Rule) :
    Remembers (history ++ [.apply rule]) (OrderedMap.put m rule.key rule) where
  keysOnce := OrderedMap.keys_nodup_put h.keysOnce _ _
  keyed := by
    intro p hp
    by_cases hk : rule.key ∈ OrderedMap.keys m
    · rw [OrderedMap.put_of_mem h.keysOnce hk] at hp
      obtain ⟨q, hq, rfl⟩ := List.mem_map.mp hp
      split
      · rfl
      · exact h.keyed q hq
    · rw [OrderedMap.put_of_notMem hk] at hp
      rcases List.mem_append.mp hp with hp | hp
      · exact h.keyed p hp
      · rw [List.mem_singleton.mp hp]
  stands := by
    intro other
    rw [← OrderedMap.get?_eq_some_iff_mem (OrderedMap.keys_nodup_put h.keysOnce _ _),
      stands_append_singleton]
    by_cases hkey : rule.key = other.key
    · rw [← hkey, OrderedMap.get?_put_self]
      have hc : rule.connection = other.connection := (key_eq_iff_connection_eq _ _).mp hkey
      constructor
      · intro he
        exact Or.inl (by rw [Option.some.inj he])
      · rintro (he | ⟨hnot, -⟩)
        · rw [Demand.apply.inj he]
        · exact absurd hc hnot
    · rw [OrderedMap.get?_put_of_ne _ _ hkey, h.get?_eq_some_iff]
      have hc : rule.connection ≠ other.connection := fun hc =>
        hkey ((key_eq_iff_connection_eq _ _).mpr hc)
      constructor
      · intro hs
        exact Or.inr ⟨hc, hs⟩
      · rintro (he | ⟨-, hs⟩)
        · exact absurd (by rw [Demand.apply.inj he]) hc
        · exact hs
  ordered := by
    by_cases hk : rule.key ∈ OrderedMap.keys m
    · rw [h.map_connection_put hk]
      exact h.ordered_append _
    · rw [OrderedMap.put_of_notMem hk, List.map_append, List.pairwise_append]
      refine ⟨h.ordered_append _, List.pairwise_singleton _ _, fun a ha b hb i j hi hj => ?_⟩
      -- what is new has stood since the last demand only
      rw [List.mem_singleton.mp hb] at hj
      rcases since_append_singleton.mp hj with ⟨-, -, -, -, rfl⟩ | ⟨-, hj⟩
      · exact (h.since_of_since_append ha hi).lt_length
      · exact absurd (h.mem_of_held (held_iff_since.mpr ⟨j, hj⟩)) hk

/-- A connection that is removed does not stand; all others do as before. -/
theorem change_remove (h : Remembers history m) (rule : Rule) :
    Remembers (history ++ [.remove rule]) (OrderedMap.drop m rule.key) where
  keysOnce := OrderedMap.keys_nodup_drop h.keysOnce _
  keyed := by
    intro p hp
    rw [OrderedMap.drop_eq_filter h.keysOnce] at hp
    exact h.keyed p (List.mem_filter.mp hp).1
  stands := by
    intro other
    rw [← OrderedMap.get?_eq_some_iff_mem (OrderedMap.keys_nodup_drop h.keysOnce _),
      stands_append_singleton]
    by_cases hkey : rule.key = other.key
    · rw [← hkey, OrderedMap.get?_drop_self h.keysOnce]
      have hc : rule.connection = other.connection := (key_eq_iff_connection_eq _ _).mp hkey
      constructor
      · exact fun he => absurd he (by simp)
      · rintro (he | ⟨hnot, -⟩)
        · exact absurd he (by simp)
        · exact absurd hc hnot
    · rw [OrderedMap.get?_drop_of_ne _ hkey, h.get?_eq_some_iff]
      have hc : rule.connection ≠ other.connection := fun hc =>
        hkey ((key_eq_iff_connection_eq _ _).mpr hc)
      constructor
      · intro hs
        exact Or.inr ⟨hc, hs⟩
      · rintro (he | ⟨-, hs⟩)
        · exact absurd he (by simp)
        · exact hs
  ordered := by
    rw [OrderedMap.drop_eq_filter h.keysOnce]
    exact (h.ordered_append _).sublist (List.filter_sublist.map _)

/-- Nothing stands once everything is forgotten. -/
theorem change_forget (history : List Demand) : Remembers (history ++ [.forget]) [] where
  keysOnce := List.nodup_nil
  keyed := by simp
  stands := by
    intro rule
    rw [stands_append_singleton]
    constructor
    · exact fun h => absurd h List.not_mem_nil
    · rintro (he | ⟨hnot, -⟩)
      · exact absurd he (by simp)
      · exact absurd trivial hnot
  ordered := List.Pairwise.nil

end Remembers

/-! ## Listings -/

/-- A list of rules tells what stands after a history: each standing rule in its last version and
once, in the order in which the connections came to stand. -/
structure Lists (history : List Demand) (rules : List Rule) : Prop where
  stands : ∀ rule, rule ∈ rules ↔ Stands history rule
  once : (rules.map Rule.connection).Nodup
  since : ∀ rule ∈ rules, ∃ i, Since history rule.connection i
  ordered : (rules.map Rule.connection).Pairwise (Older history)

/-- The rules of a row tell what stands if the row remembers it. -/
theorem Remembers.lists {history : List Demand} {m : OrderedMap String Rule}
    (h : Remembers history m) :
    Lists history (OrderedMap.values m) where
  stands := by
    intro rule
    rw [← h.stands rule]
    constructor
    · intro hr
      obtain ⟨p, hp, rfl⟩ := List.mem_map.mp hr
      rw [← h.keyed p hp]
      exact hp
    · intro hr
      exact List.mem_map_of_mem (f := Prod.snd) hr
  once := by
    -- two rules of one connection would stand under one key
    have hkeys : (OrderedMap.values m).map Rule.key = OrderedMap.keys m := by
      rw [OrderedMap.values, List.map_map]
      exact List.map_congr_left fun p hp => (h.keyed p hp).symm
    have honce := h.keysOnce
    rw [← hkeys] at honce
    rw [List.Nodup, List.pairwise_map] at honce ⊢
    exact honce.imp fun hne hc => hne ((key_eq_iff_connection_eq _ _).mpr hc)
  since := by
    intro rule hr
    obtain ⟨p, hp, rfl⟩ := List.mem_map.mp hr
    exact held_iff_since.mp (h.held_of_mem (List.mem_map_of_mem (f := fun p => p.2.connection) hp))
  ordered := by
    rw [OrderedMap.values, List.map_map]
    exact h.ordered

/-- **A row that is changed demand by demand remembers what stands.** -/
theorem remembers_row (history : List Demand) :
    Remembers history (history.foldl Demand.change []) := by
  induction history using List.reverseRecOn with
  | nil =>
    refine ⟨List.nodup_nil, by simp, fun rule => ?_, List.Pairwise.nil⟩
    constructor
    · exact fun h => absurd h List.not_mem_nil
    · rintro ⟨before, after, h, -⟩
      exact absurd h.symm (by simp)
  | append_singleton history d ih =>
    rw [List.foldl_append]
    cases d with
    | apply rule => exact ih.change_apply rule
    | remove rule => exact ih.change_remove rule
    | forget => exact Remembers.change_forget history

end Lightpath.CrossConnect
