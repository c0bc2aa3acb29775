import Lightpath.Proofs.CrossConnect.FullBand

/-!
# The table as one map

The table keeps a row of rules for each device. What it stands for is one map from pairs of a device and a
key to rules, in which each pair also knows since which operation it has been there. Main statement: after
any operations on an empty table no row is empty, the rules of a device are those of its pairs, oldest pair
first, and the size counts the pairs (`after_refines_memory`).
-/

namespace Lightpath.CrossConnect.Table

open Lightpath.Site

/-! ## Operations -/

/-- What is asked of the table. -/
inductive Operation where
  | add (device key : String) (rule : Rule)
  | remove (device key : String)
  | get (device : String)
  | clear (device : String)
  | size

/-- Forgets a rule and tells whether there was one to forget. -/
def removal (t : Table) (device key : String) : Bool × Table :=
  (t.has device key, t.remove device key)

/-- What an operation makes of the table. -/
def Operation.change (t : Table) : Operation → Table
  | add device key rule => t.add device key rule
  | remove device key => (t.removal device key).2
  | clear device => t.clear device
  | get _ => t
  | size => t

/-- The table after some operations on an empty one. -/
def after (operations : List Operation) : Table :=
  operations.foldl Operation.change []

theorem after_append_singleton (operations : List Operation) (o : Operation) :
    after (operations ++ [o]) = o.change (after operations) := by
  rw [after, List.foldl_append]
  rfl

/-! ## The map -/

/-- A map from pairs of a device and a key: since when there is a rule, and which one. -/
abbrev Memory := String × String → Option (Nat × Rule)

/-- What the operation of a number makes of the map. A pair that is there takes the new rule and has been
there for as long as before. -/
def Memory.change (m : Memory) (n : Nat) : Operation → Memory
  | .add device key rule, p =>
    if p = (device, key) then some (((m p).map Prod.fst).getD n, rule) else m p
  | .remove device key, p => if p = (device, key) then none else m p
  | .clear device, p => if p.1 = device then none else m p
  | .get _, p => m p
  | .size, p => m p

/-- The map after some operations, which are numbered from zero. -/
def memory (operations : List Operation) : Memory :=
  operations.zipIdx.foldl (fun m o => m.change o.2 o.1) fun _ => none

/-- The last operation changes what is remembered of those before. -/
theorem memory_append_singleton (operations : List Operation) (o : Operation) :
    memory (operations ++ [o]) = (memory operations).change operations.length o := by
  rw [memory, List.zipIdx_append, List.foldl_append, ← memory]
  simp

namespace Memory

variable {m : Memory} {n i j : Nat} {o : Operation} {p : String × String} {r r' : Rule}
  {device a b : String}

/-- An operation takes a pair out, leaves it alone, or gives it a rule. -/
theorem change_cases (m : Memory) (n : Nat) (o : Operation) (p : String × String) :
    m.change n o p = none ∨ m.change n o p = m p ∨
      ∃ r, m.change n o p = some (((m p).map Prod.fst).getD n, r) := by
  cases o with
  | add device key rule =>
    by_cases hp : p = (device, key)
    · exact Or.inr (Or.inr ⟨rule, if_pos hp⟩)
    · exact Or.inr (Or.inl (if_neg hp))
  | remove device key =>
    by_cases hp : p = (device, key)
    · exact Or.inl (if_pos hp)
    · exact Or.inr (Or.inl (if_neg hp))
  | clear device =>
    by_cases hp : p.1 = device
    · exact Or.inl (if_pos hp)
    · exact Or.inr (Or.inl (if_neg hp))
  | get device => exact Or.inr (Or.inl rfl)
  | size => exact Or.inr (Or.inl rfl)

/-- A pair that stays has been there for as long as before. -/
theorem since_change (h : m p = some (i, r)) (h' : m.change n o p = some (j, r')) : i = j := by
  rcases change_cases m n o p with hnone | hsame | ⟨rule, hnew⟩
  · rw [hnone] at h'
    exact absurd h' (by simp)
  · rw [hsame, h] at h'
    exact (Prod.mk.inj (Option.some.inj h')).1
  · rw [hnew, h] at h'
    exact (Prod.mk.inj (Option.some.inj h')).1

/-- The map after some operations knows of no later ones. -/
def Within (m : Memory) (n : Nat) : Prop :=
  ∀ p i r, m p = some (i, r) → i < n

/-- What an operation remembers has happened by then. -/
theorem Within.change (h : m.Within n) (o : Operation) : (m.change n o).Within (n + 1) := by
  intro p i r hp
  rcases change_cases m n o p with hnone | hsame | ⟨rule, hnew⟩
  · rw [hnone] at hp
    exact absurd hp (by simp)
  · rw [hsame] at hp
    exact Nat.lt_succ_of_lt (h p i r hp)
  · rw [hnew] at hp
    obtain ⟨rfl, -⟩ := Prod.mk.inj (Option.some.inj hp)
    cases hold : m p with
    | none => exact Nat.lt_succ_self n
    | some v => exact Nat.lt_succ_of_lt (h p v.1 v.2 hold)

/-- Of two keys of a device the first one has been there for longer. -/
def Older (m : Memory) (device a b : String) : Prop :=
  ∀ i r j r', m (device, a) = some (i, r) → m (device, b) = some (j, r') → i < j

/-- Keys that are there keep their order. -/
theorem Older.change (h : m.Older device a b) (ha : (m (device, a)).isSome)
    (hb : (m (device, b)).isSome) : (m.change n o).Older device a b := by
  intro i r j r' hi hj
  obtain ⟨⟨i', q⟩, hi'⟩ := Option.isSome_iff_exists.mp ha
  obtain ⟨⟨j', q'⟩, hj'⟩ := Option.isSome_iff_exists.mp hb
  rw [← since_change hi' hi, ← since_change hj' hj]
  exact h i' q j' q' hi' hj'

/-- The rules of a device are those of its pairs, oldest pair first. -/
def Lists (m : Memory) (device : String) (rules : List Rule) : Prop :=
  ∃ entries : List (Nat × String × Rule), entries.map (fun e => e.2.2) = rules ∧
    (∀ i key rule, (i, key, rule) ∈ entries ↔ m (device, key) = some (i, rule)) ∧
    entries.Pairwise fun d e => d.1 < e.1

end Memory

/-! ## Rows -/

/-- **A table reflects a map** after a number of operations. -/
structure Reflects (t : Table) (m : Memory) (n : Nat) : Prop where
  devicesOnce : (OrderedMap.keys t).Nodup
  filled : ∀ row ∈ t, row.2 ≠ []
  keysOnce : ∀ device, (OrderedMap.keys (t.row device)).Nodup
  holds : ∀ device key, OrderedMap.get? (t.row device) key = (m (device, key)).map Prod.snd
  ordered : ∀ device, (OrderedMap.keys (t.row device)).Pairwise (m.Older device)
  within : m.Within n

namespace Reflects

variable {t : Table} {m : Memory} {n : Nat} {device key : String}

/-- A key is in the row of a device if its rule is remembered. -/
theorem mem_keys_iff (h : Reflects t m n) :
    key ∈ OrderedMap.keys (t.row device) ↔ (m (device, key)).isSome := by
  rw [OrderedMap.mem_keys_iff, h.holds, Option.isSome_map]

/-- Keys that were there keep their order. -/
theorem ordered_change (h : Reflects t m n) (o : Operation) (device : String) :
    (OrderedMap.keys (t.row device)).Pairwise ((m.change n o).Older device) :=
  (h.ordered device).imp_of_mem fun ha hb hab =>
    hab.change (h.mem_keys_iff.mp ha) (h.mem_keys_iff.mp hb)

/-- An operation that is about one device keeps table and map together if it does so in the row of this
device. -/
theorem of_row (h : Reflects t m n) {u : Table} {row : OrderedMap String Rule} {o : Operation}
    (hdevices : (OrderedMap.keys u).Nodup) (hfilled : ∀ row ∈ u, row.2 ≠ [])
    (hself : u.row device = row) (hother : ∀ other, device ≠ other → u.row other = t.row other)
    (hsame : ∀ p : String × String, device ≠ p.1 → m.change n o p = m p)
    (hkeys : (OrderedMap.keys row).Nodup)
    (hholds : ∀ key, OrderedMap.get? row key = (m.change n o (device, key)).map Prod.snd)
    (hordered : (OrderedMap.keys row).Pairwise ((m.change n o).Older device)) :
    Reflects u (m.change n o) (n + 1) where
  devicesOnce := hdevices
  filled := hfilled
  keysOnce := by
    intro other
    by_cases hd : device = other
    · rw [← hd, hself]
      exact hkeys
    · rw [hother other hd]
      exact h.keysOnce other
  holds := by
    intro other key
    by_cases hd : device = other
    · rw [← hd, hself]
      exact hholds key
    · rw [hother other hd, h.holds, hsame (other, key) hd]
  ordered := by
    intro other
    by_cases hd : device = other
    · rw [← hd, hself]
      exact hordered
    · rw [hother other hd]
      exact h.ordered_change o other
  within := h.within.change o

/-- A new key stands behind all others of its device. -/
theorem older_of_new (h : Reflects t m n) (rule : Rule) (hnew : key ∉ OrderedMap.keys (t.row device))
    {a : String} (ha : a ∈ OrderedMap.keys (t.row device)) :
    (m.change n (.add device key rule)).Older device a key := by
  intro i r j r' hi hj
  -- the new key is there since this operation, all others since earlier ones
  have hnone : m (device, key) = none := by
    rw [← Option.not_isSome_iff_eq_none, ← h.mem_keys_iff]
    exact hnew
  rw [Memory.change, if_pos rfl, hnone] at hj
  obtain ⟨rfl, -⟩ := Prod.mk.inj (Option.some.inj hj)
  obtain ⟨⟨i', q⟩, hi'⟩ := Option.isSome_iff_exists.mp (h.mem_keys_iff.mp ha)
  rw [← Memory.since_change hi' hi]
  exact h.within _ _ _ hi'

/-- Adding a rule is remembered, -/
theorem add (h : Reflects t m n) (device key : String) (rule : Rule) :
    Reflects (t.add device key rule) (m.change n (.add device key rule)) (n + 1) := by
  refine h.of_row (OrderedMap.keys_nodup_put h.devicesOnce _ _) ?filled (row_add_self t device key rule)
    (fun other hd => row_add_of_ne t key rule hd) ?same
    (OrderedMap.keys_nodup_put (h.keysOnce device) _ _) ?holds ?ordered
  case filled =>
    intro row hrow
    rcases OrderedMap.mem_put hrow with hrow | rfl
    · exact h.filled row hrow
    · exact OrderedMap.put_ne_nil _ _ _
  case same =>
    intro p hd
    exact if_neg fun hp => hd (congrArg Prod.fst hp).symm
  case holds =>
    intro k
    by_cases hk : key = k
    · subst hk
      rw [OrderedMap.get?_put_self, Memory.change, if_pos rfl]
      rfl
    · have hp : (device, k) ≠ (device, key) := fun hp => hk (Prod.mk.inj hp).2.symm
      rw [OrderedMap.get?_put_of_ne _ _ hk, h.holds, Memory.change, if_neg hp]
  case ordered =>
    rw [OrderedMap.keys_put]
    split
    case isTrue => exact h.ordered_change _ device
    case isFalse hk =>
      refine List.pairwise_append.mpr ⟨h.ordered_change _ device, List.pairwise_singleton _ _, ?_⟩
      intro a ha b hb
      obtain rfl := List.mem_singleton.mp hb
      exact h.older_of_new rule hk ha

/-- and so is removing one -/
theorem remove (h : Reflects t m n) (device key : String) :
    Reflects (t.remove device key) (m.change n (.remove device key)) (n + 1) := by
  refine h.of_row (keys_nodup_remove h.devicesOnce device key) ?filled
    (row_remove_self h.devicesOnce device key) (fun other hd => row_remove_of_ne t key hd) ?same
    (OrderedMap.keys_nodup_drop (h.keysOnce device) _) ?holds ?ordered
  case filled =>
    intro row hrow
    rw [Table.remove] at hrow
    split at hrow
    · split at hrow
      · exact h.filled row (OrderedMap.mem_of_mem_drop hrow)
      · rename_i rest hrest
        rcases OrderedMap.mem_put hrow with hrow | rfl
        · exact h.filled row hrow
        · exact hrest
    · exact h.filled row hrow
  case same =>
    intro p hd
    exact if_neg fun hp => hd (congrArg Prod.fst hp).symm
  case holds =>
    intro k
    by_cases hk : key = k
    · subst hk
      rw [OrderedMap.get?_drop_self (h.keysOnce device), Memory.change, if_pos rfl]
      rfl
    · have hp : (device, k) ≠ (device, key) := fun hp => hk (Prod.mk.inj hp).2.symm
      rw [OrderedMap.get?_drop_of_ne _ hk, h.holds, Memory.change, if_neg hp]
  case ordered =>
    rw [OrderedMap.keys_drop]
    exact (h.ordered_change _ device).sublist List.erase_sublist

/-- and clearing a device. -/
theorem clear (h : Reflects t m n) (device : String) :
    Reflects (t.clear device) (m.change n (.clear device)) (n + 1) := by
  refine h.of_row (OrderedMap.keys_nodup_drop h.devicesOnce _)
    (fun row hrow => h.filled row (OrderedMap.mem_of_mem_drop hrow))
    (row_clear_self h.devicesOnce device) (fun other hd => row_clear_of_ne t hd) ?same List.nodup_nil
    ?holds List.Pairwise.nil
  case same =>
    intro p hd
    exact if_neg (Ne.symm hd)
  case holds =>
    intro key
    rw [Memory.change, if_pos rfl]
    rfl

/-- What only looks at the table changes nothing. -/
theorem look (h : Reflects t m n) : Reflects t m (n + 1) :=
  { h with within := fun p i r hp => Nat.lt_succ_of_lt (h.within p i r hp) }

/-- One operation keeps table and map together. -/
theorem change (h : Reflects t m n) (o : Operation) :
    Reflects (o.change t) (m.change n o) (n + 1) := by
  cases o with
  | add device key rule => exact h.add device key rule
  | remove device key => exact h.remove device key
  | get device => exact h.look
  | clear device => exact h.clear device
  | size => exact h.look

end Reflects

/-- **The table reflects the map after any operations.** -/
theorem reflects_after (operations : List Operation) :
    Reflects (after operations) (memory operations) operations.length := by
  induction operations using List.reverseRecOn with
  | nil =>
    exact ⟨List.nodup_nil, by simp [after], fun _ => List.nodup_nil, fun _ _ => rfl,
      fun _ => List.Pairwise.nil, fun _ _ _ h => absurd h (by simp [memory])⟩
  | append_singleton operations o ih =>
    rw [after_append_singleton, memory_append_singleton, List.length_append]
    exact ih.change o

/-! ## Pairs -/

/-- The pairs of a device and a key that stand in the table, row by row. -/
def pairs (t : Table) : List (String × String) :=
  t.flatMap fun row => row.2.map fun p => (row.1, p.1)

/-- The size counts the pairs. -/
theorem length_pairs (t : Table) : t.pairs.length = t.size := by
  induction t with
  | nil => rfl
  | cons row t ih =>
    have hsize : size (row :: t) = row.2.length + size t := rfl
    have hpairs : pairs (row :: t) = row.2.map (fun p => (row.1, p.1)) ++ pairs t := rfl
    rw [hsize, hpairs, List.length_append, List.length_map, ih]

namespace Reflects

variable {t : Table} {m : Memory} {n : Nat}

/-- The row of a device is where the device stands in the table. -/
theorem row_eq (h : Reflects t m n) {row : String × OrderedMap String Rule} (hrow : row ∈ t) :
    t.row row.1 = row.2 := by
  rw [Table.row, (OrderedMap.get?_eq_some_iff_mem h.devicesOnce).mpr hrow]
  rfl

/-- A device stands in the table exactly when it has a pair. -/
theorem knows_iff (h : Reflects t m n) (device : String) :
    t.knows device = true ↔ ∃ key, (m (device, key)).isSome := by
  rw [knows, OrderedMap.has, Option.isSome_iff_exists]
  constructor
  · rintro ⟨row, hrow⟩
    have hmem := (OrderedMap.get?_eq_some_iff_mem h.devicesOnce).mp hrow
    obtain ⟨p, rest, hcons⟩ := List.exists_cons_of_ne_nil (h.filled _ hmem)
    have hp : p ∈ t.row device := by
      rw [h.row_eq hmem, hcons]
      exact List.mem_cons_self
    exact ⟨p.1, h.mem_keys_iff.mp (List.mem_map_of_mem hp)⟩
  · rintro ⟨key, hkey⟩
    cases hrow : OrderedMap.get? t device with
    | some row => exact ⟨row, rfl⟩
    | none =>
      have hnil : t.row device = [] := by rw [Table.row, hrow]; rfl
      have hmem := h.mem_keys_iff.mpr hkey
      rw [hnil] at hmem
      exact absurd hmem List.not_mem_nil

/-- The pairs that stand in the table are those of the map. -/
theorem mem_pairs_iff (h : Reflects t m n) (p : String × String) :
    p ∈ t.pairs ↔ (m p).isSome := by
  obtain ⟨device, key⟩ := p
  rw [pairs, List.mem_flatMap, ← h.mem_keys_iff]
  constructor
  · rintro ⟨row, hrow, hp⟩
    obtain ⟨q, hq, hpair⟩ := List.mem_map.mp hp
    obtain ⟨rfl, rfl⟩ := Prod.mk.inj hpair
    rw [h.row_eq hrow]
    exact List.mem_map_of_mem hq
  · intro hkey
    obtain ⟨q, hq, rfl⟩ := List.mem_map.mp hkey
    obtain ⟨row, hrow⟩ := Option.isSome_iff_exists.mp
      ((h.knows_iff device).mpr ⟨q.1, h.mem_keys_iff.mp hkey⟩)
    have hmem := (OrderedMap.get?_eq_some_iff_mem h.devicesOnce).mp hrow
    have hq : q ∈ row := by rwa [h.row_eq hmem] at hq
    exact ⟨(device, row), hmem, List.mem_map.mpr ⟨q, hq, rfl⟩⟩

/-- No pair stands in the table twice. -/
theorem nodup_pairs (h : Reflects t m n) : t.pairs.Nodup := by
  rw [pairs, List.nodup_flatMap]
  constructor
  · intro row hrow
    have honce := h.keysOnce row.1
    rw [h.row_eq hrow] at honce
    have hkeys : row.2.map (fun p => (row.1, p.1)) = (OrderedMap.keys row.2).map (Prod.mk row.1) := by
      rw [OrderedMap.keys, List.map_map]
      rfl
    rw [hkeys]
    exact honce.map fun a b hab => (Prod.mk.inj hab).2
  · -- pairs of two rows have different devices
    refine (List.pairwise_map.mp h.devicesOnce).imp fun {row other} hne => ?_
    intro p hp hp'
    obtain ⟨q, -, rfl⟩ := List.mem_map.mp hp
    obtain ⟨q', -, hpair⟩ := List.mem_map.mp hp'
    exact hne (Prod.mk.inj hpair).1.symm

/-- The rules of a device are those of its pairs, oldest pair first. -/
theorem lists (h : Reflects t m n) (device : String) : m.Lists device (t.rules device) := by
  refine ⟨(t.row device).map fun p => (((m (device, p.1)).map Prod.fst).getD 0, p.1, p.2), ?_, ?_, ?_⟩
  · rw [List.map_map]
    rfl
  · intro i key rule
    have hpair : OrderedMap.get? (t.row device) key = some rule ↔ (key, rule) ∈ t.row device :=
      OrderedMap.get?_eq_some_iff_mem (h.keysOnce device)
    rw [h.holds] at hpair
    rw [List.mem_map]
    constructor
    · rintro ⟨q, hq, he⟩
      obtain ⟨hsince, he⟩ := Prod.mk.inj he
      obtain ⟨rfl, rfl⟩ := Prod.mk.inj he
      obtain ⟨v, hv, hrule⟩ := Option.map_eq_some_iff.mp (hpair.mpr hq)
      rw [← hsince, hv, ← hrule]
      rfl
    · intro hv
      refine ⟨(key, rule), hpair.mp (by rw [hv]; rfl), ?_⟩
      simp only
      rw [hv]
      rfl
  · refine List.pairwise_map.mpr ((List.pairwise_map.mp (h.ordered device)).imp_of_mem ?_)
    intro p q hp hq hold
    obtain ⟨v, hv⟩ := Option.isSome_iff_exists.mp (h.mem_keys_iff.mp (List.mem_map_of_mem hp))
    obtain ⟨w, hw⟩ := Option.isSome_iff_exists.mp (h.mem_keys_iff.mp (List.mem_map_of_mem hq))
    simp only
    rw [hv, hw]
    exact hold v.1 v.2 w.1 w.2 hv hw

/-- A device that is removed leaves a line in the log if it has a pair, and nothing happens if it has none. -/
theorem exec_deviceRemoved (h : Reflects t m n) (device : String) {s : State} (hs : s.table = t) :
    ((∃ key, (m (device, key)).isSome) →
        Act.exec (Reconciler.deviceRemoved device) s = (.ok (), { s with
          table := t.clear device,
          lines := s.lines ++ [⟨.info, "Cleared connection cache for " ++ device⟩] })) ∧
      ((¬ ∃ key, (m (device, key)).isSome) →
        Act.exec (Reconciler.deviceRemoved device) s = (.ok (), s)) := by
  rw [← h.knows_iff, Reconciler.deviceRemoved, exec_bind_ok (exec_get s), hs]
  constructor
  · intro hknows
    rw [if_pos hknows, exec_bind_ok (exec_modify _ s), info, exec_log, hs]
  · intro hnot
    rw [if_neg hnot, exec_pure]

end Reflects

/-- **The table is a map of pairs that keeps the order in which they came.** After any operations on an empty
table no row is empty. The rules of a device are those of its pairs, in the order in which the pairs came to
be there since they were last absent. The size is the number of pairs. A removal tells whether the pair was
there, and takes out this pair only. Clearing takes out the pairs of the device only; the log tells of it if
there was one. -/
theorem after_refines_memory (operations : List Operation) :
    (∀ row ∈ after operations, row.2 ≠ []) ∧
      (∀ device, (memory operations).Lists device ((after operations).rules device)) ∧
      (∃ pairs : List (String × String), pairs.Nodup ∧ (∀ p, p ∈ pairs ↔ (memory operations p).isSome) ∧
        (after operations).size = pairs.length) ∧
      (∀ device key, (after operations).removal device key
          = ((memory operations (device, key)).isSome, after (operations ++ [.remove device key])) ∧
        ∀ p, memory (operations ++ [.remove device key]) p
          = if p = (device, key) then none else memory operations p) ∧
      ∀ device, (∀ p, memory (operations ++ [.clear device]) p
          = if p.1 = device then none else memory operations p) ∧
        ∀ s : State, s.table = after operations →
          ((∃ key, (memory operations (device, key)).isSome) →
            Act.exec (Reconciler.deviceRemoved device) s = (.ok (), { s with
              table := after (operations ++ [.clear device]),
              lines := s.lines ++ [⟨.info, "Cleared connection cache for " ++ device⟩] })) ∧
          ((¬ ∃ key, (memory operations (device, key)).isSome) →
            Act.exec (Reconciler.deviceRemoved device) s = (.ok (), s)) := by
  have h := reflects_after operations
  refine ⟨h.filled, h.lists, ⟨_, h.nodup_pairs, h.mem_pairs_iff, (length_pairs _).symm⟩, ?_, ?_⟩
  · intro device key
    refine ⟨?_, fun p => by rw [memory_append_singleton, Memory.change]⟩
    rw [removal, has, OrderedMap.has, h.holds, Option.isSome_map, after_append_singleton]
    rfl
  · intro device
    refine ⟨fun p => by rw [memory_append_singleton, Memory.change], fun s hs => ?_⟩
    rw [after_append_singleton]
    exact h.exec_deviceRemoved device hs

/-- Operations on two amplifiers: a pair of the first one is taken out and comes back behind the other. -/
def amplifierOperations : List Operation :=
  [.add "amp-1" "a" (amplifierRule 1 none), .add "amp-1" "b" (amplifierRule 3 none), .remove "amp-1" "a",
    .add "amp-2" "a" (amplifierRule 5 none), .add "amp-1" "a" (amplifierRule 1 (some (-3.0))),
    .add "amp-1" "b" (amplifierRule 4 none), .get "amp-1", .size]

/-- The first amplifier is forgotten, and the log tells of it. -/
theorem after_refines_memory_amplifier :
    (after amplifierOperations).rules "amp-1" = [amplifierRule 4 none, amplifierRule 1 (some (-3.0))] ∧
      (memory amplifierOperations).Lists "amp-1"
        [amplifierRule 4 none, amplifierRule 1 (some (-3.0))] ∧
      (Act.exec (Reconciler.deviceRemoved "amp-1")
        { State.ofDevices [] with table := after amplifierOperations }).2.lines
        = [⟨.info, "Cleared connection cache for amp-1"⟩] := by
  have hrules : (after amplifierOperations).rules "amp-1"
      = [amplifierRule 4 none, amplifierRule 1 (some (-3.0))] := rfl
  obtain ⟨-, hlists, -, -, hclear⟩ := after_refines_memory amplifierOperations
  refine ⟨hrules, hrules ▸ hlists "amp-1", ?_⟩
  rw [((hclear "amp-1").2 { State.ofDevices [] with table := after amplifierOperations } rfl).1
    ⟨"a", rfl⟩]
  rfl

end Lightpath.CrossConnect.Table
