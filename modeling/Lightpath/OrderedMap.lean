/-!
# Maps that keep the order of insertion

A finite map as the list of its pairs. A new key goes to the end, a key that is there keeps its place and
takes the new value, and a removed key leaves no trace.
-/

namespace Lightpath

/-- Pairs of a key and its value in the order in which the keys came. -/
abbrev OrderedMap (α β : Type) := List (α × β)

namespace OrderedMap

variable {α β : Type} [DecidableEq α]

/-! ## Look-up -/

/-- The value of a key. -/
def get? : OrderedMap α β → α → Option β
  | [], _ => none
  | (a, b) :: rest, k => if a = k then some b else get? rest k

/-- Whether a key has a value. -/
def has (m : OrderedMap α β) (k : α) : Bool :=
  (get? m k).isSome

/-- The keys, first inserted first. -/
def keys (m : OrderedMap α β) : List α :=
  m.map Prod.fst

/-- The values, in the order of their keys. -/
def values (m : OrderedMap α β) : List β :=
  m.map Prod.snd

/-! ## Change -/

/-- Gives a key a value. -/
def put : OrderedMap α β → α → β → OrderedMap α β
  | [], k, v => [(k, v)]
  | (a, b) :: rest, k, v => if a = k then (a, v) :: rest else (a, b) :: put rest k v

/-- Takes a key out. -/
def drop : OrderedMap α β → α → OrderedMap α β
  | [], _ => []
  | (a, b) :: rest, k => if a = k then rest else (a, b) :: drop rest k

/-- The map that a list of pairs describes; of two values of one key the later counts. -/
def ofPairs (pairs : List (α × β)) : OrderedMap α β :=
  pairs.foldl (fun m p => put m p.1 p.2) []

/-! ## Laws -/

@[simp] theorem get?_nil (k : α) : get? ([] : OrderedMap α β) k = none := rfl

/-- What has been put under a key is found there, -/
theorem get?_put_self (m : OrderedMap α β) (k : α) (v : β) : get? (put m k v) k = some v := by
  induction m with
  | nil => simp [put, get?]
  | cons p rest ih =>
    obtain ⟨a, b⟩ := p
    by_cases h : a = k
    · simp [put, get?, h]
    · simp [put, get?, h, ih]

/-- and nothing else is found elsewhere. -/
theorem get?_put_of_ne (m : OrderedMap α β) {k k' : α} (v : β) (h : k ≠ k') :
    get? (put m k v) k' = get? m k' := by
  induction m with
  | nil => simp [put, get?, h]
  | cons p rest ih =>
    obtain ⟨a, b⟩ := p
    by_cases ha : a = k
    · subst ha
      simp [put, get?, h]
    · rw [put, if_neg ha, get?, get?, ih]

/-- Dropping a key does not change what is found under others. -/
theorem get?_drop_of_ne (m : OrderedMap α β) {k k' : α} (h : k ≠ k') :
    get? (drop m k) k' = get? m k' := by
  induction m with
  | nil => rfl
  | cons p rest ih =>
    obtain ⟨a, b⟩ := p
    by_cases ha : a = k
    · subst ha
      simp [drop, get?, h]
    · rw [drop, if_neg ha, get?, get?, ih]

/-- A value that is given to a key that is there leaves the keys as they are; a new key goes to the end. -/
theorem keys_put (m : OrderedMap α β) (k : α) (v : β) :
    keys (put m k v) = if k ∈ keys m then keys m else keys m ++ [k] := by
  induction m with
  | nil => simp [put, keys]
  | cons p rest ih =>
    obtain ⟨a, b⟩ := p
    by_cases h : a = k
    · simp [put, keys, h]
    · have h' : ¬k = a := fun e => h e.symm
      simp only [keys] at ih
      by_cases hk : k ∈ rest.map Prod.fst <;> simp_all [put, keys]

/-- The keys are those under which something is found. -/
theorem mem_keys_iff (m : OrderedMap α β) (k : α) : k ∈ keys m ↔ (get? m k).isSome := by
  induction m with
  | nil => simp [keys]
  | cons p rest ih =>
    obtain ⟨a, b⟩ := p
    simp only [keys] at ih
    by_cases h : a = k
    · simp [keys, get?, h]
    · have h' : ¬k = a := fun e => h e.symm
      simp [keys, get?, h, h', ih]

end OrderedMap

end Lightpath
