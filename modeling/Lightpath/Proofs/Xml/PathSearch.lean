import Lightpath.Xml.Element

/-!
# Searching along a path

A text is looked up by going down from an element level by level: all children of the first name, all
children of these of the second name, and so on, and what stands first on the last level counts. A
depth-first search goes down one branch at a time instead and comes back from a branch that ends too early.
Main statement: both find the same element, the one on the leftmost way (`textAt?_eq_search`).
-/

namespace Lightpath.Xml.Element

/-! ## The search -/

/-- The element that is found first by going down along names, one child after the other: a child of the
name in front is entered, and if nothing is found inside it, the search comes back and tries the next. -/
def search (e : Element) : List String → Option Element
  | [] => some e
  | n :: path => e.children.findSome? fun c => if c.isNamed n then search c path else none

/-- A way down from an element along names: the positions of the children that are entered, and the element
at its end. -/
inductive Leads : Element → List String → List Nat → Element → Prop
  | here (e : Element) : Leads e [] [] e
  | down {e c f : Element} {n : String} {path : List String} {i : Nat} {way : List Nat}
      (hc : e.children[i]? = some c) (hn : c.isNamed n = true) (h : Leads c path way f) :
      Leads e (n :: path) (i :: way) f

/-- A way is the other one, or it turns off to the left of it where they part. -/
def Precedes (way other : List Nat) : Prop :=
  way = other ∨ List.Lex (· < ·) way other

namespace Leads

variable {e f g : Element} {n : String} {path : List String} {way : List Nat}

theorem nil_iff : Leads e [] way f ↔ way = [] ∧ f = e := by
  constructor
  · intro h
    cases h
    exact ⟨rfl, rfl⟩
  · rintro ⟨rfl, rfl⟩
    exact here f

/-- A way leads along a path through a child of the first name. -/
theorem cons_iff : Leads e (n :: path) way f ↔
    ∃ i c rest, way = i :: rest ∧ e.children[i]? = some c ∧ c.isNamed n = true ∧ Leads c path rest f := by
  constructor
  · intro h
    cases h with
    | down hc hn h => exact ⟨_, _, _, rfl, hc, hn, h⟩
  · rintro ⟨i, c, rest, rfl, hc, hn, h⟩
    exact down hc hn h

/-- A way ends at one element. -/
theorem unique (h : Leads e path way f) (k : Leads e path way g) : f = g := by
  induction h with
  | here e => exact (nil_iff.mp k).2.symm
  | down hc hn _ ih =>
    obtain ⟨i, c, rest, hway, hc', -, k⟩ := cons_iff.mp k
    obtain ⟨rfl, rfl⟩ := List.cons.inj hway
    rw [hc] at hc'
    obtain rfl := Option.some.inj hc'
    exact ih k

end Leads

variable {e f : Element} {n : String} {path : List String}

theorem Precedes.cons {i : Nat} {way other : List Nat} (h : Precedes way other) :
    Precedes (i :: way) (i :: other) := by
  rcases h with rfl | h
  · exact Or.inl rfl
  · exact Or.inr (List.Lex.cons h)

/-- Of two ways only one turns off to the left. -/
theorem Precedes.antisymm {way other : List Nat} (h : Precedes way other) (k : Precedes other way) :
    way = other := by
  rcases h with rfl | h
  · rfl
  · rcases k with rfl | k
    · rfl
    · exact absurd k (List.lex_asymm Nat.lt_asymm h)

/-- The search fails if it does in each child of the name. -/
theorem search_cons_eq_none_iff :
    e.search (n :: path) = none ↔ ∀ c ∈ e.children, c.isNamed n = true → c.search path = none := by
  rw [search, List.findSome?_eq_none_iff]
  refine forall_congr' fun c => imp_congr_right fun _ => ?_
  split
  · rename_i hn
    exact ⟨fun h _ => h, fun h => h hn⟩
  · rename_i hn
    exact ⟨fun _ h => absurd h hn, fun _ => rfl⟩

/-- What is found inside a child is found if no child in front of it has anything to find. -/
theorem search_cons_eq_some_iff :
    e.search (n :: path) = some f ↔ ∃ before c after, e.children = before ++ c :: after ∧
      c.isNamed n = true ∧ c.search path = some f ∧
      ∀ b ∈ before, b.isNamed n = true → b.search path = none := by
  rw [search, List.findSome?_eq_some_iff]
  constructor
  · rintro ⟨before, c, after, hchildren, hc, hbefore⟩
    split at hc
    case isFalse => exact absurd hc (by simp)
    case isTrue hn =>
      refine ⟨before, c, after, hchildren, hn, hc, fun b hb hbn => ?_⟩
      have hnone := hbefore b hb
      rwa [if_pos hbn] at hnone
  · rintro ⟨before, c, after, hchildren, hn, hc, hbefore⟩
    refine ⟨before, c, after, hchildren, by rw [if_pos hn, hc], fun b hb => ?_⟩
    split
    case isTrue hbn => exact hbefore b hb hbn
    case isFalse => rfl

/-- **Nothing is found exactly when no way leads along the names.** -/
theorem search_eq_none_iff (e : Element) (path : List String) :
    e.search path = none ↔ ∀ way f, ¬ Leads e path way f := by
  induction path generalizing e with
  | nil =>
    constructor
    · exact fun h => absurd h (by simp [search])
    · exact fun h => absurd (Leads.here e) (h [] e)
  | cons n path ih =>
    rw [search_cons_eq_none_iff]
    constructor
    · intro h way f hleads
      obtain ⟨i, c, rest, -, hc, hn, hrest⟩ := Leads.cons_iff.mp hleads
      exact (ih c).mp (h c (List.mem_of_getElem? hc) hn) rest f hrest
    · intro h c hc hn
      obtain ⟨i, hi⟩ := List.getElem?_of_mem hc
      exact (ih c).mpr fun way f hleads => h (i :: way) f (Leads.down hi hn hleads)

/-- What is found is at the end of a way, and every other way turns off to the right of it. -/
theorem exists_leftmost_of_search (h : e.search path = some f) :
    ∃ way, Leads e path way f ∧ ∀ other g, Leads e path other g → Precedes way other := by
  induction path generalizing e with
  | nil =>
    obtain rfl := Option.some.inj h
    refine ⟨[], Leads.here e, fun other g hother => ?_⟩
    exact Or.inl (Leads.nil_iff.mp hother).1.symm
  | cons n path ih =>
    obtain ⟨before, c, after, hchildren, hn, hc, hbefore⟩ := search_cons_eq_some_iff.mp h
    obtain ⟨way, hway, hleft⟩ := ih hc
    have hat : e.children[before.length]? = some c := by rw [hchildren]; simp
    refine ⟨before.length :: way, Leads.down hat hn hway, fun other g hother => ?_⟩
    obtain ⟨j, d, rest, rfl, hd, hdn, hrest⟩ := Leads.cons_iff.mp hother
    rcases Nat.lt_trichotomy before.length j with hlt | rfl | hgt
    · exact Or.inr (List.Lex.rel hlt)
    · rw [hat] at hd
      obtain rfl := Option.some.inj hd
      exact (hleft rest g hrest).cons
    · -- a way through a child in front would have been found before
      rw [hchildren, List.getElem?_append_left hgt] at hd
      have hnone := hbefore d (List.mem_of_getElem? hd) hdn
      exact absurd hrest ((search_eq_none_iff d path).mp hnone rest g)

/-- **What is found is what the leftmost way leads to.** -/
theorem search_eq_some_iff (e : Element) (path : List String) (f : Element) :
    e.search path = some f ↔
      ∃ way, Leads e path way f ∧ ∀ other g, Leads e path other g → Precedes way other := by
  refine ⟨exists_leftmost_of_search, ?_⟩
  rintro ⟨way, hway, hleft⟩
  cases hsearch : e.search path with
  | none => exact absurd hway ((search_eq_none_iff e path).mp hsearch way f)
  | some g =>
    obtain ⟨other, hother, hmost⟩ := exists_leftmost_of_search hsearch
    obtain rfl := (hleft other g hother).antisymm (hmost way f hway)
    rw [hother.unique hway]

/-! ## Level by level -/

/-- What some elements reach is what each of them reaches, in order. -/
theorem reach_eq_flatMap (es : List Element) (path : List String) :
    reach es path = es.flatMap fun e => reach [e] path := by
  induction es with
  | nil => exact reach_nil path
  | cons e es ih =>
    rw [List.flatMap_cons, ← ih, ← reach_append]
    rfl

/-- The first element of the last level is the one that a depth-first search finds first. -/
theorem head?_reach_singleton (e : Element) (path : List String) :
    (reach [e] path).head? = e.search path := by
  induction path generalizing e with
  | nil => rfl
  | cons n path ih =>
    have hlevel : reach [e] (n :: path) = (e.childrenNamed n).flatMap fun c => reach [c] path := by
      rw [reach, List.flatMap_singleton, reach_eq_flatMap]
    rw [hlevel, List.head?_flatMap, search, childrenNamed]
    simp only [ih]
    -- children of other names are left out before the search or passed by in it
    induction e.children with
    | nil => rfl
    | cons c cs ihcs =>
      rw [List.findSome?_cons, List.filter_cons]
      split
      · rw [List.findSome?_cons, ihcs]
      · exact ihcs

/-- **Going down level by level finds what a depth-first search finds first.** The text at the end of a path
is the text of the element on the leftmost way along its names, without the white space around it. There is
no text if no way leads along the names, and also if this one element has none, whatever stands at the end of
other ways. -/
theorem textAt?_eq_search (e : Element) (path : List String) :
    e.textAt? path = (e.search path).bind (fun f =>
        if f.text = "" then none else some (Text.trimmed f.text)) ∧
      (e.search path = none ↔ ∀ way f, ¬ Leads e path way f) ∧
      ∀ f, e.search path = some f ↔
        ∃ way, Leads e path way f ∧ ∀ other g, Leads e path other g → Precedes way other := by
  refine ⟨?_, search_eq_none_iff e path, search_eq_some_iff e path⟩
  rw [textAt?, head?_reach_singleton]
  rfl

-- the search comes back from the first branch, and then an element without text hides the one behind it
example :
    let leaf (n text : String) : Element := ⟨⟨none, n⟩, [], text, []⟩
    let branch (n : String) (es : List Element) : Element := ⟨⟨none, n⟩, [], "", es⟩
    let root := branch "state" [branch "power" [leaf "unit" "dBm"],
      branch "power" [leaf "instant" ""], branch "power" [leaf "instant" "-3"]]
    root.textAt? ["power", "unit"] = some "dBm" ∧ root.textAt? ["power", "instant"] = none := by
  decide +kernel

end Lightpath.Xml.Element
