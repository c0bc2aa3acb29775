import Lightpath.Proofs.Text.Trim
import Lightpath.Proofs.Xml.Reads

/-!
# Line ends

Before a document is read, each of its line ends is made a single line feed. Main statements: this is
done on both sides of a cut that goes through no line end (`unifyLineEnds_append_of_cut`), so inside an
element it is done to its text alone (`unifyLineEnds_written`), and escaping does not get in its way
(`unifyLineEnds_escaped`).
-/

namespace Lightpath.Xml

/-! ## Single characters -/

theorem unifyLineEnds_cons {c : Char} (hc : c ≠ '\r') (cs : List Char) :
    unifyLineEnds (c :: cs) = c :: unifyLineEnds cs := by
  rw [unifyLineEnds]
  · intro rest h
    exact absurd h hc
  · exact hc

/-- A carriage return without a line feed behind it becomes a line feed. -/
theorem unifyLineEnds_return {cs : List Char} (h : ∀ rest, cs ≠ '\n' :: rest) :
    unifyLineEnds ('\r' :: cs) = '\n' :: unifyLineEnds cs := by
  rw [unifyLineEnds]
  exact h

/-- A text without carriage returns has no line ends to be changed. -/
theorem unifyLineEnds_eq_self {cs : List Char} (h : '\r' ∉ cs) : unifyLineEnds cs = cs := by
  induction cs with
  | nil => rfl
  | cons c cs ih =>
    obtain ⟨hc, hcs⟩ := not_or.mp (fun hmem => h (List.mem_cons.mpr hmem))
    rw [unifyLineEnds_cons (Ne.symm hc), ih hcs]

/-- No carriage return is left, and only line feeds come in. -/
theorem mem_unifyLineEnds {c : Char} {cs : List Char} (h : c ∈ unifyLineEnds cs) :
    c ≠ '\r' ∧ (c ∈ cs ∨ c = '\n') := by
  induction cs using unifyLineEnds.induct with
  | case1 => exact absurd h List.not_mem_nil
  | case2 cs ih =>
    rw [unifyLineEnds] at h
    rcases List.mem_cons.mp h with rfl | h
    · exact ⟨by decide, Or.inr rfl⟩
    · obtain ⟨hc, hmem⟩ := ih h
      exact ⟨hc, hmem.imp_left fun hmem => List.mem_cons_of_mem _ (List.mem_cons_of_mem _ hmem)⟩
  | case3 cs hcs ih =>
    rw [unifyLineEnds_return hcs] at h
    rcases List.mem_cons.mp h with rfl | h
    · exact ⟨by decide, Or.inr rfl⟩
    · obtain ⟨hc, hmem⟩ := ih h
      exact ⟨hc, hmem.imp_left (List.mem_cons_of_mem _)⟩
  | case4 d cs _ hd ih =>
    rw [unifyLineEnds_cons hd] at h
    rcases List.mem_cons.mp h with rfl | h
    · exact ⟨hd, Or.inl List.mem_cons_self⟩
    · obtain ⟨hc, hmem⟩ := ih h
      exact ⟨hc, hmem.imp_left (List.mem_cons_of_mem _)⟩

/-- No carriage return is left, -/
theorem noReturn_unifyLineEnds (cs : List Char) : '\r' ∉ unifyLineEnds cs :=
  fun h => (mem_unifyLineEnds h).1 rfl

/-- so nothing is left to unify. -/
theorem unifyLineEnds_unifyLineEnds (cs : List Char) :
    unifyLineEnds (unifyLineEnds cs) = unifyLineEnds cs :=
  unifyLineEnds_eq_self (noReturn_unifyLineEnds cs)

/-- A first character that is no carriage return stays. -/
theorem head?_unifyLineEnds {cs : List Char} (h : cs.head? ≠ some '\r') :
    (unifyLineEnds cs).head? = cs.head? := by
  cases cs with
  | nil => rfl
  | cons c cs =>
    rw [unifyLineEnds_cons fun hc => h (congrArg some hc)]
    rfl

/-! ## Cuts -/

/-- Line ends are made one on both sides of a cut, unless the cut goes through a line end of two
characters. -/
theorem unifyLineEnds_append (cs ds : List Char) :
    unifyLineEnds (cs ++ ds) = unifyLineEnds cs ++ unifyLineEnds ds ∨
      cs.getLast? = some '\r' ∧ ∃ rest, ds = '\n' :: rest ∧
        unifyLineEnds (cs ++ ds) = unifyLineEnds cs ++ unifyLineEnds rest := by
  induction cs using unifyLineEnds.induct with
  | case1 => exact Or.inl rfl
  | case2 cs ih =>
    -- a carriage return and its line feed, both in front of the cut
    rw [List.cons_append, List.cons_append, unifyLineEnds, unifyLineEnds]
    rcases ih with ih | ⟨hlast, rest, hds, ih⟩
    · exact Or.inl (by rw [ih, List.cons_append])
    · refine Or.inr ⟨?_, rest, hds, by rw [ih, List.cons_append]⟩
      rw [List.getLast?_cons, List.getLast?_cons, hlast]
      rfl
  | case3 cs hcs ih =>
    rw [unifyLineEnds_return hcs, List.cons_append]
    cases cs with
    | nil =>
      -- the cut stands behind a carriage return
      by_cases hds : ∃ rest, ds = '\n' :: rest
      · obtain ⟨rest, rfl⟩ := hds
        exact Or.inr ⟨rfl, rest, rfl, by rw [List.nil_append, unifyLineEnds]; rfl⟩
      · refine Or.inl ?_
        rw [List.nil_append, unifyLineEnds_return fun rest h => hds ⟨rest, h⟩]
        rfl
    | cons c cs =>
      -- the character behind the carriage return is in front of the cut, and no line feed
      have hne : ∀ rest, c :: cs ++ ds ≠ '\n' :: rest := by
        intro rest h
        exact hcs cs (by rw [(List.cons.inj h).1])
      rw [unifyLineEnds_return hne]
      rcases ih with ih | ⟨hlast, rest, hds, ih⟩
      · exact Or.inl (by rw [ih, List.cons_append])
      · refine Or.inr ⟨?_, rest, hds, by rw [ih, List.cons_append]⟩
        rw [List.getLast?_cons, hlast]
        rfl
  | case4 c cs _ hc ih =>
    rw [List.cons_append, unifyLineEnds_cons hc, unifyLineEnds_cons hc]
    rcases ih with ih | ⟨hlast, rest, hds, ih⟩
    · exact Or.inl (by rw [ih, List.cons_append])
    · refine Or.inr ⟨?_, rest, hds, by rw [ih, List.cons_append]⟩
      rw [List.getLast?_cons, hlast]
      rfl

/-- A cut that does not go through a line end of two characters. -/
theorem unifyLineEnds_append_of_cut {cs ds : List Char}
    (h : cs.getLast? = some '\r' → ds.head? ≠ some '\n') :
    unifyLineEnds (cs ++ ds) = unifyLineEnds cs ++ unifyLineEnds ds := by
  rcases unifyLineEnds_append cs ds with heq | ⟨hlast, rest, rfl, -⟩
  · exact heq
  · exact absurd rfl (h hlast)

/-- Behind a text without carriage returns there is always such a cut. -/
theorem unifyLineEnds_append_of_noReturn {cs : List Char} (h : '\r' ∉ cs) (ds : List Char) :
    unifyLineEnds (cs ++ ds) = cs ++ unifyLineEnds ds := by
  rw [unifyLineEnds_append_of_cut fun hlast => absurd (List.mem_of_getLast? hlast) h,
    unifyLineEnds_eq_self h]

/-- A last character that belongs to no line end stays. -/
theorem getLast?_unifyLineEnds {cs : List Char} {c : Char} (h : cs.getLast? = some c)
    (hreturn : c ≠ '\r') (hfeed : c ≠ '\n') : (unifyLineEnds cs).getLast? = some c := by
  obtain ⟨before, rfl⟩ := List.getLast?_eq_some_iff.mp h
  have hcut : before.getLast? = some '\r' → [c].head? ≠ some '\n' :=
    fun _ hhead => hfeed (Option.some.inj hhead)
  rw [unifyLineEnds_append_of_cut hcut, unifyLineEnds_cons hreturn]
  exact List.getLast?_concat

/-! ## Markup -/

/-- A text of elements: it starts and ends with markup. -/
structure Bracketed (cs : List Char) : Prop where
  head : cs.head? = some '<'
  last : cs.getLast? = some '>'

/-- An element that is written stands in brackets. -/
theorem bracketed_written (name attributes inner : List Char) :
    Bracketed (written name attributes inner) where
  head := rfl
  last := by
    rw [written]
    simp [List.getLast?_append, List.getLast?_cons]

namespace Bracketed

variable {cs : List Char}

/-- Line ends are made one in such a text and around it. -/
theorem unifyLineEnds (h : Bracketed cs) (before after : List Char) :
    Xml.unifyLineEnds (before ++ (cs ++ after))
      = Xml.unifyLineEnds before ++ (Xml.unifyLineEnds cs ++ Xml.unifyLineEnds after) := by
  have hbefore : before.getLast? = some '\r' → (cs ++ after).head? ≠ some '\n' := by
    intro _ hhead
    rw [List.head?_append, h.head] at hhead
    exact absurd (Option.some.inj hhead) (by decide)
  have hafter : cs.getLast? = some '\r' → after.head? ≠ some '\n' := by
    intro hlast
    rw [h.last] at hlast
    exact absurd (Option.some.inj hlast) (by decide)
  rw [unifyLineEnds_append_of_cut hbefore, unifyLineEnds_append_of_cut hafter]

/-- Brackets are not changed with the line ends. -/
theorem unified (h : Bracketed cs) : Bracketed (Xml.unifyLineEnds cs) where
  head := by
    rw [head?_unifyLineEnds (by rw [h.head]; decide), h.head]
  last := getLast?_unifyLineEnds h.last (by decide) (by decide)

end Bracketed

/-- Inside an element line ends are made one in what stands between its tags. -/
theorem unifyLineEnds_written {name attributes : List Char} (hname : '\r' ∉ name)
    (hattributes : '\r' ∉ attributes) (inner : List Char) :
    unifyLineEnds (written name attributes inner)
      = written name attributes (unifyLineEnds inner) := by
  have hparts (cs : List Char) : written name attributes cs
      = ('<' :: (name ++ (attributes ++ ['>']))) ++ (cs ++ '<' :: '/' :: (name ++ ['>'])) := by
    simp [written]
  have hstart : '\r' ∉ '<' :: (name ++ (attributes ++ ['>'])) := by simp [hname, hattributes]
  have hend : '\r' ∉ '<' :: '/' :: (name ++ ['>']) := by simp [hname]
  have hcut : inner.getLast? = some '\r' → ('<' :: '/' :: (name ++ ['>'])).head? ≠ some '\n' :=
    fun _ hhead => absurd (Option.some.inj hhead) (by decide)
  rw [hparts, hparts, unifyLineEnds_append_of_noReturn hstart, unifyLineEnds_append_of_cut hcut,
    unifyLineEnds_eq_self hend]

/-- No carriage return stands in an element unless in a part of it, -/
theorem noReturn_written {name attributes inner : List Char} (hname : '\r' ∉ name)
    (hattributes : '\r' ∉ attributes) (hinner : '\r' ∉ inner) :
    '\r' ∉ written name attributes inner := by
  simp [written, hname, hattributes, hinner]

/-- nor in an attribute, -/
theorem noReturn_attributeText {name value : List Char} (hname : '\r' ∉ name)
    (hvalue : '\r' ∉ value) :
    '\r' ∉ attributeText name value := by
  simp [attributeText, hname, hvalue]

/-! ## Escaped text -/

/-- Escaping brings no carriage returns. -/
theorem noReturn_escapeChar {c : Char} (hc : c ≠ '\r') : '\r' ∉ escapeChar c := by
  intro hmem
  rw [escapeChar] at hmem
  split at hmem
  · exact absurd hmem (by decide)
  split at hmem
  · exact absurd hmem (by decide)
  split at hmem
  · exact absurd hmem (by decide)
  exact hc (List.mem_singleton.mp hmem).symm

/-- nor in an escaped text. -/
theorem noReturn_escaped {cs : List Char} (h : '\r' ∉ cs) : '\r' ∉ cs.flatMap escapeChar := by
  rw [List.mem_flatMap]
  rintro ⟨c, hc, hmem⟩
  exact noReturn_escapeChar (fun hreturn => h (hreturn ▸ hc)) hmem

/-- Only a line feed is escaped to a text that starts with one. -/
theorem eq_of_head?_escapeChar {c : Char} {rest : List Char} (h : escapeChar c = '\n' :: rest) :
    c = '\n' := by
  rw [escapeChar] at h
  split at h
  · exact absurd (List.cons.inj h).1 (by decide)
  split at h
  · exact absurd (List.cons.inj h).1 (by decide)
  split at h
  · exact absurd (List.cons.inj h).1 (by decide)
  exact (List.cons.inj h).1

theorem escapeChar_ne_nil (c : Char) : escapeChar c ≠ [] := by
  rw [escapeChar]
  repeat' split
  all_goals exact List.cons_ne_nil _ _

/-- Line ends are made one whether a text has been escaped or not. -/
theorem unifyLineEnds_escaped (cs : List Char) :
    unifyLineEnds (cs.flatMap escapeChar) = (unifyLineEnds cs).flatMap escapeChar := by
  have hreturn : escapeChar '\r' = ['\r'] := by decide
  have hfeed : escapeChar '\n' = ['\n'] := by decide
  induction cs using unifyLineEnds.induct with
  | case1 => rfl
  | case2 cs ih =>
    rw [List.flatMap_cons, List.flatMap_cons, hreturn, hfeed, unifyLineEnds, List.flatMap_cons, hfeed,
      ← ih]
    exact unifyLineEnds.eq_2 _
  | case3 cs hcs ih =>
    -- what follows the carriage return starts with no line feed, escaped or not
    have hrest : ∀ rest, cs.flatMap escapeChar ≠ '\n' :: rest := by
      intro rest h
      cases cs with
      | nil => exact absurd h (by simp)
      | cons c cs =>
        obtain ⟨d, ds, hd⟩ := List.exists_cons_of_ne_nil (escapeChar_ne_nil c)
        rw [List.flatMap_cons, hd, List.cons_append] at h
        obtain rfl := (List.cons.inj h).1
        exact hcs cs (by rw [eq_of_head?_escapeChar hd])
    rw [List.flatMap_cons, hreturn, unifyLineEnds_return hcs, List.flatMap_cons, hfeed, ← ih]
    exact unifyLineEnds_return hrest
  | case4 c cs _ hc ih =>
    rw [List.flatMap_cons, unifyLineEnds_append_of_noReturn (noReturn_escapeChar hc), ih,
      unifyLineEnds_cons hc, List.flatMap_cons]

/-! ## Texts that are read back -/

/-- A text as it is read back from a document that it has been written into. -/
def readBack (s : String) : String :=
  String.ofList (unifyLineEnds s.toList)

/-- A text reads back with its line ends unified. -/
theorem toList_readBack (s : String) : (readBack s).toList = unifyLineEnds s.toList :=
  String.toList_ofList

/-- What reads back may stand in a document. -/
theorem isAllowed_readBack {s : String} (h : ∀ c ∈ s.toList, isAllowed c = true) :
    ∀ c ∈ (readBack s).toList, isAllowed c = true ∧ c ≠ '\r' := by
  intro c hc
  rw [toList_readBack] at hc
  obtain ⟨hreturn, hc | rfl⟩ := mem_unifyLineEnds hc
  · exact ⟨h c hc, hreturn⟩
  · exact ⟨by decide, hreturn⟩

/-- There is no white space around such a text unless there was some before. -/
theorem trimmed_readBack {s : String} (h : Text.trimmed s = s) :
    Text.trimmed (readBack s) = readBack s := by
  have htrim : Text.trimBy Text.isBlank s.toList = s.toList := by
    rw [← String.toList_inj, Text.trimmed, String.toList_ofList] at h
    exact h
  have hfirst : ∀ c ∈ s.toList.head?, Text.isBlank c = false := by
    rw [← htrim]
    exact Text.head?_trimBy
  have hlast : ∀ c ∈ s.toList.getLast?, Text.isBlank c = false := by
    rw [← htrim]
    exact Text.getLast?_trimBy
  have hblank {c d : Char} (hc : Text.isBlank c = false) (hd : Text.isBlank d = true) : c ≠ d := by
    rintro rfl
    exact absurd (hc.symm.trans hd) (by simp)
  rw [readBack, Text.trimmed, String.toList_ofList, Text.trim, Text.trimBy_eq_self]
  · intro c hc
    rw [head?_unifyLineEnds fun hhead => hblank (hfirst _ hhead) (by decide) rfl] at hc
    exact hfirst c hc
  · intro c hc
    cases hd : s.toList.getLast? with
    | none =>
      rw [List.getLast?_eq_none_iff.mp hd] at hc
      exact absurd hc (by simp [unifyLineEnds])
    | some d =>
      have hnot := hlast d hd
      rw [getLast?_unifyLineEnds hd (hblank hnot (by decide)) (hblank hnot (by decide))] at hc
      exact Option.some.inj hc ▸ hnot

end Lightpath.Xml
