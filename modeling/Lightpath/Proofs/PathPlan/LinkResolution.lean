import Lightpath.Proofs.PathPlan.LinkedPath
import Lightpath.Proofs.PathPlan.Malformed

/-!
# Links of a route

A link is looked up for each hop of a route, whatever route it is: devices may come again, and a
link may be known to both of its devices. Only the end of a link is compared with the hop. Its
start follows from what the adjacency may tell. Main statement: `exists_resolves`.
-/

namespace Lightpath.PathPlan.Planner

open Lightpath.Site Lightpath.Topology

variable {p : Planner} {s : State} {route : List String} {found : List (Option Link)}
  {linksOf : String → List Link}

/-! ## An adjacency that does not change -/

/-- The adjacency tells the same links of a device whenever it is asked. -/
def AlwaysTells (p : Planner) (linksOf : String → List Link) : Prop :=
  ∀ device s links t, Act.exec (p.adjacency device) s = (.ok links, t) → links = linksOf device

/-- What is looked up does not depend on the site then. -/
theorem LooksUp.eq_map {hops : List (String × String)} (h : p.LooksUp hops s found)
    (halways : p.AlwaysTells linksOf) : found = hops.map (linkFor? linksOf) := by
  induction h with
  | nil s => rfl
  | @cons hop rest links found s t u told logs more ih =>
    rw [List.map_cons, ← ih, linkFor?, halways hop.1 s links t told]

theorem pathAlong_eq (linksOf : String → List Link) (hops : List (String × String)) :
    pathAlong linksOf hops = ⟨(hops.map (linkFor? linksOf)).reduceOption⟩ := by
  rw [pathAlong, List.reduceOption, List.filterMap_map]
  rfl

/-! ## Routes with a link for every hop -/

/-- A route of two devices or more has one hop less than it has devices. -/
theorem length_hops (h : 2 ≤ route.length) : (hops route).length + 1 = route.length := by
  rw [hops, List.length_zip, List.length_tail]
  omega

/-- The links of a route lead from its first device to its last one, if each hop has one. -/
theorem unbroken_of_hops {links : List Link} (hlength : 2 ≤ route.length)
    (h : List.Forall₂ Spans (hops route) links) :
    links.length + 1 = route.length ∧
      ∃ first last, route.head? = some first ∧ route.getLast? = some last ∧
        Unbroken links first last := by
  refine ⟨by rw [← h.length_eq, length_hops hlength], ?_⟩
  match route with
  | [] => exact absurd hlength (by simp)
  | [_] => exact absurd hlength (by simp)
  | d :: e :: ds =>
    refine ⟨d, _, rfl, ?_, unbroken_of_spans h⟩
    rw [List.getLast?_cons_cons, List.getLast?_eq_some_getLast (List.cons_ne_nil e ds)]

/-! ## Resolution -/

/-- **What is found for the hops of a route.** -/
structure Resolves (p : Planner) (route : List String) (s : State) (found : List (Option Link)) :
    Prop where
  /-- For each hop, in the order of the route, this is the first link that the adjacency tells of
  the first device and that ends on the second one, or none. -/
  looked : p.LooksUp (hops route) s found
  /-- Such a link starts on the first device unless the two devices are the same. -/
  fits : List.Forall₂ FitsHop (hops route) found
  /-- An adjacency that does not change resolves the route as its links alone do. -/
  constant : ∀ linksOf, p.AlwaysTells linksOf →
    found = (hops route).map (linkFor? linksOf) ∧
      pathAlong linksOf (hops route) = ⟨found.reduceOption⟩
  /-- If each hop is between two devices and has a link, the links lead from the first device of the
  route to the last one. -/
  whole : 2 ≤ route.length → (∀ hop ∈ hops route, hop.1 ≠ hop.2) → none ∉ found →
    found.reduceOption.length + 1 = route.length ∧
      ∃ first last, route.head? = some first ∧ route.getLast? = some last ∧
        Unbroken found.reduceOption first last

theorem LooksUp.resolves (h : p.LooksUp (hops route) s found) (hknows : p.KnowsLinks) :
    p.Resolves route s found where
  looked := h
  fits := h.fitsHop hknows
  constant := by
    intro linksOf halways
    have hfound := h.eq_map halways
    exact ⟨hfound, by rw [pathAlong_eq, hfound]⟩
  whole := fun hlength hne hall =>
    unbroken_of_hops hlength (spans_of_fitsHop (h.fitsHop hknows) hne hall)

/-- **Every route is resolved to the links that are found for its hops**, by any adjacency that
tells of a device only links that start or end on it. -/
theorem exists_resolves
    (hadj : ∀ device s, ∃ links t, Act.exec (p.adjacency device) s = (.ok links, t))
    (hknows : p.KnowsLinks) (route : List String) (s : State) :
    ∃ found t, Act.exec (p.linksAlong (hops route)) s = (.ok found.reduceOption, t) ∧
      p.Resolves route s found := by
  obtain ⟨links, t, hrun⟩ := exists_exec_linksAlong hadj (hops route) s
  obtain ⟨found, hlooked, rfl⟩ := looksUp_of_exec hrun
  exact ⟨found, t, hrun, hlooked.resolves hknows⟩

/-- The links between two devices in both directions, in an order in which the one that ends on the
first device comes first. -/
def pairLinks : List Link :=
  [⟨⟨"netconf:b", 3⟩, ⟨"netconf:a", 3⟩⟩, ⟨⟨"netconf:a", 2⟩, ⟨"netconf:b", 2⟩⟩]

/-- There and back again: each device knows both links, and the right one is found for each hop. -/
theorem exists_resolves_pairLinks :
    ∃ t, Act.exec ((overLinks pairLinks).linksAlong (hops ["netconf:a", "netconf:b", "netconf:a"]))
        (State.ofDevices []) = (.ok pairLinks.reverse, t) ∧
      (overLinks pairLinks).Resolves ["netconf:a", "netconf:b", "netconf:a"] (State.ofDevices [])
        (pairLinks.reverse.map some) ∧
      Unbroken pairLinks.reverse "netconf:a" "netconf:a" := by
  have hadj (device : String) (s : State) :
      ∃ links t, Act.exec ((overLinks pairLinks).adjacency device) s = (.ok links, t) :=
    ⟨_, s, rfl⟩
  have halways : (overLinks pairLinks).AlwaysTells fun d => pairLinks.filter (·.touches d) :=
    fun _ _ _ _ htold => (Except.ok.inj (congrArg Prod.fst htold)).symm
  obtain ⟨found, t, hrun, hresolves⟩ := exists_resolves hadj (knowsLinks_overLinks pairLinks)
    ["netconf:a", "netconf:b", "netconf:a"] (State.ofDevices [])
  have hfound : found = pairLinks.reverse.map some :=
    (hresolves.constant _ halways).1.trans (by decide +kernel)
  rw [hfound] at hrun hresolves
  obtain ⟨-, first, last, hfirst, hlast, hunbroken⟩ :=
    hresolves.whole (by decide) (by decide) (by decide)
  obtain rfl := Option.some.inj hfirst
  obtain rfl := Option.some.inj hlast
  exact ⟨t, hrun, hresolves, hunbroken⟩

end Lightpath.PathPlan.Planner
