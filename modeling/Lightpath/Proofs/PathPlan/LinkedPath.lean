import Mathlib.Data.List.Chain
import Mathlib.Data.List.Forall2
import Mathlib.Data.List.ReduceOption
import Lightpath.Proofs.PathPlan.Provision

/-!
# The path of a circuit

The links of a circuit are looked up hop by hop along the route of its plan. A hop that no link is
known for is left out, and a circuit is asked for over the links that are left. Main statement:
`submittedLinks_obtain`, whatever the engine replies and the adjacency tells. The path leads from the
ingress to the egress without a break when the route does and no link is missing.
-/

namespace Lightpath.PathPlan

open Lightpath.Site Lightpath.Topology

/-! ## Unbroken paths -/

/-- Some links lead from one device to another without a break. -/
structure Unbroken (links : List Link) (first last : String) : Prop where
  starts : ∃ l, links.head? = some l ∧ l.src.device = first
  ends : ∃ l, links.getLast? = some l ∧ l.dst.device = last
  joined : links.IsChain fun l m => m.src.device = l.dst.device

/-- A link leads from the first device of a hop to the second one. -/
def Spans (hop : String × String) (l : Link) : Prop :=
  l.src.device = hop.1 ∧ l.dst.device = hop.2

theorem hops_cons_cons (d e : String) (ds : List String) :
    hops (d :: e :: ds) = (d, e) :: hops (e :: ds) := rfl

/-- The links of a route with at least one hop are an unbroken path, if each hop has one. -/
theorem unbroken_of_spans {d e : String} {ds : List String} {links : List Link}
    (h : List.Forall₂ Spans (hops (d :: e :: ds)) links) :
    Unbroken links d ((e :: ds).getLast (List.cons_ne_nil e ds)) := by
  induction ds generalizing d e links with
  | nil =>
    obtain _ | ⟨hspans, hrest⟩ := h
    obtain _ | _ := hrest
    exact ⟨⟨_, rfl, hspans.1⟩, ⟨_, rfl, hspans.2⟩, List.isChain_singleton _⟩
  | cons f ds ih =>
    rw [hops_cons_cons] at h
    obtain _ | ⟨hspans, hrest⟩ := h
    obtain ⟨⟨m, hhead, hm⟩, ⟨k, hlast, hk⟩, hjoined⟩ := ih hrest
    refine ⟨⟨_, rfl, hspans.1⟩, ⟨k, ?_, ?_⟩, ?_⟩
    · rw [List.getLast?_cons, hlast]
      rfl
    · rw [hk, List.getLast_cons (List.cons_ne_nil f ds)]
    · refine List.isChain_cons.mpr ⟨fun n hn => ?_, hjoined⟩
      rw [← Option.some.inj (hhead.symm.trans hn), hm, hspans.2]

/-- A route that starts and ends on different devices has a hop. -/
theorem unbroken_of_route {devices : List String} {links : List Link} {first last : String}
    (hfirst : devices.head? = some first) (hlast : devices.getLast? = some last)
    (hne : first ≠ last) (h : List.Forall₂ Spans (hops devices) links) :
    Unbroken links first last := by
  match devices with
  | [] => exact absurd hfirst (by simp)
  | [d] => exact absurd ((Option.some.inj hfirst).symm.trans (Option.some.inj hlast)) hne
  | d :: e :: ds =>
    obtain rfl := Option.some.inj hfirst
    rw [List.getLast?_eq_some_getLast (List.cons_ne_nil d (e :: ds)),
      List.getLast_cons (List.cons_ne_nil e ds)] at hlast
    obtain rfl := Option.some.inj hlast
    exact unbroken_of_spans h

namespace Planner

variable {p : Planner} {s t : State} {ingress egress : ConnectPoint} {flag : Json}

/-! ## Looking links up -/

/-- **Hops are looked up one after the other.** For each hop the first link is found that the
adjacency tells of its first device and that ends on its second one, or none. -/
inductive LooksUp (p : Planner) : List (String × String) → State → List (Option Link) → Prop
  | nil (s : State) : LooksUp p [] s []
  | cons {hop : String × String} {rest : List (String × String)} {links : List Link}
      {found : List (Option Link)} {s t u : State}
      (told : Act.exec (p.adjacency hop.1) s = (.ok links, t)) (logs : Logs t u)
      (more : LooksUp p rest u found) :
      LooksUp p (hop :: rest) s ((links.find? fun l => l.dst.device == hop.2) :: found)

/-- What is looked up along some hops are the links that are found for them. -/
theorem looksUp_of_exec {hops : List (String × String)} {links : List Link}
    (h : Act.exec (p.linksAlong hops) s = (.ok links, t)) :
    ∃ found, p.LooksUp hops s found ∧ links = found.reduceOption := by
  induction hops generalizing s t links with
  | nil =>
    obtain rfl := Except.ok.inj (congrArg Prod.fst h)
    exact ⟨[], LooksUp.nil s, rfl⟩
  | cons hop rest ih =>
    rw [linksAlong] at h
    cases htold : Act.exec (p.adjacency hop.1) s with
    | mk o u =>
      cases o with
      | error f =>
        rw [exec_bind_error htold] at h
        exact absurd (congrArg Prod.fst h) (by simp)
      | ok told =>
        rw [exec_bind_ok htold] at h
        cases hfound : told.find? fun l => l.dst.device == hop.2 with
        | none =>
          obtain ⟨v, hwarn, huv⟩ :=
            onlyLogs_log .warning ("No link from " ++ hop.1 ++ " to " ++ hop.2) u
          simp only [hfound] at h
          rw [warn, exec_bind_ok hwarn] at h
          obtain ⟨found, hup, rfl⟩ := ih h
          exact ⟨none :: found, hfound ▸ LooksUp.cons htold huv hup,
            (List.reduceOption_cons_of_none found).symm⟩
        | some l =>
          simp only [hfound] at h
          cases hrest : Act.exec (p.linksAlong rest) u with
          | mk o v =>
            cases o with
            | error f =>
              rw [exec_bind_error hrest] at h
              exact absurd (congrArg Prod.fst h) (by simp)
            | ok more =>
              rw [exec_bind_ok hrest, exec_pure] at h
              obtain rfl := Except.ok.inj (congrArg Prod.fst h)
              obtain ⟨found, hup, rfl⟩ := ih hrest
              exact ⟨some l :: found, hfound ▸ LooksUp.cons htold (Logs.refl u) hup,
                (List.reduceOption_cons_of_some l found).symm⟩

/-- The adjacency tells of each device only links that start or end on it. -/
def KnowsLinks (p : Planner) : Prop :=
  ∀ device s links t, Act.exec (p.adjacency device) s = (.ok links, t) →
    ∀ l ∈ links, l.touches device = true

/-- A link that was found for a hop ends on its second device, and it starts on the first one unless
these are the same. -/
def FitsHop (hop : String × String) (found : Option Link) : Prop :=
  ∀ l, found = some l → l.dst.device = hop.2 ∧ (hop.1 ≠ hop.2 → l.src.device = hop.1)

/-- The link that is found for a hop leads from its device to the next one. -/
theorem fitsHop_find? {device : String} {links : List Link} (h : ∀ l ∈ links, l.touches device = true)
    (next : String) : FitsHop (device, next) (links.find? fun l => l.dst.device == next) := by
  intro l hl
  have hdst := List.find?_some hl
  simp only [beq_iff_eq] at hdst
  refine ⟨hdst, fun hne => ?_⟩
  have htouches := h l (List.mem_of_find?_eq_some hl)
  rw [Link.touches, Bool.or_eq_true, beq_iff_eq, beq_iff_eq] at htouches
  exact htouches.resolve_right fun hdevice => hne (hdevice.symm.trans hdst)

/-- Each link that is found fits its hop. -/
theorem LooksUp.fitsHop {hops : List (String × String)} {found : List (Option Link)}
    (hknows : p.KnowsLinks) (h : p.LooksUp hops s found) : List.Forall₂ FitsHop hops found := by
  induction h with
  | nil s => exact List.Forall₂.nil
  | cons told logs more ih => exact List.Forall₂.cons (fitsHop_find? (hknows _ _ _ _ told) _) ih

/-- Hops between different devices are spanned if none is without a link. -/
theorem spans_of_fitsHop {hops : List (String × String)} {found : List (Option Link)}
    (h : List.Forall₂ FitsHop hops found) (hne : ∀ hop ∈ hops, hop.1 ≠ hop.2) (hall : none ∉ found) :
    List.Forall₂ Spans hops found.reduceOption := by
  induction h with
  | nil => exact List.Forall₂.nil
  | @cons hop o hops found hfits hrest ih =>
    cases o with
    | none => exact absurd List.mem_cons_self hall
    | some l =>
      obtain ⟨hdst, hsrc⟩ := hfits l rfl
      rw [List.reduceOption_cons_of_some]
      refine List.Forall₂.cons ⟨hsrc (hne hop List.mem_cons_self), hdst⟩ (ih ?_ ?_)
      · exact fun hop' hhop' => hne hop' (List.mem_cons_of_mem hop hhop')
      · exact fun hnone => hall (List.mem_cons_of_mem (some l) hnone)

/-! ## Circuits that are asked for -/

/-- The links of the circuit that a message asks for. -/
def submittedLinks? : Event → Option (List Link)
  | .submit _ _ _ links _ => some links
  | _ => none

/-- A message to the link database submits no links, -/
theorem submittedLinks?_of_toStore {e : Event} (h : e.toStore = true) : submittedLinks? e = none := by
  cases e <;> first | rfl | exact absurd h (by simp [Event.toStore])

/-- nor does one that gives a power, -/
theorem submittedLinks?_of_toPower {e : Event} (h : e.toPower = true) : submittedLinks? e = none := by
  cases e <;> first | rfl | exact absurd h (by simp [Event.toPower])

/-- nor a request to the engine. -/
theorem submittedLinks?_of_mem_requestsFor {body : Json} {e : Event}
    (h : e ∈ Engine.requestsFor s body) : submittedLinks? e = none := by
  rw [Engine.requestsFor] at h
  repeat' split at h
  all_goals first
    | exact absurd h List.not_mem_nil
    | rw [List.mem_singleton.mp h]; rfl

/-- A flag that the request has no place for ends the run. -/
theorem exec_ask_of_no_request {f : Failure}
    (h : (Request.between p.transceiverType ingress egress flag).outcome = .error f) (s : State) :
    Act.exec (p.ask ingress egress flag) s = (.error f, s) := by
  rw [ask, h]
  exact exec_bind_error (exec_yield_error f s) _

/-- **A circuit is only asked for with a plan that was decoded.** -/
theorem decoded_of_submitted (hadj : ∀ device, Confined Event.toStore (p.adjacency device))
    (hpower : ∀ device port component value,
      Confined Event.toPower (p.power.set device port component value))
    {e : Event} {links : List Link} (he : e ∈ messages (p.obtain ingress egress flag) s)
    (hlinks : submittedLinks? e = some links) :
    ∃ request reply plan u, (Request.between p.transceiverType ingress egress flag).outcome
        = .ok request ∧ p.Decoded request flag.truthy s reply plan u ∧
      e = submission plan ingress egress flag := by
  have hother {kind : Event → Bool} {es : List Event} (hes : ∀ e ∈ es, kind e = true)
      (hkind : ∀ e, kind e = true → submittedLinks? e = none) : e ∉ es :=
    fun hmem => absurd (hlinks.symm.trans (hkind e (hes e hmem))) (by simp)
  cases hconnected : Engine.connectedIn s with
  | false =>
    obtain ⟨t, hrun, hst⟩ := exec_obtain_of_not_connected hconnected p ingress egress flag
    rw [hst.sends.messages hrun] at he
    exact absurd he List.not_mem_nil
  | true =>
    cases hrequest : (Request.between p.transceiverType ingress egress flag).outcome with
    | error f =>
      have hrun : Act.exec (p.obtain ingress egress flag) s = (.error f, s) := by
        rw [obtain, exec_bind_ok (Engine.exec_isConnected s), hconnected]
        exact exec_bind_error (exec_ask_of_no_request hrequest s) _
      rw [messages, hrun, List.drop_length] at he
      exact absurd he List.not_mem_nil
    | ok request =>
      obtain ⟨t, hasked, hcircuits, hcases⟩ :=
        exec_obtain_cases hadj hrequest hconnected
      have hnotAsked : e ∉ Engine.requestsFor s request.toJson := fun hmem =>
        absurd (hlinks.symm.trans (submittedLinks?_of_mem_requestsFor hmem)) (by simp)
      obtain ⟨-, -, looked, hevents, hlooked⟩ |
        ⟨reply, plan, u, looked, hdecoded, hrun, kcircuits, hevents, hlooked⟩ := hcases
      · rw [messages, hevents, hasked, List.append_assoc, List.drop_left] at he
        exact absurd he (List.not_mem_append hnotAsked
          (hother hlooked fun _ => submittedLinks?_of_toStore))
      · obtain ⟨out, v, powered, submitted, hrest, hmore, horder⟩ :=
          exists_inOrder_of_decoded ingress egress hpower hdecoded (kcircuits.trans hcircuits)
            hconnected rfl hlooked
        rw [messages, hrun, hrest, hmore, hevents, hasked] at he
        simp only [List.append_assoc, List.drop_left, List.mem_append] at he
        have hmem : e ∈ submitted :=
          ((he.resolve_left hnotAsked).resolve_left
            (hother hlooked fun _ => submittedLinks?_of_toStore)).resolve_left
            (hother horder.powered_power fun _ => submittedLinks?_of_toPower)
        obtain ⟨reply', plan', u', hdecoded', -, hsubmitted⟩ :=
          horder.submitted_eq (List.ne_nil_of_mem hmem)
        rw [hsubmitted, List.mem_singleton] at hmem
        exact ⟨request, reply', plan', u', rfl, hdecoded', hmem⟩

/-! ## The path of a circuit -/

/-- **What the links of a circuit have to do with the route of its plan.** -/
structure Follows (p : Planner) (devices : List String) (s : State) (found : List (Option Link))
    (links : List Link) (first last : String) : Prop where
  /-- They are looked up along the route, -/
  looked : p.LooksUp (hops devices) s found
  /-- hops that nothing was found for are left out, -/
  links_eq : links = found.reduceOption
  /-- and each link belongs to its hop. -/
  fits : List.Forall₂ FitsHop (hops devices) found
  /-- They lead from one end of the circuit to the other without a break if the route does and no link
  is missing. -/
  unbroken : devices.head? = some first → devices.getLast? = some last → first ≠ last →
    (∀ hop ∈ hops devices, hop.1 ≠ hop.2) → none ∉ found → Unbroken links first last

/-- The links along a route follow its devices. -/
theorem exists_follows (hknows : p.KnowsLinks) {devices : List String} {links : List Link}
    (h : Act.exec (p.linksAlong (hops devices)) s = (.ok links, t)) (first last : String) :
    ∃ found, p.Follows devices s found links first last := by
  obtain ⟨found, hup, rfl⟩ := looksUp_of_exec h
  have hfits := hup.fitsHop hknows
  exact ⟨found, hup, rfl, hfits, fun hfirst hlast hne hhops hall =>
    unbroken_of_route hfirst hlast hne (spans_of_fitsHop hfits hhops hall)⟩

/-- **A circuit is asked for over the links along the route.** Let the adjacency tell of each device
only links that start or end on it. Then, whatever the engine replies, the links of each circuit that
is asked for are those that were looked up along the route of a plan that was decoded. -/
theorem submittedLinks_obtain (hadj : ∀ device, Confined Event.toStore (p.adjacency device))
    (hpower : ∀ device port component value,
      Confined Event.toPower (p.power.set device port component value))
    (hknows : p.KnowsLinks) (ingress egress : ConnectPoint) (flag : Json) (s : State) :
    ∀ links ∈ (messages (p.obtain ingress egress flag) s).filterMap submittedLinks?,
      ∃ request text t reply plan u found,
        (Request.between p.transceiverType ingress egress flag).outcome = .ok request ∧
        Act.exec (Engine.post request.toJson) s = (.ok text, t) ∧
        p.Decoded request flag.truthy s reply plan u ∧
        p.Follows plan.route.devices t found links ingress.device egress.device := by
  intro links hlinks
  obtain ⟨e, he, hlinks⟩ := List.mem_filterMap.mp hlinks
  obtain ⟨request, reply, plan, u, hrequest, hdecoded, rfl⟩ :=
    decoded_of_submitted hadj hpower he hlinks
  obtain rfl : plan.path.links = links := Option.some.inj hlinks
  obtain ⟨text, t, hpost, hparse, htruthy, hdecode⟩ := id hdecoded
  obtain ⟨-, hlooked⟩ := of_exec_decode hdecode
  obtain ⟨found, hfollows⟩ := exists_follows hknows hlooked ingress.device egress.device
  exact ⟨request, text, t, reply, plan, u, found, hrequest, hpost, hdecoded, hfollows⟩

/-! ## Paths with breaks -/

/-- A planner that knows some links. -/
def overLinks (links : List Link) : Planner :=
  ⟨"netconf:", "Cassini", .notes none, fun device => return links.filter (·.touches device)⟩

/-- A planner over fixed links knows them. -/
theorem knowsLinks_overLinks (links : List Link) : (overLinks links).KnowsLinks := by
  intro device s told t h l hl
  obtain rfl := Except.ok.inj (congrArg Prod.fst h)
  exact (List.mem_filter.mp hl).2

/-- The route object of a device. -/
def hopText (device : String) : String :=
  "\x7b\"path-route-object\": \x7b\"num-unnum-hop\": \x7b\"node-id\": \"" ++ device
    ++ "\"\x7d\x7d\x7d, "

/-- A site whose engine answers with a route over two devices. -/
def routedSite (first second : String) : State :=
  { answeringSite with
    answers := [.reply 200 "OK" ("\x7b\"result\": \x7b\"response\": [\x7b\"path-properties\": "
      ++ "\x7b\"path-route-objects\": [" ++ hopText first ++ hopText second
      ++ "\x7b\"path-route-object\": \x7b\x7d\x7d]\x7d\x7d]\x7d\x7d")] }

/-- A link from one terminal to the other one. -/
def terminalLink : Link :=
  ⟨⟨"netconf:a", 2⟩, ⟨"netconf:b", 2⟩⟩

/-- The links over which circuits are asked for when the engine tells the route from one terminal to the
other: over the link between them, over none if it is not known, and over the same link also when the
circuit is to lead the other way. -/
theorem submittedLinks_routed :
    (messages ((overLinks [terminalLink]).obtain ⟨"netconf:a", 1⟩ ⟨"netconf:b", 1⟩ (.bool true))
        (routedSite "netconf:a" "netconf:b")).filterMap submittedLinks? = [[terminalLink]] ∧
      (messages ((overLinks []).obtain ⟨"netconf:a", 1⟩ ⟨"netconf:b", 1⟩ (.bool true))
        (routedSite "netconf:a" "netconf:b")).filterMap submittedLinks? = [[]] ∧
      (messages ((overLinks [terminalLink]).obtain ⟨"netconf:b", 1⟩ ⟨"netconf:a", 1⟩ (.bool true))
        (routedSite "netconf:a" "netconf:b")).filterMap submittedLinks? = [[terminalLink]] := by
  decide +kernel

/-- A circuit over this link. -/
theorem submittedLinks_obtain_terminalLink :
    ∃ request text t reply plan u found,
      (Request.between "Cassini" ⟨"netconf:a", 1⟩ ⟨"netconf:b", 1⟩ (.bool true)).outcome
        = .ok request ∧
      Act.exec (Engine.post request.toJson) (routedSite "netconf:a" "netconf:b") = (.ok text, t) ∧
      (overLinks [terminalLink]).Decoded request true (routedSite "netconf:a" "netconf:b") reply plan
        u ∧
      (overLinks [terminalLink]).Follows plan.route.devices t found [terminalLink] "netconf:a"
        "netconf:b" := by
  have hmem : [terminalLink] ∈
      (messages ((overLinks [terminalLink]).obtain ⟨"netconf:a", 1⟩ ⟨"netconf:b", 1⟩ (.bool true))
        (routedSite "netconf:a" "netconf:b")).filterMap submittedLinks? := by
    rw [submittedLinks_routed.1]
    exact List.mem_singleton_self _
  exact submittedLinks_obtain (p := overLinks [terminalLink]) (fun _ => Confined.pure _ _)
    (Power.confined_notes none) (knowsLinks_overLinks _) _ _ _ _ _ hmem

/-- **A circuit may be asked for over a path with a break**: over no link at all when the one between
the two devices of the route is not known, and from the wrong end when the route leads the other
way. -/
theorem submittedLinks_with_break :
    ((overLinks []).KnowsLinks ∧
      (messages ((overLinks []).obtain ⟨"netconf:a", 1⟩ ⟨"netconf:b", 1⟩ (.bool true))
        (routedSite "netconf:a" "netconf:b")).filterMap submittedLinks? = [[]] ∧
      ¬ Unbroken [] "netconf:a" "netconf:b") ∧
    (overLinks [terminalLink]).KnowsLinks ∧
      (messages ((overLinks [terminalLink]).obtain ⟨"netconf:b", 1⟩ ⟨"netconf:a", 1⟩ (.bool true))
        (routedSite "netconf:a" "netconf:b")).filterMap submittedLinks? = [[terminalLink]] ∧
      ¬ Unbroken [terminalLink] "netconf:b" "netconf:a" := by
  obtain ⟨-, hmissing, hreversed⟩ := submittedLinks_routed
  refine ⟨⟨knowsLinks_overLinks _, hmissing, fun h => ?_⟩, knowsLinks_overLinks _, hreversed,
    fun h => ?_⟩
  · obtain ⟨l, hl, -⟩ := h.starts
    exact absurd hl (by simp)
  · obtain ⟨l, hl, hsrc⟩ := h.starts
    obtain rfl := Option.some.inj hl
    exact absurd hsrc (by decide)

end Planner

end Lightpath.PathPlan
