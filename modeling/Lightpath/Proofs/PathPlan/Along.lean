import Lightpath.PathPlan.Planner
import Lightpath.Proofs.Site.Along

/-!
# A planner along a relation

A planner speaks to the engine, to the control of powers, to whoever knows the links and to the circuit
service, and otherwise it only writes to the log. So it follows each relation that these follow.
-/

namespace Lightpath.PathPlan.Planner

open Lightpath.Site Lightpath.Topology

variable {p : Planner} {R : State → State → Prop} [Followed R]

/-! ## Decoding -/

section Links

variable (hadj : ∀ device, Along R (p.adjacency device))

include hadj

/-- The links are looked up one after the other. -/
theorem along_linksAlong (hops : List (String × String)) : Along R (p.linksAlong hops) := by
  induction hops with
  | nil => exact Along.pure _
  | cons hop rest ih =>
    refine (hadj hop.1).bind fun links => ?_
    cases links.find? fun l => l.dst.device == hop.2 with
    | none => exact (Along.warn _).bind fun _ => ih
    | some l => exact ih.bind fun _ => Along.pure _

/-- A reply is read without asking anyone; only its links are looked up. -/
theorem along_decode (reply : Json) (both : Bool) : Along R (p.decode reply both) := by
  refine (Along.yield _).bind fun reading => ?_
  cases reading with
  | unanswered => exact (Along.warn _).bind fun _ => Along.pure _
  | malformed => exact (Along.complain _).bind fun _ => Along.pure _
  | plan bare => exact (along_linksAlong hadj _).bind fun _ => Along.pure _

end Links

/-! ## Giving out powers -/

section Powers

variable (hpower : ∀ device port component value, Along R (p.power.set device port component value))

include hpower

/-- A point is given its power by one call at most. -/
theorem along_setHopPower (plan : Plan) (powers : PowerMap) (point : ConnectPoint) :
    Along R (p.setHopPower plan powers point) := by
  rw [setHopPower]
  split
  · simp only
    split
    · exact (Along.warn _).bind fun _ => Along.pure _
    · refine (Along.info _).bind fun _ => ?_
      exact (hpower _ _ _ _).discard.bind fun _ => Along.pure _
  · exact Along.pure _

/-- Both ends of each link are given their powers. -/
theorem along_setLinkPowers (plan : Plan) (links : List Link) : Along R (p.setLinkPowers plan links) := by
  induction links with
  | nil => exact Along.pure _
  | cons l ls ih =>
    refine (along_setHopPower hpower _ _ _).bind fun src => ?_
    refine (along_setHopPower hpower _ _ _).bind fun dst => ?_
    exact ih.bind fun _ => Along.pure _

theorem along_setLaunchPower (plan : Plan) (point : ConnectPoint) :
    Along R (p.setLaunchPower plan point) := by
  rw [setLaunchPower]
  split
  · refine (Along.info _).bind fun _ => ?_
    exact (hpower _ _ _ _).discard.bind fun _ => Along.pure _
  · exact Along.pure _

/-- Powers are given out through the control only. -/
theorem along_applyPowers (plan : Plan) (ingress egress : ConnectPoint) :
    Along R (p.applyPowers plan ingress egress) := by
  refine (along_setLinkPowers hpower _ _).bind fun inner => ?_
  split
  · exact Along.pure _
  · refine (along_setLaunchPower hpower _ _).bind fun first => ?_
    exact (along_setLaunchPower hpower _ _).bind fun _ => Along.pure _

end Powers

/-! ## Circuits -/

/-- The circuit is asked for by one message. -/
theorem along_submit {plan : Plan} {ingress egress : ConnectPoint} {flag : Json}
    (hsend : Along R (send (submission plan ingress egress flag))) :
    Along R (submit plan ingress egress flag) := by
  refine hsend.bind fun _ => Along.get.bind fun s => ?_
  cases s.circuits (submission plan ingress egress flag) with
  | error text => exact (Along.complain _).bind fun _ => Along.pure _
  | ok id => exact (Along.yield _).bind fun _ => (Along.info _).bind fun _ => Along.pure _

/-- The engine is asked by one request; its fault is caught. -/
theorem along_ask (hpost : ∀ body, Along R (Engine.post body)) (ingress egress : ConnectPoint)
    (flag : Json) : Along R (p.ask ingress egress flag) := by
  refine (Along.yield _).bind fun request => ?_
  refine Along.tryCatch ((hpost _).map _) fun f => ?_
  cases f with
  | computation reason => exact (Along.complain _).bind fun _ => Along.pure _
  | _ => exact Along.yield (.error _)

theorem along_replyIn (text : String) : Along R (replyIn text) := by
  rw [replyIn]
  cases Json.parse text with
  | error f => exact (Along.complain _).bind fun _ => Along.pure _
  | ok reply =>
    by_cases htruthy : reply.truthy = true
    · simp only [htruthy]
      exact Along.pure _
    · simp only [htruthy]
      exact (Along.complain _).bind fun _ => Along.pure _

/-- **A planner follows each relation that everybody it speaks to follows.** -/
theorem along_obtain (hpost : ∀ body, Along R (Engine.post body))
    (hadj : ∀ device, Along R (p.adjacency device))
    (hpower : ∀ device port component value, Along R (p.power.set device port component value))
    (hsubmit : ∀ ingress egress slot links flag, Along R (send (.submit ingress egress slot links flag)))
    (ingress egress : ConnectPoint) (flag : Json) : Along R (p.obtain ingress egress flag) := by
  refine Along.bind (Along.get.bind fun _ => Along.pure _) fun connected => ?_
  cases connected with
  | false => exact (Along.complain _).bind fun _ => Along.pure _
  | true =>
    refine (along_ask hpost _ _ _).bind fun text => ?_
    cases text with
    | none => exact Along.pure _
    | some text =>
      refine (along_replyIn text).bind fun reply => ?_
      cases reply with
      | none => exact Along.pure _
      | some reply =>
        refine (along_decode hadj reply _).bind fun plan => ?_
        cases plan with
        | none => exact Along.pure _
        | some plan =>
          exact (along_applyPowers hpower _ _ _).discard.bind fun _ => along_submit (hsubmit _ _ _ _ _)

end Lightpath.PathPlan.Planner
