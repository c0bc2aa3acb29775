import Lightpath.Proofs.Site.Run
import Mathlib.Order.Defs.Unbundled

/-!
# Steps along a relation

Much of what is said of a step is a relation between the site before it and the site after it, whatever the
step yields and also when it fails. A relation that can be followed from step to step, and past a line of the
log, holds of what is made of such steps.
-/

namespace Lightpath.Site

variable {α β : Type} {R : State → State → Prop}

/-! ## Relations -/

/-- A relation that is followed from step to step, and past each line of the log. -/
class Followed (R : State → State → Prop) : Prop extends IsPreorder State R where
  line : ∀ (s : State) (l : Line), R s { s with lines := s.lines ++ [l] }

/-- **A step that leads from each site to a related one**, however it ends. -/
def Along (R : State → State → Prop) (a : Act α) : Prop :=
  ∀ s, R s (Act.exec a s).2

namespace Along

theorem map (f : α → β) {x : Act α} (hx : Along R x) : Along R (f <$> x) := by
  intro s
  rw [exec_map]
  exact hx s

theorem discard {x : Act α} (hx : Along R x) : Along R (Functor.discard x) :=
  hx.map _

/-- A change to the site has to be one that is followed. -/
theorem modify {f : State → State} (h : ∀ s, R s (f s)) :
    Along R (modifyGet fun s => ((), f s) : Act Unit) :=
  h

variable [Followed R]

/-- A value changes nothing, -/
theorem pure (a : α) : Along R (Pure.pure a : Act α) :=
  fun s => refl_of R s

/-- and neither does a look at the site -/
theorem get : Along R (MonadState.get : Act State) :=
  fun s => refl_of R s

/-- or the outcome of an operation. -/
theorem yield (o : Outcome α) : Along R (Site.yield o) := by
  intro s
  cases o with
  | ok a => exact refl_of R s
  | error f => exact refl_of R s

/-- Lines of the log are followed. -/
theorem log (level : Controller.LogLevel) (text : String) : Along R (Site.log level text) :=
  fun s => Followed.line s _

theorem warn (text : String) : Along R (Site.warn text) :=
  log _ text

theorem complain (text : String) : Along R (Site.complain text) :=
  log _ text

theorem info (text : String) : Along R (Site.info text) :=
  log _ text

/-- One step behind another is followed if both are, whatever the first one yields. -/
theorem bind {x : Act α} {f : α → Act β} (hx : Along R x) (hf : ∀ a, Along R (f a)) :
    Along R (x >>= f) := by
  intro s
  have hfirst := hx s
  rw [exec_bind]
  cases hrun : Act.exec x s with
  | mk o t =>
    rw [hrun] at hfirst
    cases o with
    | error f => exact hfirst
    | ok a => exact trans_of R hfirst (hf a t)

/-- A handler is followed like the step whose failures it handles. -/
theorem tryCatch {x : Act α} {handle : Failure → Act α} (hx : Along R x)
    (hhandle : ∀ f, Along R (handle f)) : Along R (MonadExcept.tryCatch x handle) := by
  intro s
  have hfirst := hx s
  rw [exec_tryCatch]
  cases hrun : Act.exec x s with
  | mk o t =>
    rw [hrun] at hfirst
    cases o with
    | ok a => exact hfirst
    | error f => exact trans_of R hfirst (hhandle f t)

/-- A loop is followed if each round is. -/
theorem forM {f : α → Act Unit} (h : ∀ a, Along R (f a)) (l : List α) : Along R (l.forM f) := by
  induction l with
  | nil => exact Along.pure ()
  | cons a l ih => exact (h a).bind fun _ => ih

/-- The look-up of a session only counts the uses of a device. -/
theorem session? (h : ∀ s devices, R s { s with devices := devices }) (device : String) :
    Along R (Site.session? device) := by
  refine Along.get.bind fun s => ?_
  cases OrderedMap.get? s.devices device with
  | none => exact Along.pure none
  | some d =>
    simp only
    split
    · exact Along.pure _
    · exact Along.pure _
    · exact Along.bind (modify fun s => h s _) fun _ => Along.pure _

end Along

end Lightpath.Site
