import Mathlib.Algebra.BigOperators.Group.List.Basic
import Mathlib.Algebra.Order.Ring.Int
import UcxArinc.Library.LabelledRuns

set_option autoImplicit false

/-! # Token pools

What a counting semaphore is for, whatever implements it: a pool of at most `maximum` tokens and a queue of
those who wait for one. Whoever finds a token takes it, who finds none may queue, and a token that comes back
goes to the first of the queue if there is one. Those who queue may give up at any time. -/

namespace TokenPool

variable {α : Type*}

/-- The tokens there are, how many there can be, and who waits for one. -/
structure Pool (α : Type*) where
  value : Int
  maximum : Int
  waiting : List α

/-- What happens to a pool. -/
inductive Event (α : Type*)
  /-- a token is taken at once -/
  | taken
  /-- `a` finds no token and queues -/
  | queued (a : α)
  /-- a token comes back, and nobody waits for it -/
  | returned
  /-- a token comes back, and goes to `a`, who has waited first -/
  | handed (a : α)
  /-- nothing, or somebody gives up waiting -/
  | other
  deriving DecidableEq, Repr

/-- The tokens an event grants. -/
def Event.grants : Event α → Int
  | .taken | .handed _ => 1
  | _ => 0

/-- The tokens an event gives back. -/
def Event.signals : Event α → Int
  | .returned | .handed _ => 1
  | _ => 0

/-- Who comes to the queue. -/
def Event.arrival : Event α → Option α
  | .queued a => some a
  | _ => none

/-- Who is served from the queue. -/
def Event.served : Event α → Option α
  | .handed a => some a
  | _ => none

/-- One event. In a pool that serves in the order of arrival the queue grows at its end. -/
inductive Step (inOrder : Prop) : Pool α → Event α → Pool α → Prop
  | taken {c : Pool α} (hsome : 0 < c.value) : Step inOrder c .taken { c with value := c.value - 1 }
  | queued {c : Pool α} {a : α} {front behind : List α} (hnone : c.value ≤ 0)
      (hwaiting : c.waiting = front ++ behind) (hlast : inOrder → behind = []) :
      Step inOrder c (.queued a) { c with waiting := front ++ a :: behind }
  | returned {c : Pool α} (hnobody : c.waiting = []) (hroom : c.value ≠ c.maximum) :
      Step inOrder c .returned { c with value := c.value + 1 }
  | handed {c : Pool α} {a : α} {rest : List α} (hfirst : c.waiting = a :: rest) :
      Step inOrder c (.handed a) { c with waiting := rest }
  | other {c : Pool α} {left : List α} (hleft : left.Sublist c.waiting) :
      Step inOrder c .other { c with waiting := left }

/-- Neither less than no token nor more than there can be, and nobody waits while there is one. -/
structure Sound (c : Pool α) : Prop where
  nonneg : 0 ≤ c.value
  le_maximum : c.value ≤ c.maximum
  nobody : 0 < c.value → c.waiting = []

variable {inOrder : Prop} {c c' c'' : Pool α} {e : Event α} {es : List (Event α)}

theorem Step.sound (h : Step inOrder c e c') (hc : Sound c) : Sound c' := by
  obtain ⟨hnonneg, hle, hnobody⟩ := hc
  cases h with
  | taken hsome => exact ⟨Int.sub_nonneg_of_le hsome, by dsimp only; omega, fun _ => hnobody hsome⟩
  | queued hnone hwaiting hlast => exact ⟨hnonneg, hle, fun hpos => absurd hpos (not_lt.mpr hnone)⟩
  | returned hempty hroom => exact ⟨by dsimp only; omega, by dsimp only; omega, fun _ => hempty⟩
  | handed hfirst =>
      refine ⟨hnonneg, hle, fun hpos => ?_⟩
      rw [hnobody hpos] at hfirst
      cases hfirst
  | other hleft =>
      refine ⟨hnonneg, hle, fun hpos => ?_⟩
      rw [hnobody hpos] at hleft
      exact List.sublist_nil.mp hleft

/-- Tokens come from and go to somebody. -/
theorem Step.conserves (h : Step inOrder c e c') : c'.value + e.grants = c.value + e.signals := by
  cases h <;> simp [Event.grants, Event.signals]

/-! ## Runs -/

/-- Several events in a row. -/
abbrev Run (inOrder : Prop) : Pool α → List (Event α) → Pool α → Prop := LabelledRun.Run (Step inOrder)

/-- Over a run the tokens at hand and those granted are those there were and those given back. -/
theorem Run.conserves (h : Run inOrder c es c') :
    c'.value + (es.map Event.grants).sum = c.value + (es.map Event.signals).sum := by
  induction h with
  | nil c => simp
  | cons hstep _ ih =>
      have hfirst := hstep.conserves
      simp only [List.map_cons, List.sum_cons]
      omega

/-- A pool that serves in the order of arrival has served, in order, some of those who have come, and those
    who wait have come later, in order. -/
theorem Run.in_order (h : Run inOrder c es c') (horder : inOrder) :
    (es.filterMap Event.served ++ c'.waiting).Sublist (c.waiting ++ es.filterMap Event.arrival) := by
  induction h with
  | nil c => simp
  | cons hstep _ ih =>
      cases hstep with
      | taken | returned => exact ih
      | queued hnone hwaiting hlast =>
          simpa [List.filterMap_cons, Event.served, Event.arrival, hlast horder, hwaiting] using ih
      | handed hfirst => simpa [List.filterMap_cons, Event.served, Event.arrival, hfirst] using ih
      | other hleft => exact ih.trans (hleft.append_right _)

end TokenPool
