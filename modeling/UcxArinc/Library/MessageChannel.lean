import Mathlib.Algebra.Order.Ring.Nat
import UcxArinc.Library.LabelledRuns

set_option autoImplicit false

/-! # Message channels

What a message buffer is for, whatever implements it: a queue of at most `capacity` messages with those who
wait for a message and those who wait for room. A message sent is stored, or goes to a reader if one waits;
a message is received from the front of the queue, and the first writer that waits fills the place it leaves.
Those who wait may give up at any time. -/

namespace MessageChannel

variable {α μ : Type*}

/-- The messages stored, oldest first, and who waits. -/
structure Channel (α μ : Type*) where
  capacity : Nat
  stored : List μ
  readers : List α
  writers : List α

/-- What happens to a channel. -/
inductive Event (α μ : Type*)
  /-- a message is stored -/
  | stored (m : μ)
  /-- a message goes to `a`, who has waited first -/
  | handed (a : α) (m : μ)
  /-- a message is taken out -/
  | taken (m : μ)
  /-- message `m` is taken out, and message `m'` of `a`, who has waited first, is stored -/
  | exchanged (m : μ) (a : α) (m' : μ)
  /-- `a` finds no message and queues -/
  | readerQueued (a : α)
  /-- `a` finds no room and queues -/
  | writerQueued (a : α)
  /-- nothing, or somebody gives up waiting -/
  | other
  deriving DecidableEq, Repr

/-- The messages an event accepts. -/
def Event.accepted : Event α μ → List μ
  | .stored m | .handed _ m | .exchanged _ _ m => [m]
  | _ => []

/-- The messages an event assigns to a receiver. -/
def Event.assigned : Event α μ → List μ
  | .handed _ m | .taken m | .exchanged m _ _ => [m]
  | _ => []

/-- One event. -/
inductive Step : Channel α μ → Event α μ → Channel α μ → Prop
  | stored {c : Channel α μ} {m : μ} (hroom : c.stored.length < c.capacity) (hnobody : c.readers = []) :
      Step c (.stored m) { c with stored := c.stored ++ [m] }
  | handed {c : Channel α μ} {a : α} {m : μ} {rest : List α} (hfirst : c.readers = a :: rest) :
      Step c (.handed a m) { c with readers := rest }
  | taken {c : Channel α μ} {m : μ} {left : List μ} (hsome : c.stored = m :: left) (hnobody : c.writers = []) :
      Step c (.taken m) { c with stored := left }
  | exchanged {c : Channel α μ} {m m' : μ} {left : List μ} {a : α} {rest : List α} (hsome : c.stored = m :: left)
      (hfirst : c.writers = a :: rest) :
      Step c (.exchanged m a m') { c with stored := left ++ [m'], writers := rest }
  | readerQueued {c : Channel α μ} {a : α} {front behind : List α} (hnone : c.stored = [])
      (hreaders : c.readers = front ++ behind) :
      Step c (.readerQueued a) { c with readers := front ++ a :: behind }
  | writerQueued {c : Channel α μ} {a : α} {front behind : List α} (hfull : c.capacity ≤ c.stored.length)
      (hwriters : c.writers = front ++ behind) :
      Step c (.writerQueued a) { c with writers := front ++ a :: behind }
  | other {c : Channel α μ} {readers writers : List α} (hreaders : readers.Sublist c.readers)
      (hwriters : writers.Sublist c.writers) : Step c .other { c with readers := readers, writers := writers }

/-- No more messages than there is room for; readers wait only where there is no message, writers only where
    there is no room. -/
structure Sound (c : Channel α μ) : Prop where
  pos : 0 < c.capacity
  length_le : c.stored.length ≤ c.capacity
  readers : c.readers ≠ [] → c.stored = []
  writers : c.writers ≠ [] → c.stored.length = c.capacity

variable {c c' : Channel α μ} {e : Event α μ} {es : List (Event α μ)}

theorem ne_nil_of_sublist {l l' : List α} (h : l.Sublist l') (hne : l ≠ []) : l' ≠ [] := by
  rintro rfl
  exact hne (List.sublist_nil.mp h)

theorem Step.sound (h : Step c e c') (hc : Sound c) : Sound c' := by
  obtain ⟨hpos, hle, hreaders, hwriters⟩ := hc
  cases h with
  | stored hroom hnobody =>
      refine ⟨hpos, by simpa using Nat.succ_le_of_lt hroom, fun hne => absurd hnobody hne, fun hne => ?_⟩
      exact absurd (hwriters hne) hroom.ne
  | handed hfirst =>
      refine ⟨hpos, hle, fun _ => hreaders (by simp [hfirst]), hwriters⟩
  | taken hsome hnobody =>
      refine ⟨hpos, ?_, fun hne => ?_, fun hne => absurd hnobody hne⟩
      · rw [hsome] at hle
        exact Nat.le_of_succ_le hle
      · rw [hreaders hne] at hsome
        cases hsome
  | exchanged hsome hfirst =>
      have hlength := hwriters (by simp [hfirst])
      rw [hsome] at hlength
      refine ⟨hpos, by simpa using hlength.le, fun hne => ?_, fun _ => by simpa using hlength⟩
      rw [hreaders hne] at hsome
      cases hsome
  | readerQueued hnone hfront =>
      exact ⟨hpos, hle, fun _ => hnone, hwriters⟩
  | writerQueued hfull hfront =>
      exact ⟨hpos, hle, hreaders, fun _ => le_antisymm hle hfull⟩
  | other hsub hsub' =>
      exact ⟨hpos, hle, fun hne => hreaders (ne_nil_of_sublist hsub hne),
        fun hne => hwriters (ne_nil_of_sublist hsub' hne)⟩

/-- What is stored and then accepted is what is assigned and then stored. -/
theorem Step.fifo (h : Step c e c') (hc : Sound c) : c.stored ++ e.accepted = e.assigned ++ c'.stored := by
  cases h with
  | handed hfirst =>
      have hempty := hc.readers (by simp [hfirst])
      simp [Event.accepted, Event.assigned, hempty]
  | taken hsome hnobody => simp [Event.accepted, Event.assigned, hsome]
  | exchanged hsome hfirst => simp [Event.accepted, Event.assigned, hsome]
  | _ => simp [Event.accepted, Event.assigned]

/-! ## Runs -/

/-- Several events in a row. -/
abbrev Run : Channel α μ → List (Event α μ) → Channel α μ → Prop := LabelledRun.Run Step

/-- Over a run the messages come out as they have gone in: the messages assigned, and then those stored, are
    those that were stored and then those accepted. -/
theorem Run.fifo (h : Run c es c') (hc : Sound c) :
    c.stored ++ es.flatMap Event.accepted = es.flatMap Event.assigned ++ c'.stored := by
  induction h with
  | nil c => simp
  | cons hstep _ ih =>
      have hfirst := hstep.fifo hc
      have hrest := ih (hstep.sound hc)
      rw [List.flatMap_cons, List.flatMap_cons, ← List.append_assoc, hfirst, List.append_assoc, hrest,
        List.append_assoc]

end MessageChannel
