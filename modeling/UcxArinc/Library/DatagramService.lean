import Mathlib.Data.Set.Insert
import Mathlib.Logic.Relation
import UcxArinc.Library.LabelledRuns

set_option autoImplicit false

/-! # Datagram services

A datagram that is sent may be lost or be in flight. One in flight may be handed over, again and again, and in any
order, and whoever gets it may answer it with another one. Nothing else comes into flight: what is handed over goes
back to something that has been sent. -/

namespace DatagramService

variable {δ : Type*}

/-- What happens to a service. -/
inductive Event (δ : Type*)
  /-- `d` is sent -/
  | sent (d : δ)
  /-- `d` is handed over -/
  | handed (d : δ)
  /-- nothing, or a datagram is answered -/
  | other
  deriving DecidableEq, Repr

/-- One event, with the datagrams in flight before and after it. -/
inductive Step (Answers : δ → δ → Prop) : Set δ → Event δ → Set δ → Prop
  | lost (flight : Set δ) (d : δ) : Step Answers flight (.sent d) flight
  | sent (flight : Set δ) (d : δ) : Step Answers flight (.sent d) (insert d flight)
  | handed {flight : Set δ} {d : δ} (hd : d ∈ flight) : Step Answers flight (.handed d) flight
  | idle (flight : Set δ) : Step Answers flight .other flight
  | answered {flight : Set δ} {d d' : δ} (hd : d ∈ flight) (hanswer : Answers d d') :
      Step Answers flight .other (insert d' flight)

/-- Several events in a row. -/
abbrev Run (Answers : δ → δ → Prop) : Set δ → List (Event δ) → Set δ → Prop := LabelledRun.Run (Step Answers)

/-- `d` goes back to `d₀`: it is `d₀`, or an answer, or an answer to one, and so on. -/
abbrev Origin (Answers : δ → δ → Prop) (d₀ d : δ) : Prop := Relation.ReflTransGen Answers d₀ d

variable {Answers : δ → δ → Prop} {flight flight' : Set δ} {e : Event δ} {es : List (Event δ)} {d : δ}

/-- What is in flight after an event was before, or is sent by it, or answers what was in flight. -/
theorem Step.origin (h : Step Answers flight e flight') (hd : d ∈ flight') :
    e = .sent d ∨ ∃ d₀ ∈ flight, Origin Answers d₀ d := by
  cases h with
  | sent d' =>
      rcases Set.mem_insert_iff.mp hd with rfl | hold
      · exact Or.inl rfl
      · exact Or.inr ⟨d, hold, .refl⟩
  | answered hd₀ hanswer =>
      rcases Set.mem_insert_iff.mp hd with rfl | hold
      · exact Or.inr ⟨_, hd₀, .single hanswer⟩
      · exact Or.inr ⟨d, hold, .refl⟩
  | _ => exact Or.inr ⟨d, hd, .refl⟩

/-- Over a run, what is in flight goes back to what was, or to what has been sent. -/
theorem Run.origin (h : Run Answers flight es flight') (hd : d ∈ flight') :
    ∃ d₀, (d₀ ∈ flight ∨ .sent d₀ ∈ es) ∧ Origin Answers d₀ d := by
  induction h with
  | nil flight => exact ⟨d, Or.inl hd, .refl⟩
  | cons hstep _ ih =>
      obtain ⟨d₁, hd₁ | hsent, horigin⟩ := ih hd
      · rcases hstep.origin hd₁ with rfl | ⟨d₀, hd₀, hfirst⟩
        · exact ⟨d₁, Or.inr List.mem_cons_self, horigin⟩
        · exact ⟨d₀, Or.inl hd₀, hfirst.trans horigin⟩
      · exact ⟨d₁, Or.inr (List.mem_cons_of_mem _ hsent), horigin⟩

end DatagramService
