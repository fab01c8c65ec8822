import UcxArinc.Library.Transition

set_option autoImplicit false

/-! # Noninterference

Some events of a system are seen, the others are not. The system keeps them apart when the unseen ones change
nothing that counts for the seen ones: from two states that are alike, a seen event leads to states that are
alike, with the same answer. Then a run shows as much as the run of its seen events alone. -/

namespace Noninterference

variable {σ ε β : Type*} (step : σ → ε → Option σ)

/-- The answers to the seen events of a run. -/
def answers (seen : ε → Bool) (answer : σ → ε → β) (s : σ) (es : List ε) : List β :=
  Transition.record step (fun bs s e => if seen e then bs ++ [answer s e] else bs) [] s es

variable {step} {ok : σ → ε → Prop} {seen : ε → Bool} {answer : σ → ε → β} {I : σ → Prop} {R : σ → σ → Prop}

end Noninterference
