import UcxArinc.Library.Transition

set_option autoImplicit false

/-! # Labelled runs

Runs of a relation between states and labels. They say what a system is for, where the system itself is a
transition function: whoever watches a run of the function, and notes for every step what it is to the
abstract system, sees a run of the relation. -/

namespace LabelledRun

variable {σ τ ε β : Type*} {R : τ → β → τ → Prop}

/-- Several labelled steps in a row. -/
inductive Run (R : τ → β → τ → Prop) : τ → List β → τ → Prop
  | nil (c : τ) : Run R c [] c
  | cons {c c' c'' : τ} {b : β} {bs : List β} (hstep : R c b c') (hrest : Run R c' bs c'') :
      Run R c (b :: bs) c''

theorem Run.snoc {c c' c'' : τ} {b : β} {bs : List β} (h : Run R c bs c') (hstep : R c' b c'') :
    Run R c (bs ++ [b]) c'' := by
  induction h with
  | nil c => exact .cons hstep (.nil _)
  | cons hfirst _ ih => exact .cons hfirst (ih hstep)

/-- The labels a run of a transition function is noted with. -/
def labels (step : σ → ε → Option σ) (label : σ → ε → β) (s : σ) (es : List ε) : List β :=
  Transition.record step (fun bs s e => bs ++ [label s e]) [] s es

/-- A guarded run whose every step is a labelled step of what `view` shows of it is a labelled run. -/
theorem run_of_guarded {step : σ → ε → Option σ} {ok : σ → ε → Prop} {label : σ → ε → β} {view : σ → τ}
    {I : σ → Prop} {s s' : σ} {es : List ε} (h : Transition.GuardedRun step ok s es s')
    (hstep : ∀ s e s', I s → ok s e → step s e = some s' → I s' ∧ R (view s) (label s e) (view s'))
    (hinv : I s) : I s' ∧ Run R (view s) (labels step label s es) (view s') := by
  refine h.record_invariant (I := fun u bs => I u ∧ Run R (view s) bs (view u)) ?_ ⟨hinv, .nil _⟩
  rintro u e u' bs ⟨hu, hrun⟩ hok hnext
  obtain ⟨hu', hlabelled⟩ := hstep u e u' hu hok hnext
  exact ⟨hu', hrun.snoc hlabelled⟩

/-- The same rule for unguarded runs. -/
theorem run_of_run {step : σ → ε → Option σ} {label : σ → ε → β} {view : σ → τ} {I : σ → Prop} {s s' : σ}
    {es : List ε} (h : Transition.run step s es = some s')
    (hstep : ∀ s e s', I s → step s e = some s' → I s' ∧ R (view s) (label s e) (view s')) (hinv : I s) :
    I s' ∧ Run R (view s) (labels step label s es) (view s') := by
  have hguarded : Transition.GuardedRun step (fun _ _ => True) s es s' := .of_run h fun _ _ => trivial
  exact run_of_guarded hguarded (fun s e s' hs _ => hstep s e s' hs) hinv

end LabelledRun
