import Mathlib.Tactic.Common

set_option autoImplicit false

/-! # Runs of a transition function

A system is a partial step function `step : σ → ε → Option σ` over states and events. A run is a
list of events; a guarded run is one whose every step meets a condition on the state before it.
Safety properties are proved of one step and carried over whole runs by the rules below. -/

namespace Transition

variable {σ ε : Type*} (step : σ → ε → Option σ)

/-- The state a list of events leads to, if every step is defined. -/
def run (s : σ) : List ε → Option σ
  | [] => some s
  | e :: es => (step s e).bind fun s' => run s' es

@[simp] theorem run_nil (s : σ) : run step s [] = some s := rfl

@[simp] theorem run_cons (s : σ) (e : ε) (es : List ε) :
    run step s (e :: es) = (step s e).bind fun s' => run step s' es := rfl

theorem run_append (s : σ) (es es' : List ε) :
    run step s (es ++ es') = (run step s es).bind fun s' => run step s' es' := by
  induction es generalizing s with
  | nil => rfl
  | cons e es ih =>
      simp only [List.cons_append, run_cons, Option.bind_assoc]
      exact congrArg _ (funext fun s' => ih s')

/-- Every step of the run meets `ok` in the state it starts from. -/
inductive GuardedRun (ok : σ → ε → Prop) : σ → List ε → σ → Prop
  | nil (s : σ) : GuardedRun ok s [] s
  | cons {s s' s'' : σ} {e : ε} {es : List ε} (hok : ok s e) (hstep : step s e = some s')
      (hrest : GuardedRun ok s' es s'') : GuardedRun ok s (e :: es) s''

variable {step}

theorem GuardedRun.run_eq {ok : σ → ε → Prop} {s s' : σ} {es : List ε}
    (h : GuardedRun step ok s es s') : run step s es = some s' := by
  induction h with
  | nil s => rfl
  | cons hok hstep hrest ih => rw [run_cons, hstep]; exact ih

theorem GuardedRun.snoc {ok : σ → ε → Prop} {s s' s'' : σ} {es : List ε} {e : ε}
    (h : GuardedRun step ok s es s') (hok : ok s' e) (hstep : step s' e = some s'') :
    GuardedRun step ok s (es ++ [e]) s'' := by
  induction h with
  | nil s => exact .cons hok hstep (.nil _)
  | cons hok' hstep' _ ih => exact .cons hok' hstep' (ih hok hstep)

theorem GuardedRun.append {ok : σ → ε → Prop} {s s' s'' : σ} {es es' : List ε}
    (h : GuardedRun step ok s es s') (h' : GuardedRun step ok s' es' s'') :
    GuardedRun step ok s (es ++ es') s'' := by
  induction h with
  | nil s => exact h'
  | cons hok hstep _ ih => exact .cons hok hstep (ih h')

/-- A run of events that are allowed everywhere is guarded. -/
theorem GuardedRun.of_run {P : ε → Prop} {s s' : σ} {es : List ε} (h : run step s es = some s')
    (hok : ∀ e ∈ es, P e) : GuardedRun step (fun _ e => P e) s es s' := by
  induction es generalizing s with
  | nil =>
      cases h
      exact .nil _
  | cons e es ih =>
      rw [run_cons] at h
      obtain ⟨t, ht, hrest⟩ := Option.bind_eq_some_iff.mp h
      exact .cons (hok e List.mem_cons_self) ht
        (ih hrest fun e' he' => hok e' (List.mem_cons_of_mem _ he'))

/-- A run that meets a condition meets every weaker one. -/
theorem GuardedRun.mono {ok ok' : σ → ε → Prop} {s s' : σ} {es : List ε}
    (h : GuardedRun step ok s es s') (himp : ∀ s e, ok s e → ok' s e) :
    GuardedRun step ok' s es s' := by
  induction h with
  | nil s => exact .nil s
  | cons hok hstep _ ih => exact .cons (himp _ _ hok) hstep ih

/-- What every allowed step preserves holds after every guarded run. -/
theorem GuardedRun.invariant {ok : σ → ε → Prop} {I : σ → Prop} {s s' : σ} {es : List ε}
    (h : GuardedRun step ok s es s')
    (hstep : ∀ s e s', I s → ok s e → step s e = some s' → I s') (hinv : I s) :
    I s' := by
  induction h with
  | nil s => exact hinv
  | cons hok hs _ ih => exact ih (hstep _ _ _ hinv hok hs)

/-- The same rule for unguarded runs. -/
theorem run_invariant {I : σ → Prop} {s s' : σ} {es : List ε} (h : run step s es = some s')
    (hstep : ∀ s e s', I s → step s e = some s' → I s') (hinv : I s) : I s' := by
  induction es generalizing s with
  | nil =>
      cases h
      exact hinv
  | cons e es ih =>
      rw [run_cons] at h
      obtain ⟨t, ht, hrest⟩ := Option.bind_eq_some_iff.mp h
      exact ih hrest (hstep _ _ _ hinv ht)

variable (step)

/-- The state a list of events leads to, if every step is defined and allowed. -/
def checkedRun (ok : σ → ε → Prop) [∀ s e, Decidable (ok s e)] : σ → List ε → Option σ
  | s, [] => some s
  | s, e :: es => if ok s e then (step s e).bind fun s' => checkedRun ok s' es else none

variable {step}

theorem guardedRun_of_checked {ok : σ → ε → Prop} [∀ s e, Decidable (ok s e)] {s s' : σ} {es : List ε}
    (h : checkedRun step ok s es = some s') : GuardedRun step ok s es s' := by
  induction es generalizing s with
  | nil =>
      cases h
      exact .nil _
  | cons e es ih =>
      obtain ⟨hok, hrest⟩ := Option.ite_none_right_eq_some.mp h
      obtain ⟨t, ht, hrest⟩ := Option.bind_eq_some_iff.mp hrest
      exact .cons hok ht (ih hrest)

/-! ## Every state of a run -/

variable (step)

/-- Every state of a run from `s` on meets `P`. -/
def Always (P : σ → Prop) : σ → List ε → Prop
  | s, [] => P s
  | s, e :: es => P s ∧ ∀ s', step s e = some s' → Always P s' es

variable {step}

/-- Where the steps that keep `P` are exactly the allowed ones, the runs that keep it are exactly the guarded
    ones. -/
theorem always_iff_guarded {ok : σ → ε → Prop} {P : σ → Prop} {s s' : σ} {es : List ε}
    (hrun : run step s es = some s') (hstep : ∀ s e s', P s → step s e = some s' → (P s' ↔ ok s e))
    (hstart : P s) : Always step P s es ↔ GuardedRun step ok s es s' := by
  induction es generalizing s with
  | nil =>
      cases hrun
      exact ⟨fun _ => .nil _, fun _ => hstart⟩
  | cons e es ih =>
      rw [run_cons] at hrun
      obtain ⟨t, ht, hrest⟩ := Option.bind_eq_some_iff.mp hrun
      constructor
      · rintro ⟨-, hlater⟩
        have halways := hlater t ht
        have hnext : P t := by
          cases es with
          | nil => exact halways
          | cons e' es' => exact halways.1
        exact .cons ((hstep s e t hstart ht).mp hnext) ht ((ih hrest hnext).mp halways)
      · intro hguarded
        cases hguarded with
        | cons hok ht' hguarded =>
            refine ⟨hstart, fun t' ht'' => ?_⟩
            obtain rfl := Option.some.inj (ht'.symm.trans ht'')
            obtain rfl := Option.some.inj (ht.symm.trans ht')
            exact (ih hrest ((hstep s e _ hstart ht).mpr hok)).mpr hguarded

/-! ## Records of a run -/

variable {β : Type*} (step)

/-- What an observer of a run has on record after it, if `update` enters a step into the record. -/
def record (update : β → σ → ε → β) : β → σ → List ε → β
  | b, _, [] => b
  | b, s, e :: es =>
    match step s e with
    | none => b
    | some s' => record update (update b s e) s' es

variable {step}

theorem record_cons {update : β → σ → ε → β} {b : β} {s s' : σ} {e : ε} {es : List ε}
    (hstep : step s e = some s') :
    record step update b s (e :: es) = record step update (update b s e) s' es := by
  rw [record, hstep]

/-- What every allowed step preserves of the state and the record together holds after every guarded run. -/
theorem GuardedRun.record_invariant {ok : σ → ε → Prop} {I : σ → β → Prop} {f : β → σ → ε → β}
    {b : β} {s s' : σ} {es : List ε} (h : GuardedRun step ok s es s')
    (hstep : ∀ s e s' b, I s b → ok s e → step s e = some s' → I s' (f b s e)) (hinv : I s b) :
    I s' (record step f b s es) := by
  induction h generalizing b with
  | nil s => exact hinv
  | cons hok hs _ ih =>
      rw [record_cons hs]
      exact ih (hstep _ _ _ _ hinv hok hs)

/-- The same rule for unguarded runs. -/
theorem run_record_invariant {I : σ → β → Prop} {f : β → σ → ε → β} {b : β} {s s' : σ} {es : List ε}
    (h : run step s es = some s')
    (hstep : ∀ s e s' b, I s b → step s e = some s' → I s' (f b s e)) (hinv : I s b) :
    I s' (record step f b s es) :=
  (GuardedRun.of_run h fun _ _ => trivial).record_invariant (fun s e s' b hI _ => hstep s e s' b hI) hinv

/-! ## The step that ends a phase -/

variable (step)

/-- Event `e`, in state `u`, is the first of the events `es` from `s` on that leaves `P`. -/
inductive Leaves (P : σ → Prop) : σ → List ε → σ → ε → Prop
  | here {s s' : σ} {e : ε} {es : List ε} (hin : P s) (hstep : step s e = some s') (hout : ¬ P s') :
      Leaves P s (e :: es) s e
  | later {s s' u : σ} {e e' : ε} {es : List ε} (hin : P s) (hstep : step s e = some s')
      (hrest : Leaves P s' es u e') : Leaves P s (e :: es) u e'

variable {step}

theorem Leaves.holds {P : σ → Prop} {s u : σ} {es : List ε} {e : ε} (h : Leaves step P s es u e) :
    P s := by
  cases h with
  | here hin hstep hout => exact hin
  | later hin hstep hrest => exact hin

/-- A guarded run before, at and after the step that ends the phase. -/
theorem Leaves.split {P : σ → Prop} {ok : σ → ε → Prop} {s s' u : σ} {es : List ε} {e : ε}
    (h : Leaves step P s es u e) (hrun : GuardedRun step ok s es s') :
    ∃ es₁ es₂ u', GuardedRun step (fun t e => ok t e ∧ P t) s es₁ u ∧ P u ∧ ok u e
      ∧ step u e = some u' ∧ ¬ P u' ∧ GuardedRun step ok u' es₂ s' := by
  induction h with
  | @here s t e es hin hstep hout =>
      cases hrun with
      | cons hok hstep' hrest =>
          rw [hstep] at hstep'
          cases hstep'
          exact ⟨[], es, t, .nil s, hin, hok, hstep, hout, hrest⟩
  | @later s t u e e' es hin hstep hrest ih =>
      cases hrun with
      | cons hok hstep' hrun' =>
          rw [hstep] at hstep'
          cases hstep'
          obtain ⟨es₁, es₂, u', hbefore, hu, hok', hstep', hout, hafter⟩ := ih hrun'
          exact ⟨e :: es₁, es₂, u', .cons ⟨hok, hin⟩ hstep hbefore, hu, hok', hstep', hout, hafter⟩

/-- A phase ends in a run or in the step after it. -/
theorem Leaves.snoc_cases {P : σ → Prop} {ok : σ → ε → Prop} {s s' u : σ} {es : List ε} {e e' : ε}
    (h : Leaves step P s (es ++ [e']) u e) (hrun : GuardedRun step ok s es s') :
    Leaves step P s es u e
      ∨ u = s' ∧ e = e' ∧ P s' ∧ GuardedRun step (fun t e => ok t e ∧ P t) s es s' := by
  induction hrun with
  | nil s =>
      cases h with
      | here hin hstep hout => exact Or.inr ⟨rfl, rfl, hin, .nil _⟩
      | later hin hstep hrest => cases hrest
  | cons hok hstep hrest ih =>
      cases h with
      | here hin hstep' hout => exact Or.inl (.here hin hstep' hout)
      | later hin hstep' hleaves =>
          rw [hstep] at hstep'
          cases hstep'
          rcases ih hleaves with hbefore | ⟨hu, he, hlast, hguarded⟩
          · exact Or.inl (.later hin hstep hbefore)
          · exact Or.inr ⟨hu, he, hlast, .cons ⟨hok, hin⟩ hstep hguarded⟩

/-- A phase ends once. -/
theorem Leaves.unique {P : σ → Prop} {s u u' : σ} {es : List ε} {e e' : ε}
    (h : Leaves step P s es u e) (h' : Leaves step P s es u' e') : u = u' ∧ e = e' := by
  induction h with
  | here hin hstep hout =>
      cases h' with
      | here => exact ⟨rfl, rfl⟩
      | later hin' hstep' hrest =>
          rw [hstep] at hstep'
          cases hstep'
          exact absurd hrest.holds hout
  | later hin hstep hrest ih =>
      cases h' with
      | here hin' hstep' hout =>
          rw [hstep] at hstep'
          cases hstep'
          exact absurd hrest.holds hout
      | later hin' hstep' hrest' =>
          rw [hstep] at hstep'
          cases hstep'
          exact ih hrest'

end Transition
