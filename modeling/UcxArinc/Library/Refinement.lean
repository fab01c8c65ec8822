import Mathlib.Tactic.Common

set_option autoImplicit false

/-! # Machines that answer, and refinement

A machine takes calls and answers them: `step : σ → ε → Option (σ × α)`, with `none` where a call is not
allowed or what it does is not defined. A concrete machine refines an abstract one if, from related states,
it takes every call the abstract machine allows, answers it alike and is left in a related state. What one
call preserves, a sequence of calls preserves. -/

namespace Refinement

variable {σ τ ε α : Type*}

/-- The state a sequence of calls leads to and the answers to them, if every call is taken. -/
def exec (step : σ → ε → Option (σ × α)) (s : σ) : List ε → Option (σ × List α)
  | [] => some (s, [])
  | e :: es => (step s e).bind fun r => (exec step r.1 es).map fun r' => (r'.1, r.2 :: r'.2)

/-- Every call allowed in `t` is taken in a related `s`, with the same answer, and keeps the states related. -/
def Simulates (R : σ → τ → Prop) (step : σ → ε → Option (σ × α)) (step' : τ → ε → Option (τ × α)) : Prop :=
  ∀ s t e t' a, R s t → step' t e = some (t', a) → ∃ s', step s e = some (s', a) ∧ R s' t'

variable {step : σ → ε → Option (σ × α)} {step' : τ → ε → Option (τ × α)} {R : σ → τ → Prop}

@[simp] theorem exec_nil (s : σ) : exec step s [] = some (s, []) := rfl

theorem exec_cons_eq_some {s s' : σ} {e : ε} {es : List ε} {answers : List α} :
    exec step s (e :: es) = some (s', answers)
      ↔ ∃ t a rest, step s e = some (t, a) ∧ exec step t es = some (s', rest) ∧ answers = a :: rest := by
  rw [exec, Option.bind_eq_some_iff]
  constructor
  · rintro ⟨⟨t, a⟩, hstep, hrest⟩
    obtain ⟨⟨u, rest⟩, hlater, heq⟩ := Option.map_eq_some_iff.mp hrest
    rw [Prod.mk.injEq] at heq
    obtain ⟨rfl, rfl⟩ := heq
    exact ⟨t, a, rest, hstep, hlater, rfl⟩
  · rintro ⟨t, a, rest, hstep, hrest, rfl⟩
    exact ⟨(t, a), hstep, Option.map_eq_some_iff.mpr ⟨(s', rest), hrest, rfl⟩⟩

/-- What a simulation says of one call holds of every sequence of calls. -/
theorem Simulates.exec (h : Simulates R step step') {s : σ} {t t' : τ} {es : List ε} {answers : List α}
    (hrel : R s t) (hexec : exec step' t es = some (t', answers)) :
    ∃ s', exec step s es = some (s', answers) ∧ R s' t' := by
  induction es generalizing s t answers with
  | nil =>
      rw [exec_nil, Option.some.injEq, Prod.mk.injEq] at hexec
      obtain ⟨rfl, rfl⟩ := hexec
      exact ⟨s, rfl, hrel⟩
  | cons e es ih =>
      obtain ⟨u, a, rest, hstep, hrest, rfl⟩ := exec_cons_eq_some.mp hexec
      obtain ⟨v, hconcrete, hrel'⟩ := h s t e u a hrel hstep
      obtain ⟨s', hexec', hlast⟩ := ih hrel' hrest
      exact ⟨s', exec_cons_eq_some.mpr ⟨v, a, rest, hconcrete, hexec', rfl⟩, hlast⟩

end Refinement
