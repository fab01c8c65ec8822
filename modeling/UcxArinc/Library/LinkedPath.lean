import Mathlib.Data.List.Basic
import Mathlib.Order.Basic
import Mathlib.Tactic.Common

set_option autoImplicit false

/-! # Linked lists in memory

A memory gives every cell a successor `next`. `LinkedPath next a bs z` says that following `next` from `a`
visits the cells `bs`, in this order, and then stands at `z`. -/

universe u

variable {α : Type u}

/-- From `a` through `bs` to `z`. -/
def LinkedPath (next : α → α) : α → List α → α → Prop
  | a, [], z => a = z
  | a, b :: bs, z => a = b ∧ LinkedPath next (next b) bs z

namespace LinkedPath

variable {next next' : α → α} {a b m z : α} {bs cs : List α}

@[simp] theorem nil_iff : LinkedPath next a [] z ↔ a = z := Iff.rfl

@[simp] theorem cons_iff : LinkedPath next a (b :: bs) z ↔ a = b ∧ LinkedPath next (next b) bs z := Iff.rfl

theorem append (h : LinkedPath next a bs m) (h' : LinkedPath next m cs z) : LinkedPath next a (bs ++ cs) z := by
  induction bs generalizing a with
  | nil =>
      obtain rfl := nil_iff.mp h
      exact h'
  | cons b bs ih => exact ⟨h.1, ih h.2⟩

/-- A path through two lists passes a cell between them. -/
theorem split (h : LinkedPath next a (bs ++ cs) z) : ∃ m, LinkedPath next a bs m ∧ LinkedPath next m cs z := by
  induction bs generalizing a with
  | nil => exact ⟨a, rfl, h⟩
  | cons b bs ih =>
      obtain ⟨m, hbefore, hafter⟩ := ih h.2
      exact ⟨m, ⟨h.1, hbefore⟩, hafter⟩

/-- Only the successors of the cells visited matter. -/
theorem congr (h : LinkedPath next a bs z) (heq : ∀ b ∈ bs, next' b = next b) : LinkedPath next' a bs z := by
  induction bs generalizing a with
  | nil => exact h
  | cons b bs ih =>
      refine ⟨h.1, ?_⟩
      rw [heq b List.mem_cons_self]
      exact ih h.2 fun c hc => heq c (List.mem_cons_of_mem _ hc)

/-- The cell a list begins with, or the end. -/
theorem head_eq (h : LinkedPath next a bs z) : a = bs.headD z := by
  cases bs with
  | nil => exact h
  | cons b bs => exact h.1

section Ordered

variable [Preorder α]

/-- Where every successor lies behind its cell, a path stays between its ends. -/
theorem between (h : LinkedPath next a bs z) (hle : ∀ b ∈ bs, b ≤ next b) :
    a ≤ z ∧ ∀ b ∈ bs, a ≤ b ∧ next b ≤ z := by
  induction bs generalizing a with
  | nil =>
      obtain rfl := nil_iff.mp h
      exact ⟨le_refl _, fun b hb => absurd hb List.not_mem_nil⟩
  | cons b bs ih =>
      obtain ⟨rfl, hrest⟩ := h
      have hab := hle a List.mem_cons_self
      obtain ⟨hz, hmem⟩ := ih hrest fun c hc => hle c (List.mem_cons_of_mem _ hc)
      refine ⟨hab.trans hz, fun c hc => ?_⟩
      rcases List.mem_cons.mp hc with rfl | hc
      · exact ⟨le_refl _, hz⟩
      · exact ⟨hab.trans (hmem c hc).1, (hmem c hc).2⟩

/-- And each cell's successor lies at or before every later cell. -/
theorem pairwise (h : LinkedPath next a bs z) (hle : ∀ b ∈ bs, b ≤ next b) :
    bs.Pairwise fun b c => next b ≤ c := by
  induction bs generalizing a with
  | nil => exact List.Pairwise.nil
  | cons b bs ih =>
      have hrest := fun c hc => hle c (List.mem_cons_of_mem _ hc)
      exact List.pairwise_cons.mpr ⟨fun c hc => ((h.2.between hrest).2 c hc).1, ih h.2 hrest⟩

end Ordered

/-- Cells at least `g` apart. -/
theorem length_mul_le {next : Nat → Nat} {a z g : Nat} {bs : List Nat} (h : LinkedPath next a bs z)
    (hgap : ∀ b ∈ bs, b + g ≤ next b) : a + g * bs.length ≤ z := by
  induction bs generalizing a with
  | nil =>
      obtain rfl := nil_iff.mp h
      simp
  | cons b bs ih =>
      obtain ⟨rfl, hrest⟩ := h
      have hstep := hgap a List.mem_cons_self
      have hlater := ih hrest fun c hc => hgap c (List.mem_cons_of_mem _ hc)
      rw [List.length_cons, Nat.mul_add]
      omega

end LinkedPath
