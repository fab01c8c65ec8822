import Mathlib.Data.List.TakeWhile
import Mathlib.Order.Lattice

set_option autoImplicit false

/-! # Queues that are sorted by a key

A new element goes behind all whose key is not less than its own. `Queued` says what that comes to: greater keys
come first, and elements of one key are in the order in which they came. -/

namespace StableQueue

variable {α κ : Type*} [LinearOrder κ] {key key' : α → κ} {members elements : List α} {e : α}

/-- An element is put in. -/
def insertStable (key : α → κ) (e : α) (elements : List α) : List α :=
  elements.takeWhile (fun a => key e ≤ key a) ++ e :: elements.dropWhile (fun a => key e ≤ key a)

/-- The members of a queue, given in the order in which they came, in the order in which they wait. -/
structure Queued (key : α → κ) (members elements : List α) : Prop where
  sorted : elements.Pairwise fun a b => key b ≤ key a
  stable : ∀ k, elements.filter (fun a => key a = k) = members.filter (fun a => key a = k)
  perm : elements.Perm members

theorem Queued.nil (key : α → κ) : Queued key [] [] := ⟨List.Pairwise.nil, fun _ => rfl, .refl _⟩

/-- Behind the elements whose keys are not less than a new one's there are only less keys. -/
theorem lt_of_mem_dropWhile (hsorted : elements.Pairwise fun a b => key b ≤ key a) {b : α}
    (hb : b ∈ elements.dropWhile fun a => key e ≤ key a) : key b < key e := by
  induction elements with
  | nil => simp at hb
  | cons a elements ih =>
      obtain ⟨hfirst, hrest⟩ := List.pairwise_cons.mp hsorted
      by_cases hkey : key e ≤ key a
      · rw [List.dropWhile_cons_of_pos (by simpa using hkey)] at hb
        exact ih hrest hb
      · rw [List.dropWhile_cons_of_neg (by simpa using hkey)] at hb
        have hlt := not_le.mp hkey
        rcases List.mem_cons.mp hb with rfl | hbehind
        · exact hlt
        · exact lt_of_le_of_lt (hfirst b hbehind) hlt

/-- A queue with a new member. -/
theorem Queued.insert (h : Queued key members elements) (e : α) :
    Queued key (members ++ [e]) (insertStable key e elements) := by
  have hsplit := List.takeWhile_append_dropWhile (p := fun a => decide (key e ≤ key a)) (l := elements)
  have hfront : ∀ a ∈ elements.takeWhile (fun a => key e ≤ key a), key e ≤ key a := fun a ha => by
    simpa using List.mem_takeWhile_imp ha
  have hbehind : ∀ b ∈ elements.dropWhile (fun a => key e ≤ key a), key b < key e := fun b hb =>
    lt_of_mem_dropWhile h.sorted hb
  have hparts := h.sorted
  rw [← hsplit, List.pairwise_append] at hparts
  refine ⟨?_, fun k => ?_, ?_⟩
  · refine List.pairwise_append.mpr ⟨hparts.1, List.pairwise_cons.mpr ⟨fun b hb => (hbehind b hb).le, hparts.2.1⟩, ?_⟩
    intro a ha b hb
    rcases List.mem_cons.mp hb with rfl | hb
    · exact hfront a ha
    · exact hparts.2.2 a ha b hb
  · have hstable := h.stable k
    rw [← hsplit, List.filter_append] at hstable
    unfold insertStable
    by_cases hk : key e = k
    · -- none of the elements behind has this key
      have hnone : (elements.dropWhile fun a => key e ≤ key a).filter (fun a => key a = k) = [] := by
        refine List.filter_eq_nil_iff.mpr fun b hb => ?_
        simpa [hk] using (hk ▸ hbehind b hb).ne
      rw [hnone, List.append_nil] at hstable
      rw [List.filter_append, List.filter_cons_of_pos (by simpa using hk), hnone, hstable, List.filter_append,
        List.filter_cons_of_pos (by simpa using hk), List.filter_nil]
    · rw [List.filter_append, List.filter_cons_of_neg (by simpa using hk), hstable, List.filter_append,
        List.filter_cons_of_neg (by simpa using hk), List.filter_nil, List.append_nil]
  · have hperm := h.perm
    rw [← hsplit] at hperm
    exact List.perm_middle.trans ((hperm.cons e).trans (List.perm_append_singleton e members).symm)

/-- A queue without some of its members. -/
theorem Queued.filter (h : Queued key members elements) (p : α → Bool) :
    Queued key (members.filter p) (elements.filter p) := by
  refine ⟨h.sorted.filter p, fun k => ?_, h.perm.filter p⟩
  have hcomm : ∀ l : List α, (l.filter p).filter (fun a => key a = k) = (l.filter fun a => key a = k).filter p := by
    intro l
    simp only [List.filter_filter, Bool.and_comm]
  rw [hcomm, h.stable, hcomm]

/-- Only the keys of the members matter. -/
theorem Queued.congr (h : Queued key members elements) (heq : ∀ a ∈ members, key' a = key a) :
    Queued key' members elements := by
  have helements : ∀ a ∈ elements, key' a = key a := fun a ha => heq a (h.perm.mem_iff.mp ha)
  refine ⟨?_, fun k => ?_, h.perm⟩
  · refine h.sorted.imp_of_mem fun ha hb hab => ?_
    rw [helements _ ha, helements _ hb]
    exact hab
  · rw [List.filter_congr fun a ha => by rw [helements a ha], h.stable k]
    exact List.filter_congr fun a ha => by rw [heq a ha]

end StableQueue
