import Mathlib.Data.Finset.Basic
import Mathlib.Data.List.Chain
import Mathlib.Data.List.Cycle
import Mathlib.Data.List.Nodup
import Mathlib.Logic.Function.Basic

set_option autoImplicit false

/-! # Chains of nodes, and lists that own them

`Chain next cells` says that each of `cells` has the one behind it for its successor. Taking a cell in, out
or behind the last one changes one or two successors. The same lemmas, read on the reversed list, are about
predecessors. `Owned` says that several lists share a memory without sharing a cell. -/

namespace NodeChain

variable {ν : Type*}

section Cells

variable {next next' : ν → ν} {as bs cells : List ν} {n p q z : ν}

/-- Each cell's successor is the cell behind it. -/
def Chain (next : ν → ν) (cells : List ν) : Prop := cells.IsChain fun a b => next a = b

/-- Only the successors of the cells matter. -/
theorem Chain.congr (h : Chain next cells) (heq : ∀ c ∈ cells, next' c = next c) : Chain next' cells :=
  h.imp_of_mem_imp fun a _ ha _ hab => (heq a ha).trans hab

theorem chain_append :
    Chain next (as ++ bs) ↔ Chain next as ∧ Chain next bs ∧ ∀ x ∈ as.getLast?, ∀ y ∈ bs.head?, next x = y :=
  List.isChain_append

/-- The successor of a cell is the next one. -/
theorem Chain.next_eq (h : Chain next (as ++ bs)) (hp : as.getLast? = some p) (hq : bs.head? = some q) :
    next p = q :=
  (chain_append.mp h).2.2 p hp q hq

theorem Chain.singleton (next : ν → ν) (n : ν) : Chain next [n] := List.isChain_singleton n

theorem Chain.next_cons (h : Chain next (p :: q :: cells)) : next p = q := (List.isChain_cons_cons.mp h).1

theorem Chain.tail (h : Chain next (p :: cells)) : Chain next cells := List.IsChain.tail h

/-! ## Both ways -/

variable {prev prev' : ν → ν}

/-- Each cell's successor is the cell behind it, and its predecessor the one in front. -/
structure Linked (next prev : ν → ν) (cells : List ν) : Prop where
  forward : Chain next cells
  backward : Chain prev cells.reverse

theorem Linked.congr (h : Linked next prev cells) (hnext : ∀ c ∈ cells, next' c = next c)
    (hprev : ∀ c ∈ cells, prev' c = prev c) : Linked next' prev' cells :=
  ⟨h.forward.congr hnext, h.backward.congr fun c hc => hprev c (List.mem_reverse.mp hc)⟩

theorem Linked.next_eq (h : Linked next prev (as ++ bs)) (hp : as.getLast? = some p) (hq : bs.head? = some q) :
    next p = q :=
  h.forward.next_eq hp hq

theorem Linked.prev_eq (h : Linked next prev (as ++ bs)) (hp : as.getLast? = some p) (hq : bs.head? = some q) :
    prev q = p := by
  have hback := h.backward
  rw [List.reverse_append] at hback
  exact hback.next_eq (List.getLast?_reverse.trans hq) (List.head?_reverse.trans hp)

/-! ## Putting in, taking out -/

variable [DecidableEq ν]

/-- The successor of the last cell does not count. -/
theorem Chain.update_last (h : Chain next as) (hnodup : as.Nodup) (hp : as.getLast? = some p) (q : ν) :
    Chain (Function.update next p q) as := by
  obtain ⟨cs, rfl⟩ := List.getLast?_eq_some_iff.mp hp
  have hne : ∀ c ∈ cs, c ≠ p := fun c hc => (List.nodup_append.mp hnodup).2.2 c hc p List.mem_cons_self
  rw [chain_append] at h ⊢
  refine ⟨h.1.congr fun c hc => Function.update_of_ne (hne c hc) _ _, List.isChain_singleton p, ?_⟩
  intro x hx y hy
  rw [Function.update_of_ne (hne x (List.mem_of_getLast? hx))]
  exact h.2.2 x hx y hy

/-- Two chains are joined by one successor. -/
theorem Chain.link (has : Chain next as) (hbs : Chain next bs) (hnodup : (as ++ bs).Nodup)
    (hp : as.getLast? = some p) (hq : bs.head? = some q) :
    Chain (Function.update next p q) (as ++ bs) := by
  have hne : ∀ c ∈ bs, c ≠ p := fun c hc =>
    ((List.nodup_append.mp hnodup).2.2 p (List.mem_of_getLast? hp) c hc).symm
  rw [chain_append]
  refine ⟨has.update_last (List.nodup_append.mp hnodup).1 hp q,
    hbs.congr fun c hc => Function.update_of_ne (hne c hc) _ _, fun x hx y hy => ?_⟩
  obtain rfl := Option.some.inj (hp.symm.trans hx)
  obtain rfl := Option.some.inj (hq.symm.trans hy)
  exact Function.update_self _ _ _

/-- A new cell between two others. -/
theorem Chain.insert (h : Chain next (as ++ bs)) (hnodup : (as ++ n :: bs).Nodup)
    (hp : as.getLast? = some p) (hq : bs.head? = some q) :
    Chain (Function.update (Function.update next n q) p n) (as ++ n :: bs) := by
  obtain ⟨has, hbs, -⟩ := chain_append.mp h
  have hparts := List.nodup_append.mp hnodup
  have hnas : ∀ c ∈ as, c ≠ n := fun c hc => hparts.2.2 c hc n List.mem_cons_self
  have hbehind : Chain (Function.update next n q) (n :: bs) :=
    (Chain.singleton next n).link hbs hparts.2.1 rfl hq
  exact (has.congr fun c hc => Function.update_of_ne (hnas c hc) _ _).link hbehind hnodup hp rfl

/-- A cell is taken out. -/
theorem Chain.remove (h : Chain next (as ++ n :: bs)) (hnodup : (as ++ bs).Nodup)
    (hp : as.getLast? = some p) (hq : bs.head? = some q) :
    Chain (Function.update next p q) (as ++ bs) := by
  obtain ⟨has, hbs, -⟩ := chain_append.mp h
  exact has.link hbs.tail hnodup hp hq

/-- A new cell behind the last one. -/
theorem Chain.snoc (h : Chain next as) (hnodup : (as ++ [n]).Nodup) (hz : as.getLast? = some z) :
    Chain (Function.update next z n) (as ++ [n]) :=
  h.link (Chain.singleton next n) hnodup hz rfl

/-- A new cell between two others. -/
theorem Linked.insert (h : Linked next prev (as ++ bs)) (hnodup : (as ++ n :: bs).Nodup)
    (hp : as.getLast? = some p) (hq : bs.head? = some q) :
    Linked (Function.update (Function.update next n q) p n) (Function.update (Function.update prev n p) q n)
      (as ++ n :: bs) := by
  refine ⟨h.forward.insert hnodup hp hq, ?_⟩
  have hback := h.backward
  have hreverse : (as ++ n :: bs).reverse = bs.reverse ++ n :: as.reverse := by simp
  have hnodup' := List.nodup_reverse.mpr hnodup
  rw [List.reverse_append] at hback
  rw [hreverse] at hnodup' ⊢
  exact hback.insert hnodup' (List.getLast?_reverse.trans hq) (List.head?_reverse.trans hp)

/-- A cell is taken out. -/
theorem Linked.remove (h : Linked next prev (as ++ n :: bs)) (hnodup : (as ++ bs).Nodup)
    (hp : as.getLast? = some p) (hq : bs.head? = some q) :
    Linked (Function.update next p q) (Function.update prev q p) (as ++ bs) := by
  refine ⟨h.forward.remove hnodup hp hq, ?_⟩
  have hback := h.backward
  have hreverse : (as ++ n :: bs).reverse = bs.reverse ++ n :: as.reverse := by simp
  have hnodup' := List.nodup_reverse.mpr hnodup
  rw [hreverse] at hback
  rw [List.reverse_append] at hnodup' ⊢
  exact hback.remove hnodup' (List.getLast?_reverse.trans hq) (List.head?_reverse.trans hp)

/-! ## Going round -/

/-- Within a list, the next cell is the one behind. -/
theorem next_middle (hn : n ∉ as) (h : n ∈ as ++ n :: q :: bs) : (as ++ n :: q :: bs).next n h = q := by
  have hindex : (as ++ n :: q :: bs).idxOf n = as.length := by
    rw [List.idxOf_append_of_notMem hn, List.idxOf_cons_self, Nat.add_zero]
  have hmod : (as.length + 1) % (as ++ n :: q :: bs).length = as.length + 1 := Nat.mod_eq_of_lt (by simp)
  simp only [List.next_eq_getElem, hindex, hmod]
  simp

/-- At its end, the next cell is the first. -/
theorem next_last (hn : n ∉ as) (h : n ∈ as ++ [n]) (hq : (as ++ [n]).head? = some q) :
    (as ++ [n]).next n h = q := by
  have hindex : (as ++ [n]).idxOf n = as.length := by
    rw [List.idxOf_append_of_notMem hn, List.idxOf_cons_self, Nat.add_zero]
  have hmod : (as.length + 1) % (as ++ [n]).length = 0 := by simp
  simp only [List.next_eq_getElem, hindex, hmod]
  rw [List.head?_eq_getElem?] at hq
  exact (List.getElem_eq_iff _).mpr hq

end Cells

/-! ## Lists that share a memory -/

section Sharing

variable {ι : Type*} {L : Type*} {contents : L → List ν} {lists : ι → Option L} {used : Finset ν} {i j : ι} {l l' : L}
  {n : ν}

/-- Each list has its own cells, all of them in use. -/
structure Owned (contents : L → List ν) (lists : ι → Option L) (used : Finset ν) : Prop where
  nodup : ∀ i l, lists i = some l → (contents l).Nodup
  disjoint : ∀ i j l l', i ≠ j → lists i = some l → lists j = some l' → List.Disjoint (contents l) (contents l')
  used : ∀ i l, lists i = some l → ∀ c ∈ contents l, c ∈ used

/-- No list owns the cell. -/
def Unowned (contents : L → List ν) (lists : ι → Option L) (n : ν) : Prop :=
  ∀ i l, lists i = some l → n ∉ contents l

/-- A cell not in use is nobody's. -/
theorem Owned.unowned (h : Owned contents lists used) (hn : n ∉ used) : Unowned contents lists n :=
  fun i l hl hmem => hn (h.used i l hl n hmem)

variable [DecidableEq ι]

/-- A list is made, or changes: its cells were its own before or nobody's. -/
theorem Owned.set (h : Owned contents lists used) (hnodup : (contents l').Nodup)
    (hcells : ∀ c ∈ contents l', (∃ l, lists i = some l ∧ c ∈ contents l) ∨ Unowned contents lists c ∧ c ∈ used) :
    Owned contents (Function.update lists i (some l')) used := by
  have hapart : ∀ j l, j ≠ i → lists j = some l → List.Disjoint (contents l') (contents l) := by
    intro j l hji hl c hc hc'
    rcases hcells c hc with ⟨old, hold, hmem⟩ | ⟨hfree, -⟩
    · exact h.disjoint i j old l hji.symm hold hl hmem hc'
    · exact hfree j l hl hc'
  refine ⟨fun j l hl => ?_, fun j k l m hjk hl hm => ?_, fun j l hl c hc => ?_⟩
  · by_cases hji : j = i
    · subst hji
      rw [Function.update_self, Option.some.injEq] at hl
      exact hl ▸ hnodup
    · rw [Function.update_of_ne hji] at hl
      exact h.nodup j l hl
  · by_cases hji : j = i
    · subst hji
      rw [Function.update_self, Option.some.injEq] at hl
      rw [Function.update_of_ne hjk.symm] at hm
      exact hl ▸ hapart k m hjk.symm hm
    · rw [Function.update_of_ne hji] at hl
      by_cases hki : k = i
      · subst hki
        rw [Function.update_self, Option.some.injEq] at hm
        exact hm ▸ (hapart j l hji hl).symm
      · rw [Function.update_of_ne hki] at hm
        exact h.disjoint j k l m hjk hl hm
  · by_cases hji : j = i
    · subst hji
      rw [Function.update_self, Option.some.injEq] at hl
      subst hl
      rcases hcells c hc with ⟨old, hold, hmem⟩ | ⟨-, hused⟩
      · exact h.used j old hold c hmem
      · exact hused
    · rw [Function.update_of_ne hji] at hl
      exact h.used j l hl c hc

/-- A cell that a list has given up is nobody's. -/
theorem Owned.unowned_set (h : Owned contents lists used) (hl : lists i = some l) (hmem : n ∈ contents l)
    (hn : n ∉ contents l') : Unowned contents (Function.update lists i (some l')) n := by
  intro j m hm
  by_cases hji : j = i
  · subst hji
    rw [Function.update_self, Option.some.injEq] at hm
    exact hm ▸ hn
  · rw [Function.update_of_ne hji] at hm
    exact h.disjoint i j l m (fun h' => hji h'.symm) hl hm hmem

omit [DecidableEq ι] in
theorem Owned.mono {used' : Finset ν} (h : Owned contents lists used)
    (hused : ∀ i l, lists i = some l → ∀ c ∈ contents l, c ∈ used → c ∈ used') : Owned contents lists used' :=
  ⟨h.nodup, h.disjoint, fun i l hl c hc => hused i l hl c hc (h.used i l hl c hc)⟩

end Sharing

end NodeChain
