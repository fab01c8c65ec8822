import UcxArinc.Implementation.LinkedList
import UcxArinc.Library.NodeChain

set_option autoImplicit false

/-! # Lists of elements in nodes

What the lists of `lib/list.c` stand for: sequences of elements, each in a node of its own, between a head
and a tail. A store has any number of them, and the nodes that are in use. -/

namespace UcxArinc

/-- A list: its elements with the nodes they are in, between two nodes without one. -/
structure NodeList where
  head : Nat
  elements : List (Nat × Nat)
  tail : Nat
  deriving DecidableEq, Repr

namespace NodeList

/-- The nodes of the elements. -/
def handles (l : NodeList) : List Nat := l.elements.map Prod.fst

/-- All nodes of a list. -/
def cells (l : NodeList) : List Nat := l.head :: (l.handles ++ [l.tail])

theorem cells_eq (l : NodeList) : l.cells = (l.head :: l.handles) ++ [l.tail] := rfl

/-- The element in a node. -/
def find (l : NodeList) (node : Nat) : Option (Nat × Nat) := l.elements.find? fun e => e.1 = node

/-- A new first element. -/
def push (l : NodeList) (node val : Nat) : NodeList := { l with elements := (node, val) :: l.elements }

/-- A new last element, in the node that was the tail; `node` is the new tail. -/
def append (l : NodeList) (node val : Nat) : NodeList := ⟨l.head, l.elements ++ [(l.tail, val)], node⟩

/-- A new element behind that of `prevnode`. -/
def insertAfter (l : NodeList) (prevnode node val : Nat) : NodeList :=
  { l with elements := l.elements.flatMap fun e => if e.1 = prevnode then [e, (node, val)] else [e] }

/-- Without the element of `node`. -/
def remove (l : NodeList) (node : Nat) : NodeList :=
  { l with elements := l.elements.filter fun e => e.1 ≠ node }

/-- The nodes a traversal visits that stops where `iterFn` is not 0, and what it returns. -/
def visit (l : NodeList) (iterFn : Nat → Nat) : List Nat × Nat :=
  (l.handles.takeWhile (fun n => iterFn n = 0) ++ (l.handles.find? fun n => iterFn n ≠ 0).toList,
    ((l.handles.find? fun n => iterFn n ≠ 0).map iterFn).getD 0)

/-! ## Elements and their neighbours -/

variable {node val p q : Nat} {l : NodeList} {xs ys : List (Nat × Nat)}

/-- All elements are behind the head. -/
theorem elements_eq (l : NodeList) : l.elements = [] ++ l.elements := rfl

/-- The nodes of a list, divided between two elements. -/
theorem cells_split (l : NodeList) (h : l.elements = xs ++ ys) :
    l.cells = (l.head :: xs.map Prod.fst) ++ (ys.map Prod.fst ++ [l.tail]) := by
  unfold NodeList.cells NodeList.handles
  rw [h, List.map_append, List.append_assoc, List.cons_append]

/-- There is always a node behind: an element's or the tail. -/
theorem exists_behind (ys : List (Nat × Nat)) (z : Nat) : ∃ q, (ys.map Prod.fst ++ [z]).head? = some q := by
  cases ys with
  | nil => exact ⟨z, rfl⟩
  | cons y ys => exact ⟨y.1, rfl⟩

/-- There is always a node in front: an element's or the head. -/
theorem exists_front (xs : List (Nat × Nat)) (a : Nat) : ∃ p, (a :: xs.map Prod.fst).getLast? = some p :=
  ⟨_, List.getLast?_eq_some_getLast (List.cons_ne_nil _ _)⟩

theorem behind_mem (hq : (ys.map Prod.fst ++ [l.tail]).head? = some q) (helements : l.elements = xs ++ ys) :
    q ∈ l.cells := by
  rw [cells_split l helements]
  exact List.mem_append_right _ (List.mem_of_mem_head? hq)

theorem front_mem (hp : (l.head :: xs.map Prod.fst).getLast? = some p) (helements : l.elements = xs ++ ys) :
    p ∈ l.cells := by
  rw [cells_split l helements]
  exact List.mem_append_left _ (List.mem_of_getLast? hp)

/-- What is in front of the tail is not the tail. -/
theorem front_ne_tail (hnodup : l.cells.Nodup) (helements : l.elements = xs ++ ys)
    (hp : (l.head :: xs.map Prod.fst).getLast? = some p) : p ≠ l.tail := by
  rw [cells_split l helements] at hnodup
  exact (List.nodup_append.mp hnodup).2.2 p (List.mem_of_getLast? hp) l.tail (by simp)

/-- What is behind the head is not the head. -/
theorem behind_ne_head (hnodup : l.cells.Nodup) (helements : l.elements = xs ++ ys)
    (hq : (ys.map Prod.fst ++ [l.tail]).head? = some q) : q ≠ l.head := by
  rw [cells_split l helements] at hnodup
  exact ((List.nodup_append.mp hnodup).2.2 l.head List.mem_cons_self q (List.mem_of_mem_head? hq)).symm

/-- With an element put in, the elements are that one and the old ones. -/
theorem mem_insert_elements {e e' : Nat × Nat} (helements : l.elements = xs ++ ys)
    (he : e ∈ xs ++ e' :: ys) : e = e' ∨ e ∈ l.elements := by
  rw [helements]
  rcases List.mem_append.mp he with hbefore | hbehind
  · exact Or.inr (List.mem_append_left _ hbefore)
  · exact (List.mem_cons.mp hbehind).imp_right fun hafter => List.mem_append_right _ hafter

theorem mem_remove_elements {e e' : Nat × Nat} (helements : l.elements = xs ++ e' :: ys) (he : e ∈ xs ++ ys) :
    e ∈ l.elements := by
  rw [helements]
  rcases List.mem_append.mp he with hbefore | hafter
  · exact List.mem_append_left _ hbefore
  · exact List.mem_append_right _ (List.mem_cons_of_mem _ hafter)

/-- The nodes are then that one and the old ones. -/
theorem mem_insert_cells {c : Nat} (helements : l.elements = xs ++ ys)
    (hc : c ∈ NodeList.cells { l with elements := xs ++ (node, val) :: ys }) : c ∈ l.cells ∨ c = node := by
  rw [cells_split { l with elements := xs ++ (node, val) :: ys } rfl] at hc
  rw [cells_split l helements]
  rcases List.mem_append.mp hc with hbefore | hbehind
  · exact Or.inl (List.mem_append_left _ hbefore)
  · rcases List.mem_cons.mp hbehind with rfl | hafter
    · exact Or.inr rfl
    · exact Or.inl (List.mem_append_right _ hafter)

theorem mem_remove_cells {c : Nat} (helements : l.elements = xs ++ (node, val) :: ys)
    (hc : c ∈ NodeList.cells { l with elements := xs ++ ys }) : c ∈ l.cells := by
  rw [cells_split { l with elements := xs ++ ys } rfl] at hc
  rw [cells_split l helements]
  rcases List.mem_append.mp hc with hbefore | hafter
  · exact List.mem_append_left _ hbefore
  · exact List.mem_append_right _ (List.mem_cons_of_mem _ hafter)

theorem handle_mem (helements : l.elements = xs ++ (node, val) :: ys) : node ∈ l.cells := by
  rw [cells_split l helements]
  exact List.mem_append_right _ List.mem_cons_self

theorem element_mem {e : Nat × Nat} (he : e ∈ l.elements) : e.1 ∈ l.cells := by
  obtain ⟨as, bs, hsplit⟩ := List.append_of_mem he
  exact handle_mem hsplit

/-- What is behind an element is a node of the list. -/
theorem behind_handle_mem (helements : l.elements = xs ++ (node, val) :: ys)
    (hq : (ys.map Prod.fst ++ [l.tail]).head? = some q) : q ∈ l.cells := by
  rw [cells_split l helements]
  exact List.mem_append_right _ (List.mem_cons_of_mem _ (List.mem_of_mem_head? hq))

theorem tail_mem (l : NodeList) : l.tail ∈ l.cells := by
  rw [l.cells_eq]
  exact List.mem_append_right _ List.mem_cons_self

theorem nodup_handles (hnodup : l.cells.Nodup) : l.handles.Nodup := by
  rw [l.cells_eq] at hnodup
  exact (List.nodup_cons.mp (List.nodup_append.mp hnodup).1).2

/-- An element's node is neither the head nor the tail. -/
theorem handle_ne (hnodup : l.cells.Nodup) (helements : l.elements = xs ++ (node, val) :: ys) :
    node ≠ l.head ∧ node ≠ l.tail := by
  have hsplit : l.cells = l.head :: (xs.map Prod.fst ++ node :: (ys.map Prod.fst ++ [l.tail])) :=
    cells_split l helements
  rw [hsplit] at hnodup
  constructor
  · rintro rfl
    exact (List.nodup_cons.mp hnodup).1 (List.mem_append_right _ List.mem_cons_self)
  · rintro rfl
    have hbehind := (List.nodup_append.mp (List.nodup_cons.mp hnodup).2).2.1
    exact (List.nodup_cons.mp hbehind).1 (by simp)

/-- An element's node, with those in front of it and behind it. -/
theorem exists_split (hmem : node ∈ l.handles) : ∃ xs val ys, l.elements = xs ++ (node, val) :: ys := by
  obtain ⟨e, he, rfl⟩ := List.mem_map.mp hmem
  obtain ⟨xs, ys, hsplit⟩ := List.append_of_mem he
  exact ⟨xs, e.2, ys, hsplit⟩

theorem find_split (hfind : l.find node = some (p, val)) :
    p = node ∧ ∃ xs ys, l.elements = xs ++ (node, val) :: ys := by
  obtain ⟨heq, xs, ys, hsplit, -⟩ := List.find?_eq_some_iff_append.mp hfind
  obtain rfl : p = node := by simpa using heq
  exact ⟨rfl, xs, ys, hsplit⟩

/-- An element's node is that of no other. -/
theorem split_ne (hnodup : l.handles.Nodup) (helements : l.elements = xs ++ (node, val) :: ys) :
    (∀ e ∈ xs, e.1 ≠ node) ∧ ∀ e ∈ ys, e.1 ≠ node := by
  rw [NodeList.handles, helements, List.map_append, List.map_cons, List.nodup_append] at hnodup
  refine ⟨fun e he => hnodup.2.2 e.1 (List.mem_map_of_mem he) node List.mem_cons_self, fun e he heq => ?_⟩
  have hmem := List.mem_map_of_mem (f := Prod.fst) he
  rw [heq] at hmem
  exact (List.nodup_cons.mp hnodup.2.1).1 hmem

theorem remove_split (hnodup : l.handles.Nodup) (helements : l.elements = xs ++ (node, val) :: ys) :
    l.remove node = { l with elements := xs ++ ys } := by
  obtain ⟨hxs, hys⟩ := split_ne hnodup helements
  have hfilter : ∀ es : List (Nat × Nat), (∀ e ∈ es, e.1 ≠ node) → es.filter (fun e => e.1 ≠ node) = es :=
    fun es hes => List.filter_eq_self.mpr fun e he => by simpa using hes e he
  unfold NodeList.remove
  rw [helements, List.filter_append, List.filter_cons_of_neg (by simp), hfilter xs hxs, hfilter ys hys]

theorem insertAfter_split {prevnode v : Nat} (hnodup : l.handles.Nodup)
    (helements : l.elements = xs ++ (prevnode, v) :: ys) :
    l.insertAfter prevnode node val = { l with elements := (xs ++ [(prevnode, v)]) ++ (node, val) :: ys } := by
  obtain ⟨hxs, hys⟩ := split_ne hnodup helements
  have hkeep : ∀ es : List (Nat × Nat), (∀ e ∈ es, e.1 ≠ prevnode) →
      (es.flatMap fun e => if e.1 = prevnode then [e, (node, val)] else [e]) = es := by
    intro es hes
    rw [List.flatMap_congr (g := fun e => [e]) fun e he => if_neg (hes e he)]
    exact List.flatMap_singleton' es
  unfold NodeList.insertAfter
  rw [helements, List.flatMap_append, List.flatMap_cons, hkeep xs hxs, hkeep ys hys, if_pos rfl]
  simp

end NodeList

/-- Any number of lists, and the addresses in use for lists and for nodes. -/
structure Lists where
  lists : Nat → Option NodeList
  addresses : Finset Nat
  nodes : Finset Nat

namespace Lists

/-- No list yet. -/
def empty : Lists := ⟨fun _ => none, ∅, ∅⟩

/-- A list has changed. -/
def put (t : Lists) (list : Nat) (l : NodeList) : Lists :=
  { t with lists := Function.update t.lists list (some l) }

@[simp] theorem put_lists (t : Lists) (list : Nat) (l : NodeList) :
    (t.put list l).lists = Function.update t.lists list (some l) := rfl

@[simp] theorem put_put (t : Lists) (list : Nat) (l l' : NodeList) : (t.put list l).put list l' = t.put list l' := by
  simp [put, Function.update_idem]

@[simp] theorem put_nodes (t : Lists) (list : Nat) (l : NodeList) : (t.put list l).nodes = t.nodes := rfl

@[simp] theorem put_addresses (t : Lists) (list : Nat) (l : NodeList) :
    (t.put list l).addresses = t.addresses := rfl

/-- A node is taken from the heap. -/
def take (t : Lists) (node : Nat) : Lists := { t with nodes := insert node t.nodes }

/-- A node is given back to the heap. -/
def release (t : Lists) (node : Nat) : Lists := { t with nodes := t.nodes.erase node }

/-- The heap may return this address for a node. -/
def Fresh (t : Lists) (node : Nat) : Prop := node ≠ 0 ∧ node ∉ t.nodes

instance (t : Lists) (node : Nat) : Decidable (t.Fresh node) := inferInstanceAs (Decidable (_ ∧ _))

end Lists

/-! ## Loops -/

section Loops

open NodeChain

variable {getNext : Nat → Option Nat} {next : Nat → Nat} {node p a z turns : Nat} {as bs hs : List Nat}

/-- The node in front of another is found. -/
theorem walkBefore_chain (hchain : Chain next (a :: as ++ node :: bs))
    (hget : ∀ c ∈ a :: as, getNext c = some (next c)) (hnot : node ∉ as) (hturns : as.length < turns)
    (hp : (a :: as).getLast? = some p) : walkBefore getNext node turns a = some p := by
  induction as generalizing a turns with
  | nil =>
      obtain ⟨n, rfl⟩ : ∃ n, turns = n + 1 := ⟨turns - 1, by omega⟩
      have hnext : next a = node := hchain.next_cons
      obtain rfl : a = p := by simpa using hp
      unfold walkBefore
      simp [hget a List.mem_cons_self, hnext]
  | cons b as ih =>
      obtain ⟨n, rfl⟩ : ∃ n, turns = n + 1 := ⟨turns - 1, by omega⟩
      have hnext : next a = b := hchain.next_cons
      have hne : b ≠ node := fun heq => hnot (heq ▸ List.mem_cons_self)
      have hrest : walkBefore getNext node n b = some p :=
        ih hchain.tail (fun c hc => hget c (List.mem_cons_of_mem _ hc))
          (fun hin => hnot (List.mem_cons_of_mem _ hin)) (by simpa using hturns) (by simpa using hp)
      unfold walkBefore
      simp [hget a List.mem_cons_self, hnext, hne, hrest]

/-- A traversal visits the elements in order. -/
theorem foreachFrom_chain (iterFn : Nat → Nat) (hchain : Chain next (hs ++ [z]))
    (hget : ∀ c ∈ hs ++ [z], getNext c = some (next c) ∧ c ≠ 0) (hlast : next z = 0) (hturns : hs.length < turns)
    (ha : (hs ++ [z]).head? = some a) :
    foreachFrom getNext iterFn turns a
      = some (hs.takeWhile (fun n => iterFn n = 0) ++ (hs.find? fun n => iterFn n ≠ 0).toList,
          ((hs.find? fun n => iterFn n ≠ 0).map iterFn).getD 0) := by
  induction hs generalizing a turns with
  | nil =>
      obtain ⟨k, rfl⟩ : ∃ k, turns = k + 1 := ⟨turns - 1, by omega⟩
      obtain rfl : z = a := by simpa using ha
      unfold foreachFrom
      simp [(hget z (by simp)).1, hlast]
  | cons b hs ih =>
      obtain ⟨k, rfl⟩ : ∃ k, turns = k + 1 := ⟨turns - 1, by omega⟩
      obtain rfl : b = a := by simpa using ha
      obtain ⟨c, hc⟩ : ∃ c, (hs ++ [z]).head? = some c := by
        cases hs with
        | nil => exact ⟨z, rfl⟩
        | cons c hs => exact ⟨c, rfl⟩
      have hsplit : Chain next ([b] ++ (hs ++ [z])) := hchain
      have hnext : next b = c := hsplit.next_eq rfl hc
      have hk : hs.length < k := by simpa using hturns
      have hrest := ih hchain.tail (fun d hd => hget d (List.mem_cons_of_mem _ hd)) hk hc
      have hne : c ≠ 0 := (hget c (List.mem_cons_of_mem _ (List.mem_of_mem_head? hc))).2
      unfold foreachFrom
      by_cases hiter : iterFn b = 0
      · simp [(hget b (by simp)).1, hnext, hne, hiter, hrest]
      · simp [(hget b (by simp)).1, hnext, hne, hiter]

end Loops

end UcxArinc
