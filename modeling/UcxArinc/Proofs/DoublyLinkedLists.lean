import UcxArinc.Implementation.DoublyLinkedList
import UcxArinc.Library.NodeChain
import UcxArinc.Library.Refinement
import UcxArinc.Proofs.NodeLists

set_option autoImplicit false

/-! # Doubly linked lists are sequences, read either way

Every function puts nodes in between two others or takes them out, and changes the successor in front and
the predecessor behind at once. Unlike in the singly linked lists an element stays in its node. -/

namespace UcxArinc

open NodeChain Refinement NodeList

/-- A new last element, in a node in front of the tail. -/
def NodeList.pushback (l : NodeList) (node val : Nat) : NodeList :=
  { l with elements := l.elements ++ [(node, val)] }

/-- The node so many steps behind the first, or in front of the tail; the null pointer beyond the ends. -/
def NodeList.index (l : NodeList) (idx : Int) : Nat :=
  if 0 ≤ idx then l.cells.tail[idx.toNat]?.getD 0 else l.cells.reverse[(-idx).toNat]?.getD 0

/-- What a call is meant to do; `none` is a call that is not allowed: of a list that does not exist, with a
    node that is none of the list's, or with an address in use. -/
def Lists.dlistStep (t : Lists) : DlistStore.Call → Option (Lists × DlistStore.Answer)
  | .create list head tail =>
    if list ≠ 0 ∧ list ∉ t.addresses ∧ t.Fresh head ∧ (t.take head).Fresh tail then
      some (({ (t.take head).take tail with addresses := insert list t.addresses } : Lists).put list
        ⟨head, [], tail⟩, .pointer list)
    else none
  | .push list val node =>
    match t.lists list with
    | none => none
    | some l => if t.Fresh node then some ((t.take node).put list (l.push node val), .pointer node) else none
  | .pushback list val node =>
    match t.lists list with
    | none => none
    | some l =>
      if t.Fresh node then some ((t.take node).put list (l.pushback node val), .pointer node) else none
  | .pop list =>
    match t.lists list with
    | none => none
    | some l =>
      match l.elements with
      | [] => some (t, .pointer 0)
      | (node, val) :: rest => some ((t.put list { l with elements := rest }).release node, .pointer val)
  | .popback list =>
    match t.lists list with
    | none => none
    | some l =>
      match l.elements.getLast? with
      | none => some (t, .pointer 0)
      | some (node, val) =>
        some ((t.put list { l with elements := l.elements.dropLast }).release node, .pointer val)
  | .insert list prevnode val node =>
    match t.lists list with
    | none => none
    | some l =>
      if ¬ t.Fresh node then none
      else if prevnode = l.head then some ((t.take node).put list (l.push node val), .pointer node)
      else if prevnode = l.tail then some (t, .pointer 0)
      else if prevnode ∈ l.handles then
        some ((t.take node).put list (l.insertAfter prevnode node val), .pointer node)
      else none
  | .remove list node =>
    match t.lists list with
    | none => none
    | some l =>
      if node = l.head ∨ node = l.tail then some (t, .pointer 0)
      else match l.find node with
        | none => none
        | some (_, val) => some ((t.put list (l.remove node)).release node, .pointer val)
  | .move listDst listSrc node =>
    match t.lists listSrc with
    | none => none
    | some l =>
      match (t.put listSrc (l.remove node)).lists listDst with
      | none => none
      | some dst =>
        if node = l.head ∨ node = l.tail then some (t, .pointer 0)
        else match l.find node with
          | none => none
          | some (_, val) =>
            some ((t.put listSrc (l.remove node)).put listDst (dst.pushback node val), .pointer val)
  | .rotate list =>
    match t.lists list with
    | none => none
    | some l =>
      match l.elements with
      | [] => some (t, .pointer 0)
      | (node, val) :: rest =>
        -- what is returned is the node that was last, or the head if there was only one
        some (t.put list (({ l with elements := rest } : NodeList).pushback node val),
          .pointer ((l.head :: rest.map Prod.fst).getLast (List.cons_ne_nil _ _)))
  | .index list idx => (t.lists list).map fun l => (t, .pointer (l.index idx))
  | .foreach list iterFn =>
    (t.lists list).map fun l => (t, .visited (l.visit iterFn).1 (l.visit iterFn).2)

/-! ## Elements stay in their nodes -/

namespace Lists

variable {t t' : Lists} {e : Nat × Nat} {list : Nat} {l : NodeList} {call : DlistStore.Call}
  {answer : DlistStore.Answer}

/-- An element is in one of the lists, in the node it is given with. -/
def Has (t : Lists) (e : Nat × Nat) : Prop := ∃ list l, t.lists list = some l ∧ e ∈ l.elements

/-- The node whose element a call removes. -/
def removed (t : Lists) : DlistStore.Call → Option Nat
  | .pop list => (t.lists list).bind fun l => l.handles.head?
  | .popback list => (t.lists list).bind fun l => l.handles.getLast?
  | .remove _ node => some node
  | _ => none

theorem Has.put (h : t.Has e) (hkeep : ∀ m, t.lists list = some m → e ∈ m.elements → e ∈ l.elements) :
    (t.put list l).Has e := by
  obtain ⟨i, m, hm, hmem⟩ := h
  by_cases hi : i = list
  · subst hi
    exact ⟨i, l, Function.update_self _ _ _, hkeep m hm hmem⟩
  · exact ⟨i, m, (Function.update_of_ne hi _ _).trans hm, hmem⟩

/-- The same, where the list is known. -/
theorem Has.put_of {m : NodeList} (h : t.Has e) (hm : t.lists list = some m)
    (hkeep : e ∈ m.elements → e ∈ l.elements) : (t.put list l).Has e := by
  refine h.put fun n hn => ?_
  rw [hm, Option.some.injEq] at hn
  exact hn ▸ hkeep

theorem mem_insertAfter {prevnode node val : Nat} (hmem : e ∈ l.elements) :
    e ∈ (l.insertAfter prevnode node val).elements := by
  refine List.mem_flatMap.mpr ⟨e, hmem, ?_⟩
  by_cases heq : e.1 = prevnode
  · simp [heq]
  · simp [heq]

theorem mem_remove {node : Nat} (hmem : e ∈ l.elements) (hne : e.1 ≠ node) : e ∈ (l.remove node).elements :=
  List.mem_filter.mpr ⟨hmem, by simpa using hne⟩

/-- A call that does not remove an element leaves it in its node, in the same list or in another. -/
theorem Has.dlistStep (h : t.Has e) (hlisted : ∀ i m, t.lists i = some m → i ∈ t.addresses)
    (hnodup : ∀ i m, t.lists i = some m → m.handles.Nodup) (hstep : t.dlistStep call = some (t', answer))
    (hcall : t.removed call ≠ some e.1) : t'.Has e := by
  unfold Lists.dlistStep at hstep
  cases call with
  | create list head tail =>
      obtain ⟨hok, heq⟩ := Option.ite_none_right_eq_some.mp hstep
      rw [Option.some.injEq, Prod.mk.injEq] at heq
      obtain ⟨rfl, -⟩ := heq
      exact Has.put h fun m hm => absurd (hlisted list m hm) hok.2.1
  | push list val node =>
      cases hl : t.lists list with
      | none => simp [hl] at hstep
      | some m =>
          simp only [hl, Option.ite_none_right_eq_some, Option.some.injEq, Prod.mk.injEq] at hstep
          obtain ⟨-, rfl, -⟩ := hstep
          exact Has.put_of h hl fun hmem => List.mem_cons_of_mem _ hmem
  | pushback list val node =>
      cases hl : t.lists list with
      | none => simp [hl] at hstep
      | some m =>
          simp only [hl, Option.ite_none_right_eq_some, Option.some.injEq, Prod.mk.injEq] at hstep
          obtain ⟨-, rfl, -⟩ := hstep
          exact Has.put_of h hl fun hmem => List.mem_append_left _ hmem
  | pop list =>
      cases hl : t.lists list with
      | none => simp [hl] at hstep
      | some m =>
          cases helements : m.elements with
          | nil =>
              simp only [hl, helements, Option.some.injEq, Prod.mk.injEq] at hstep
              exact hstep.1 ▸ h
          | cons first rest =>
              simp only [hl, helements, Option.some.injEq, Prod.mk.injEq] at hstep
              obtain ⟨rfl, -⟩ := hstep
              refine Has.put_of h hl fun hmem => ?_
              rw [helements] at hmem
              rcases List.mem_cons.mp hmem with rfl | hrest
              · exact absurd (by simp [removed, hl, NodeList.handles, helements]) hcall
              · exact hrest
  | popback list =>
      cases hl : t.lists list with
      | none => simp [hl] at hstep
      | some m =>
          cases hlast : m.elements.getLast? with
          | none =>
              simp only [hl, hlast, Option.some.injEq, Prod.mk.injEq] at hstep
              exact hstep.1 ▸ h
          | some last =>
              simp only [hl, hlast, Option.some.injEq, Prod.mk.injEq] at hstep
              obtain ⟨rfl, -⟩ := hstep
              refine Has.put_of h hl fun hmem => ?_
              obtain ⟨xs, helements⟩ := List.getLast?_eq_some_iff.mp hlast
              rw [helements] at hmem
              simp only [helements, List.dropLast_concat]
              rcases List.mem_append.mp hmem with hxs | hend
              · exact hxs
              · obtain rfl := List.mem_singleton.mp hend
                exact absurd (by simp [removed, hl, NodeList.handles, helements]) hcall
  | insert list prevnode val node =>
      cases hl : t.lists list with
      | none => simp [hl] at hstep
      | some m =>
          simp only [hl, Option.ite_none_left_eq_some] at hstep
          obtain ⟨-, hstep⟩ := hstep
          by_cases hhead : prevnode = m.head
          · simp only [hhead, if_true, Option.some.injEq, Prod.mk.injEq] at hstep
            obtain ⟨rfl, -⟩ := hstep
            exact Has.put_of h hl fun hmem => List.mem_cons_of_mem _ hmem
          · by_cases htail : prevnode = m.tail
            · rw [if_neg hhead, if_pos htail, Option.some.injEq, Prod.mk.injEq] at hstep
              exact hstep.1 ▸ h
            · simp only [hhead, htail, if_false, Option.ite_none_right_eq_some, Option.some.injEq,
                Prod.mk.injEq] at hstep
              obtain ⟨-, rfl, -⟩ := hstep
              exact Has.put_of h hl mem_insertAfter
  | remove list node =>
      cases hl : t.lists list with
      | none => simp [hl] at hstep
      | some m =>
          by_cases hend : node = m.head ∨ node = m.tail
          · simp only [hl, hend, if_true, Option.some.injEq, Prod.mk.injEq] at hstep
            exact hstep.1 ▸ h
          · cases hfind : m.find node with
            | none => simp [hl, hend, hfind] at hstep
            | some found =>
                simp only [hl, hend, if_false, hfind, Option.some.injEq, Prod.mk.injEq] at hstep
                obtain ⟨rfl, -⟩ := hstep
                exact Has.put_of h hl fun hmem => mem_remove hmem fun heq => hcall (congrArg some heq.symm)
  | move listDst listSrc node =>
      cases hl : t.lists listSrc with
      | none => simp [hl] at hstep
      | some m =>
          cases hdst : (t.put listSrc (m.remove node)).lists listDst with
          | none => simp only [hl, hdst, reduceCtorEq] at hstep
          | some dst =>
              by_cases hend : node = m.head ∨ node = m.tail
              · simp only [hl, hdst, hend, if_true, Option.some.injEq, Prod.mk.injEq] at hstep
                exact hstep.1 ▸ h
              · cases hfind : m.find node with
                | none => simp only [hl, hdst, hend, if_false, hfind, reduceCtorEq] at hstep
                | some found =>
                    obtain ⟨n, val⟩ := found
                    simp only [hl, hdst, hend, if_false, hfind, Option.some.injEq, Prod.mk.injEq] at hstep
                    obtain ⟨rfl, -⟩ := hstep
                    by_cases hmoved : (t.put listSrc (m.remove node)).Has e
                    · exact hmoved.put_of hdst fun hmem => List.mem_append_left _ hmem
                    · -- not left where it was: it is the element that moves
                      obtain ⟨i, n, hn, hmem⟩ := h
                      have hsrc : i = listSrc := by
                        by_contra hne
                        exact hmoved ⟨i, n, (Function.update_of_ne hne _ _).trans hn, hmem⟩
                      subst hsrc
                      obtain rfl : m = n := Option.some.inj (hl.symm.trans hn)
                      have hnode : e.1 = node := by
                        by_contra hne
                        exact hmoved ⟨i, _, Function.update_self _ _ _, mem_remove hmem hne⟩
                      have hval : e = (node, val) := by
                        obtain ⟨-, xs, ys, helements⟩ := find_split hfind
                        obtain ⟨hxs, hys⟩ := split_ne (hnodup i m hl) helements
                        rw [helements] at hmem
                        rcases List.mem_append.mp hmem with hbefore | hbehind
                        · exact absurd hnode (hxs e hbefore)
                        · exact (List.mem_cons.mp hbehind).resolve_right fun hafter => hys e hafter hnode
                      refine ⟨listDst, _, Function.update_self _ _ _, ?_⟩
                      rw [hval]
                      exact List.mem_append_right _ List.mem_cons_self
  | rotate list =>
      cases hl : t.lists list with
      | none => simp [hl] at hstep
      | some m =>
          cases helements : m.elements with
          | nil =>
              simp only [hl, helements, Option.some.injEq, Prod.mk.injEq] at hstep
              exact hstep.1 ▸ h
          | cons first rest =>
              simp only [hl, helements, Option.some.injEq, Prod.mk.injEq] at hstep
              obtain ⟨rfl, -⟩ := hstep
              refine Has.put_of h hl fun hmem => ?_
              rw [helements] at hmem
              rcases List.mem_cons.mp hmem with rfl | hrest
              · exact List.mem_append_right _ List.mem_cons_self
              · exact List.mem_append_left _ hrest
  | index list idx =>
      obtain ⟨m, -, heq⟩ := Option.map_eq_some_iff.mp hstep
      rw [Prod.mk.injEq] at heq
      exact heq.1 ▸ h
  | foreach list iterFn =>
      obtain ⟨m, -, heq⟩ := Option.map_eq_some_iff.mp hstep
      rw [Prod.mk.injEq] at heq
      exact heq.1 ▸ h

end Lists

/-! ## What the memory holds -/

namespace DlistStore

variable {s s' : DlistStore} {t : Lists} {list node val p q : Nat} {l l' : NodeList} {xs ys : List (Nat × Nat)}

/-- A list in memory. -/
structure Holds (s : DlistStore) (list : Nat) (l : NodeList) : Prop where
  head : s.head list = l.head
  tail : s.tail list = l.tail
  length : s.length list = l.elements.length
  linked : Linked s.next s.prev l.cells
  first : s.prev l.head = 0
  last : s.next l.tail = 0
  data : ∀ e ∈ l.elements, s.data e.1 = e.2

/-- The lists in memory, each with nodes of its own. -/
structure Shows (s : DlistStore) (t : Lists) : Prop where
  owned : Owned NodeList.cells t.lists t.nodes
  holds : ∀ list l, t.lists list = some l → s.Holds list l
  nodes : s.nodes = t.nodes
  lists : s.lists = t.addresses
  listed : ∀ list l, t.lists list = some l → list ∈ t.addresses
  null : 0 ∉ t.nodes

/-- A list whose nodes and whose record have not been written is as it was. -/
theorem Holds.frame (h : s.Holds list l) (hhead : s'.head list = s.head list)
    (htail : s'.tail list = s.tail list) (hlength : s'.length list = s.length list)
    (hnext : ∀ c ∈ l.cells, s'.next c = s.next c) (hprev : ∀ c ∈ l.cells, s'.prev c = s.prev c)
    (hdata : ∀ c ∈ l.cells, s'.data c = s.data c) : s'.Holds list l where
  head := hhead.trans h.head
  tail := htail.trans h.tail
  length := hlength.trans h.length
  linked := h.linked.congr hnext hprev
  first := (hprev l.head List.mem_cons_self).trans h.first
  last := (hnext l.tail (tail_mem l)).trans h.last
  data := by
    intro e he
    rw [hdata e.1 (element_mem he)]
    exact h.data e he

/-- One list changes: its nodes were its own before or nobody's, and nothing else has been written. -/
theorem Shows.change (h : s.Shows t) (hl : t.lists list = some l) (hnodup : l'.cells.Nodup)
    (hcells : ∀ c ∈ l'.cells, c ∈ l.cells ∨ Unowned NodeList.cells t.lists c ∧ c ∈ t.nodes)
    (hholds : s'.Holds list l') (hhead : s'.head = s.head) (htail : s'.tail = s.tail)
    (hlength : ∀ i, i ≠ list → s'.length i = s.length i)
    (hnext : ∀ c, c ∉ l.cells → ¬ Unowned NodeList.cells t.lists c → s'.next c = s.next c)
    (hprev : ∀ c, c ∉ l.cells → ¬ Unowned NodeList.cells t.lists c → s'.prev c = s.prev c)
    (hdata : ∀ c, c ∉ l.cells → ¬ Unowned NodeList.cells t.lists c → s'.data c = s.data c)
    (hnodes : s'.nodes = s.nodes) (hlists : s'.lists = s.lists) : s'.Shows (t.put list l') where
  owned := h.owned.set hnodup fun c hc => (hcells c hc).imp_left fun hmem => ⟨l, hl, hmem⟩
  holds := by
    intro i m hm
    rw [Lists.put_lists] at hm
    by_cases hi : i = list
    · subst hi
      rw [Function.update_self, Option.some.injEq] at hm
      exact hm ▸ hholds
    · rw [Function.update_of_ne hi] at hm
      have hother : ∀ c ∈ m.cells, c ∉ l.cells ∧ ¬ Unowned NodeList.cells t.lists c := fun c hc =>
        ⟨h.owned.disjoint i list m l hi hm hl hc, fun hfree => hfree i m hm hc⟩
      exact (h.holds i m hm).frame (congrFun hhead i) (congrFun htail i) (hlength i hi)
        (fun c hc => hnext c (hother c hc).1 (hother c hc).2)
        (fun c hc => hprev c (hother c hc).1 (hother c hc).2)
        fun c hc => hdata c (hother c hc).1 (hother c hc).2
  nodes := hnodes.trans h.nodes
  lists := hlists.trans h.lists
  listed := by
    intro i m hm
    rw [Lists.put_lists] at hm
    by_cases hi : i = list
    · subst hi
      exact h.listed i l hl
    · rw [Function.update_of_ne hi] at hm
      exact h.listed i m hm
  null := h.null

/-- Writing what is not allocated changes no list. -/
theorem Shows.frame (h : s.Shows t) (hhead : s'.head = s.head) (htail : s'.tail = s.tail)
    (hlength : s'.length = s.length) (hnext : ∀ c ∈ t.nodes, s'.next c = s.next c)
    (hprev : ∀ c ∈ t.nodes, s'.prev c = s.prev c) (hdata : ∀ c ∈ t.nodes, s'.data c = s.data c)
    (hnodes : s'.nodes = s.nodes) (hlists : s'.lists = s.lists) : s'.Shows t where
  owned := h.owned
  holds := by
    intro i m hm
    have hmem := h.owned.used i m hm
    exact (h.holds i m hm).frame (congrFun hhead i) (congrFun htail i) (congrFun hlength i)
      (fun c hc => hnext c (hmem c hc)) (fun c hc => hprev c (hmem c hc)) fun c hc => hdata c (hmem c hc)
  nodes := hnodes.trans h.nodes
  lists := hlists.trans h.lists
  listed := h.listed
  null := h.null

theorem Shows.nodup (h : s.Shows t) (hl : t.lists list = some l) : l.cells.Nodup := h.owned.nodup list l hl

theorem Shows.mem_nodes (h : s.Shows t) (hl : t.lists list = some l) {c : Nat} (hc : c ∈ l.cells) :
    c ∈ s.nodes := by
  rw [h.nodes]
  exact h.owned.used list l hl c hc

theorem Shows.ne_zero (h : s.Shows t) (hl : t.lists list = some l) {c : Nat} (hc : c ∈ l.cells) : c ≠ 0 := by
  rintro rfl
  exact h.null (h.owned.used list l hl 0 hc)

/-! ## Putting in and taking out -/

/-- A node put in between two others. -/
theorem Shows.insert (h : s.Shows t) (val : Nat) (hl : t.lists list = some l) (helements : l.elements = xs ++ ys)
    (hp : (l.head :: xs.map Prod.fst).getLast? = some p)
    (hq : (ys.map Prod.fst ++ [l.tail]).head? = some q) (hnode : node ∈ t.nodes)
    (hfree : Unowned NodeList.cells t.lists node) :
    Shows { s with next := Function.update (Function.update s.next node q) p node,
                   prev := Function.update (Function.update s.prev node p) q node,
                   data := Function.update s.data node val,
                   length := Function.update s.length list (s.length list + 1) }
      (t.put list { l with elements := xs ++ (node, val) :: ys }) := by
  have hholds := h.holds list l hl
  have hnotin : node ∉ l.cells := hfree list l hl
  have hsplit := cells_split l helements
  have hcells : NodeList.cells { l with elements := xs ++ (node, val) :: ys }
      = (l.head :: xs.map Prod.fst) ++ node :: (ys.map Prod.fst ++ [l.tail]) :=
    cells_split { l with elements := xs ++ (node, val) :: ys } rfl
  have hnodup : ((l.head :: xs.map Prod.fst) ++ node :: (ys.map Prod.fst ++ [l.tail])).Nodup := by
    rw [List.nodup_middle, ← hsplit]
    exact List.nodup_cons.mpr ⟨hnotin, h.nodup hl⟩
  have hpmem := front_mem hp helements
  have hqmem := behind_mem hq helements
  have hends := front_ne_tail (h.nodup hl) helements hp
  have hends' := behind_ne_head (h.nodup hl) helements hq
  have hne : ∀ c ∈ l.cells, c ≠ node := fun c hc heq => hnotin (heq ▸ hc)
  have hlinked := hholds.linked
  rw [hsplit] at hlinked
  refine h.change hl (hcells ▸ hnodup) ?_ ⟨hholds.head, hholds.tail, ?_, ?_, ?_, ?_, ?_⟩ rfl rfl
    (fun i hi => Function.update_of_ne hi _ _) ?_ ?_ ?_ rfl rfl
  · intro c hc
    rcases mem_insert_cells helements hc with hold | rfl
    · exact Or.inl hold
    · exact Or.inr ⟨hfree, hnode⟩
  · dsimp only
    rw [Function.update_self, hholds.length, helements]
    simp only [List.length_append, List.length_cons]
    omega
  · rw [hcells]
    exact hlinked.insert hnodup hp hq
  · dsimp only
    rw [Function.update_of_ne hends'.symm, Function.update_of_ne (hne _ List.mem_cons_self)]
    exact hholds.first
  · dsimp only
    rw [Function.update_of_ne hends.symm, Function.update_of_ne (hne _ (tail_mem l))]
    exact hholds.last
  · intro e he
    dsimp only
    rcases mem_insert_elements helements he with rfl | hold
    · exact Function.update_self _ _ _
    · rw [Function.update_of_ne (hne _ (element_mem hold))]
      exact hholds.data e hold
  · intro c hc hown
    dsimp only
    have hcp : c ≠ p := fun heq => hc (heq ▸ hpmem)
    have hcn : c ≠ node := fun heq => hown (heq ▸ hfree)
    rw [Function.update_of_ne hcp, Function.update_of_ne hcn]
  · intro c hc hown
    dsimp only
    have hcq : c ≠ q := fun heq => hc (heq ▸ hqmem)
    have hcn : c ≠ node := fun heq => hown (heq ▸ hfree)
    rw [Function.update_of_ne hcq, Function.update_of_ne hcn]
  · intro c hc hown
    have hcn : c ≠ node := fun heq => hown (heq ▸ hfree)
    exact Function.update_of_ne hcn _ _

/-- A node taken out. It stays allocated, but is nobody's. -/
theorem Shows.unlink (h : s.Shows t) (hl : t.lists list = some l)
    (helements : l.elements = xs ++ (node, val) :: ys) (hp : (l.head :: xs.map Prod.fst).getLast? = some p)
    (hq : (ys.map Prod.fst ++ [l.tail]).head? = some q) :
    Shows { s with next := Function.update s.next p q,
                   prev := Function.update s.prev q p,
                   length := Function.update s.length list (s.length list + -1) }
        (t.put list { l with elements := xs ++ ys })
      ∧ Unowned NodeList.cells (t.put list { l with elements := xs ++ ys }).lists node := by
  have hholds := h.holds list l hl
  have hsplit : l.cells = (l.head :: xs.map Prod.fst) ++ node :: (ys.map Prod.fst ++ [l.tail]) :=
    cells_split l helements
  have hcells : NodeList.cells { l with elements := xs ++ ys }
      = (l.head :: xs.map Prod.fst) ++ (ys.map Prod.fst ++ [l.tail]) :=
    cells_split { l with elements := xs ++ ys } rfl
  have hnodup := h.nodup hl
  have hlinked := hholds.linked
  rw [hsplit] at hnodup hlinked
  have hmiddle := List.nodup_cons.mp (List.nodup_middle.mp hnodup)
  have hpmem := front_mem hp helements
  have hqmem := behind_handle_mem helements hq
  have hends := front_ne_tail (h.nodup hl) helements hp
  have hsplit' : l.elements = (xs ++ [(node, val)]) ++ ys := by simp [helements]
  have hends' : q ≠ l.head := behind_ne_head (h.nodup hl) hsplit' hq
  refine ⟨?_, ?_⟩
  · refine h.change hl (hcells ▸ hmiddle.2) ?_ ⟨hholds.head, hholds.tail, ?_, ?_, ?_, ?_, ?_⟩ rfl rfl
      (fun i hi => Function.update_of_ne hi _ _) ?_ ?_ (fun _ _ _ => rfl) rfl rfl
    · exact fun c hc => Or.inl (mem_remove_cells helements hc)
    · dsimp only
      rw [Function.update_self, hholds.length, helements]
      simp only [List.length_append, List.length_cons]
      omega
    · rw [hcells]
      exact hlinked.remove hmiddle.2 hp hq
    · dsimp only
      rw [Function.update_of_ne hends'.symm]
      exact hholds.first
    · dsimp only
      rw [Function.update_of_ne hends.symm]
      exact hholds.last
    · exact fun e he => hholds.data e (mem_remove_elements helements he)
    · intro c hc _
      have hcp : c ≠ p := fun heq => hc (heq ▸ hpmem)
      exact Function.update_of_ne hcp _ _
    · intro c hc _
      have hcq : c ≠ q := fun heq => hc (heq ▸ hqmem)
      exact Function.update_of_ne hcq _ _
  · refine h.owned.unowned_set hl ?_ ?_
    · rw [hsplit]
      exact List.mem_append_right _ List.mem_cons_self
    · rw [hcells]
      exact hmiddle.1

/-- A node is taken from the heap: it is nobody's yet. -/
theorem Shows.take (h : s.Shows t) (hfresh : t.Fresh node) :
    Shows { s with nodes := Insert.insert node s.nodes } (t.take node)
      ∧ Unowned NodeList.cells (t.take node).lists node := by
  refine ⟨⟨?_, fun i m hm => ?_, ?_, h.lists, h.listed, ?_⟩, h.owned.unowned hfresh.2⟩
  · exact h.owned.mono fun _ _ _ _ _ hc => Finset.mem_insert_of_mem hc
  · have hholds := h.holds i m hm
    exact ⟨hholds.head, hholds.tail, hholds.length, hholds.linked, hholds.first, hholds.last, hholds.data⟩
  · dsimp only
    rw [h.nodes]
    rfl
  · intro hzero
    rcases Finset.mem_insert.mp hzero with heq | hmem
    · exact hfresh.1 heq.symm
    · exact h.null hmem

/-- A node that is nobody's is given back. -/
theorem Shows.release (h : s.Shows t) (hfree : Unowned NodeList.cells t.lists node) :
    Shows { s with nodes := s.nodes.erase node } (t.release node) := by
  refine ⟨?_, fun i m hm => ?_, ?_, h.lists, h.listed, fun hzero => h.null (Finset.mem_of_mem_erase hzero)⟩
  · refine h.owned.mono fun i m hm c hc hused => Finset.mem_erase.mpr ⟨?_, hused⟩
    rintro rfl
    exact hfree i m hm hc
  · have hholds := h.holds i m hm
    exact ⟨hholds.head, hholds.tail, hholds.length, hholds.linked, hholds.first, hholds.last, hholds.data⟩
  · dsimp only
    rw [h.nodes]
    rfl

/-! ## The functions -/

theorem getPrev_of_mem (hmem : node ∈ s.nodes) : s.getPrev node = some (s.prev node) := if_pos hmem

theorem getNext_of_mem (hmem : node ∈ s.nodes) : s.getNext node = some (s.next node) := if_pos hmem

theorem Shows.next_eq (h : s.Shows t) (hl : t.lists list = some l) (helements : l.elements = xs ++ ys)
    (hp : (l.head :: xs.map Prod.fst).getLast? = some p)
    (hq : (ys.map Prod.fst ++ [l.tail]).head? = some q) : s.next p = q := by
  have hlinked := (h.holds list l hl).linked
  rw [cells_split l helements] at hlinked
  exact hlinked.next_eq hp hq

theorem Shows.prev_eq (h : s.Shows t) (hl : t.lists list = some l) (helements : l.elements = xs ++ ys)
    (hp : (l.head :: xs.map Prod.fst).getLast? = some p)
    (hq : (ys.map Prod.fst ++ [l.tail]).head? = some q) : s.prev q = p := by
  have hlinked := (h.holds list l hl).linked
  rw [cells_split l helements] at hlinked
  exact hlinked.prev_eq hp hq

/-- An element's node is between the node in front and the node behind. -/
theorem Shows.neighbours (h : s.Shows t) (hl : t.lists list = some l)
    (helements : l.elements = xs ++ (node, val) :: ys) (hp : (l.head :: xs.map Prod.fst).getLast? = some p)
    (hq : (ys.map Prod.fst ++ [l.tail]).head? = some q) :
    s.next p = node ∧ s.prev node = p ∧ s.next node = q ∧ s.prev q = node := by
  have hsplit : l.elements = (xs ++ [(node, val)]) ++ ys := by
    rw [helements, List.append_assoc, List.singleton_append]
  have hlast : (l.head :: (xs ++ [(node, val)]).map Prod.fst).getLast? = some node := by
    rw [List.map_append, ← List.cons_append, List.map_singleton, List.getLast?_concat]
  exact ⟨h.next_eq hl helements hp rfl, h.prev_eq hl helements hp rfl, h.next_eq hl hsplit hlast hq,
    h.prev_eq hl hsplit hlast hq⟩

theorem Shows.malloc (h : s.Shows t) (hfresh : t.Fresh node) :
    s.mallocNode node = some { s with nodes := Insert.insert node s.nodes } := by
  refine if_neg ?_
  rw [h.nodes]
  rintro (hzero | hmem)
  · exact hfresh.1 hzero
  · exact hfresh.2 hmem

theorem Shows.getData (h : s.Shows t) (hl : t.lists list = some l)
    (helements : l.elements = xs ++ (node, val) :: ys) : s.getData node = some val := by
  have hdata := (h.holds list l hl).data (node, val) (by simp [helements])
  exact (if_pos (h.mem_nodes hl (handle_mem helements))).trans (congrArg some hdata)

/-- An element is put in behind the head or behind another element. -/
theorem Shows.dlistInsert (h : s.Shows t) (hl : t.lists list = some l) (hfresh : t.Fresh node) (val : Nat)
    (helements : l.elements = xs ++ ys) (hp : (l.head :: xs.map Prod.fst).getLast? = some p) :
    ∃ s', s.dlistInsert list p val node = some (s', node)
      ∧ s'.Shows ((t.take node).put list { l with elements := xs ++ (node, val) :: ys }) := by
  obtain ⟨htake, hfree⟩ := h.take hfresh
  obtain ⟨q, hq⟩ := exists_behind ys l.tail
  have hinsert := htake.insert val hl helements hp hq (Finset.mem_insert_self _ _) hfree
  refine ⟨_, ?_, hinsert⟩
  have hpmem : p ∈ s.nodes := h.mem_nodes hl (front_mem hp helements)
  have hqmem : q ∈ s.nodes := h.mem_nodes hl (behind_mem hq helements)
  have hpn : p ≠ node := fun heq => hfree list l hl (heq ▸ front_mem hp helements)
  have hnext : s.next p = q := h.next_eq hl helements hp hq
  have hne : q ≠ 0 := h.ne_zero hl (behind_mem hq helements)
  simp [DlistStore.dlistInsert, h.malloc hfresh, setData, setPrev, setNext, getNext, hpmem, hqmem, hpn, hnext,
    hne, addLength]

/-- Behind the tail nothing is put in. -/
theorem Shows.dlistInsert_tail (h : s.Shows t) (hl : t.lists list = some l) (hfresh : t.Fresh node) (val : Nat) :
    ∃ s', s.dlistInsert list l.tail val node = some (s', 0) ∧ s'.Shows t := by
  have hnode : node ∉ s.nodes := h.nodes ▸ hfresh.2
  have hframe : Shows { s with next := Function.update s.next node 0,
                               prev := Function.update s.prev node l.tail,
                               data := Function.update s.data node val } t := by
    refine h.frame rfl rfl rfl (fun c hc => Function.update_of_ne ?_ _ _)
      (fun c hc => Function.update_of_ne ?_ _ _) (fun c hc => Function.update_of_ne ?_ _ _) rfl rfl <;>
      exact fun heq => hfresh.2 (heq ▸ hc)
  refine ⟨_, ?_, hframe⟩
  have htail : l.tail ∈ s.nodes := h.mem_nodes hl (tail_mem l)
  have htn : l.tail ≠ node := fun heq => hnode (heq ▸ htail)
  simp [DlistStore.dlistInsert, h.malloc hfresh, setData, setPrev, setNext, getNext, htail, htn,
    (h.holds list l hl).last, freeNode, Finset.erase_insert hnode]

theorem Shows.dlistPush (h : s.Shows t) (hl : t.lists list = some l) (hfresh : t.Fresh node) (val : Nat) :
    ∃ s', s.dlistPush list val node = some (s', node)
      ∧ s'.Shows ((t.take node).put list (l.push node val)) := by
  obtain ⟨htake, hfree⟩ := h.take hfresh
  obtain ⟨q, hq⟩ := exists_behind l.elements l.tail
  have hinsert := htake.insert val hl l.elements_eq rfl hq (Finset.mem_insert_self _ _) hfree
  refine ⟨_, ?_, hinsert⟩
  have hnext := h.next_eq hl l.elements_eq (p := l.head) rfl hq
  have hrecord := (h.holds list l hl).head
  have hhead : l.head ∈ s.nodes := h.mem_nodes hl List.mem_cons_self
  have hqmem : q ∈ s.nodes := h.mem_nodes hl (behind_mem hq l.elements_eq)
  have hhn : l.head ≠ node := fun heq => hfree list l hl (heq ▸ List.mem_cons_self)
  simp [DlistStore.dlistPush, h.malloc hfresh, setData, setPrev, setNext, getNext, hrecord, hhead, hqmem, hnext,
    hhn, addLength]

theorem Shows.dlistPushback (h : s.Shows t) (hl : t.lists list = some l) (hfresh : t.Fresh node) (val : Nat) :
    ∃ s', s.dlistPushback list val node = some (s', node)
      ∧ s'.Shows ((t.take node).put list (l.pushback node val)) := by
  obtain ⟨htake, hfree⟩ := h.take hfresh
  obtain ⟨p, hp⟩ := exists_front l.elements l.head
  have hend : l.elements = l.elements ++ [] := (List.append_nil _).symm
  have hinsert := htake.insert val hl hend hp rfl (Finset.mem_insert_self _ _) hfree
  refine ⟨_, ?_, hinsert⟩
  have hprev := h.prev_eq hl (q := l.tail) hend hp rfl
  have hrecord := (h.holds list l hl).tail
  have htail : l.tail ∈ s.nodes := h.mem_nodes hl (tail_mem l)
  have hpmem : p ∈ s.nodes := h.mem_nodes hl (front_mem hp hend)
  have htn : l.tail ≠ node := fun heq => hfree list l hl (heq ▸ tail_mem l)
  simp [DlistStore.dlistPushback, h.malloc hfresh, setData, setPrev, setNext, getPrev, hrecord, htail, hpmem, hprev,
    htn, addLength]

/-- A list without elements is told by its first node. -/
theorem Shows.first_nil (h : s.Shows t) (hl : t.lists list = some l) (helements : l.elements = []) :
    s.getNext (s.head list) = some l.tail ∧ s.getNext l.tail = some 0 := by
  have hholds := h.holds list l hl
  have hsplit : l.elements = [] ++ [] := helements
  have hnext := h.next_eq hl (p := l.head) (q := l.tail) hsplit rfl rfl
  rw [hholds.head, getNext_of_mem (h.mem_nodes hl List.mem_cons_self), hnext,
    getNext_of_mem (h.mem_nodes hl (tail_mem l)), hholds.last]
  exact ⟨rfl, rfl⟩

theorem Shows.first_cons (h : s.Shows t) (hl : t.lists list = some l)
    (helements : l.elements = (node, val) :: ys) (hq : (ys.map Prod.fst ++ [l.tail]).head? = some q) :
    s.getNext (s.head list) = some node ∧ s.getNext node = some q ∧ q ≠ 0 := by
  have hcons : l.elements = [] ++ (node, val) :: ys := helements
  obtain ⟨hhead, -, hnode, -⟩ := h.neighbours hl (p := l.head) hcons rfl hq
  have hmem : node ∈ l.cells := handle_mem hcons
  rw [(h.holds list l hl).head, getNext_of_mem (h.mem_nodes hl List.mem_cons_self), hhead,
    getNext_of_mem (h.mem_nodes hl hmem), hnode]
  exact ⟨rfl, rfl, h.ne_zero hl (behind_handle_mem hcons hq)⟩

theorem Shows.dlistPop_nil (h : s.Shows t) (hl : t.lists list = some l) (helements : l.elements = []) :
    s.dlistPop list = some (s, 0) := by
  obtain ⟨hfirst, hlast⟩ := h.first_nil hl helements
  simp [DlistStore.dlistPop, hfirst, hlast]

theorem Shows.dlistPop_cons (h : s.Shows t) (hl : t.lists list = some l)
    (helements : l.elements = (node, val) :: ys) :
    ∃ s', s.dlistPop list = some (s', val)
      ∧ s'.Shows ((t.put list { l with elements := ys }).release node) := by
  have hcons : l.elements = [] ++ (node, val) :: ys := helements
  obtain ⟨q, hq⟩ := exists_behind ys l.tail
  obtain ⟨hunlink, hfree⟩ := h.unlink hl (p := l.head) hcons rfl hq
  refine ⟨_, ?_, hunlink.release hfree⟩
  have hbehind : q ∈ l.cells := behind_handle_mem hcons hq
  have hrecord := (h.holds list l hl).head
  have hhead : l.head ∈ s.nodes := h.mem_nodes hl List.mem_cons_self
  have hnode : node ∈ s.nodes := h.mem_nodes hl (handle_mem hcons)
  have hqmem : q ∈ s.nodes := h.mem_nodes hl hbehind
  obtain ⟨hfirst, -, hnext, -⟩ := h.neighbours hl (p := l.head) hcons rfl hq
  simp [DlistStore.dlistPop, hrecord, getNext, hhead, hfirst, hnode, hnext, h.ne_zero hl hbehind,
    h.getData hl hcons, setPrev, setNext, hqmem, addLength, freeNode]

theorem Shows.dlistPopback_nil (h : s.Shows t) (hl : t.lists list = some l) (helements : l.elements = []) :
    s.dlistPopback list = some (s, 0) := by
  obtain ⟨hfirst, hlast⟩ := h.first_nil hl helements
  simp [DlistStore.dlistPopback, hfirst, hlast]

theorem Shows.dlistPopback_concat (h : s.Shows t) (hl : t.lists list = some l)
    (helements : l.elements = xs ++ [(node, val)]) :
    ∃ s', s.dlistPopback list = some (s', val)
      ∧ s'.Shows ((t.put list { l with elements := xs }).release node) := by
  obtain ⟨p, hp⟩ := exists_front xs l.head
  obtain ⟨hunlink, hfree⟩ := h.unlink hl (q := l.tail) helements hp rfl
  rw [List.append_nil] at hunlink hfree
  refine ⟨_, ?_, hunlink.release hfree⟩
  have hholds := h.holds list l hl
  obtain ⟨first, second, hfirst, hsecond, hne⟩ : ∃ first second, s.getNext l.head = some first
      ∧ s.getNext first = some second ∧ second ≠ 0 := by
    obtain ⟨⟨n, v⟩, ys, hys⟩ : ∃ e ys, l.elements = e :: ys := by
      cases xs with
      | nil => exact ⟨_, _, helements⟩
      | cons x xs => exact ⟨_, _, helements⟩
    obtain ⟨q, hq⟩ := exists_behind ys l.tail
    have hcons := h.first_cons hl hys hq
    rw [hholds.head] at hcons
    exact ⟨_, _, hcons⟩
  obtain ⟨-, hprev, -, hlast⟩ := h.neighbours hl helements hp rfl
  have hpmem : p ∈ s.nodes := h.mem_nodes hl (front_mem hp helements)
  have hnode : node ∈ s.nodes := h.mem_nodes hl (handle_mem helements)
  have htail : l.tail ∈ s.nodes := h.mem_nodes hl (tail_mem l)
  simp [DlistStore.dlistPopback, hholds.head, hholds.tail, hfirst, hsecond, hne, getPrev, htail, hlast, hnode, hprev,
    h.getData hl helements, setNext, setPrev, hpmem, addLength, freeNode]

theorem Shows.dlistRemove (h : s.Shows t) (hl : t.lists list = some l)
    (helements : l.elements = xs ++ (node, val) :: ys) :
    ∃ s', s.dlistRemove list node = some (s', val)
      ∧ s'.Shows ((t.put list { l with elements := xs ++ ys }).release node) := by
  obtain ⟨p, hp⟩ := exists_front xs l.head
  obtain ⟨q, hq⟩ := exists_behind ys l.tail
  obtain ⟨hunlink, hfree⟩ := h.unlink hl helements hp hq
  refine ⟨_, ?_, hunlink.release hfree⟩
  have hholds := h.holds list l hl
  have hends := handle_ne (h.nodup hl) helements
  obtain ⟨-, hprev, hnext, -⟩ := h.neighbours hl helements hp hq
  have hnode : node ∈ s.nodes := h.mem_nodes hl (handle_mem helements)
  have hpmem : p ∈ s.nodes := h.mem_nodes hl (front_mem hp helements)
  have hqcell : q ∈ l.cells :=
    behind_handle_mem helements hq
  have hqmem : q ∈ s.nodes := h.mem_nodes hl hqcell
  -- the first write is to the node in front, which is not the one taken out
  have hpn : node ≠ p := fun heq => hfree list _ (Function.update_self _ _ _) (heq ▸ front_mem hp rfl)
  simp [DlistStore.dlistRemove, hholds.head, hholds.tail, hends, h.getData hl helements, getPrev, getNext, hnode,
    hprev, hnext, setNext, setPrev, hpmem, hqmem, hpn, addLength, freeNode]

theorem Shows.dlistRemove_end (h : s.Shows t) (hl : t.lists list = some l)
    (hend : node = l.head ∨ node = l.tail) : s.dlistRemove list node = some (s, 0) := by
  have hholds := h.holds list l hl
  unfold DlistStore.dlistRemove
  rw [hholds.head, hholds.tail, if_pos hend]

/-- No list has more nodes than are allocated. -/
theorem Shows.length_le (h : s.Shows t) (hl : t.lists list = some l) : l.cells.length < s.turns := by
  rw [← List.toFinset_card_of_nodup (h.nodup hl), turns, Nat.lt_succ_iff]
  refine Finset.card_le_card fun c hc => ?_
  exact h.mem_nodes hl (List.mem_toFinset.mp hc)

/-- `dlist_move` looks for the node in the list, although it needs nothing of what it finds. -/
theorem Shows.walkBefore (h : s.Shows t) (hl : t.lists list = some l)
    (helements : l.elements = xs ++ (node, val) :: ys) (hp : (l.head :: xs.map Prod.fst).getLast? = some p) :
    UcxArinc.walkBefore s.getNext node s.turns l.head = some p := by
  have hsplit : l.cells = l.head :: xs.map Prod.fst ++ node :: (ys.map Prod.fst ++ [l.tail]) :=
    cells_split l helements
  have hchain := (h.holds list l hl).linked.forward
  have hnodup := h.nodup hl
  have hlength := h.length_le hl
  have hmem := fun c => h.mem_nodes hl (c := c)
  rw [hsplit] at hchain hnodup hlength hmem
  refine walkBefore_chain hchain (fun c hc => getNext_of_mem (hmem c (List.mem_append_left _ hc))) ?_ ?_ hp
  · intro hin
    exact (List.nodup_append.mp hnodup).2.2 node (List.mem_cons_of_mem _ hin) node List.mem_cons_self rfl
  · simp only [List.length_append, List.length_cons] at hlength
    omega

/-- An element moves to the end of another list, or of its own. -/
theorem Shows.dlistMove {listDst : Nat} {dst : NodeList} (h : s.Shows t) (hl : t.lists list = some l)
    (helements : l.elements = xs ++ (node, val) :: ys)
    (hdst : (t.put list { l with elements := xs ++ ys }).lists listDst = some dst) :
    ∃ s', s.dlistMove listDst list node = some (s', val)
      ∧ s'.Shows ((t.put list { l with elements := xs ++ ys }).put listDst (dst.pushback node val)) := by
  obtain ⟨p, hp⟩ := exists_front xs l.head
  obtain ⟨q, hq⟩ := exists_behind ys l.tail
  obtain ⟨hunlink, hfree⟩ := h.unlink hl helements hp hq
  obtain ⟨r, hr⟩ := exists_front dst.elements dst.head
  have hend : dst.elements = dst.elements ++ [] := (List.append_nil _).symm
  have hnode : node ∈ s.nodes := h.mem_nodes hl (handle_mem helements)
  have hinsert := hunlink.insert val hdst hend hr rfl (h.nodes ▸ hnode) hfree
  have hbehind : q ∈ l.cells := behind_handle_mem helements hq
  have hnz : node ≠ 0 := h.ne_zero hl (handle_mem helements)
  have hpz : p ≠ 0 := h.ne_zero hl (front_mem hp helements)
  have hqz : q ≠ 0 := h.ne_zero hl hbehind
  have hpmem : p ∈ s.nodes := h.mem_nodes hl (front_mem hp helements)
  have hqmem : q ∈ s.nodes := h.mem_nodes hl hbehind
  obtain ⟨-, hprev, hnext, -⟩ := h.neighbours hl helements hp hq
  have hwalk := h.walkBefore hl helements hp
  have hpn : node ≠ p := fun heq => hfree list _ (Function.update_self _ _ _) (heq ▸ front_mem hp rfl)
  have hrecord : s.tail listDst = dst.tail := (hunlink.holds listDst dst hdst).tail
  have htail : dst.tail ∈ s.nodes := hunlink.mem_nodes hdst (tail_mem dst)
  have hrmem : r ∈ s.nodes := hunlink.mem_nodes hdst (front_mem hr hend)
  have htn : dst.tail ≠ node := fun heq => hfree listDst dst hdst (heq ▸ tail_mem dst)
  have hfront : Function.update s.prev q p dst.tail = r := hunlink.prev_eq hdst hend hr rfl
  -- the element's value is not written: it is already there
  have hdata : s.data node = val := (h.holds list l hl).data (node, val) (by simp [helements])
  have hkeep : Function.update s.data node val = s.data := hdata ▸ Function.update_eq_self node s.data
  simp only [hkeep] at hinsert
  refine ⟨_, ?_, hinsert⟩
  simp only [DlistStore.dlistMove, getPrev, hnode, if_true, hprev, getNext, hnext, hnz, or_false, if_false,
    h.getData hl helements, (h.holds list l hl).head, hwalk, setNext, setPrev, addLength, Option.bind_eq_bind,
    Option.bind_some, hpmem, ne_eq, hpn, not_false_eq_true, Function.update_of_ne, hqmem, hrecord, htail, hfront, htn,
    hrmem, hqz, hpz]

/-- Neither the head nor the tail is moved. -/
theorem Shows.dlistMove_end (h : s.Shows t) (hl : t.lists list = some l) (listDst : Nat)
    (hend : node = l.head ∨ node = l.tail) : s.dlistMove listDst list node = some (s, 0) := by
  have hholds := h.holds list l hl
  have hmem : node ∈ s.nodes := by
    rcases hend with rfl | rfl
    · exact h.mem_nodes hl List.mem_cons_self
    · exact h.mem_nodes hl (tail_mem l)
  have hstop : s.prev node = 0 ∨ s.next node = 0 ∨ node = 0 := by
    rcases hend with rfl | rfl
    · exact Or.inl hholds.first
    · exact Or.inr (Or.inl hholds.last)
  unfold DlistStore.dlistMove
  refine Option.bind_eq_some_iff.mpr ⟨_, getPrev_of_mem hmem, ?_⟩
  refine Option.bind_eq_some_iff.mpr ⟨_, getNext_of_mem hmem, ?_⟩
  exact if_pos hstop

theorem Shows.dlistRotate_nil (h : s.Shows t) (hl : t.lists list = some l) (helements : l.elements = []) :
    s.dlistRotate list = some (s, 0) := by
  obtain ⟨hfirst, hlast⟩ := h.first_nil hl helements
  unfold DlistStore.dlistRotate
  refine Option.bind_eq_some_iff.mpr ⟨_, hfirst, ?_⟩
  refine Option.bind_eq_some_iff.mpr ⟨_, hlast, ?_⟩
  exact if_pos rfl

/-- The first element becomes the last. What is returned is the node that was last, or the head. -/
theorem Shows.dlistRotate_cons (h : s.Shows t) (hl : t.lists list = some l)
    (helements : l.elements = (node, val) :: ys) :
    ∃ s', s.dlistRotate list = some (s', (l.head :: ys.map Prod.fst).getLast (List.cons_ne_nil _ _))
      ∧ s'.Shows (t.put list (({ l with elements := ys } : NodeList).pushback node val)) := by
  have hcons : l.elements = [] ++ (node, val) :: ys := helements
  obtain ⟨q, hq⟩ := exists_behind ys l.tail
  obtain ⟨hunlink, hfree⟩ := h.unlink hl (p := l.head) hcons rfl hq
  obtain ⟨r, hr⟩ := exists_front ys l.head
  have hend : ys = ys ++ [] := (List.append_nil ys).symm
  have hnode : node ∈ s.nodes := h.mem_nodes hl (handle_mem hcons)
  have hput : (t.put list { l with elements := [] ++ ys }).lists list = some { l with elements := ys } :=
    Function.update_self _ _ _
  have hinsert := hunlink.insert val hput hend hr rfl (h.nodes ▸ hnode) hfree
  rw [Lists.put_put] at hinsert
  have hbehind : q ∈ l.cells := behind_handle_mem hcons hq
  obtain ⟨hfirst, hsecond, hqz⟩ := h.first_cons hl helements hq
  have hhead : l.head ∈ s.nodes := h.mem_nodes hl List.mem_cons_self
  have htail : l.tail ∈ s.nodes := h.mem_nodes hl (tail_mem l)
  have hqmem : q ∈ s.nodes := h.mem_nodes hl hbehind
  have hends := handle_ne (h.nodup hl) hcons
  have hrmem : r ∈ s.nodes := hunlink.mem_nodes hput (front_mem hr hend)
  have hfront : Function.update s.prev q l.head l.tail = r := hunlink.prev_eq hput hend hr rfl
  have hdata : s.data node = val := (h.holds list l hl).data (node, val) (by simp [helements])
  have hkeep : Function.update s.data node val = s.data := hdata ▸ Function.update_eq_self node s.data
  have hlength : Function.update (Function.update s.length list (s.length list + -1)) list
      (Function.update s.length list (s.length list + -1) list + 1) = s.length := by
    rw [Function.update_idem, Function.update_self, Int.neg_add_cancel_right, Function.update_eq_self]
  have hlast : (l.head :: ys.map Prod.fst).getLast (List.cons_ne_nil _ _) = r := by
    rw [List.getLast?_eq_some_getLast (List.cons_ne_nil _ _), Option.some.injEq] at hr
    exact hr
  simp only [hkeep, hlength] at hinsert
  have hholds := h.holds list l hl
  have hprev : ∀ next', getPrev { s with prev := Function.update s.prev q l.head, next := next' } l.tail = some r :=
    fun _ => (if_pos htail).trans (congrArg some hfront)
  refine ⟨_, ?_, hinsert⟩
  rw [hlast]
  unfold DlistStore.dlistRotate
  refine Option.bind_eq_some_iff.mpr ⟨_, hfirst, ?_⟩
  refine Option.bind_eq_some_iff.mpr ⟨_, hsecond, ?_⟩
  rw [if_neg hqz, hholds.head]
  rw [hholds.head] at hfirst
  refine Option.bind_eq_some_iff.mpr ⟨_, hfirst, ?_⟩
  refine Option.bind_eq_some_iff.mpr ⟨_, hsecond, ?_⟩
  refine Option.bind_eq_some_iff.mpr ⟨_, if_pos hqmem, ?_⟩
  refine Option.bind_eq_some_iff.mpr ⟨q, hsecond, ?_⟩
  refine Option.bind_eq_some_iff.mpr ⟨_, if_pos (hholds.head ▸ hhead), ?_⟩
  dsimp only
  rw [hholds.head, hholds.tail]
  refine Option.bind_eq_some_iff.mpr ⟨r, hprev _, ?_⟩
  refine Option.bind_eq_some_iff.mpr ⟨r, hprev _, ?_⟩
  refine Option.bind_eq_some_iff.mpr ⟨_, if_pos hnode, ?_⟩
  refine Option.bind_eq_some_iff.mpr ⟨_, if_pos hnode, ?_⟩
  dsimp only
  rw [hholds.tail]
  refine Option.bind_eq_some_iff.mpr ⟨r, ?_, ?_⟩
  · exact (if_pos htail).trans (congrArg some ((Function.update_of_ne hends.2.symm _ _).trans hfront))
  refine Option.bind_eq_some_iff.mpr ⟨_, if_pos hrmem, ?_⟩
  dsimp only
  rw [hholds.tail]
  exact Option.bind_eq_some_iff.mpr ⟨_, if_pos htail, rfl⟩

theorem Shows.dlistForeach (h : s.Shows t) (hl : t.lists list = some l) (iterFn : Nat → Nat) :
    s.dlistForeach list iterFn = some (l.visit iterFn) := by
  obtain ⟨q, hq⟩ := exists_behind l.elements l.tail
  have hholds := h.holds list l hl
  have hnext := h.next_eq hl l.elements_eq (p := l.head) rfl hq
  have hhead : l.head ∈ s.nodes := h.mem_nodes hl List.mem_cons_self
  have hlength := h.length_le hl
  unfold NodeList.cells at hlength
  simp only [List.length_cons, List.length_append] at hlength
  have hturns : l.handles.length < s.turns := by omega
  have hforeach := foreachFrom_chain iterFn hholds.linked.forward.tail
    (fun c hc => ⟨getNext_of_mem (h.mem_nodes hl (List.mem_cons_of_mem _ hc)),
      h.ne_zero hl (List.mem_cons_of_mem _ hc)⟩) hholds.last hturns hq
  unfold DlistStore.dlistForeach
  simp only [hholds.head, getNext_of_mem hhead, hnext, Option.bind_eq_bind, Option.bind_some]
  exact hforeach

/-! ### Positions -/

section Positions

variable {get : Nat → Option Nat} {f : Nat → Nat} {as : List Nat} {a : Nat}

theorem stepBy_zero (steps : Nat) : stepBy get steps 0 = some 0 := by
  cases steps with
  | zero => rfl
  | succ steps => rfl

/-- So many steps along a chain that ends with the null pointer. -/
theorem stepBy_chain (hchain : Chain f as) (hget : ∀ c ∈ as, get c = some (f c) ∧ c ≠ 0)
    (hlast : ∀ z ∈ as.getLast?, f z = 0) (ha : as.head? = some a) (steps : Nat) :
    stepBy get steps a = some (as[steps]?.getD 0) := by
  induction steps generalizing as a with
  | zero =>
      rw [← List.head?_eq_getElem?, ha]
      rfl
  | succ steps ih =>
      obtain ⟨bs, rfl⟩ := List.head?_eq_some_iff.mp ha
      obtain ⟨hga, hne⟩ := hget a List.mem_cons_self
      rw [stepBy, if_neg hne, hga, List.getElem?_cons_succ]
      change stepBy get steps (f a) = _
      cases bs with
      | nil =>
          rw [hlast a rfl, stepBy_zero]
          rfl
      | cons b bs =>
          have hnext : f a = b := (List.isChain_cons_cons.mp hchain).1
          rw [hnext]
          exact ih (hchain.tail) (fun c hc => hget c (List.mem_cons_of_mem _ hc))
            (fun z hz => hlast z (by rwa [List.getLast?_cons_cons])) rfl

/-- The nodes that are met by following `get` up to the null pointer. -/
def traverse (get : Nat → Option Nat) : Nat → Nat → Option (List Nat)
  | 0, _ => none
  | turns + 1, node =>
    if node = 0 then some [] else do
      let rest ← traverse get turns (← get node)
      some (node :: rest)

/-- Following a chain meets all of it. -/
theorem traverse_chain {turns : Nat} (hchain : Chain f as) (hget : ∀ c ∈ as, get c = some (f c) ∧ c ≠ 0)
    (hlast : ∀ z ∈ as.getLast?, f z = 0) (ha : as.head? = some a) (hturns : as.length < turns) :
    traverse get turns a = some as := by
  induction as generalizing a turns with
  | nil => simp at ha
  | cons c as ih =>
      obtain ⟨k, rfl⟩ : ∃ k, turns = k + 1 := ⟨turns - 1, by omega⟩
      obtain rfl : c = a := by simpa using ha
      obtain ⟨hgc, hne⟩ := hget c List.mem_cons_self
      have hk : as.length < k := by simpa using hturns
      have hrest : traverse get k (f c) = some as := by
        cases as with
        | nil =>
            obtain ⟨m, rfl⟩ : ∃ m, k = m + 1 := ⟨k - 1, by simp at hk; omega⟩
            rw [hlast c rfl]
            rfl
        | cons b bs =>
            have hnext : f c = b := (List.isChain_cons_cons.mp hchain).1
            rw [hnext]
            exact ih (hchain.tail) (fun d hd => hget d (List.mem_cons_of_mem _ hd))
              (fun z hz => hlast z (by rwa [List.getLast?_cons_cons])) rfl hk
      simp [traverse, hne, hgc, hrest]

end Positions

/-- Forward from the head and backward from the tail the same nodes are met, in opposite order. -/
theorem Shows.traverse (h : s.Shows t) (hl : t.lists list = some l) :
    DlistStore.traverse s.getNext s.turns (s.head list) = some l.cells
      ∧ DlistStore.traverse s.getPrev s.turns (s.tail list) = some l.cells.reverse := by
  have hholds := h.holds list l hl
  have hlength := h.length_le hl
  constructor
  · refine traverse_chain hholds.linked.forward (fun c hc => ?_) (fun z hz => ?_) ?_ hlength
    · exact ⟨getNext_of_mem (h.mem_nodes hl hc), h.ne_zero hl hc⟩
    · rw [l.cells_eq, List.getLast?_concat] at hz
      exact Option.some.inj hz ▸ hholds.last
    · rw [hholds.head]
      rfl
  · refine traverse_chain hholds.linked.backward (fun c hc => ?_) (fun z hz => ?_) ?_ ?_
    · have hmem := List.mem_reverse.mp hc
      exact ⟨getPrev_of_mem (h.mem_nodes hl hmem), h.ne_zero hl hmem⟩
    · rw [List.getLast?_reverse] at hz
      exact Option.some.inj hz ▸ hholds.first
    · rw [List.head?_reverse, l.cells_eq, List.getLast?_concat, hholds.tail]
    · rwa [List.length_reverse]

theorem Shows.dlistIndex (h : s.Shows t) (hl : t.lists list = some l) (idx : Int) :
    s.dlistIndex list idx = some (l.index idx) := by
  have hholds := h.holds list l hl
  unfold DlistStore.dlistIndex NodeList.index
  by_cases hidx : 0 ≤ idx
  · obtain ⟨q, hq⟩ := exists_behind l.elements l.tail
    have hnext := h.next_eq hl l.elements_eq (p := l.head) rfl hq
    rw [if_pos hidx, if_pos hidx, hholds.head, getNext_of_mem (h.mem_nodes hl List.mem_cons_self), hnext]
    refine stepBy_chain hholds.linked.forward.tail (fun c hc => ?_) (fun z hz => ?_) hq _
    · have hmem : c ∈ l.cells := List.mem_cons_of_mem _ hc
      exact ⟨getNext_of_mem (h.mem_nodes hl hmem), h.ne_zero hl hmem⟩
    · change (l.handles ++ [l.tail]).getLast? = some z at hz
      rw [List.getLast?_concat] at hz
      exact Option.some.inj hz ▸ hholds.last
  · rw [if_neg hidx, if_neg hidx, hholds.tail]
    refine stepBy_chain hholds.linked.backward (fun c hc => ?_) (fun z hz => ?_) ?_ _
    · have hmem := List.mem_reverse.mp hc
      exact ⟨getPrev_of_mem (h.mem_nodes hl hmem), h.ne_zero hl hmem⟩
    · rw [List.getLast?_reverse] at hz
      exact Option.some.inj hz ▸ hholds.first
    · rw [List.head?_reverse, l.cells_eq, List.getLast?_concat]

/-- The element in some place is found by counting from either end. -/
theorem index_eq (l : NodeList) (i : Nat) (hi : i < l.handles.length) :
    l.index i = l.handles[i] ∧ l.index (i - (l.handles.length : Int)) = l.handles[i] := by
  have htail : l.cells.tail = l.handles ++ [l.tail] := rfl
  have hreverse : l.cells.reverse = l.tail :: (l.handles.reverse ++ [l.head]) := by simp [NodeList.cells]
  constructor
  · rw [NodeList.index, if_pos (Int.natCast_nonneg i), Int.toNat_natCast, htail, List.getElem?_append_left hi,
      List.getElem?_eq_getElem hi, Option.getD_some]
  · obtain ⟨k, hk⟩ : ∃ k, (-((i : Int) - (l.handles.length : Int))).toNat = k + 1 :=
      ⟨l.handles.length - i - 1, by omega⟩
    have hklt : k < l.handles.length := by omega
    have hplace : l.handles.length - 1 - k = i := by omega
    rw [NodeList.index, if_neg (by omega), hk, hreverse, List.getElem?_cons_succ,
      List.getElem?_append_left (by simpa using hklt), List.getElem?_reverse hklt, hplace,
      List.getElem?_eq_getElem hi, Option.getD_some]

theorem Shows.dlistCreate {head tail : Nat} (h : s.Shows t) (hlist : list ≠ 0 ∧ list ∉ t.addresses)
    (hhead : t.Fresh head) (htail : (t.take head).Fresh tail) :
    ∃ s', s.dlistCreate list head tail = some (s', list)
      ∧ s'.Shows (({ (t.take head).take tail with addresses := Insert.insert list t.addresses } : Lists).put list
        ⟨head, [], tail⟩) := by
  obtain ⟨htake, hfreeHead⟩ := h.take hhead
  obtain ⟨htake', hfreeTail⟩ := htake.take htail
  have hht : head ≠ tail := fun heq => htail.2 (heq ▸ Finset.mem_insert_self _ _)
  have hnone : ¬ (list = 0 ∨ list ∈ s.lists) := by
    rw [h.lists]
    exact fun hor => hor.elim hlist.1 hlist.2
  refine ⟨{ head := Function.update s.head list head, tail := Function.update s.tail list tail,
            length := Function.update s.length list 0,
            next := Function.update (Function.update s.next head tail) tail 0,
            prev := Function.update (Function.update s.prev head 0) tail head,
            data := Function.update (Function.update s.data head 0xdead) tail 0,
            lists := Insert.insert list s.lists,
            nodes := Insert.insert tail (Insert.insert head s.nodes) }, ?_, ?_⟩
  · have hfresh : ¬ (head = 0 ∨ head ∈ s.nodes) := by
      rw [h.nodes]
      exact fun hor => hor.elim hhead.1 hhead.2
    have hfresh' : ¬ (tail = 0 ∨ tail = head ∨ tail ∈ s.nodes) := by
      rw [h.nodes, ← Finset.mem_insert]
      exact fun hor => hor.elim htail.1 htail.2
    simp [DlistStore.dlistCreate, mallocList, hnone, mallocNode, hfresh, hfresh', setPrev, setNext, setData]
  · have hunowned : ∀ c ∈ ([head, tail] : List Nat), Unowned NodeList.cells t.lists c := by
      intro c hc
      rcases List.mem_cons.mp hc with rfl | hc
      · exact hfreeHead
      · rw [List.mem_singleton.mp hc]
        exact hfreeTail
    refine ⟨?_, fun i m hm => ?_, ?_, ?_, fun i m hm => ?_, htake'.null⟩
    · have hnodup : (NodeList.cells ⟨head, [], tail⟩).Nodup :=
        List.nodup_cons.mpr ⟨fun hc => hht (List.mem_singleton.mp hc), List.nodup_singleton tail⟩
      refine htake'.owned.set hnodup fun c hc => Or.inr ⟨hunowned c hc, ?_⟩
      · rcases List.mem_cons.mp hc with rfl | hc
        · exact Finset.mem_insert_of_mem (Finset.mem_insert_self _ _)
        · rw [List.mem_singleton.mp hc]
          exact Finset.mem_insert_self _ _
    · rw [Lists.put_lists] at hm
      by_cases hi : i = list
      · subst hi
        rw [Function.update_self, Option.some.injEq] at hm
        subst hm
        refine ⟨Function.update_self _ _ _, Function.update_self _ _ _, Function.update_self _ _ _, ⟨?_, ?_⟩, ?_,
          Function.update_self _ _ _, fun e he => absurd he List.not_mem_nil⟩
        · refine List.isChain_cons_cons.mpr ⟨?_, List.isChain_singleton tail⟩
          dsimp only
          rw [Function.update_of_ne hht, Function.update_self]
        · exact List.isChain_cons_cons.mpr ⟨Function.update_self _ _ _, List.isChain_singleton head⟩
        · dsimp only
          rw [Function.update_of_ne hht, Function.update_self]
      · rw [Function.update_of_ne hi] at hm
        have hother : ∀ c ∈ m.cells, c ≠ head ∧ c ≠ tail := fun c hc =>
          ⟨fun heq => hfreeHead i m hm (heq ▸ hc), fun heq => hfreeTail i m hm (heq ▸ hc)⟩
        have hkept : ∀ (f : Nat → Nat) (x y : Nat), ∀ c ∈ m.cells,
            Function.update (Function.update f head x) tail y c = f c := by
          intro f x y c hc
          rw [Function.update_of_ne (hother c hc).2, Function.update_of_ne (hother c hc).1]
        exact (h.holds i m hm).frame (Function.update_of_ne hi _ _) (Function.update_of_ne hi _ _)
          (Function.update_of_ne hi _ _) (hkept s.next _ _) (hkept s.prev _ _) (hkept s.data _ _)
    · exact htake'.nodes
    · dsimp only
      rw [h.lists]
      rfl
    · rw [Lists.put_lists] at hm
      by_cases hi : i = list
      · subst hi
        exact Finset.mem_insert_self _ _
      · rw [Function.update_of_ne hi] at hm
        exact Finset.mem_insert_of_mem (h.listed i m hm)

/-! ## Every sequence of calls -/

/-- Every call does what it is meant to. -/
theorem simulates : Simulates Shows step Lists.dlistStep := by
  intro s t call t' answer h hstep
  cases call with
  | create list head tail =>
      obtain ⟨hok, heq⟩ := Option.ite_none_right_eq_some.mp hstep
      rw [Option.some.injEq, Prod.mk.injEq] at heq
      obtain ⟨rfl, rfl⟩ := heq
      obtain ⟨s', hcall, hshows⟩ := h.dlistCreate ⟨hok.1, hok.2.1⟩ hok.2.2.1 hok.2.2.2
      exact ⟨s', by simp [step, hcall], hshows⟩
  | push list val node =>
      unfold Lists.dlistStep at hstep
      cases hl : t.lists list with
      | none => simp [hl] at hstep
      | some l =>
          simp only [hl, Option.ite_none_right_eq_some, Option.some.injEq, Prod.mk.injEq] at hstep
          obtain ⟨hfresh, rfl, rfl⟩ := hstep
          obtain ⟨s', hcall, hshows⟩ := h.dlistPush hl hfresh val
          exact ⟨s', by simp [step, hcall], hshows⟩
  | pushback list val node =>
      unfold Lists.dlistStep at hstep
      cases hl : t.lists list with
      | none => simp [hl] at hstep
      | some l =>
          simp only [hl, Option.ite_none_right_eq_some, Option.some.injEq, Prod.mk.injEq] at hstep
          obtain ⟨hfresh, rfl, rfl⟩ := hstep
          obtain ⟨s', hcall, hshows⟩ := h.dlistPushback hl hfresh val
          exact ⟨s', by simp [step, hcall], hshows⟩
  | pop list =>
      unfold Lists.dlistStep at hstep
      cases hl : t.lists list with
      | none => simp [hl] at hstep
      | some l =>
          cases helements : l.elements with
          | nil =>
              simp only [hl, helements, Option.some.injEq, Prod.mk.injEq] at hstep
              obtain ⟨rfl, rfl⟩ := hstep
              exact ⟨s, by simp [step, h.dlistPop_nil hl helements], h⟩
          | cons e rest =>
              simp only [hl, helements, Option.some.injEq, Prod.mk.injEq] at hstep
              obtain ⟨rfl, rfl⟩ := hstep
              obtain ⟨s', hcall, hshows⟩ := h.dlistPop_cons hl helements
              exact ⟨s', by simp [step, hcall], hshows⟩
  | popback list =>
      unfold Lists.dlistStep at hstep
      cases hl : t.lists list with
      | none => simp [hl] at hstep
      | some l =>
          cases hlast : l.elements.getLast? with
          | none =>
              simp only [hl, hlast, Option.some.injEq, Prod.mk.injEq] at hstep
              obtain ⟨rfl, rfl⟩ := hstep
              have helements := List.getLast?_eq_none_iff.mp hlast
              exact ⟨s, by simp [step, h.dlistPopback_nil hl helements], h⟩
          | some e =>
              simp only [hl, hlast, Option.some.injEq, Prod.mk.injEq] at hstep
              obtain ⟨rfl, rfl⟩ := hstep
              obtain ⟨xs, helements⟩ := List.getLast?_eq_some_iff.mp hlast
              obtain ⟨s', hcall, hshows⟩ := h.dlistPopback_concat hl helements
              have hdrop : l.elements.dropLast = xs := by rw [helements, List.dropLast_concat]
              rw [hdrop]
              exact ⟨s', by simp [step, hcall], hshows⟩
  | insert list prevnode val node =>
      unfold Lists.dlistStep at hstep
      cases hl : t.lists list with
      | none => simp [hl] at hstep
      | some l =>
          by_cases hfresh : t.Fresh node
          · by_cases hhead : prevnode = l.head
            · subst hhead
              simp only [hl, hfresh, not_true, if_false, if_true, Option.some.injEq, Prod.mk.injEq] at hstep
              obtain ⟨rfl, rfl⟩ := hstep
              obtain ⟨s', hcall, hshows⟩ := h.dlistInsert hl hfresh val (p := l.head) l.elements_eq rfl
              exact ⟨s', by simp [step, hcall], hshows⟩
            · by_cases htail : prevnode = l.tail
              · subst htail
                simp only [hl, hfresh, not_true, if_false, hhead, if_true, Option.some.injEq,
                  Prod.mk.injEq] at hstep
                obtain ⟨rfl, rfl⟩ := hstep
                obtain ⟨s', hcall, hshows⟩ := h.dlistInsert_tail hl hfresh val
                exact ⟨s', by simp [step, hcall], hshows⟩
              · by_cases hmem : prevnode ∈ l.handles
                · simp only [hl, hfresh, not_true, if_false, hhead, htail, hmem, if_true, Option.some.injEq,
                    Prod.mk.injEq] at hstep
                  obtain ⟨rfl, rfl⟩ := hstep
                  obtain ⟨xs, v, ys, helements⟩ := exists_split hmem
                  have hlast : (l.head :: (xs ++ [(prevnode, v)]).map Prod.fst).getLast? = some prevnode := by
                    rw [List.map_append, ← List.cons_append, List.map_singleton, List.getLast?_concat]
                  have hsplit : l.elements = (xs ++ [(prevnode, v)]) ++ ys := by simp [helements]
                  obtain ⟨s', hcall, hshows⟩ := h.dlistInsert hl hfresh val hsplit hlast
                  rw [insertAfter_split (nodup_handles (h.nodup hl)) helements]
                  exact ⟨s', by simp [step, hcall], hshows⟩
                · simp [hl, hfresh, hhead, htail, hmem] at hstep
          · simp [hl, hfresh] at hstep
  | remove list node =>
      unfold Lists.dlistStep at hstep
      cases hl : t.lists list with
      | none => simp [hl] at hstep
      | some l =>
          by_cases hend : node = l.head ∨ node = l.tail
          · simp only [hl, hend, if_true, Option.some.injEq, Prod.mk.injEq] at hstep
            obtain ⟨rfl, rfl⟩ := hstep
            exact ⟨s, by simp [step, h.dlistRemove_end hl hend], h⟩
          · cases hfind : l.find node with
            | none => simp [hl, hend, hfind] at hstep
            | some e =>
                simp only [hl, hend, if_false, hfind, Option.some.injEq, Prod.mk.injEq] at hstep
                obtain ⟨rfl, rfl⟩ := hstep
                obtain ⟨-, xs, ys, helements⟩ := find_split hfind
                obtain ⟨s', hcall, hshows⟩ := h.dlistRemove hl helements
                rw [remove_split (nodup_handles (h.nodup hl)) helements]
                exact ⟨s', by simp [step, hcall], hshows⟩
  | move listDst listSrc node =>
      unfold Lists.dlistStep at hstep
      cases hl : t.lists listSrc with
      | none => simp [hl] at hstep
      | some l =>
          cases hdst : (t.put listSrc (l.remove node)).lists listDst with
          | none => simp only [hl, hdst, reduceCtorEq] at hstep
          | some dst =>
              by_cases hend : node = l.head ∨ node = l.tail
              · simp only [hl, hdst, hend, if_true, Option.some.injEq, Prod.mk.injEq] at hstep
                obtain ⟨rfl, rfl⟩ := hstep
                exact ⟨s, by simp [step, h.dlistMove_end hl listDst hend], h⟩
              · cases hfind : l.find node with
                | none => simp only [hl, hdst, hend, if_false, hfind, reduceCtorEq] at hstep
                | some e =>
                    simp only [hl, hdst, hend, if_false, hfind, Option.some.injEq, Prod.mk.injEq] at hstep
                    obtain ⟨rfl, rfl⟩ := hstep
                    obtain ⟨-, xs, ys, helements⟩ := find_split hfind
                    rw [remove_split (nodup_handles (h.nodup hl)) helements] at hdst ⊢
                    obtain ⟨s', hcall, hshows⟩ := h.dlistMove hl helements hdst
                    exact ⟨s', by simp [step, hcall], hshows⟩
  | rotate list =>
      unfold Lists.dlistStep at hstep
      cases hl : t.lists list with
      | none => simp [hl] at hstep
      | some l =>
          cases helements : l.elements with
          | nil =>
              simp only [hl, helements, Option.some.injEq, Prod.mk.injEq] at hstep
              obtain ⟨rfl, rfl⟩ := hstep
              exact ⟨s, by simp [step, h.dlistRotate_nil hl helements], h⟩
          | cons e rest =>
              simp only [hl, helements, Option.some.injEq, Prod.mk.injEq] at hstep
              obtain ⟨rfl, rfl⟩ := hstep
              obtain ⟨s', hcall, hshows⟩ := h.dlistRotate_cons hl helements
              exact ⟨s', by simp [step, hcall], hshows⟩
  | index list idx =>
      unfold Lists.dlistStep at hstep
      obtain ⟨l, hl, heq⟩ := Option.map_eq_some_iff.mp hstep
      rw [Prod.mk.injEq] at heq
      obtain ⟨rfl, rfl⟩ := heq
      exact ⟨s, by simp [step, h.dlistIndex hl idx], h⟩
  | foreach list iterFn =>
      unfold Lists.dlistStep at hstep
      obtain ⟨l, hl, heq⟩ := Option.map_eq_some_iff.mp hstep
      rw [Prod.mk.injEq] at heq
      obtain ⟨rfl, rfl⟩ := heq
      exact ⟨s, by simp [step, h.dlistForeach hl iterFn], h⟩

/-- Memory with no list in it yet. -/
def blank (prev next data : Nat → Nat) : DlistStore :=
  ⟨fun _ => 0, fun _ => 0, fun _ => 0, prev, next, data, ∅, ∅⟩

theorem shows_blank (prev next data : Nat → Nat) : (blank prev next data).Shows Lists.empty :=
  ⟨⟨nofun, nofun, nofun⟩, nofun, rfl, rfl, nofun, by simp [Lists.empty]⟩

/-- Whatever is allowed to be called on any number of lists, the functions do and return what they are meant
    to. No two lists share a node, each reads the same from either end, its elements are found by counting from
    either end, and an element stays in its node until it is removed. -/
theorem dlists_refine (prev next data : Nat → Nat) {calls : List Call} {t : Lists} {answers : List Answer}
    (hcalls : exec Lists.dlistStep Lists.empty calls = some (t, answers)) :
    ∃ s, exec step (blank prev next data) calls = some (s, answers) ∧ s.Shows t
      ∧ (∀ list l, t.lists list = some l →
        s.length list = l.handles.length
          ∧ traverse s.getNext s.turns (s.head list) = some l.cells
          ∧ traverse s.getPrev s.turns (s.tail list) = some l.cells.reverse
          ∧ ∀ i (hi : i < l.handles.length), s.dlistIndex list i = some l.handles[i]
            ∧ s.dlistIndex list (i - s.length list) = some l.handles[i])
      ∧ ∀ call t' answer, t.dlistStep call = some (t', answer) →
        ∀ e, t.Has e → t.removed call ≠ some e.1 → t'.Has e := by
  obtain ⟨s, hexec, hshows⟩ := simulates.exec (shows_blank prev next data) hcalls
  refine ⟨s, hexec, hshows, fun list l hl => ?_, fun call t' answer hstep e he hcall => ?_⟩
  · obtain ⟨hforward, hbackward⟩ := hshows.traverse hl
    have hlength : s.length list = l.handles.length := by
      rw [(hshows.holds list l hl).length, NodeList.handles, List.length_map]
    refine ⟨hlength, hforward, hbackward, fun i hi => ?_⟩
    obtain ⟨hpos, hneg⟩ := index_eq l i hi
    rw [hlength, hshows.dlistIndex hl, hshows.dlistIndex hl, hpos, hneg]
    exact ⟨rfl, rfl⟩
  · exact he.dlistStep hshows.listed (fun i m hm => nodup_handles (hshows.nodup hm)) hstep hcall

/-- Two lists; elements are put in at either end and behind one another, one is moved, one taken out. -/
def twoDlists : List Call :=
  [.create 1 10 11, .create 2 20 21, .pushback 1 7 12, .push 1 8 13, .insert 1 13 9 14, .rotate 1, .move 2 1 14,
    .popback 1, .index 1 (-1), .foreach 2 fun _ => 0]

theorem dlists_refine_twoDlists :
    ∃ t answers, exec Lists.dlistStep Lists.empty twoDlists = some (t, answers)
      ∧ ∃ s, exec step (blank (fun _ => 0) (fun _ => 0) fun _ => 0) twoDlists = some (s, answers) ∧ s.Shows t
        ∧ (∀ list l, t.lists list = some l →
          s.length list = l.handles.length
            ∧ traverse s.getNext s.turns (s.head list) = some l.cells
            ∧ traverse s.getPrev s.turns (s.tail list) = some l.cells.reverse
            ∧ ∀ i (hi : i < l.handles.length), s.dlistIndex list i = some l.handles[i]
              ∧ s.dlistIndex list (i - s.length list) = some l.handles[i])
        ∧ ∀ call t' answer, t.dlistStep call = some (t', answer) →
          ∀ e, t.Has e → t.removed call ≠ some e.1 → t'.Has e := by
  obtain ⟨t, answers, hcalls⟩ : ∃ t answers, exec Lists.dlistStep Lists.empty twoDlists = some (t, answers) :=
    ⟨_, _, rfl⟩
  exact ⟨t, answers, hcalls, dlists_refine _ _ _ hcalls⟩

end DlistStore

end UcxArinc
