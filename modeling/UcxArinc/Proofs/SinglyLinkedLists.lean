import UcxArinc.Implementation.LinkedList
import UcxArinc.Library.NodeChain
import UcxArinc.Library.Refinement
import UcxArinc.Proofs.NodeLists

set_option autoImplicit false

/-! # Singly linked lists are sequences

A list is a chain of nodes: its head, one for each element, and its tail. Nodes are put in behind a node,
taken out, or appended, where the old tail becomes the last element and the new node the tail. Every
function is made of these three steps, and no step touches a node of another list. -/

namespace UcxArinc

open NodeChain Refinement NodeList

namespace Lists

/-- What a call is meant to do; `none` is a call that is not allowed: of a list that does not exist, with a
    node that is none of the list's, or with an address in use. -/
def step (t : Lists) : ListStore.Call → Option (Lists × ListStore.Answer)
  | .create list head tail =>
    if list ≠ 0 ∧ list ∉ t.addresses ∧ t.Fresh head ∧ (t.take head).Fresh tail then
      some (({ (t.take head).take tail with addresses := insert list t.addresses } : Lists).put list
        ⟨head, [], tail⟩, .pointer list)
    else none
  | .push list val node =>
    match t.lists list with
    | none => none
    | some l => if t.Fresh node then some ((t.take node).put list (l.push node val), .pointer node) else none
  | .pushback list val node =>
    match t.lists list with
    | none => none
    | some l =>
      if t.Fresh node then some ((t.take node).put list (l.append node val), .pointer l.tail) else none
  | .pop list =>
    match t.lists list with
    | none => none
    | some l =>
      match l.elements with
      | [] => some (t, .pointer 0)
      | (node, val) :: rest => some ((t.put list { l with elements := rest }).release node, .pointer val)
  | .popback list =>
    match t.lists list with
    | none => none
    | some l =>
      match l.elements.getLast? with
      | none => some (t, .pointer 0)
      | some (node, val) =>
        some ((t.put list { l with elements := l.elements.dropLast }).release node, .pointer val)
  | .insert list prevnode val node =>
    match t.lists list with
    | none => none
    | some l =>
      if ¬ t.Fresh node then none
      else if prevnode = l.head then some ((t.take node).put list (l.push node val), .pointer node)
      else if prevnode = l.tail then some (t, .pointer 0)
      else if prevnode ∈ l.handles then
        some ((t.take node).put list (l.insertAfter prevnode node val), .pointer node)
      else none
  | .remove list node =>
    match t.lists list with
    | none => none
    | some l =>
      if node = l.head ∨ node = l.tail then some (t, .pointer 0)
      else match l.find node with
        | none => none
        | some (_, val) => some ((t.put list (l.remove node)).release node, .pointer val)
  | .move listDst listSrc node =>
    match t.lists listSrc with
    | none => none
    | some l =>
      match (t.put listSrc (l.remove node)).lists listDst with
      | none => none
      | some dst =>
        if node = l.tail then some (t, .pointer 0)
        else match l.find node with
          | none => none
          | some (_, val) =>
            some ((t.put listSrc (l.remove node)).put listDst (dst.append node val), .pointer val)
  | .rotate list =>
    match t.lists list with
    | none => none
    | some l =>
      match l.elements with
      | [] => some (t, .pointer 0)
      | (node, val) :: rest =>
        some (t.put list (({ l with elements := rest } : NodeList).append node val), .pointer l.tail)
  | .cnext list node =>
    match t.lists list with
    | none => none
    | some l => if h : node ∈ l.handles then some (t, .pointer (l.handles.next node h)) else none
  | .foreach list iterFn =>
    (t.lists list).map fun l => (t, .visited (l.visit iterFn).1 (l.visit iterFn).2)

end Lists

/-! ## What the memory holds -/

namespace ListStore

variable {s s' : ListStore} {t : Lists} {list node val p q : Nat} {l l' : NodeList} {xs ys : List (Nat × Nat)}

/-- A list in memory. -/
structure Holds (s : ListStore) (list : Nat) (l : NodeList) : Prop where
  head : s.head list = l.head
  tail : s.tail list = l.tail
  length : s.length list = l.elements.length
  chain : Chain s.next l.cells
  last : s.next l.tail = 0
  data : ∀ e ∈ l.elements, s.data e.1 = e.2

/-- The lists in memory, each with nodes of its own. -/
structure Shows (s : ListStore) (t : Lists) : Prop where
  owned : Owned NodeList.cells t.lists t.nodes
  holds : ∀ list l, t.lists list = some l → s.Holds list l
  nodes : s.nodes = t.nodes
  lists : s.lists = t.addresses
  listed : ∀ list l, t.lists list = some l → list ∈ t.addresses
  null : 0 ∉ t.nodes

/-- A list whose nodes and whose record have not been written is as it was. -/
theorem Holds.frame (h : s.Holds list l) (hhead : s'.head list = s.head list)
    (htail : s'.tail list = s.tail list) (hlength : s'.length list = s.length list)
    (hnext : ∀ c ∈ l.cells, s'.next c = s.next c) (hdata : ∀ c ∈ l.cells, s'.data c = s.data c) :
    s'.Holds list l where
  head := hhead.trans h.head
  tail := htail.trans h.tail
  length := hlength.trans h.length
  chain := h.chain.congr hnext
  last := by
    rw [hnext l.tail (by simp [NodeList.cells])]
    exact h.last
  data := by
    intro e he
    rw [hdata e.1 (by simp only [NodeList.cells, NodeList.handles, List.mem_cons, List.mem_append]
                      exact Or.inr (Or.inl (List.mem_map_of_mem he)))]
    exact h.data e he

/-- One list changes: its nodes were its own before or nobody's, and nothing else has been written. -/
theorem Shows.change (h : s.Shows t) (hl : t.lists list = some l) (hnodup : l'.cells.Nodup)
    (hcells : ∀ c ∈ l'.cells, c ∈ l.cells ∨ Unowned NodeList.cells t.lists c ∧ c ∈ t.nodes)
    (hholds : s'.Holds list l') (hhead : ∀ i, i ≠ list → s'.head i = s.head i)
    (htail : ∀ i, i ≠ list → s'.tail i = s.tail i) (hlength : ∀ i, i ≠ list → s'.length i = s.length i)
    (hnext : ∀ c, c ∉ l.cells → ¬ Unowned NodeList.cells t.lists c → s'.next c = s.next c)
    (hdata : ∀ c, c ∉ l.cells → ¬ Unowned NodeList.cells t.lists c → s'.data c = s.data c)
    (hnodes : s'.nodes = s.nodes) (hlists : s'.lists = s.lists) : s'.Shows (t.put list l') where
  owned := h.owned.set hnodup fun c hc => (hcells c hc).imp_left fun hmem => ⟨l, hl, hmem⟩
  holds := by
    intro i m hm
    rw [Lists.put_lists] at hm
    by_cases hi : i = list
    · subst hi
      rw [Function.update_self, Option.some.injEq] at hm
      exact hm ▸ hholds
    · rw [Function.update_of_ne hi] at hm
      have hother : ∀ c ∈ m.cells, c ∉ l.cells ∧ ¬ Unowned NodeList.cells t.lists c := fun c hc =>
        ⟨h.owned.disjoint i list m l hi hm hl hc, fun hfree => hfree i m hm hc⟩
      exact (h.holds i m hm).frame (hhead i hi) (htail i hi) (hlength i hi)
        (fun c hc => hnext c (hother c hc).1 (hother c hc).2)
        fun c hc => hdata c (hother c hc).1 (hother c hc).2
  nodes := hnodes.trans h.nodes
  lists := hlists.trans h.lists
  listed := by
    intro i m hm
    rw [Lists.put_lists] at hm
    by_cases hi : i = list
    · subst hi
      exact h.listed i l hl
    · rw [Function.update_of_ne hi] at hm
      exact h.listed i m hm
  null := h.null

theorem Shows.nodup (h : s.Shows t) (hl : t.lists list = some l) : l.cells.Nodup := h.owned.nodup list l hl

theorem Shows.mem_nodes (h : s.Shows t) (hl : t.lists list = some l) {c : Nat} (hc : c ∈ l.cells) :
    c ∈ s.nodes := by
  rw [h.nodes]
  exact h.owned.used list l hl c hc

theorem Shows.ne_zero (h : s.Shows t) (hl : t.lists list = some l) {c : Nat} (hc : c ∈ l.cells) : c ≠ 0 := by
  rintro rfl
  exact h.null (h.owned.used list l hl 0 hc)

/-! ## Putting in, taking out, appending -/

/-- A node put in between two others. -/
theorem Shows.insert (h : s.Shows t) (val : Nat) (hl : t.lists list = some l) (helements : l.elements = xs ++ ys)
    (hp : (l.head :: xs.map Prod.fst).getLast? = some p)
    (hq : (ys.map Prod.fst ++ [l.tail]).head? = some q) (hnode : node ∈ t.nodes)
    (hfree : Unowned NodeList.cells t.lists node) :
    Shows { s with next := Function.update (Function.update s.next node q) p node,
                   data := Function.update s.data node val,
                   length := Function.update s.length list (s.length list + 1) }
      (t.put list { l with elements := xs ++ (node, val) :: ys }) := by
  have hholds := h.holds list l hl
  have hnotin : node ∉ l.cells := hfree list l hl
  have hsplit := cells_split l helements
  have hcells : NodeList.cells { l with elements := xs ++ (node, val) :: ys }
      = (l.head :: xs.map Prod.fst) ++ node :: (ys.map Prod.fst ++ [l.tail]) :=
    cells_split { l with elements := xs ++ (node, val) :: ys } rfl
  have hnodup : ((l.head :: xs.map Prod.fst) ++ node :: (ys.map Prod.fst ++ [l.tail])).Nodup := by
    rw [List.nodup_middle, ← hsplit]
    exact List.nodup_cons.mpr ⟨hnotin, h.nodup hl⟩
  have hpmem := front_mem hp helements
  have hends := front_ne_tail (h.nodup hl) helements hp
  have hne : ∀ c ∈ l.cells, c ≠ node := fun c hc heq => hnotin (heq ▸ hc)
  have hchain := hholds.chain
  rw [hsplit] at hchain
  refine h.change hl (hcells ▸ hnodup) ?_ ⟨hholds.head, hholds.tail, ?_, ?_, ?_, ?_⟩ (fun _ _ => rfl)
    (fun _ _ => rfl) (fun i hi => Function.update_of_ne hi _ _) ?_ ?_ rfl rfl
  · intro c hc
    rcases mem_insert_cells helements hc with hold | rfl
    · exact Or.inl hold
    · exact Or.inr ⟨hfree, hnode⟩
  · dsimp only
    rw [Function.update_self, hholds.length, helements]
    simp only [List.length_append, List.length_cons]
    omega
  · rw [hcells]
    exact hchain.insert hnodup hp hq
  · dsimp only
    rw [Function.update_of_ne hends.symm, Function.update_of_ne (hne _ (tail_mem l))]
    exact hholds.last
  · intro e he
    dsimp only
    rcases mem_insert_elements helements he with rfl | hold
    · exact Function.update_self _ _ _
    · rw [Function.update_of_ne (hne _ (element_mem hold))]
      exact hholds.data e hold
  · intro c hc hown
    dsimp only
    have hcp : c ≠ p := fun heq => hc (heq ▸ hpmem)
    have hcn : c ≠ node := fun heq => hown (heq ▸ hfree)
    rw [Function.update_of_ne hcp, Function.update_of_ne hcn]
  · intro c hc hown
    have hcn : c ≠ node := fun heq => hown (heq ▸ hfree)
    exact Function.update_of_ne hcn _ _

/-- A node taken out. It stays allocated, but is nobody's. -/
theorem Shows.unlink (h : s.Shows t) (hl : t.lists list = some l)
    (helements : l.elements = xs ++ (node, val) :: ys) (hp : (l.head :: xs.map Prod.fst).getLast? = some p)
    (hq : (ys.map Prod.fst ++ [l.tail]).head? = some q) :
    Shows { s with next := Function.update s.next p q,
                   length := Function.update s.length list (s.length list + -1) }
        (t.put list { l with elements := xs ++ ys })
      ∧ Unowned NodeList.cells (t.put list { l with elements := xs ++ ys }).lists node := by
  have hholds := h.holds list l hl
  have hsplit : l.cells = (l.head :: xs.map Prod.fst) ++ node :: (ys.map Prod.fst ++ [l.tail]) :=
    cells_split l helements
  have hcells : NodeList.cells { l with elements := xs ++ ys }
      = (l.head :: xs.map Prod.fst) ++ (ys.map Prod.fst ++ [l.tail]) :=
    cells_split { l with elements := xs ++ ys } rfl
  have hnodup := h.nodup hl
  have hchain := hholds.chain
  rw [hsplit] at hnodup hchain
  have hmiddle := List.nodup_cons.mp (List.nodup_middle.mp hnodup)
  have hpmem := front_mem hp helements
  have hends := front_ne_tail (h.nodup hl) helements hp
  refine ⟨?_, ?_⟩
  · refine h.change hl (hcells ▸ hmiddle.2) ?_ ⟨hholds.head, hholds.tail, ?_, ?_, ?_, ?_⟩ (fun _ _ => rfl)
      (fun _ _ => rfl) (fun i hi => Function.update_of_ne hi _ _) ?_ (fun _ _ _ => rfl) rfl rfl
    · exact fun c hc => Or.inl (mem_remove_cells helements hc)
    · dsimp only
      rw [Function.update_self, hholds.length, helements]
      simp only [List.length_append, List.length_cons]
      omega
    · rw [hcells]
      exact hchain.remove hmiddle.2 hp hq
    · dsimp only
      rw [Function.update_of_ne hends.symm]
      exact hholds.last
    · exact fun e he => hholds.data e (mem_remove_elements helements he)
    · intro c hc _
      have hcp : c ≠ p := fun heq => hc (heq ▸ hpmem)
      exact Function.update_of_ne hcp _ _
  · refine h.owned.unowned_set hl ?_ ?_
    · rw [hsplit]
      exact List.mem_append_right _ List.mem_cons_self
    · rw [hcells]
      exact hmiddle.1

/-- A node appended: the old tail takes the element, and the node is the new tail. -/
theorem Shows.append (h : s.Shows t) (val : Nat) (hl : t.lists list = some l) (hnode : node ∈ t.nodes)
    (hfree : Unowned NodeList.cells t.lists node) :
    Shows { s with next := Function.update (Function.update s.next node 0) l.tail node,
                   data := Function.update (Function.update s.data node 0) l.tail val,
                   tail := Function.update s.tail list node,
                   length := Function.update s.length list (s.length list + 1) }
      (t.put list (l.append node val)) := by
  have hholds := h.holds list l hl
  have hnotin : node ∉ l.cells := hfree list l hl
  have hcells : (l.append node val).cells = l.cells ++ [node] := by
    simp [NodeList.cells, NodeList.append, NodeList.handles]
  have hnodup : (l.cells ++ [node]).Nodup := by
    rw [List.nodup_append]
    refine ⟨h.nodup hl, List.nodup_singleton node, fun c hc b hb => ?_⟩
    rw [List.mem_singleton.mp hb]
    exact fun heq => hnotin (heq ▸ hc)
  have hne : ∀ c ∈ l.cells, c ≠ node := fun c hc heq => hnotin (heq ▸ hc)
  have htail := tail_mem l
  have hlast : l.cells.getLast? = some l.tail := by
    rw [l.cells_eq, List.getLast?_concat]
  refine h.change hl (hcells ▸ hnodup) ?_ ⟨hholds.head, ?_, ?_, ?_, ?_, ?_⟩ (fun _ _ => rfl)
    (fun i hi => Function.update_of_ne hi _ _) (fun i hi => Function.update_of_ne hi _ _) ?_ ?_ rfl rfl
  · intro c hc
    rw [hcells] at hc
    rcases List.mem_append.mp hc with hold | hnew
    · exact Or.inl hold
    · rw [List.mem_singleton.mp hnew]
      exact Or.inr ⟨hfree, hnode⟩
  · exact Function.update_self _ _ _
  · dsimp only
    rw [Function.update_self, hholds.length]
    simp [NodeList.append]
  · rw [hcells]
    have hchain : Chain (Function.update s.next node 0) l.cells :=
      hholds.chain.congr fun c hc => Function.update_of_ne (hne c hc) _ _
    exact hchain.snoc hnodup hlast
  · have hnt : node ≠ l.tail := (hne _ htail).symm
    simp only [NodeList.append]
    rw [Function.update_of_ne hnt, Function.update_self]
  · intro e he
    dsimp only
    rcases List.mem_append.mp he with hold | hnew
    · obtain ⟨xs, ys, hsplit⟩ := List.append_of_mem hold
      have het := (handle_ne (h.nodup hl) hsplit).2
      rw [Function.update_of_ne het, Function.update_of_ne (hne _ (element_mem hold))]
      exact hholds.data e hold
    · rw [List.mem_singleton.mp hnew]
      exact Function.update_self _ _ _
  · intro c hc hown
    dsimp only
    have hct : c ≠ l.tail := fun heq => hc (heq ▸ htail)
    have hcn : c ≠ node := fun heq => hown (heq ▸ hfree)
    rw [Function.update_of_ne hct, Function.update_of_ne hcn]
  · intro c hc hown
    dsimp only
    have hct : c ≠ l.tail := fun heq => hc (heq ▸ htail)
    have hcn : c ≠ node := fun heq => hown (heq ▸ hfree)
    rw [Function.update_of_ne hct, Function.update_of_ne hcn]

/-- A node is taken from the heap: it is nobody's yet. -/
theorem Shows.take (h : s.Shows t) (hfresh : t.Fresh node) :
    Shows { s with nodes := Insert.insert node s.nodes } (t.take node)
      ∧ Unowned NodeList.cells (t.take node).lists node := by
  refine ⟨⟨?_, fun i m hm => ?_, ?_, h.lists, h.listed, ?_⟩, h.owned.unowned hfresh.2⟩
  · exact h.owned.mono fun _ _ _ _ _ hc => Finset.mem_insert_of_mem hc
  · have hholds := h.holds i m hm
    exact ⟨hholds.head, hholds.tail, hholds.length, hholds.chain, hholds.last, hholds.data⟩
  · dsimp only
    rw [h.nodes]
    rfl
  · intro hzero
    rcases Finset.mem_insert.mp hzero with heq | hmem
    · exact hfresh.1 heq.symm
    · exact h.null hmem

/-- A node that is nobody's is given back. -/
theorem Shows.release (h : s.Shows t) (hfree : Unowned NodeList.cells t.lists node) :
    Shows { s with nodes := s.nodes.erase node } (t.release node) := by
  refine ⟨?_, fun i m hm => ?_, ?_, h.lists, h.listed, fun hzero => h.null (Finset.mem_of_mem_erase hzero)⟩
  · refine h.owned.mono fun i m hm c hc hused => Finset.mem_erase.mpr ⟨?_, hused⟩
    rintro rfl
    exact hfree i m hm hc
  · have hholds := h.holds i m hm
    exact ⟨hholds.head, hholds.tail, hholds.length, hholds.chain, hholds.last, hholds.data⟩
  · dsimp only
    rw [h.nodes]
    rfl

/-! ## The functions -/

theorem getNext_of_mem (hmem : node ∈ s.nodes) : s.getNext node = some (s.next node) := if_pos hmem

theorem getData_of_mem (hmem : node ∈ s.nodes) : s.getData node = some (s.data node) := if_pos hmem

theorem Shows.next_eq (h : s.Shows t) (hl : t.lists list = some l) (helements : l.elements = xs ++ ys)
    (hp : (l.head :: xs.map Prod.fst).getLast? = some p)
    (hq : (ys.map Prod.fst ++ [l.tail]).head? = some q) : s.next p = q := by
  have hchain := (h.holds list l hl).chain
  rw [cells_split l helements] at hchain
  exact hchain.next_eq hp hq

/-- Behind an element comes the next one's node or the tail. -/
theorem Shows.next_handle (h : s.Shows t) (hl : t.lists list = some l)
    (helements : l.elements = xs ++ (node, val) :: ys)
    (hq : (ys.map Prod.fst ++ [l.tail]).head? = some q) : s.next node = q := by
  have hlast : (l.head :: (xs ++ [(node, val)]).map Prod.fst).getLast? = some node := by
    rw [List.map_append, ← List.cons_append, List.map_singleton, List.getLast?_concat]
  have hsplit : l.elements = (xs ++ [(node, val)]) ++ ys := by simp [helements]
  exact h.next_eq hl hsplit hlast hq

theorem Shows.malloc (h : s.Shows t) (hfresh : t.Fresh node) :
    s.mallocNode node = some { s with nodes := Insert.insert node s.nodes } := by
  refine if_neg ?_
  rw [h.nodes]
  rintro (hzero | hmem)
  · exact hfresh.1 hzero
  · exact hfresh.2 hmem

/-- No list has more nodes than are allocated. -/
theorem Shows.length_le (h : s.Shows t) (hl : t.lists list = some l) : l.cells.length < s.turns := by
  rw [← List.toFinset_card_of_nodup (h.nodup hl), turns, Nat.lt_succ_iff]
  refine Finset.card_le_card fun c hc => ?_
  exact h.mem_nodes hl (List.mem_toFinset.mp hc)

/-! ### Loops -/

theorem Shows.walkBefore (h : s.Shows t) (hl : t.lists list = some l)
    (helements : l.elements = xs ++ (node, val) :: ys) (hp : (l.head :: xs.map Prod.fst).getLast? = some p) :
    UcxArinc.walkBefore s.getNext node s.turns l.head = some p := by
  have hsplit : l.cells = l.head :: xs.map Prod.fst ++ node :: (ys.map Prod.fst ++ [l.tail]) :=
    cells_split l helements
  have hchain := (h.holds list l hl).chain
  have hnodup := h.nodup hl
  have hlength := h.length_le hl
  have hmem := fun c => h.mem_nodes hl (c := c)
  rw [hsplit] at hchain hnodup hlength hmem
  refine walkBefore_chain hchain (fun c hc => getNext_of_mem (hmem c (List.mem_append_left _ hc))) ?_ ?_ hp
  · intro hin
    exact (List.nodup_append.mp hnodup).2.2 node (List.mem_cons_of_mem _ hin) node List.mem_cons_self rfl
  · simp only [List.length_append, List.length_cons] at hlength
    omega

/-- The node in front of the last element is found: three steps on from every earlier node there is another. -/
theorem walkToLast_chain {a n z : Nat} {as : List Nat} {turns : Nat} (hchain : Chain s.next (a :: as ++ [n, z]))
    (hmem : ∀ c ∈ a :: as ++ [n, z], c ∈ s.nodes ∧ c ≠ 0) (hlast : s.next z = 0) (hturns : as.length < turns)
    (hp : (a :: as).getLast? = some p) : s.walkToLast turns a = some p := by
  induction as generalizing a turns with
  | nil =>
      obtain ⟨k, rfl⟩ : ∃ k, turns = k + 1 := ⟨turns - 1, by omega⟩
      have hnext : s.next a = n := hchain.next_cons
      have hsecond : s.next n = z := hchain.tail.next_cons
      obtain rfl : a = p := by simpa using hp
      unfold walkToLast
      simp [getNext_of_mem (hmem a (by simp)).1, getNext_of_mem (hmem n (by simp)).1,
        getNext_of_mem (hmem z (by simp)).1, hnext, hsecond, hlast]
  | cons b as ih =>
      obtain ⟨k, rfl⟩ : ∃ k, turns = k + 1 := ⟨turns - 1, by omega⟩
      have hk : as.length < k := by simpa using hturns
      have hrest := ih hchain.tail (fun c hc => hmem c (List.mem_cons_of_mem _ hc)) hk (by simpa using hp)
      obtain ⟨c, d, cs, hcs⟩ : ∃ c d cs, as ++ [n, z] = c :: d :: cs := by
        cases as with
        | nil => exact ⟨n, z, [], rfl⟩
        | cons c as =>
            cases as with
            | nil => exact ⟨c, n, [z], rfl⟩
            | cons d as => exact ⟨c, d, as ++ [n, z], rfl⟩
      have hlist : a :: (b :: as) ++ [n, z] = a :: b :: c :: d :: cs := by simp [hcs]
      rw [hlist] at hchain hmem
      have hnext : s.next a = b := hchain.next_cons
      have hsecond : s.next b = c := hchain.tail.next_cons
      have hthird : s.next c = d := hchain.tail.tail.next_cons
      unfold walkToLast
      simp [getNext_of_mem (hmem a (by simp)).1, getNext_of_mem (hmem b (by simp)).1,
        getNext_of_mem (hmem c (by simp)).1, hnext, hsecond, hthird, (hmem d (by simp)).2, hrest]

/-! ### Calls -/

theorem Shows.listPush (h : s.Shows t) (hl : t.lists list = some l) (hfresh : t.Fresh node) (val : Nat) :
    ∃ s', s.listPush list val node = some (s', node)
      ∧ s'.Shows ((t.take node).put list (l.push node val)) := by
  obtain ⟨htake, hfree⟩ := h.take hfresh
  obtain ⟨q, hq⟩ := exists_behind l.elements l.tail
  have hnext := h.next_eq hl l.elements_eq (p := l.head) rfl hq
  have hhead : l.head ∈ s.nodes := h.mem_nodes hl List.mem_cons_self
  have hinsert := htake.insert val hl l.elements_eq rfl hq (Finset.mem_insert_self _ _) hfree
  refine ⟨_, ?_, hinsert⟩
  have hrecord := (h.holds list l hl).head
  simp [ListStore.listPush, h.malloc hfresh, setData, setNext, getNext, hrecord, hhead, hnext, addLength]

theorem Shows.listPushback (h : s.Shows t) (hl : t.lists list = some l) (hfresh : t.Fresh node) (val : Nat) :
    ∃ s', s.listPushback list val node = some (s', l.tail)
      ∧ s'.Shows ((t.take node).put list (l.append node val)) := by
  obtain ⟨htake, hfree⟩ := h.take hfresh
  have htail : l.tail ∈ s.nodes := h.mem_nodes hl (tail_mem l)
  have happend := htake.append val hl (Finset.mem_insert_self _ _) hfree
  refine ⟨_, ?_, happend⟩
  have hrecord := (h.holds list l hl).tail
  simp [ListStore.listPushback, h.malloc hfresh, setData, setNext, hrecord, htail, setTail, addLength]

/-- A list without elements is told by its first node. -/
theorem Shows.first_nil (h : s.Shows t) (hl : t.lists list = some l) (helements : l.elements = []) :
    s.getNext (s.head list) = some l.tail ∧ s.getNext l.tail = some 0 := by
  have hholds := h.holds list l hl
  have hsplit : l.elements = [] ++ [] := helements
  have hnext := h.next_eq hl (p := l.head) (q := l.tail) hsplit rfl rfl
  rw [hholds.head, getNext_of_mem (h.mem_nodes hl List.mem_cons_self), hnext,
    getNext_of_mem (h.mem_nodes hl (tail_mem l)), hholds.last]
  exact ⟨rfl, rfl⟩

theorem Shows.first_cons (h : s.Shows t) (hl : t.lists list = some l)
    (helements : l.elements = (node, val) :: ys) (hq : (ys.map Prod.fst ++ [l.tail]).head? = some q) :
    s.getNext (s.head list) = some node ∧ s.getNext node = some q ∧ q ≠ 0 := by
  have hcons : l.elements = [] ++ (node, val) :: ys := helements
  have hholds := h.holds list l hl
  have hhead := h.next_eq hl (p := l.head) (q := node) hcons rfl rfl
  have hnode := h.next_handle hl hcons hq
  have hmem : node ∈ l.cells := handle_mem hcons
  rw [hholds.head, getNext_of_mem (h.mem_nodes hl List.mem_cons_self), hhead,
    getNext_of_mem (h.mem_nodes hl hmem), hnode]
  exact ⟨rfl, rfl, h.ne_zero hl (behind_handle_mem hcons hq)⟩

theorem Shows.getData (h : s.Shows t) (hl : t.lists list = some l)
    (helements : l.elements = xs ++ (node, val) :: ys) : s.getData node = some val := by
  rw [getData_of_mem (h.mem_nodes hl (handle_mem helements))]
  have hdata := (h.holds list l hl).data (node, val) (by simp [helements])
  exact congrArg some hdata

theorem Shows.listPop_nil (h : s.Shows t) (hl : t.lists list = some l) (helements : l.elements = []) :
    s.listPop list = some (s, 0) := by
  obtain ⟨hfirst, hlast⟩ := h.first_nil hl helements
  simp [ListStore.listPop, hfirst, hlast]

theorem Shows.listPop_cons (h : s.Shows t) (hl : t.lists list = some l)
    (helements : l.elements = (node, val) :: ys) :
    ∃ s', s.listPop list = some (s', val)
      ∧ s'.Shows ((t.put list { l with elements := ys }).release node) := by
  have hcons : l.elements = [] ++ (node, val) :: ys := helements
  obtain ⟨q, hq⟩ := exists_behind ys l.tail
  obtain ⟨hfirst, hsecond, hne⟩ := h.first_cons hl helements hq
  obtain ⟨hunlink, hfree⟩ := h.unlink hl (p := l.head) hcons rfl hq
  refine ⟨_, ?_, hunlink.release hfree⟩
  have hrecord := (h.holds list l hl).head
  have hhead : l.head ∈ s.nodes := h.mem_nodes hl List.mem_cons_self
  have hnode : node ∈ s.nodes := h.mem_nodes hl (handle_mem hcons)
  rw [hrecord] at hfirst
  simp [ListStore.listPop, hrecord, hfirst, hsecond, hne, h.getData hl hcons, setNext, hhead,
    addLength, freeNode, hnode]

theorem Shows.listPopback_nil (h : s.Shows t) (hl : t.lists list = some l) (helements : l.elements = []) :
    s.listPopback list = some (s, 0) := by
  obtain ⟨hfirst, hlast⟩ := h.first_nil hl helements
  simp [ListStore.listPopback, hfirst, hlast]

theorem Shows.listPopback_concat (h : s.Shows t) (hl : t.lists list = some l)
    (helements : l.elements = xs ++ [(node, val)]) :
    ∃ s', s.listPopback list = some (s', val)
      ∧ s'.Shows ((t.put list { l with elements := xs }).release node) := by
  obtain ⟨p, hp⟩ := exists_front xs l.head
  obtain ⟨hunlink, hfree⟩ := h.unlink hl (q := l.tail) helements hp rfl
  rw [List.append_nil] at hunlink hfree
  refine ⟨_, ?_, hunlink.release hfree⟩
  have hholds := h.holds list l hl
  have hfirst : ∃ first second, s.getNext l.head = some first ∧ s.getNext first = some second
      ∧ second ≠ 0 := by
    obtain ⟨⟨n, v⟩, ys, hys⟩ : ∃ e ys, l.elements = e :: ys := by
      cases xs with
      | nil => exact ⟨_, _, helements⟩
      | cons x xs => exact ⟨_, _, helements⟩
    obtain ⟨q, hq⟩ := exists_behind ys l.tail
    have hcons := h.first_cons hl hys hq
    rw [hholds.head] at hcons
    exact ⟨_, _, hcons⟩
  obtain ⟨first, second, hfirst, hsecond, hne⟩ := hfirst
  have hsplit : l.cells = l.head :: xs.map Prod.fst ++ [node, l.tail] := cells_split l helements
  have hwalk : s.walkToLast s.turns l.head = some p := by
    have hlength := h.length_le hl
    have hchain := hholds.chain
    rw [hsplit] at hlength hchain
    refine walkToLast_chain hchain (fun c hc => ?_) hholds.last ?_ hp
    · rw [← hsplit] at hc
      exact ⟨h.mem_nodes hl hc, h.ne_zero hl hc⟩
    · simp only [List.length_append, List.length_cons] at hlength
      omega
  have hpmem : p ∈ s.nodes := h.mem_nodes hl (front_mem hp helements)
  have hnext : s.next p = node := h.next_eq hl helements hp rfl
  have hnode : node ∈ s.nodes := h.mem_nodes hl (handle_mem helements)
  simp [ListStore.listPopback, hholds.head, hholds.tail, hfirst, hsecond, hne, hwalk, getNext_of_mem hpmem, hnext,
    h.getData hl helements, setNext, hpmem, addLength, freeNode, hnode]

/-- An element is put in behind the head or behind another element. -/
theorem Shows.listInsert (h : s.Shows t) (hl : t.lists list = some l) (hfresh : t.Fresh node) (val : Nat)
    (helements : l.elements = xs ++ ys) (hp : (l.head :: xs.map Prod.fst).getLast? = some p) :
    ∃ s', s.listInsert list p val node = some (s', node)
      ∧ s'.Shows ((t.take node).put list { l with elements := xs ++ (node, val) :: ys }) := by
  obtain ⟨htake, hfree⟩ := h.take hfresh
  obtain ⟨q, hq⟩ := exists_behind ys l.tail
  have hinsert := htake.insert val hl helements hp hq (Finset.mem_insert_self _ _) hfree
  refine ⟨_, ?_, hinsert⟩
  have hpcell := front_mem hp helements
  have hpmem : p ∈ s.nodes := h.mem_nodes hl hpcell
  have hpn : p ≠ node := fun heq => hfree list l hl (heq ▸ hpcell)
  have hnext : s.next p = q := h.next_eq hl helements hp hq
  have hne : q ≠ 0 := h.ne_zero hl (behind_mem hq helements)
  simp [ListStore.listInsert, h.malloc hfresh, setData, setNext, getNext, hpmem, hpn, hnext, hne, addLength]

/-- Writing what is not allocated changes no list. -/
theorem Shows.frame (h : s.Shows t) (hhead : s'.head = s.head) (htail : s'.tail = s.tail)
    (hlength : s'.length = s.length) (hnext : ∀ c ∈ t.nodes, s'.next c = s.next c)
    (hdata : ∀ c ∈ t.nodes, s'.data c = s.data c) (hnodes : s'.nodes = s.nodes) (hlists : s'.lists = s.lists) :
    s'.Shows t where
  owned := h.owned
  holds := by
    intro i m hm
    have hmem := h.owned.used i m hm
    exact (h.holds i m hm).frame (congrFun hhead i) (congrFun htail i) (congrFun hlength i)
      (fun c hc => hnext c (hmem c hc)) fun c hc => hdata c (hmem c hc)
  nodes := hnodes.trans h.nodes
  lists := hlists.trans h.lists
  listed := h.listed
  null := h.null

/-- In particular a node that is not in use may be written. -/
theorem Shows.write (h : s.Shows t) (hnode : node ∉ t.nodes) (x val : Nat) :
    Shows { s with next := Function.update s.next node x, data := Function.update s.data node val } t := by
  have hne : ∀ c ∈ t.nodes, c ≠ node := fun c hc heq => hnode (heq ▸ hc)
  exact h.frame rfl rfl rfl (fun c hc => Function.update_of_ne (hne c hc) _ _)
    (fun c hc => Function.update_of_ne (hne c hc) _ _) rfl rfl

/-- Behind the tail nothing is put in. -/
theorem Shows.listInsert_tail (h : s.Shows t) (hl : t.lists list = some l) (hfresh : t.Fresh node) (val : Nat) :
    ∃ s', s.listInsert list l.tail val node = some (s', 0) ∧ s'.Shows t := by
  have hnode : node ∉ s.nodes := h.nodes ▸ hfresh.2
  refine ⟨_, ?_, h.write hfresh.2 0 val⟩
  have htail : l.tail ∈ s.nodes := h.mem_nodes hl (tail_mem l)
  have htn : l.tail ≠ node := fun heq => hnode (heq ▸ htail)
  simp [ListStore.listInsert, h.malloc hfresh, setData, setNext, getNext, htail, htn, (h.holds list l hl).last,
    freeNode, Finset.erase_insert hnode]

theorem Shows.listRemove (h : s.Shows t) (hl : t.lists list = some l)
    (helements : l.elements = xs ++ (node, val) :: ys) :
    ∃ s', s.listRemove list node = some (s', val)
      ∧ s'.Shows ((t.put list { l with elements := xs ++ ys }).release node) := by
  obtain ⟨p, hp⟩ := exists_front xs l.head
  obtain ⟨q, hq⟩ := exists_behind ys l.tail
  obtain ⟨hunlink, hfree⟩ := h.unlink hl helements hp hq
  refine ⟨_, ?_, hunlink.release hfree⟩
  have hholds := h.holds list l hl
  have hends := handle_ne (h.nodup hl) helements
  have hwalk := h.walkBefore hl helements hp
  have hpmem : p ∈ s.nodes := h.mem_nodes hl (front_mem hp helements)
  have hnode : node ∈ s.nodes := h.mem_nodes hl (handle_mem helements)
  have hnext := h.next_handle hl helements hq
  simp [ListStore.listRemove, hholds.head, hholds.tail, hends, h.getData hl helements, hwalk,
    getNext_of_mem hnode, hnext, setNext, hpmem, addLength, freeNode, hnode]

theorem Shows.listRemove_end (h : s.Shows t) (hl : t.lists list = some l) (hend : node = l.head ∨ node = l.tail) :
    s.listRemove list node = some (s, 0) := by
  have hholds := h.holds list l hl
  unfold ListStore.listRemove
  rw [hholds.head, hholds.tail, if_pos hend]

/-- The first element becomes the last: it moves to the old tail, and its node is the new tail. -/
theorem Shows.listRotate_cons (h : s.Shows t) (hl : t.lists list = some l)
    (helements : l.elements = (node, val) :: ys) :
    ∃ s', s.listRotate list = some (s', l.tail)
      ∧ s'.Shows (t.put list (({ l with elements := ys } : NodeList).append node val)) := by
  have hcons : l.elements = [] ++ (node, val) :: ys := helements
  obtain ⟨q, hq⟩ := exists_behind ys l.tail
  obtain ⟨hunlink, hfree⟩ := h.unlink hl (p := l.head) hcons rfl hq
  have hnode : node ∈ s.nodes := h.mem_nodes hl (handle_mem hcons)
  have happend := hunlink.append val (Function.update_self _ _ _) (h.nodes ▸ hnode) hfree
  rw [Lists.put_put] at happend
  have hends := handle_ne (h.nodup hl) hcons
  obtain ⟨hfirst, hsecond, hne⟩ := h.first_cons hl helements hq
  have hhead : l.head ∈ s.nodes := h.mem_nodes hl List.mem_cons_self
  have htail : l.tail ∈ s.nodes := h.mem_nodes hl (tail_mem l)
  have hholds := h.holds list l hl
  have hval : s.data node = val := hholds.data (node, val) (by simp [helements])
  have hnext : Function.update (Function.update (Function.update s.next l.head q) node 0) l.tail node
      = Function.update (Function.update (Function.update s.next l.head q) l.tail node) node 0 :=
    Function.update_comm hends.2 _ _ _
  have hdata : Function.update (Function.update s.data node 0) l.tail val
      = Function.update (Function.update s.data l.tail val) node 0 := Function.update_comm hends.2 _ _ _
  refine ⟨_, ?_, happend⟩
  rw [hholds.head] at hfirst
  simp [ListStore.listRotate, hholds.head, hholds.tail, hfirst, hsecond, hne, setNext, hhead, htail, hnode,
    ListStore.getData, setData, setTail, hval, hnext, hdata]

theorem Shows.listRotate_nil (h : s.Shows t) (hl : t.lists list = some l) (helements : l.elements = []) :
    s.listRotate list = some (s, 0) := by
  obtain ⟨hfirst, hlast⟩ := h.first_nil hl helements
  simp [ListStore.listRotate, hfirst, hlast]

/-- An element moves to the end of another list, or of its own: to the old tail there, and its node is the
    new tail. -/
theorem Shows.listMove {listDst : Nat} {dst : NodeList} (h : s.Shows t) (hl : t.lists list = some l)
    (helements : l.elements = xs ++ (node, val) :: ys)
    (hdst : (t.put list { l with elements := xs ++ ys }).lists listDst = some dst) :
    ∃ s', s.listMove listDst list node = some (s', val)
      ∧ s'.Shows ((t.put list { l with elements := xs ++ ys }).put listDst (dst.append node val)) := by
  obtain ⟨p, hp⟩ := exists_front xs l.head
  obtain ⟨q, hq⟩ := exists_behind ys l.tail
  obtain ⟨hunlink, hfree⟩ := h.unlink hl helements hp hq
  have hnode : node ∈ s.nodes := h.mem_nodes hl (handle_mem helements)
  have happend := hunlink.append val hdst (h.nodes ▸ hnode) hfree
  have hnz : node ≠ 0 := h.ne_zero hl (handle_mem helements)
  have hqz : q ≠ 0 := h.ne_zero hl (behind_handle_mem helements hq)
  have hnext := h.next_handle hl helements hq
  have hwalk := h.walkBefore hl helements hp
  have hpmem : p ∈ s.nodes := h.mem_nodes hl (front_mem hp helements)
  have hdholds := hunlink.holds listDst dst hdst
  have hdtail : dst.tail ∈ s.nodes := hunlink.mem_nodes hdst (tail_mem dst)
  have hdrecord : s.tail listDst = dst.tail := hdholds.tail
  have hnt : node ≠ dst.tail := fun heq => hfree listDst dst hdst (heq ▸ tail_mem dst)
  have hdata : Function.update (Function.update s.data node 0) dst.tail val
      = Function.update (Function.update s.data dst.tail val) node 0 := Function.update_comm hnt _ _ _
  refine ⟨_, ?_, happend⟩
  simp [ListStore.listMove, getNext_of_mem hnode, hnext, hqz, hnz, h.getData hl helements,
    (h.holds list l hl).head, hwalk, setNext, hpmem, addLength, hnode, hdrecord, hdtail, setData, setTail, hdata]

/-- The tail is not moved. -/
theorem Shows.listMove_tail (h : s.Shows t) (hl : t.lists list = some l) (listDst : Nat) :
    s.listMove listDst list l.tail = some (s, 0) := by
  simp [ListStore.listMove, getNext_of_mem (h.mem_nodes hl (tail_mem l)), (h.holds list l hl).last]

theorem Shows.listForeach (h : s.Shows t) (hl : t.lists list = some l) (iterFn : Nat → Nat) :
    s.listForeach list iterFn = some (l.visit iterFn) := by
  obtain ⟨q, hq⟩ := exists_behind l.elements l.tail
  have hholds := h.holds list l hl
  have hnext := h.next_eq hl l.elements_eq (p := l.head) rfl hq
  have hhead : l.head ∈ s.nodes := h.mem_nodes hl List.mem_cons_self
  have hlength := h.length_le hl
  unfold NodeList.cells at hlength
  simp only [List.length_cons, List.length_append] at hlength
  have hturns : l.handles.length < s.turns := by omega
  have hforeach := foreachFrom_chain iterFn hholds.chain.tail
    (fun c hc => ⟨getNext_of_mem (h.mem_nodes hl (List.mem_cons_of_mem _ hc)),
      h.ne_zero hl (List.mem_cons_of_mem _ hc)⟩) hholds.last hturns hq
  unfold ListStore.listForeach
  simp only [hholds.head, getNext_of_mem hhead, hnext, Option.bind_eq_bind, Option.bind_some]
  exact hforeach

/-- The node of the element behind, or of the first one. -/
theorem Shows.listCnext (h : s.Shows t) (hl : t.lists list = some l) (hmem : node ∈ l.handles) :
    s.listCnext list node = some (l.handles.next node hmem) := by
  have hholds := h.holds list l hl
  obtain ⟨xs, val, ys, helements⟩ := exists_split hmem
  have hnode : node ∈ s.nodes := h.mem_nodes hl (handle_mem helements)
  have hhandles : l.handles = xs.map Prod.fst ++ node :: ys.map Prod.fst := by
    rw [NodeList.handles, helements, List.map_append, List.map_cons]
  have hnot : node ∉ xs.map Prod.fst := by
    intro hin
    have hnodup := nodup_handles (h.nodup hl)
    rw [hhandles] at hnodup
    exact (List.nodup_append.mp hnodup).2.2 node hin node List.mem_cons_self rfl
  unfold ListStore.listCnext
  cases ys with
  | nil =>
      have hnext := h.next_handle hl helements (q := l.tail) rfl
      obtain ⟨q, hq⟩ := exists_behind xs node
      have hround : ∀ (hs : List Nat) (hm : node ∈ hs), hs = xs.map Prod.fst ++ [node] → hs.next node hm = q := by
        rintro _ hm rfl
        exact next_last hnot hm hq
      have hfirst : s.next l.head = q := by
        refine h.next_eq hl l.elements_eq rfl ?_
        have happ : List.map Prod.fst l.elements ++ [l.tail] = (xs.map Prod.fst ++ [node]) ++ [l.tail] :=
          congrArg (· ++ [l.tail]) hhandles
        rw [happ, List.head?_append, hq, Option.some_or]
      have hhead : l.head ∈ s.nodes := h.mem_nodes hl List.mem_cons_self
      simp [getNext_of_mem hnode, hnext, getNext_of_mem (h.mem_nodes hl (tail_mem l)), hholds.last, hholds.head,
        getNext_of_mem hhead, hfirst, hround _ hmem hhandles]
  | cons y ys =>
      have hnext := h.next_handle hl helements (q := y.1) rfl
      have hround : ∀ (hs : List Nat) (hm : node ∈ hs), hs = xs.map Prod.fst ++ node :: y.1 :: ys.map Prod.fst →
          hs.next node hm = y.1 := by
        rintro _ hm rfl
        exact next_middle hnot hm
      have hbehind : l.elements = (xs ++ [(node, val)]) ++ (y.1, y.2) :: ys := by simp [helements]
      obtain ⟨q, hq⟩ := exists_behind ys l.tail
      have hsecond := h.next_handle hl hbehind hq
      have hne : q ≠ 0 := h.ne_zero hl (behind_handle_mem hbehind hq)
      have hy : y.1 ∈ s.nodes := h.mem_nodes hl (handle_mem hbehind)
      simp [getNext_of_mem hnode, hnext, getNext_of_mem hy, hsecond, hne, hround _ hmem hhandles]

theorem Shows.listCreate {head tail : Nat} (h : s.Shows t) (hlist : list ≠ 0 ∧ list ∉ t.addresses)
    (hhead : t.Fresh head) (htail : (t.take head).Fresh tail) :
    ∃ s', s.listCreate list head tail = some (s', list)
      ∧ s'.Shows (({ (t.take head).take tail with addresses := Insert.insert list t.addresses } : Lists).put list
        ⟨head, [], tail⟩) := by
  obtain ⟨htake, hfreeHead⟩ := h.take hhead
  obtain ⟨htake', hfreeTail⟩ := htake.take htail
  have hht : head ≠ tail := fun heq => htail.2 (heq ▸ Finset.mem_insert_self _ _)
  have hmalloc := htake.malloc htail
  have hnone : ¬ (list = 0 ∨ list ∈ s.lists) := by
    rw [h.lists]
    exact fun hor => hor.elim hlist.1 hlist.2
  refine ⟨{ head := Function.update s.head list head, tail := Function.update s.tail list tail,
            length := Function.update s.length list 0,
            next := Function.update (Function.update s.next head tail) tail 0,
            data := Function.update (Function.update s.data head 0xdead) tail 0,
            lists := Insert.insert list s.lists,
            nodes := Insert.insert tail (Insert.insert head s.nodes) }, ?_, ?_⟩
  · have hfresh : ¬ (head = 0 ∨ head ∈ s.nodes) := by
      rw [h.nodes]
      exact fun hor => hor.elim hhead.1 hhead.2
    have hfresh' : ¬ (tail = 0 ∨ tail = head ∨ tail ∈ s.nodes) := by
      rw [h.nodes, ← Finset.mem_insert]
      exact fun hor => hor.elim htail.1 htail.2
    simp [ListStore.listCreate, mallocList, hnone, mallocNode, hfresh, hfresh', setNext, setData]
  · have hunowned : ∀ c ∈ ([head, tail] : List Nat), Unowned NodeList.cells t.lists c := by
      intro c hc
      rcases List.mem_cons.mp hc with rfl | hc
      · exact hfreeHead
      · rw [List.mem_singleton.mp hc]
        exact hfreeTail
    refine ⟨?_, fun i m hm => ?_, ?_, ?_, fun i m hm => ?_, htake'.null⟩
    · have hnodup : (NodeList.cells ⟨head, [], tail⟩).Nodup :=
        List.nodup_cons.mpr ⟨fun hc => hht (List.mem_singleton.mp hc), List.nodup_singleton tail⟩
      refine htake'.owned.set hnodup fun c hc => Or.inr ⟨hunowned c hc, ?_⟩
      · rcases List.mem_cons.mp hc with rfl | hc
        · exact Finset.mem_insert_of_mem (Finset.mem_insert_self _ _)
        · rw [List.mem_singleton.mp hc]
          exact Finset.mem_insert_self _ _
    · rw [Lists.put_lists] at hm
      by_cases hi : i = list
      · subst hi
        rw [Function.update_self, Option.some.injEq] at hm
        subst hm
        refine ⟨Function.update_self _ _ _, Function.update_self _ _ _, Function.update_self _ _ _, ?_,
          Function.update_self _ _ _, fun e he => absurd he List.not_mem_nil⟩
        refine List.isChain_cons_cons.mpr ⟨?_, List.isChain_singleton tail⟩
        dsimp only
        rw [Function.update_of_ne hht, Function.update_self]
      · rw [Function.update_of_ne hi] at hm
        have hother : ∀ c ∈ m.cells, c ≠ head ∧ c ≠ tail := fun c hc =>
          ⟨fun heq => hfreeHead i m hm (heq ▸ hc), fun heq => hfreeTail i m hm (heq ▸ hc)⟩
        refine (h.holds i m hm).frame (Function.update_of_ne hi _ _) (Function.update_of_ne hi _ _)
          (Function.update_of_ne hi _ _) (fun c hc => ?_) fun c hc => ?_
        · dsimp only
          rw [Function.update_of_ne (hother c hc).2, Function.update_of_ne (hother c hc).1]
        · dsimp only
          rw [Function.update_of_ne (hother c hc).2, Function.update_of_ne (hother c hc).1]
    · exact htake'.nodes
    · dsimp only
      rw [h.lists]
      rfl
    · rw [Lists.put_lists] at hm
      by_cases hi : i = list
      · subst hi
        exact Finset.mem_insert_self _ _
      · rw [Function.update_of_ne hi] at hm
        exact Finset.mem_insert_of_mem (h.listed i m hm)

/-! ## Every sequence of calls -/

/-- Every call does what it is meant to. -/
theorem simulates : Simulates Shows step Lists.step := by
  intro s t call t' answer h hstep
  cases call with
  | create list head tail =>
      obtain ⟨hok, heq⟩ := Option.ite_none_right_eq_some.mp hstep
      rw [Option.some.injEq, Prod.mk.injEq] at heq
      obtain ⟨rfl, rfl⟩ := heq
      obtain ⟨s', hcall, hshows⟩ := h.listCreate ⟨hok.1, hok.2.1⟩ hok.2.2.1 hok.2.2.2
      exact ⟨s', by simp [step, hcall], hshows⟩
  | push list val node =>
      unfold Lists.step at hstep
      cases hl : t.lists list with
      | none => simp [hl] at hstep
      | some l =>
          simp only [hl, Option.ite_none_right_eq_some, Option.some.injEq, Prod.mk.injEq] at hstep
          obtain ⟨hfresh, rfl, rfl⟩ := hstep
          obtain ⟨s', hcall, hshows⟩ := h.listPush hl hfresh val
          exact ⟨s', by simp [step, hcall], hshows⟩
  | pushback list val node =>
      unfold Lists.step at hstep
      cases hl : t.lists list with
      | none => simp [hl] at hstep
      | some l =>
          simp only [hl, Option.ite_none_right_eq_some, Option.some.injEq, Prod.mk.injEq] at hstep
          obtain ⟨hfresh, rfl, rfl⟩ := hstep
          obtain ⟨s', hcall, hshows⟩ := h.listPushback hl hfresh val
          exact ⟨s', by simp [step, hcall], hshows⟩
  | pop list =>
      unfold Lists.step at hstep
      cases hl : t.lists list with
      | none => simp [hl] at hstep
      | some l =>
          cases helements : l.elements with
          | nil =>
              simp only [hl, helements, Option.some.injEq, Prod.mk.injEq] at hstep
              obtain ⟨rfl, rfl⟩ := hstep
              exact ⟨s, by simp [step, h.listPop_nil hl helements], h⟩
          | cons e rest =>
              simp only [hl, helements, Option.some.injEq, Prod.mk.injEq] at hstep
              obtain ⟨rfl, rfl⟩ := hstep
              obtain ⟨s', hcall, hshows⟩ := h.listPop_cons hl helements
              exact ⟨s', by simp [step, hcall], hshows⟩
  | popback list =>
      unfold Lists.step at hstep
      cases hl : t.lists list with
      | none => simp [hl] at hstep
      | some l =>
          cases hlast : l.elements.getLast? with
          | none =>
              simp only [hl, hlast, Option.some.injEq, Prod.mk.injEq] at hstep
              obtain ⟨rfl, rfl⟩ := hstep
              have helements := List.getLast?_eq_none_iff.mp hlast
              exact ⟨s, by simp [step, h.listPopback_nil hl helements], h⟩
          | some e =>
              simp only [hl, hlast, Option.some.injEq, Prod.mk.injEq] at hstep
              obtain ⟨rfl, rfl⟩ := hstep
              obtain ⟨xs, helements⟩ := List.getLast?_eq_some_iff.mp hlast
              obtain ⟨s', hcall, hshows⟩ := h.listPopback_concat hl helements
              have hdrop : l.elements.dropLast = xs := by rw [helements, List.dropLast_concat]
              rw [hdrop]
              exact ⟨s', by simp [step, hcall], hshows⟩
  | insert list prevnode val node =>
      unfold Lists.step at hstep
      cases hl : t.lists list with
      | none => simp [hl] at hstep
      | some l =>
          by_cases hfresh : t.Fresh node
          · by_cases hhead : prevnode = l.head
            · subst hhead
              simp only [hl, hfresh, not_true, if_false, if_true, Option.some.injEq, Prod.mk.injEq] at hstep
              obtain ⟨rfl, rfl⟩ := hstep
              obtain ⟨s', hcall, hshows⟩ := h.listInsert hl hfresh val (p := l.head) l.elements_eq rfl
              exact ⟨s', by simp [step, hcall], hshows⟩
            · by_cases htail : prevnode = l.tail
              · subst htail
                simp only [hl, hfresh, not_true, if_false, hhead, if_true, Option.some.injEq,
                  Prod.mk.injEq] at hstep
                obtain ⟨rfl, rfl⟩ := hstep
                obtain ⟨s', hcall, hshows⟩ := h.listInsert_tail hl hfresh val
                exact ⟨s', by simp [step, hcall], hshows⟩
              · by_cases hmem : prevnode ∈ l.handles
                · simp only [hl, hfresh, not_true, if_false, hhead, htail, hmem, if_true, Option.some.injEq,
                    Prod.mk.injEq] at hstep
                  obtain ⟨rfl, rfl⟩ := hstep
                  obtain ⟨xs, v, ys, helements⟩ := exists_split hmem
                  have hlast : (l.head :: (xs ++ [(prevnode, v)]).map Prod.fst).getLast? = some prevnode := by
                    rw [List.map_append, ← List.cons_append, List.map_singleton, List.getLast?_concat]
                  have hsplit : l.elements = (xs ++ [(prevnode, v)]) ++ ys := by simp [helements]
                  obtain ⟨s', hcall, hshows⟩ := h.listInsert hl hfresh val hsplit hlast
                  rw [insertAfter_split (nodup_handles (h.nodup hl)) helements]
                  exact ⟨s', by simp [step, hcall], hshows⟩
                · simp [hl, hfresh, hhead, htail, hmem] at hstep
          · simp [hl, hfresh] at hstep
  | remove list node =>
      unfold Lists.step at hstep
      cases hl : t.lists list with
      | none => simp [hl] at hstep
      | some l =>
          by_cases hend : node = l.head ∨ node = l.tail
          · simp only [hl, hend, if_true, Option.some.injEq, Prod.mk.injEq] at hstep
            obtain ⟨rfl, rfl⟩ := hstep
            exact ⟨s, by simp [step, h.listRemove_end hl hend], h⟩
          · cases hfind : l.find node with
            | none => simp [hl, hend, hfind] at hstep
            | some e =>
                simp only [hl, hend, if_false, hfind, Option.some.injEq, Prod.mk.injEq] at hstep
                obtain ⟨rfl, rfl⟩ := hstep
                obtain ⟨-, xs, ys, helements⟩ := find_split hfind
                obtain ⟨s', hcall, hshows⟩ := h.listRemove hl helements
                rw [remove_split (nodup_handles (h.nodup hl)) helements]
                exact ⟨s', by simp [step, hcall], hshows⟩
  | move listDst listSrc node =>
      unfold Lists.step at hstep
      cases hl : t.lists listSrc with
      | none => simp [hl] at hstep
      | some l =>
          cases hdst : (t.put listSrc (l.remove node)).lists listDst with
          | none => simp only [hl, hdst, reduceCtorEq] at hstep
          | some dst =>
              by_cases htail : node = l.tail
              · subst htail
                simp only [hl, hdst, if_true, Option.some.injEq, Prod.mk.injEq] at hstep
                obtain ⟨rfl, rfl⟩ := hstep
                exact ⟨s, by simp [step, h.listMove_tail hl listDst], h⟩
              · cases hfind : l.find node with
                | none => simp only [hl, hdst, htail, if_false, hfind, reduceCtorEq] at hstep
                | some e =>
                    simp only [hl, hdst, htail, if_false, hfind, Option.some.injEq, Prod.mk.injEq] at hstep
                    obtain ⟨rfl, rfl⟩ := hstep
                    obtain ⟨-, xs, ys, helements⟩ := find_split hfind
                    rw [remove_split (nodup_handles (h.nodup hl)) helements] at hdst ⊢
                    obtain ⟨s', hcall, hshows⟩ := h.listMove hl helements hdst
                    exact ⟨s', by simp [step, hcall], hshows⟩
  | rotate list =>
      unfold Lists.step at hstep
      cases hl : t.lists list with
      | none => simp [hl] at hstep
      | some l =>
          cases helements : l.elements with
          | nil =>
              simp only [hl, helements, Option.some.injEq, Prod.mk.injEq] at hstep
              obtain ⟨rfl, rfl⟩ := hstep
              exact ⟨s, by simp [step, h.listRotate_nil hl helements], h⟩
          | cons e rest =>
              simp only [hl, helements, Option.some.injEq, Prod.mk.injEq] at hstep
              obtain ⟨rfl, rfl⟩ := hstep
              obtain ⟨s', hcall, hshows⟩ := h.listRotate_cons hl helements
              exact ⟨s', by simp [step, hcall], hshows⟩
  | cnext list node =>
      unfold Lists.step at hstep
      cases hl : t.lists list with
      | none => simp [hl] at hstep
      | some l =>
          by_cases hmem : node ∈ l.handles
          · simp only [hl, hmem, dite_true, Option.some.injEq, Prod.mk.injEq] at hstep
            obtain ⟨rfl, rfl⟩ := hstep
            exact ⟨s, by simp [step, h.listCnext hl hmem], h⟩
          · simp [hl, hmem] at hstep
  | foreach list iterFn =>
      unfold Lists.step at hstep
      obtain ⟨l, hl, heq⟩ := Option.map_eq_some_iff.mp hstep
      rw [Prod.mk.injEq] at heq
      obtain ⟨rfl, rfl⟩ := heq
      exact ⟨s, by simp [step, h.listForeach hl iterFn], h⟩

/-- `list_cnext` again and again. -/
def cnextTimes (s : ListStore) (list : Nat) : Nat → Nat → Option Nat
  | 0, node => some node
  | times + 1, node => (s.listCnext list node).bind fun next => s.cnextTimes list times next

/-- Going on from any element leads round through all of them. -/
theorem Shows.cnextTimes (h : s.Shows t) (hl : t.lists list = some l) (times i : Nat)
    (hi : i < l.handles.length) :
    s.cnextTimes list times l.handles[i] = l.handles[(i + times) % l.handles.length]? := by
  induction times generalizing i with
  | zero =>
      rw [Nat.add_zero, Nat.mod_eq_of_lt hi, List.getElem?_eq_getElem hi]
      rfl
  | succ times ih =>
      have hpos : 0 < l.handles.length := Nat.lt_of_le_of_lt (Nat.zero_le i) hi
      have hnext := h.listCnext hl (List.getElem_mem hi)
      rw [List.next_getElem _ (nodup_handles (h.nodup hl))] at hnext
      unfold ListStore.cnextTimes
      rw [hnext, Option.bind_some, ih _ (Nat.mod_lt _ hpos), Nat.mod_add_mod, Nat.add_assoc, Nat.add_comm 1]

/-- Memory with no list in it yet. -/
def blank (next data : Nat → Nat) : ListStore :=
  ⟨fun _ => 0, fun _ => 0, fun _ => 0, next, data, ∅, ∅⟩

theorem shows_blank (next data : Nat → Nat) : (blank next data).Shows Lists.empty :=
  ⟨⟨nofun, nofun, nofun⟩, nofun, rfl, rfl, nofun, by simp [Lists.empty]⟩

/-- Whatever is allowed to be called on any number of lists, the functions do and return what they are meant
    to. Every list stays a chain of its head, its elements and its tail, and no two share a node. -/
theorem lists_refine (next data : Nat → Nat) {calls : List Call} {t : Lists} {answers : List Answer}
    (hcalls : exec Lists.step Lists.empty calls = some (t, answers)) :
    ∃ s, exec step (blank next data) calls = some (s, answers) ∧ s.Shows t
      ∧ ∀ list l, t.lists list = some l → ∀ times i (hi : i < l.handles.length),
        s.cnextTimes list times l.handles[i] = l.handles[(i + times) % l.handles.length]? := by
  obtain ⟨s, hexec, hshows⟩ := simulates.exec (shows_blank next data) hcalls
  exact ⟨s, hexec, hshows, fun list l hl times i hi => hshows.cnextTimes hl times i hi⟩

/-- Two lists; an element is appended, one pushed in front, the first moved to the other list. -/
def twoLists : List Call :=
  [.create 1 10 11, .create 2 20 21, .pushback 1 7 12, .push 1 8 13, .rotate 1, .move 2 1 11, .popback 2,
    .foreach 1 fun _ => 0]

theorem lists_refine_twoLists :
    ∃ t answers, exec Lists.step Lists.empty twoLists = some (t, answers)
      ∧ ∃ s, exec step (blank (fun _ => 0) fun _ => 0) twoLists = some (s, answers) ∧ s.Shows t
        ∧ ∀ list l, t.lists list = some l → ∀ times i (hi : i < l.handles.length),
          s.cnextTimes list times l.handles[i] = l.handles[(i + times) % l.handles.length]? := by
  obtain ⟨t, answers, hcalls⟩ : ∃ t answers, exec Lists.step Lists.empty twoLists = some (t, answers) :=
    ⟨_, _, rfl⟩
  exact ⟨t, answers, hcalls, lists_refine _ _ hcalls⟩

end ListStore

end UcxArinc
