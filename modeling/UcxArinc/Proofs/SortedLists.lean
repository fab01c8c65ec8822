import UcxArinc.Library.StableQueue
import UcxArinc.Proofs.SinglyLinkedLists

set_option autoImplicit false

/-! # Waiting lists stay sorted

`list_insert_sorted` finds the place behind all processes whose priority is not less. Whatever is removed in
between, a waiting list is a queue sorted by `CURRENT_PRIORITY`, with equal priorities in the order of insertion. -/

namespace UcxArinc

open NodeChain Refinement NodeList StableQueue

/-- The node behind the head: the first element's, or the tail. -/
def NodeList.first (l : NodeList) : Nat := l.handles.head?.getD l.tail

/-- What the lists in memory stand for, with the members of one of them in the order of insertion. -/
structure PriorityQueue where
  lists : Lists
  currentPriority : Nat → Int
  members : List (Nat × Nat)

namespace PriorityQueue

/-- The priority of the process an element is. -/
def key (q : PriorityQueue) (e : Nat × Nat) : Int := q.currentPriority e.2

/-- A member leaves the queue. -/
def remove (list : Nat) (q : PriorityQueue) (node : Nat) : Option (PriorityQueue × Nat) :=
  match q.lists.lists list with
  | none => none
  | some l =>
    if node = l.head ∨ node = l.tail then some (q, 0)
    else match l.find node with
      | none => none
      | some (_, process) =>
        some ({ q with
          lists := (q.lists.put list (l.remove node)).release node
          members := q.members.filter fun e => e.1 ≠ node }, process)

/-- What a call is meant to do; `none` is a call that is not allowed: with an address in use, with a node that is
    none of the list's, or of the priority of a process that is queued. -/
def step (list : Nat) (q : PriorityQueue) : Waiting.Call → Option (PriorityQueue × Nat)
  | .insertSorted process node =>
    match q.lists.lists list with
    | none => none
    | some l =>
      if q.lists.Fresh node then
        some ({ q with
          lists := (q.lists.take node).put list { l with elements := insertStable q.key (node, process) l.elements }
          members := q.members ++ [(node, process)] }, 0)
      else none
  | .removeFirst | .pop =>
    match q.lists.lists list with
    | none => none
    | some l => q.remove list l.first
  | .remove node => q.remove list node
  | .setPriority process priority =>
    if ∃ e ∈ q.members, e.2 = process then none
    else some ({ q with currentPriority := Function.update q.currentPriority process priority }, 0)

end PriorityQueue

/-! ## What a call does to the queue -/

/-- What a call does to the elements in the order in which they wait: one is put in between others, or one is
    taken out from between others. -/
def Moved : Waiting.Call → List (Nat × Nat) → List (Nat × Nat) → Prop
  | .insertSorted process node, old, new => ∃ xs ys, old = xs ++ ys ∧ new = xs ++ (node, process) :: ys
  | .removeFirst, old, new | .pop, old, new => new = old.tail
  | .remove node, old, new => new = old ∨ ∃ xs process ys, old = xs ++ (node, process) :: ys ∧ new = xs ++ ys
  | .setPriority _ _, old, new => new = old

namespace PriorityQueue

variable {list node answer : Nat} {l l' : NodeList} {q q' : PriorityQueue} {call : Waiting.Call}

/-- The list in memory is the members, sorted. -/
def Sorted (list : Nat) (q : PriorityQueue) (l : NodeList) : Prop :=
  q.lists.lists list = some l ∧ Queued q.key q.members l.elements

theorem Sorted.remove (h : q.Sorted list l) (hnodup : l.cells.Nodup)
    (hremove : q.remove list node = some (q', answer)) :
    ∃ l', q'.Sorted list l' ∧ (l' = l ∧ (node = l.head ∨ node = l.tail)
      ∨ ∃ xs process ys, l.elements = xs ++ (node, process) :: ys ∧ l'.elements = xs ++ ys) := by
  unfold PriorityQueue.remove at hremove
  rw [h.1] at hremove
  by_cases hend : node = l.head ∨ node = l.tail
  · simp only [hend, if_true, Option.some.injEq, Prod.mk.injEq] at hremove
    obtain ⟨rfl, -⟩ := hremove
    exact ⟨l, h, .inl ⟨rfl, hend⟩⟩
  · cases hfind : l.find node with
    | none => simp [hend, hfind] at hremove
    | some e =>
        simp only [hend, if_false, hfind, Option.some.injEq, Prod.mk.injEq] at hremove
        obtain ⟨rfl, -⟩ := hremove
        obtain ⟨-, xs, ys, helements⟩ := find_split hfind
        refine ⟨l.remove node, ⟨Function.update_self _ _ _, h.2.filter _⟩, .inr ⟨xs, e.2, ys, helements, ?_⟩⟩
        rw [remove_split (nodup_handles hnodup) helements]

/-- The first element leaves the queue, if there is one. -/
theorem Sorted.removeFirst (h : q.Sorted list l) (hnodup : l.cells.Nodup)
    (hremove : q.remove list l.first = some (q', answer)) :
    ∃ l', q'.Sorted list l' ∧ l'.elements = l.elements.tail := by
  obtain ⟨l', hsorted, ⟨rfl, hend⟩ | ⟨xs, process, ys, hold, hnew⟩⟩ := h.remove hnodup hremove
  · refine ⟨l', hsorted, ?_⟩
    cases helements : l'.elements with
    | nil => rfl
    | cons e rest =>
        have hfirst : l'.first = e.1 := by simp [NodeList.first, NodeList.handles, helements]
        have hcons : l'.elements = [] ++ (e.1, e.2) :: rest := helements
        have hends := handle_ne hnodup hcons
        rw [hfirst] at hend
        exact absurd hend (not_or.mpr hends)
  · refine ⟨l', hsorted, ?_⟩
    cases xs with
    | nil => rw [hnew, hold, List.nil_append, List.nil_append, List.tail_cons]
    | cons e xs =>
        -- no other element has the first one's node
        have hhandles : l.handles.head? = some e.1 := by
          rw [NodeList.handles, hold, List.cons_append, List.map_cons, List.head?_cons]
        have hfirst : l.first = e.1 := by rw [NodeList.first, hhandles, Option.getD_some]
        have hne := (split_ne (nodup_handles hnodup) hold).1 e List.mem_cons_self
        exact absurd hfirst.symm hne

theorem Sorted.step (h : q.Sorted list l) (hnodup : l.cells.Nodup)
    (hstep : q.step list call = some (q', answer)) :
    ∃ l', q'.Sorted list l' ∧ Moved call l.elements l'.elements := by
  unfold PriorityQueue.step at hstep
  cases call with
  | insertSorted process node =>
      simp only [h.1, Option.ite_none_right_eq_some, Option.some.injEq, Prod.mk.injEq] at hstep
      obtain ⟨-, rfl, -⟩ := hstep
      have hsplit := (List.takeWhile_append_dropWhile (l := l.elements)
        (p := fun e => decide (q.key (node, process) ≤ q.key e))).symm
      exact ⟨_, ⟨Function.update_self _ _ _, h.2.insert _⟩, _, _, hsplit, rfl⟩
  | removeFirst =>
      simp only [h.1] at hstep
      exact h.removeFirst hnodup hstep
  | pop =>
      simp only [h.1] at hstep
      exact h.removeFirst hnodup hstep
  | remove node =>
      obtain ⟨l', hsorted, hmoved⟩ := h.remove hnodup hstep
      exact ⟨l', hsorted, hmoved.imp (fun hsame => by rw [hsame.1]) id⟩
  | setPriority process priority =>
      obtain ⟨hnone, heq⟩ := Option.ite_none_left_eq_some.mp hstep
      rw [Option.some.injEq, Prod.mk.injEq] at heq
      obtain ⟨rfl, -⟩ := heq
      refine ⟨l, ⟨h.1, h.2.congr fun e he => ?_⟩, rfl⟩
      have hother : e.2 ≠ process := fun heq => hnone ⟨e, he, heq⟩
      exact Function.update_of_ne hother _ _

end PriorityQueue

namespace ListStore

variable {s : ListStore} {t : Lists} {list node process p : Nat} {l : NodeList} {xs ys : List (Nat × Nat)}
  {currentPriority : Nat → Int}

/-! ## The place of a new element -/

/-- The loop stops in front of the first process whose priority is less, or in front of the tail. -/
theorem walkSorted_chain {a z turns : Nat} {es : List (Nat × Nat)}
    (hchain : Chain s.next (a :: (es.map Prod.fst ++ [z])))
    (hmem : ∀ c ∈ a :: es.map Prod.fst, c ∈ s.nodes) (htail : ∀ e ∈ es, e.1 ≠ z)
    (hdata : ∀ e ∈ es, s.data e.1 = e.2) (hturns : es.length < turns) :
    ∃ p, s.walkSorted currentPriority z process turns a = some p
      ∧ (a :: (es.takeWhile fun e => currentPriority process ≤ currentPriority e.2).map Prod.fst).getLast? = some p := by
  induction es generalizing a turns with
  | nil =>
      obtain ⟨k, rfl⟩ : ∃ k, turns = k + 1 := ⟨turns - 1, by omega⟩
      have hnext : s.next a = z := hchain.next_cons
      refine ⟨a, ?_, rfl⟩
      unfold walkSorted
      simp [getNext, hmem a List.mem_cons_self, hnext]
  | cons e es ih =>
      obtain ⟨k, rfl⟩ : ∃ k, turns = k + 1 := ⟨turns - 1, by omega⟩
      have hnext : s.next a = e.1 := hchain.next_cons
      have hfirst : e.1 ∈ s.nodes := hmem e.1 (by simp)
      have hstep : s.walkSorted currentPriority z process (k + 1) a
          = if currentPriority e.2 ≥ currentPriority process then
              s.walkSorted currentPriority z process k e.1 else some a := by
        rw [walkSorted]
        simp [getNext, getData, hmem a List.mem_cons_self, hnext, htail e List.mem_cons_self, hfirst,
          hdata e List.mem_cons_self]
      rw [hstep]
      by_cases hge : currentPriority process ≤ currentPriority e.2
      · obtain ⟨p, hwalk, hp⟩ := ih hchain.tail (fun c hc => hmem c (List.mem_cons_of_mem _ hc))
          (fun e' he => htail e' (List.mem_cons_of_mem _ he)) (fun e' he => hdata e' (List.mem_cons_of_mem _ he))
          (by simpa using hturns)
        refine ⟨p, (if_pos hge).trans hwalk, ?_⟩
        rw [List.takeWhile_cons_of_pos (by simpa using hge), List.map_cons, List.getLast?_cons_cons]
        exact hp
      · refine ⟨a, if_neg hge, ?_⟩
        rw [List.takeWhile_cons_of_neg (by simpa using hge)]
        rfl

/-- A node that is not in use may be written and then taken. -/
theorem Shows.prepare (h : s.Shows t) (hfresh : t.Fresh node) (x val : Nat) :
    Shows { s with next := Function.update s.next node x,
                   data := Function.update s.data node val,
                   nodes := Insert.insert node s.nodes } (t.take node)
      ∧ Unowned NodeList.cells t.lists node :=
  (h.write hfresh.2 x val).take hfresh

/-- The node in front of the place is found. -/
theorem Shows.walkSorted (h : s.Shows t) (hl : t.lists list = some l) (currentPriority : Nat → Int) (process : Nat) :
    ∃ p, s.walkSorted currentPriority l.tail process s.turns l.head = some p
      ∧ (l.head :: (l.elements.takeWhile fun e => currentPriority process ≤ currentPriority e.2).map
          Prod.fst).getLast? = some p := by
  have hholds := h.holds list l hl
  have hlength := h.length_le hl
  refine walkSorted_chain hholds.chain (fun c hc => h.mem_nodes hl ?_) (fun e he => ?_) hholds.data ?_
  · rw [l.cells_eq]
    exact List.mem_append_left _ hc
  · obtain ⟨xs, ys, hsplit⟩ := List.append_of_mem he
    exact (handle_ne (h.nodup hl) hsplit).2
  · simp only [NodeList.cells, NodeList.handles, List.length_cons, List.length_append, List.length_map] at hlength
    omega

theorem Shows.listInsertSorted (h : s.Shows t) (hl : t.lists list = some l) (hfresh : t.Fresh node)
    (currentPriority : Nat → Int) (process : Nat) :
    ∃ s', s.listInsertSorted currentPriority list process node = some s'
      ∧ s'.Shows ((t.take node).put list
          { l with elements := insertStable (fun e => currentPriority e.2) (node, process) l.elements }) := by
  obtain ⟨htake, hfree⟩ := h.prepare hfresh 0 process
  obtain ⟨p, hwalk, hp⟩ := htake.walkSorted hl currentPriority process
  obtain ⟨q, hq⟩ := exists_behind
    (l.elements.dropWhile fun e => currentPriority process ≤ currentPriority e.2) l.tail
  have hsplit := (List.takeWhile_append_dropWhile (l := l.elements)
    (p := fun e => decide (currentPriority process ≤ currentPriority e.2))).symm
  have hinsert := htake.insert process hl hsplit hp hq (Finset.mem_insert_self _ _) hfree
  have hnext : s.next p = q := h.next_eq hl hsplit hp hq
  refine ⟨_, ?_, hinsert⟩
  have hholds := h.holds list l hl
  have hpcell := front_mem hp hsplit
  have hpmem : p ∈ s.nodes := h.mem_nodes hl hpcell
  have hpn : p ≠ node := fun heq => hfree list l hl (heq ▸ hpcell)
  simp [ListStore.listInsertSorted, h.malloc hfresh, setData, setNext, getNext, hholds.head, hholds.tail, hwalk,
    hpmem, hpn, hnext, addLength]

end ListStore

namespace Waiting

open ListStore

variable {list : Nat} {w w' : Waiting} {q q' : PriorityQueue} {l : NodeList} {call : Call} {answer : Nat}

/-! ## Every sequence of calls -/

/-- The memory shows the queue. -/
def Shows (w : Waiting) (q : PriorityQueue) : Prop :=
  w.store.Shows q.lists ∧ w.currentPriority = q.currentPriority

theorem Shows.remove (h : w.Shows q) {node : Nat} (hremove : q.remove list node = some (q', answer)) :
    ∃ s', w.store.listRemove list node = some (s', answer) ∧ Shows { w with store := s' } q' := by
  unfold PriorityQueue.remove at hremove
  cases hl : q.lists.lists list with
  | none => simp [hl] at hremove
  | some l =>
      by_cases hend : node = l.head ∨ node = l.tail
      · simp only [hl, hend, if_true, Option.some.injEq, Prod.mk.injEq] at hremove
        obtain ⟨rfl, rfl⟩ := hremove
        exact ⟨w.store, h.1.listRemove_end hl hend, h⟩
      · cases hfind : l.find node with
        | none => simp [hl, hend, hfind] at hremove
        | some e =>
            simp only [hl, hend, if_false, hfind, Option.some.injEq, Prod.mk.injEq] at hremove
            obtain ⟨rfl, rfl⟩ := hremove
            obtain ⟨-, xs, ys, helements⟩ := find_split hfind
            obtain ⟨s', hcall, hshows⟩ := h.1.listRemove hl helements
            rw [← remove_split (nodup_handles (h.1.nodup hl)) helements] at hshows
            exact ⟨s', hcall, hshows, h.2⟩

/-- The first node, which is the tail if there is no element. -/
theorem Shows.first (h : w.Shows q) (hl : q.lists.lists list = some l) :
    w.store.getNext (w.store.head list) = some l.first := by
  have hholds := h.1.holds list l hl
  obtain ⟨n, hn⟩ := exists_behind l.elements l.tail
  have hnext := h.1.next_eq hl l.elements_eq (p := l.head) rfl hn
  rw [hholds.head, getNext_of_mem (h.1.mem_nodes hl List.mem_cons_self), hnext]
  unfold NodeList.first NodeList.handles
  cases helements : l.elements with
  | nil => simpa [helements] using hn.symm
  | cons e rest => simpa [helements] using hn.symm

/-- `list_pop` does what `list_remove` does with the first node. -/
theorem Shows.pop (h : w.Shows q) (hl : q.lists.lists list = some l)
    (hremove : q.remove list l.first = some (q', answer)) :
    ∃ s', w.store.listPop list = some (s', answer) ∧ Shows { w with store := s' } q' := by
  cases helements : l.elements with
  | nil =>
      have hfirst : l.first = l.tail := by simp [NodeList.first, NodeList.handles, helements]
      rw [hfirst, PriorityQueue.remove, hl] at hremove
      simp only [or_true, if_true, Option.some.injEq, Prod.mk.injEq] at hremove
      obtain ⟨rfl, rfl⟩ := hremove
      exact ⟨w.store, h.1.listPop_nil hl helements, h⟩
  | cons e rest =>
      have hcons : l.elements = [] ++ (e.1, e.2) :: rest := helements
      have hfirst : l.first = e.1 := by simp [NodeList.first, NodeList.handles, helements]
      have hends := handle_ne (h.1.nodup hl) hcons
      have hfind : l.find e.1 = some e := by simp [NodeList.find, helements]
      rw [hfirst, PriorityQueue.remove, hl] at hremove
      simp only [hends, or_self, if_false, hfind, Option.some.injEq, Prod.mk.injEq] at hremove
      obtain ⟨rfl, rfl⟩ := hremove
      obtain ⟨s', hcall, hshows⟩ := h.1.listPop_cons hl helements
      have hrest := remove_split (nodup_handles (h.1.nodup hl)) hcons
      rw [List.nil_append] at hrest
      rw [← hrest] at hshows
      exact ⟨s', hcall, hshows, h.2⟩

/-- Every call does what it is meant to. -/
theorem simulates (list : Nat) : Simulates Shows (step list) (PriorityQueue.step list) := by
  intro w q call q' answer h hstep
  cases call with
  | insertSorted process node =>
      unfold PriorityQueue.step at hstep
      cases hl : q.lists.lists list with
      | none => simp [hl] at hstep
      | some l =>
          simp only [hl, Option.ite_none_right_eq_some, Option.some.injEq, Prod.mk.injEq] at hstep
          obtain ⟨hfresh, rfl, rfl⟩ := hstep
          obtain ⟨s', hcall, hshows⟩ := h.1.listInsertSorted hl hfresh w.currentPriority process
          refine ⟨{ w with store := s' }, by simp [step, hcall], ?_, h.2⟩
          rw [h.2] at hshows
          exact hshows
  | removeFirst =>
      unfold PriorityQueue.step at hstep
      cases hl : q.lists.lists list with
      | none => simp [hl] at hstep
      | some l =>
          simp only [hl] at hstep
          obtain ⟨s', hcall, hshows⟩ := h.remove hstep
          refine ⟨_, ?_, hshows⟩
          simp only [step, h.first hl, Option.bind_eq_bind, Option.bind_some, hcall, Option.map_some]
  | pop =>
      unfold PriorityQueue.step at hstep
      cases hl : q.lists.lists list with
      | none => simp [hl] at hstep
      | some l =>
          simp only [hl] at hstep
          obtain ⟨s', hcall, hshows⟩ := h.pop hl hstep
          exact ⟨_, by simp [step, hcall], hshows⟩
  | remove node =>
      obtain ⟨s', hcall, hshows⟩ := h.remove hstep
      exact ⟨_, by simp [step, hcall], hshows⟩
  | setPriority process priority =>
      obtain ⟨-, heq⟩ := Option.ite_none_left_eq_some.mp hstep
      rw [Option.some.injEq, Prod.mk.injEq] at heq
      obtain ⟨rfl, rfl⟩ := heq
      exact ⟨_, rfl, h.1, congrArg (fun f => Function.update f process priority) h.2⟩

/-- What every sequence of calls comes to. -/
theorem sorted_exec {list : Nat} {w : Waiting} {q q' : PriorityQueue} {l : NodeList} {calls : List Call}
    {answers : List Nat} (hshows : w.Shows q) (hsorted : q.Sorted list l)
    (hcalls : exec (PriorityQueue.step list) q calls = some (q', answers)) :
    ∃ w' l', exec (step list) w calls = some (w', answers) ∧ w'.Shows q' ∧ q'.Sorted list l' := by
  induction calls generalizing w q l answers with
  | nil =>
      rw [exec_nil, Option.some.injEq, Prod.mk.injEq] at hcalls
      obtain ⟨rfl, rfl⟩ := hcalls
      exact ⟨w, l, rfl, hshows, hsorted⟩
  | cons call calls ih =>
      obtain ⟨q₁, answer, rest, hstep, hrest, rfl⟩ := exec_cons_eq_some.mp hcalls
      obtain ⟨w₁, hconcrete, hshows₁⟩ := simulates list w q call q₁ answer hshows hstep
      obtain ⟨l₁, hsorted₁, -⟩ := hsorted.step (hshows.1.nodup hsorted.1) hstep
      obtain ⟨w', l', hexec, hlast⟩ := ih hshows₁ hsorted₁ hrest
      exact ⟨w', l', exec_cons_eq_some.mpr ⟨w₁, answer, rest, hconcrete, hexec, rfl⟩, hlast⟩

/-- From an empty list on, whatever is allowed to be called: the list in memory is the members sorted by their
    priorities, those of one priority in the order of insertion, and `length` is their number. No call moves an
    element it does not put in or take out. -/
theorem waitingList_sorted {s : ListStore} {t : Lists} {list head tail : Nat} (hshows : s.Shows t)
    (hlist : t.lists list = some ⟨head, [], tail⟩) (currentPriority : Nat → Int) {calls : List Call}
    {q : PriorityQueue} {answers : List Nat}
    (hcalls : exec (PriorityQueue.step list) ⟨t, currentPriority, []⟩ calls = some (q, answers)) :
    ∃ w l, exec (step list) ⟨s, currentPriority⟩ calls = some (w, answers) ∧ w.store.Holds list l
      ∧ Queued (fun e => w.currentPriority e.2) q.members l.elements
      ∧ w.store.length list = q.members.length
      ∧ ∀ call q' answer, q.step list call = some (q', answer) →
        ∃ w' l', w.step list call = some (w', answer) ∧ w'.store.Holds list l'
          ∧ Moved call l.elements l'.elements := by
  obtain ⟨w, l, hexec, hlast, hsorted⟩ := sorted_exec (w := ⟨s, currentPriority⟩) (l := ⟨head, [], tail⟩)
    ⟨hshows, rfl⟩ ⟨hlist, Queued.nil _⟩ hcalls
  have hholds := hlast.1.holds list l hsorted.1
  refine ⟨w, l, hexec, hholds, ?_, ?_, fun call q' answer hstep => ?_⟩
  · rw [hlast.2]
    exact hsorted.2
  · rw [hholds.length, hsorted.2.perm.length_eq]
  · obtain ⟨w', hconcrete, hnext⟩ := simulates list w q call q' answer hlast hstep
    obtain ⟨l', hsorted', hmoved⟩ := hsorted.step (hlast.1.nodup hsorted.1) hstep
    exact ⟨w', l', hconcrete, hnext.1.holds list l' hsorted'.1, hmoved⟩

/-- Four processes come, two with the same priority; one is taken out, one woken, one popped. -/
def fourProcesses : List Call :=
  [.insertSorted 5 20, .insertSorted 6 21, .insertSorted 4 22, .setPriority 7 9, .insertSorted 7 23, .remove 20,
    .removeFirst, .pop]

theorem waitingList_sorted_fourProcesses :
    ∃ s t q answers, exec (PriorityQueue.step 1) ⟨t, fun process => process / 2, []⟩ fourProcesses = some (q, answers)
      ∧ ∃ w l, exec (step 1) ⟨s, fun process => process / 2⟩ fourProcesses = some (w, answers) ∧ w.store.Holds 1 l
        ∧ Queued (fun e => w.currentPriority e.2) q.members l.elements
        ∧ w.store.length 1 = q.members.length
        ∧ ∀ call q' answer, q.step 1 call = some (q', answer) →
          ∃ w' l', w.step 1 call = some (w', answer) ∧ w'.store.Holds 1 l' ∧ Moved call l.elements l'.elements := by
  obtain ⟨t, created, hcreate⟩ : ∃ t created, exec Lists.step Lists.empty [.create 1 10 11] = some (t, created) :=
    ⟨_, _, rfl⟩
  obtain ⟨s, -, hshows⟩ := ListStore.simulates.exec (shows_blank (fun _ => 0) fun _ => 0) hcreate
  obtain ⟨q, answers, hcalls⟩ : ∃ q answers,
      exec (PriorityQueue.step 1) ⟨t, fun process => process / 2, []⟩ fourProcesses = some (q, answers) := by
    cases hcreate
    exact ⟨_, _, rfl⟩
  have hlist : t.lists 1 = some ⟨10, [], 11⟩ := by
    cases hcreate
    rfl
  exact ⟨s, t, q, answers, hcalls, waitingList_sorted hshows hlist _ hcalls⟩

end Waiting

end UcxArinc
