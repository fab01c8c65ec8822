import Mathlib.Data.Finset.Card
import Mathlib.Logic.Function.Basic

set_option autoImplicit false

/-! # Singly linked lists

The first half of `lib/list.c`. Nodes and lists are numbered by their addresses, 0 is the null pointer, and
the calls carry the addresses `malloc` returns. Reading or writing what is not an allocated node has no
outcome. The heap has room for far fewer than 2^31 nodes, so that `length` does not overflow. -/

namespace UcxArinc

/-! ## Loops

What they read of a node is given by `getNext`; each carries a number of turns it may take. -/

/-- `while (last->next != node) last = last->next;`. -/
def walkBefore (getNext : Nat → Option Nat) (node : Nat) : Nat → Nat → Option Nat
  | 0, _ => none
  | turns + 1, last => do
    let next ← getNext last
    if next = node then some last else walkBefore getNext node turns next

/-- The loop of `list_foreach` and `dlist_foreach`, with the nodes `iter_fn` is called for. -/
def foreachFrom (getNext : Nat → Option Nat) (iterFn : Nat → Nat) : Nat → Nat → Option (List Nat × Nat)
  | 0, _ => none
  | turns + 1, node => do
    if (← getNext node) = 0 then some ([], 0)
    else
      let val := iterFn node
      if val ≠ 0 then some ([node], val)
      else do
        let r ← foreachFrom getNext iterFn turns (← getNext node)
        some (node :: r.1, r.2)

/-- The memory of `struct list_s` and `struct node_s`, and which of them are allocated. -/
structure ListStore where
  head : Nat → Nat
  tail : Nat → Nat
  length : Nat → Int
  next : Nat → Nat
  data : Nat → Nat
  lists : Finset Nat
  nodes : Finset Nat

namespace ListStore

/-! ## Memory -/

/-- `node->next`. -/
def getNext (s : ListStore) (node : Nat) : Option Nat := if node ∈ s.nodes then some (s.next node) else none

/-- `node->data`. -/
def getData (s : ListStore) (node : Nat) : Option Nat := if node ∈ s.nodes then some (s.data node) else none

/-- `node->next = x`. -/
def setNext (s : ListStore) (node x : Nat) : Option ListStore :=
  if node ∈ s.nodes then some { s with next := Function.update s.next node x } else none

/-- `node->data = x`. -/
def setData (s : ListStore) (node x : Nat) : Option ListStore :=
  if node ∈ s.nodes then some { s with data := Function.update s.data node x } else none

/-- `list->tail = node`. -/
def setTail (s : ListStore) (list node : Nat) : ListStore :=
  { s with tail := Function.update s.tail list node }

/-- `list->length += n`. -/
def addLength (s : ListStore) (list : Nat) (n : Int) : ListStore :=
  { s with length := Function.update s.length list (s.length list + n) }

/-- `malloc(sizeof(struct node_s))`, with the address it returns; `none` is an address it cannot return. -/
def mallocNode (s : ListStore) (node : Nat) : Option ListStore :=
  if node = 0 ∨ node ∈ s.nodes then none else some { s with nodes := insert node s.nodes }

/-- `malloc(sizeof(struct list_s))`, likewise. -/
def mallocList (s : ListStore) (list : Nat) : Option ListStore :=
  if list = 0 ∨ list ∈ s.lists then none else some { s with lists := insert list s.lists }

/-- `free(node)`. -/
def freeNode (s : ListStore) (node : Nat) : Option ListStore :=
  if node ∈ s.nodes then some { s with nodes := s.nodes.erase node } else none

/-- No loop over a list takes as many turns as this. -/
def turns (s : ListStore) : Nat := s.nodes.card + 1

/-! ## Functions -/

/-- `list_create`. -/
def listCreate (s : ListStore) (list head tail : Nat) : Option (ListStore × Nat) := do
  let s ← s.mallocList list
  let s ← s.mallocNode head
  let s ← s.mallocNode tail
  let s ← s.setNext head tail
  let s ← s.setData head 0xdead
  let s ← s.setNext tail 0
  let s ← s.setData tail 0
  some ({ s with head := Function.update s.head list head, tail := Function.update s.tail list tail,
                 length := Function.update s.length list 0 }, list)

/-- `list_push`. -/
def listPush (s : ListStore) (list val node : Nat) : Option (ListStore × Nat) := do
  let s ← s.mallocNode node
  let s ← s.setData node val
  let s ← s.setNext node (← s.getNext (s.head list))
  let s ← s.setNext (s.head list) node
  some (s.addLength list 1, node)

/-- `list_pushback`. -/
def listPushback (s : ListStore) (list val node : Nat) : Option (ListStore × Nat) := do
  let s ← s.mallocNode node
  let s ← s.setData node 0
  let s ← s.setNext node 0
  let last := s.tail list
  let s ← s.setNext (s.tail list) node
  let s ← s.setData (s.tail list) val
  let s := s.setTail list node
  some (s.addLength list 1, last)

/-- `list_pop`. -/
def listPop (s : ListStore) (list : Nat) : Option (ListStore × Nat) := do
  let first ← s.getNext (s.head list)
  if (← s.getNext first) = 0 then some (s, 0)
  else do
    let node ← s.getNext (s.head list)
    let val ← s.getData node
    let s ← s.setNext (s.head list) (← s.getNext node)
    let s := s.addLength list (-1)
    let s ← s.freeNode node
    some (s, val)

/-- `while (last->next->next->next) last = last->next;`. -/
def walkToLast (s : ListStore) : Nat → Nat → Option Nat
  | 0, _ => none
  | turns + 1, last => do
    let next ← s.getNext last
    let second ← s.getNext next
    if (← s.getNext second) = 0 then some last else s.walkToLast turns next

/-- `list_popback`. -/
def listPopback (s : ListStore) (list : Nat) : Option (ListStore × Nat) := do
  let first ← s.getNext (s.head list)
  if (← s.getNext first) = 0 then some (s, 0)
  else do
    let last ← s.walkToLast s.turns (s.head list)
    let val ← s.getData (← s.getNext last)
    let node ← s.getNext last
    let s ← s.setNext last (s.tail list)
    let s := s.addLength list (-1)
    let s ← s.freeNode node
    some (s, val)

/-- `list_cnext`. -/
def listCnext (s : ListStore) (list node : Nat) : Option Nat := do
  let next ← s.getNext node
  if (← s.getNext next) = 0 then s.getNext (s.head list) else s.getNext node

/-- `list_move`. -/
def listMove (s : ListStore) (listDst listSrc node : Nat) : Option (ListStore × Nat) := do
  if (← s.getNext node) = 0 ∨ node = 0 then some (s, 0)
  else do
    let val ← s.getData node
    let last ← walkBefore s.getNext node s.turns (s.head listSrc)
    let s ← s.setNext last (← s.getNext node)
    let s := s.addLength listSrc (-1)
    let s ← s.setNext node 0
    let s ← s.setNext (s.tail listDst) node
    let s ← s.setData (s.tail listDst) val
    let s := s.setTail listDst node
    let s ← s.setData node 0
    some (s.addLength listDst 1, val)

/-- `list_rotate`. -/
def listRotate (s : ListStore) (list : Nat) : Option (ListStore × Nat) := do
  let first ← s.getNext (s.head list)
  if (← s.getNext first) = 0 then some (s, 0)
  else do
    let node ← s.getNext (s.head list)
    let s ← s.setNext (s.head list) (← s.getNext node)
    let last := s.tail list
    let s ← s.setNext (s.tail list) node
    let s ← s.setData (s.tail list) (← s.getData node)
    let s := s.setTail list node
    let s ← s.setData node 0
    let s ← s.setNext node 0
    some (s, last)

/-- `list_insert`. -/
def listInsert (s : ListStore) (list prevnode val node : Nat) : Option (ListStore × Nat) := do
  let s ← s.mallocNode node
  let s ← s.setData node val
  let s ← s.setNext node (← s.getNext prevnode)
  if (← s.getNext prevnode) = 0 then do
    let s ← s.freeNode node
    some (s, 0)
  else do
    let s ← s.setNext prevnode node
    some (s.addLength list 1, node)

/-- `list_remove`. -/
def listRemove (s : ListStore) (list node : Nat) : Option (ListStore × Nat) := do
  if node = s.head list ∨ node = s.tail list then some (s, 0)
  else do
    let val ← s.getData node
    let last ← walkBefore s.getNext node s.turns (s.head list)
    let s ← s.setNext last (← s.getNext node)
    let s := s.addLength list (-1)
    let s ← s.freeNode node
    some (s, val)

/-- The loop of `list_insert_sorted`, with `CURRENT_PRIORITY` for each process. -/
def walkSorted (s : ListStore) (currentPriority : Nat → Int) (tail process : Nat) : Nat → Nat → Option Nat
  | 0, _ => none
  | turns + 1, current => do
    let next ← s.getNext current
    if next = tail then some current
    else do
      let data ← s.getData next
      if currentPriority data ≥ currentPriority process then s.walkSorted currentPriority tail process turns next
      else some current

/-- `list_insert_sorted`. -/
def listInsertSorted (s : ListStore) (currentPriority : Nat → Int) (list process node : Nat) : Option ListStore := do
  let s ← s.mallocNode node
  let s ← s.setData node process
  let s ← s.setNext node 0
  let current ← s.walkSorted currentPriority (s.tail list) process s.turns (s.head list)
  let s ← s.setNext node (← s.getNext current)
  let s ← s.setNext current node
  some (s.addLength list 1)

/-- `list_foreach`. -/
def listForeach (s : ListStore) (list : Nat) (iterFn : Nat → Nat) : Option (List Nat × Nat) := do
  foreachFrom s.getNext iterFn s.turns (← s.getNext (s.head list))

/-! ## Calls -/

/-- A call, with the addresses `malloc` returns in it. -/
inductive Call
  | create (list head tail : Nat)
  | push (list val node : Nat)
  | pushback (list val node : Nat)
  | pop (list : Nat)
  | popback (list : Nat)
  | insert (list prevnode val node : Nat)
  | remove (list node : Nat)
  | move (listDst listSrc node : Nat)
  | rotate (list : Nat)
  | cnext (list node : Nat)
  | foreach (list : Nat) (iterFn : Nat → Nat)

/-- What a call returns; for `list_foreach` also the nodes visited. -/
inductive Answer
  | pointer (p : Nat)
  | visited (nodes : List Nat) (p : Nat)
  deriving DecidableEq, Repr

/-- One call. -/
def step (s : ListStore) : Call → Option (ListStore × Answer)
  | .create list head tail => (s.listCreate list head tail).map fun r => (r.1, .pointer r.2)
  | .push list val node => (s.listPush list val node).map fun r => (r.1, .pointer r.2)
  | .pushback list val node => (s.listPushback list val node).map fun r => (r.1, .pointer r.2)
  | .pop list => (s.listPop list).map fun r => (r.1, .pointer r.2)
  | .popback list => (s.listPopback list).map fun r => (r.1, .pointer r.2)
  | .insert list prevnode val node => (s.listInsert list prevnode val node).map fun r => (r.1, .pointer r.2)
  | .remove list node => (s.listRemove list node).map fun r => (r.1, .pointer r.2)
  | .move listDst listSrc node => (s.listMove listDst listSrc node).map fun r => (r.1, .pointer r.2)
  | .rotate list => (s.listRotate list).map fun r => (r.1, .pointer r.2)
  | .cnext list node => (s.listCnext list node).map fun p => (s, .pointer p)
  | .foreach list iterFn => (s.listForeach list iterFn).map fun r => (s, .visited r.1 r.2)

end ListStore

/-! ## Waiting lists -/

/-- Lists of processes, and the `CURRENT_PRIORITY` of each process. -/
structure Waiting where
  store : ListStore
  currentPriority : Nat → Int

namespace Waiting

/-- What happens to a waiting list, and to the priorities. -/
inductive Call
  /-- `list_insert_sorted`, with the address `malloc` returns in it. -/
  | insertSorted (process node : Nat)
  /-- `list_remove` of `head->next`, which wakes the first process. -/
  | removeFirst
  /-- `list_pop`. -/
  | pop
  /-- `list_remove`. -/
  | remove (node : Nat)
  /-- A process gets another priority. -/
  | setPriority (process : Nat) (priority : Int)

/-- One call. -/
def step (list : Nat) (w : Waiting) : Call → Option (Waiting × Nat)
  | .insertSorted process node =>
    (w.store.listInsertSorted w.currentPriority list process node).map fun s => ({ w with store := s }, 0)
  | .removeFirst => do
    let first ← w.store.getNext (w.store.head list)
    (w.store.listRemove list first).map fun r => ({ w with store := r.1 }, r.2)
  | .pop => (w.store.listPop list).map fun r => ({ w with store := r.1 }, r.2)
  | .remove node => (w.store.listRemove list node).map fun r => ({ w with store := r.1 }, r.2)
  | .setPriority process priority =>
    some ({ w with currentPriority := Function.update w.currentPriority process priority }, 0)

end Waiting

end UcxArinc
