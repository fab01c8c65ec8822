import UcxArinc.Implementation.LinkedList

set_option autoImplicit false

/-! # Doubly linked lists

The second half of `lib/list.c`, with the same memory as for the singly linked lists and a predecessor for
every node. -/

namespace UcxArinc

/-- The memory of `struct dlist_s` and `struct dnode_s`, and which of them are allocated. -/
structure DlistStore where
  head : Nat → Nat
  tail : Nat → Nat
  length : Nat → Int
  prev : Nat → Nat
  next : Nat → Nat
  data : Nat → Nat
  lists : Finset Nat
  nodes : Finset Nat

namespace DlistStore

/-! ## Memory -/

/-- `node->prev`. -/
def getPrev (s : DlistStore) (node : Nat) : Option Nat := if node ∈ s.nodes then some (s.prev node) else none

/-- `node->next`. -/
def getNext (s : DlistStore) (node : Nat) : Option Nat := if node ∈ s.nodes then some (s.next node) else none

/-- `node->data`. -/
def getData (s : DlistStore) (node : Nat) : Option Nat := if node ∈ s.nodes then some (s.data node) else none

/-- `node->prev = x`. -/
def setPrev (s : DlistStore) (node x : Nat) : Option DlistStore :=
  if node ∈ s.nodes then some { s with prev := Function.update s.prev node x } else none

/-- `node->next = x`. -/
def setNext (s : DlistStore) (node x : Nat) : Option DlistStore :=
  if node ∈ s.nodes then some { s with next := Function.update s.next node x } else none

/-- `node->data = x`. -/
def setData (s : DlistStore) (node x : Nat) : Option DlistStore :=
  if node ∈ s.nodes then some { s with data := Function.update s.data node x } else none

/-- `list->length += n`. -/
def addLength (s : DlistStore) (list : Nat) (n : Int) : DlistStore :=
  { s with length := Function.update s.length list (s.length list + n) }

/-- `malloc(sizeof(struct dnode_s))`, with the address it returns; `none` is an address it cannot return. -/
def mallocNode (s : DlistStore) (node : Nat) : Option DlistStore :=
  if node = 0 ∨ node ∈ s.nodes then none else some { s with nodes := insert node s.nodes }

/-- `malloc(sizeof(struct dlist_s))`, likewise. -/
def mallocList (s : DlistStore) (list : Nat) : Option DlistStore :=
  if list = 0 ∨ list ∈ s.lists then none else some { s with lists := insert list s.lists }

/-- `free(node)`. -/
def freeNode (s : DlistStore) (node : Nat) : Option DlistStore :=
  if node ∈ s.nodes then some { s with nodes := s.nodes.erase node } else none

/-- No loop over a list takes as many turns as this. -/
def turns (s : DlistStore) : Nat := s.nodes.card + 1

/-! ## Functions -/

/-- `dlist_create`. -/
def dlistCreate (s : DlistStore) (list head tail : Nat) : Option (DlistStore × Nat) := do
  let s ← s.mallocList list
  let s ← s.mallocNode head
  let s ← s.mallocNode tail
  let s ← s.setPrev head 0
  let s ← s.setNext head tail
  let s ← s.setData head 0xdead
  let s ← s.setPrev tail head
  let s ← s.setNext tail 0
  let s ← s.setData tail 0
  some ({ s with head := Function.update s.head list head, tail := Function.update s.tail list tail,
                 length := Function.update s.length list 0 }, list)

/-- `dlist_push`. -/
def dlistPush (s : DlistStore) (list val node : Nat) : Option (DlistStore × Nat) := do
  let s ← s.mallocNode node
  let s ← s.setData node val
  let s ← s.setPrev node (s.head list)
  let s ← s.setNext node (← s.getNext (s.head list))
  let s ← s.setPrev (← s.getNext (s.head list)) node
  let s ← s.setNext (s.head list) node
  some (s.addLength list 1, node)

/-- `dlist_pushback`. -/
def dlistPushback (s : DlistStore) (list val node : Nat) : Option (DlistStore × Nat) := do
  let s ← s.mallocNode node
  let s ← s.setData node val
  let s ← s.setPrev node (← s.getPrev (s.tail list))
  let s ← s.setNext node (s.tail list)
  let s ← s.setNext (← s.getPrev (s.tail list)) node
  let s ← s.setPrev (s.tail list) node
  some (s.addLength list 1, node)

/-- `dlist_pop`. -/
def dlistPop (s : DlistStore) (list : Nat) : Option (DlistStore × Nat) := do
  let first ← s.getNext (s.head list)
  if (← s.getNext first) = 0 then some (s, 0)
  else do
    let node ← s.getNext (s.head list)
    let val ← s.getData node
    let s ← s.setPrev (← s.getNext node) (s.head list)
    let s ← s.setNext (s.head list) (← s.getNext node)
    let s := s.addLength list (-1)
    let s ← s.freeNode node
    some (s, val)

/-- `dlist_popback`. -/
def dlistPopback (s : DlistStore) (list : Nat) : Option (DlistStore × Nat) := do
  let first ← s.getNext (s.head list)
  if (← s.getNext first) = 0 then some (s, 0)
  else do
    let node ← s.getPrev (s.tail list)
    let val ← s.getData node
    let s ← s.setNext (← s.getPrev node) (s.tail list)
    let s ← s.setPrev (s.tail list) (← s.getPrev node)
    let s := s.addLength list (-1)
    let s ← s.freeNode node
    some (s, val)

/-- `dlist_move`. -/
def dlistMove (s : DlistStore) (listDst listSrc node : Nat) : Option (DlistStore × Nat) := do
  if (← s.getPrev node) = 0 ∨ (← s.getNext node) = 0 ∨ node = 0 then some (s, 0)
  else do
    let val ← s.getData node
    let _ ← walkBefore s.getNext node s.turns (s.head listSrc)
    let s ← s.setNext (← s.getPrev node) (← s.getNext node)
    let s ← s.setPrev (← s.getNext node) (← s.getPrev node)
    let s := s.addLength listSrc (-1)
    let s ← s.setPrev node (← s.getPrev (s.tail listDst))
    let s ← s.setNext node (s.tail listDst)
    let s ← s.setNext (← s.getPrev (s.tail listDst)) node
    let s ← s.setPrev (s.tail listDst) node
    some (s.addLength listDst 1, val)

/-- `dlist_rotate`. -/
def dlistRotate (s : DlistStore) (list : Nat) : Option (DlistStore × Nat) := do
  let first ← s.getNext (s.head list)
  if (← s.getNext first) = 0 then some (s, 0)
  else do
    let node ← s.getNext (s.head list)
    let s ← s.setPrev (← s.getNext node) (s.head list)
    let s ← s.setNext (s.head list) (← s.getNext node)
    let last ← s.getPrev (s.tail list)
    let s ← s.setPrev node (← s.getPrev (s.tail list))
    let s ← s.setNext node (s.tail list)
    let s ← s.setNext (← s.getPrev (s.tail list)) node
    let s ← s.setPrev (s.tail list) node
    some (s, last)

/-- `dlist_insert`. -/
def dlistInsert (s : DlistStore) (list prevnode val node : Nat) : Option (DlistStore × Nat) := do
  let s ← s.mallocNode node
  let s ← s.setData node val
  let s ← s.setPrev node prevnode
  let s ← s.setNext node (← s.getNext prevnode)
  if (← s.getNext prevnode) = 0 then do
    let s ← s.freeNode node
    some (s, 0)
  else do
    let s ← s.setPrev (← s.getNext prevnode) node
    let s ← s.setNext prevnode node
    some (s.addLength list 1, node)

/-- `dlist_remove`. -/
def dlistRemove (s : DlistStore) (list node : Nat) : Option (DlistStore × Nat) := do
  if node = s.head list ∨ node = s.tail list then some (s, 0)
  else do
    let val ← s.getData node
    let s ← s.setNext (← s.getPrev node) (← s.getNext node)
    let s ← s.setPrev (← s.getNext node) (← s.getPrev node)
    let s := s.addLength list (-1)
    let s ← s.freeNode node
    some (s, val)

/-- The loops of `dlist_index`: so many steps by `get`, unless the null pointer is met. -/
def stepBy (get : Nat → Option Nat) : Nat → Nat → Option Nat
  | 0, node => some node
  | steps + 1, node => do if node = 0 then some 0 else stepBy get steps (← get node)

/-- `dlist_index`. -/
def dlistIndex (s : DlistStore) (list : Nat) (idx : Int) : Option Nat := do
  if 0 ≤ idx then stepBy s.getNext idx.toNat (← s.getNext (s.head list))
  else stepBy s.getPrev (-idx).toNat (s.tail list)

/-- `dlist_foreach`. -/
def dlistForeach (s : DlistStore) (list : Nat) (iterFn : Nat → Nat) : Option (List Nat × Nat) := do
  foreachFrom s.getNext iterFn s.turns (← s.getNext (s.head list))

/-! ## Calls -/

/-- A call, with the addresses `malloc` returns in it. -/
inductive Call
  | create (list head tail : Nat)
  | push (list val node : Nat)
  | pushback (list val node : Nat)
  | pop (list : Nat)
  | popback (list : Nat)
  | insert (list prevnode val node : Nat)
  | remove (list node : Nat)
  | move (listDst listSrc node : Nat)
  | rotate (list : Nat)
  | index (list : Nat) (idx : Int)
  | foreach (list : Nat) (iterFn : Nat → Nat)

/-- What a call returns; for `dlist_foreach` also the nodes visited. -/
inductive Answer
  | pointer (p : Nat)
  | visited (nodes : List Nat) (p : Nat)
  deriving DecidableEq, Repr

/-- One call. -/
def step (s : DlistStore) : Call → Option (DlistStore × Answer)
  | .create list head tail => (s.dlistCreate list head tail).map fun r => (r.1, .pointer r.2)
  | .push list val node => (s.dlistPush list val node).map fun r => (r.1, .pointer r.2)
  | .pushback list val node => (s.dlistPushback list val node).map fun r => (r.1, .pointer r.2)
  | .pop list => (s.dlistPop list).map fun r => (r.1, .pointer r.2)
  | .popback list => (s.dlistPopback list).map fun r => (r.1, .pointer r.2)
  | .insert list prevnode val node => (s.dlistInsert list prevnode val node).map fun r => (r.1, .pointer r.2)
  | .remove list node => (s.dlistRemove list node).map fun r => (r.1, .pointer r.2)
  | .move listDst listSrc node => (s.dlistMove listDst listSrc node).map fun r => (r.1, .pointer r.2)
  | .rotate list => (s.dlistRotate list).map fun r => (r.1, .pointer r.2)
  | .index list idx => (s.dlistIndex list idx).map fun p => (s, .pointer p)
  | .foreach list iterFn => (s.dlistForeach list iterFn).map fun r => (s, .visited r.1 r.2)

end DlistStore

end UcxArinc
