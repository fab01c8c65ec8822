import UcxArinc.Implementation.ApexTypes

set_option autoImplicit false

/-! # The heap

The default allocator of `lib/malloc.c` on a target with 32-bit pointers. Memory is bytes; a
`struct mem_block_s` is two words in it, `next` and `size`, in front of the area it describes, and the
last bit of `size` says that the block is used. -/

namespace UcxArinc

/-! ## Words in memory -/

/-- The word at an address, least significant byte first. -/
def Area.word (mem : Area) (a : Nat) : Nat :=
  (mem a).toNat + 2 ^ 8 * (mem (a + 1)).toNat + 2 ^ 16 * (mem (a + 2)).toNat
    + 2 ^ 24 * (mem (a + 3)).toNat

/-- Write a word. -/
def Area.setWord (mem : Area) (a w : Nat) : Area :=
  fun b => if a ≤ b ∧ b < a + 4 then UInt8.ofNat (w / 2 ^ (8 * (b - a))) else mem b

/-- `memset(dst + base, x, n)`. -/
def memset (dst : Area) (base : Nat) (x : UInt8) (n : Nat) : Area :=
  fun a => if base ≤ a ∧ a < base + n then x else dst a

/-! ## Blocks -/

/-- `sizeof(struct mem_block_s)`. -/
def memBlockSize : Nat := 8

/-- `p->next`. -/
def Area.next (mem : Area) (p : Nat) : Nat := mem.word p

/-- `p->size`. -/
def Area.size (mem : Area) (p : Nat) : Nat := mem.word (p + 4)

/-- `p->next = x`. -/
def Area.setNext (mem : Area) (p x : Nat) : Area := mem.setWord p x

/-- `p->size = x`. -/
def Area.setSize (mem : Area) (p x : Nat) : Area := mem.setWord (p + 4) x

/-- `p->size & 1`: the block is used. -/
def Area.used (mem : Area) (p : Nat) : Bool := decide (mem.size p % 2 = 1)

/-- `align4`, on a `uint32_t`. -/
def align4 (x : Nat) : Nat := u32 (u32 (x + 3) / 4 * 4)

/-- What the allocator keeps: the memory, `first_free` and `last_free`. -/
structure Heap where
  mem : Area
  firstFree : Nat
  lastFree : Nat

/-- `ucx_heap_init`; the last block is placed before `len` is rounded. -/
def ucxHeapInit (mem : Area) (zone len : Nat) : Heap :=
  let p := zone
  let q := u32Sub (u32 (zone + len)) memBlockSize
  let len := align4 len
  let mem := mem.setNext p q
  let mem := mem.setSize p (u32Sub (u32Sub len memBlockSize) memBlockSize)
  let mem := mem.setNext q 0
  let mem := mem.setSize q 0
  { mem := mem, firstFree := zone, lastFree := zone }

/-! ## Searching

The loops of `ucx_malloc`. Each carries a number of turns it may take, far more than there can be
blocks; `none` is a loop that runs on. -/

/-- More turns than there are addresses. -/
def maxTurns : Nat := 2 ^ 32

/-- `while (p->size & 1) { p = p->next; q = p; }`. -/
def skipUsed (mem : Area) : Nat → Nat → Nat → Option (Nat × Nat)
  | 0, _, _ => none
  | n + 1, p, q => if mem.used p then skipUsed mem n (mem.next p) (mem.next p) else some (p, q)

/-- `while (!(p->size & 1) && p->next) p = p->next;`. -/
def skipFree (mem : Area) : Nat → Nat → Option Nat
  | 0, _ => none
  | n + 1, p => if mem.used p = false ∧ mem.next p ≠ 0 then skipFree mem n (mem.next p) else some p

/-- The free blocks from `q` to `p` become one. -/
def coalesce (mem : Area) (q p : Nat) : Area :=
  (mem.setSize q (u32Sub (u32Sub p q) memBlockSize)).setNext q p

/-- The outer loop, from `p` and `q` on, for a block of `size` bytes: the memory it leaves and its last
    `p`. -/
def searchBlock (size : Nat) : Nat → Area → Nat → Nat → Option (Area × Nat)
  | 0, _, _, _ => none
  | n + 1, mem, p, q =>
    if mem.next p = 0 then some (mem, p)
    else
      match skipUsed mem maxTurns p q with
      | none => none
      | some (p, q) =>
        match skipFree mem maxTurns p with
        | none => none
        | some p =>
          let mem := if p ≠ 0 then coalesce mem q p else mem
          if u32 (size + memBlockSize) ≤ mem.size q then some (mem, q)
          else searchBlock size n mem p q

/-- Block `p` is used for `size` bytes, and what is left of it becomes a block. The new block's size is
    computed after `p->size` has been overwritten. -/
def splitBlock (mem : Area) (p size : Nat) : Area :=
  let r := mem.next p
  let mem := mem.setNext p (u32 (p + size + memBlockSize))
  let mem := mem.setSize p (size / 2 * 2 + 1)
  let rest := u32Sub (u32Sub (mem.size p / 2 * 2) size) memBlockSize
  let m := mem.next p
  (mem.setNext m r).setSize m rest

/-- `ucx_malloc`: the heap after it and the pointer it returns. -/
def ucxMalloc (h : Heap) (size : Nat) : Option (Heap × Nat) :=
  let size := align4 size
  match searchBlock size maxTurns h.mem h.lastFree h.lastFree with
  | none => none
  | some (mem, p) =>
    if mem.next p = 0 then some ({ h with mem := mem }, 0)
    else some ({ h with mem := splitBlock mem p size, lastFree := p }, u32 (p + memBlockSize))

/-- `ucx_free`. -/
def ucxFree (h : Heap) (ptr : Nat) : Heap :=
  let p := u32Sub ptr memBlockSize
  { h with mem := h.mem.setSize p (h.mem.size p / 2 * 2), lastFree := h.firstFree }

/-- `ucx_calloc`. -/
def ucxCalloc (h : Heap) (size typeSize : Nat) : Option (Heap × Nat) :=
  match ucxMalloc h (u32 (size * typeSize)) with
  | none => none
  | some (h, buf) =>
    if buf = 0 then some (h, buf)
    else some ({ h with mem := memset h.mem buf 0 (u32 (size * typeSize)) }, buf)

/-- `ucx_realloc`. -/
def ucxRealloc (h : Heap) (ptr size : Nat) : Option (Heap × Nat) :=
  if 2 ^ 31 ≤ size then some (h, 0)
  else if ptr = 0 then ucxMalloc h size
  else
    match ucxMalloc h size with
    | none => none
    | some (h, buf) =>
      if buf = 0 then some (h, buf)
      else some (ucxFree { h with mem := memcpy h.mem buf (fun i => h.mem (ptr + i)) size } ptr, buf)

/-- The number of bytes that the `memcpy` of `ucx_realloc` reads from `ptr` on. -/
def reallocReads (h : Heap) (ptr size : Nat) : Nat :=
  if 2 ^ 31 ≤ size ∨ ptr = 0 then 0
  else
    match ucxMalloc h size with
    | none => 0
    | some (_, buf) => if buf = 0 then 0 else size

/-! ## Runs -/

/-- A heap in use: the allocator's state, and the live allocations an observer has on record, each a
    pointer with the size asked for. -/
structure HeapUse where
  heap : Heap
  live : List (Nat × Nat)

/-- What a program does with the heap. -/
inductive HeapCall
  | malloc (size : Nat)
  | calloc (size typeSize : Nat)
  | realloc (ptr size : Nat)
  | free (ptr : Nat)
  /-- the program writes a byte of a live allocation -/
  | store (a : Nat) (x : UInt8)

namespace HeapUse

/-- The observer's record after an allocation: `0` is none. -/
def record (live : List (Nat × Nat)) (ptr size : Nat) : List (Nat × Nat) :=
  if ptr = 0 then live else (ptr, size) :: live

/-- The record without the allocation at `ptr`. -/
def forget (live : List (Nat × Nat)) (ptr : Nat) : List (Nat × Nat) :=
  live.filter fun l => decide (l.1 ≠ ptr)

/-- One call, if the program may make it: it frees and reallocates live pointers only, and writes only
    inside live allocations. -/
def step (s : HeapUse) : HeapCall → Option HeapUse
  | .malloc size => (ucxMalloc s.heap size).map fun (h, ptr) => ⟨h, record s.live ptr size⟩
  | .calloc size typeSize =>
    (ucxCalloc s.heap size typeSize).map fun (h, ptr) => ⟨h, record s.live ptr (size * typeSize)⟩
  | .realloc ptr size =>
    if ptr = 0 ∨ ptr ∈ s.live.map Prod.fst then
      (ucxRealloc s.heap ptr size).map fun (h, buf) =>
        ⟨h, record (if buf = 0 then s.live else forget s.live ptr) buf size⟩
    else none
  | .free ptr =>
    if ptr ∈ s.live.map Prod.fst then some ⟨ucxFree s.heap ptr, forget s.live ptr⟩ else none
  | .store a x =>
    if s.live.any fun l => decide (l.1 ≤ a ∧ a < l.1 + l.2) then
      some { s with heap := { s.heap with mem := Function.update s.heap.mem a x } }
    else none

end HeapUse

end UcxArinc
