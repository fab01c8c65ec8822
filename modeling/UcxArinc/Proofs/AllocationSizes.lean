import UcxArinc.Proofs.HeapRuns

set_option autoImplicit false

/-! # Sizes of allocations

The request is rounded, a header is added and `ucx_calloc` multiplies, all in 32 bits: a request near the top
wraps to a small one and is served. `ucx_realloc` copies as many bytes as are asked for, so it reads past the
old block when that is smaller. -/

namespace UcxArinc

variable {z : Zone} {s : HeapUse} {bs : List Nat} {size ptr : Nat} {l : Nat × Nat}

/-! ## Honest results -/

/-- `ptr` is the area of a used block, and `size` bytes of it are usable. -/
structure Usable (z : Zone) (h : Heap) (ptr size : Nat) : Prop where
  header : memBlockSize ≤ ptr
  block : ptr - memBlockSize ∈ h.blocks h.firstFree
  used : h.mem.used (ptr - memBlockSize) = true
  room : ptr + size ≤ h.mem.next (ptr - memBlockSize)
  inside : h.mem.next (ptr - memBlockSize) ≤ z.sentinel

/-- What a result other than `NULL` promises. -/
def HonestSizes (z : Zone) (s : HeapUse) : HeapCall → Prop
  | .malloc size => ∀ h ptr, ucxMalloc s.heap size = some (h, ptr) → ptr ≠ 0 → Usable z h ptr size
  | .calloc size typeSize => ∀ h ptr, ucxCalloc s.heap size typeSize = some (h, ptr) → ptr ≠ 0 →
    Usable z h ptr (size * typeSize)
      -- the block is zero, and the rest of the memory is as the allocation left it
      ∧ (∀ i < size * typeSize, h.mem (ptr + i) = 0)
      ∧ ∀ h', ucxMalloc s.heap (u32 (size * typeSize)) = some (h', ptr) →
          ∀ a, a < ptr ∨ ptr + size * typeSize ≤ a → h.mem a = h'.mem a
  | .realloc ptr size => ∀ h buf, ucxRealloc s.heap ptr size = some (h, buf) → buf ≠ 0 →
    Usable z h buf size
      ∧ ∀ old, (ptr, old) ∈ s.live →
          (∀ i < min old size, h.mem (buf + i) = s.heap.mem (ptr + i))
          ∧ ptr + reallocReads s.heap ptr size ≤ s.heap.mem.next (ptr - memBlockSize)
  | _ => True

/-- The calls whose results are honest: nothing wraps or the request is refused, and `ucx_realloc` asks for no
    more than the old block has. -/
def HeapCall.Covered (z : Zone) (s : HeapUse) : HeapCall → Prop
  | .realloc ptr size =>
    2 ^ 31 ≤ size ∨ ptr = 0 ∨ ptr + size ≤ s.heap.mem.next (ptr - memBlockSize)
      ∨ ¬ Offers z s.heap s.heap.lastFree (needFor size)
  | call => call.Unwrapped z s

/-- The pointer that is reallocated is live, or `NULL`. -/
def HeapCall.Admissible (s : HeapUse) : HeapCall → Prop
  | .realloc ptr _ => ptr = 0 ∨ ptr ∈ s.live.map Prod.fst
  | _ => True

theorem HeapCall.Covered.unwrapped {call : HeapCall} (h : call.Covered z s) : call.Unwrapped z s := by
  cases call with
  | realloc ptr size => trivial
  | _ => exact h

/-! ## Usable blocks -/

theorem HeapUse.Sound.usable (hs : s.Sound z bs) (hl : l ∈ s.live) : Usable z s.heap l.1 l.2 := by
  obtain ⟨b, hb, hptr, hused, hnext⟩ := (hs.allocated l hl).block
  have hle := (hs.allocated l hl).holds
  have hheader : l.1 - memBlockSize = b := by
    unfold memBlockSize
    omega
  have hblocks : s.heap.blocks s.heap.firstFree = bs := by
    rw [hs.heap.first]
    exact hs.heap.chained.blocksFrom_start
  refine ⟨by unfold memBlockSize; omega, ?_, ?_, ?_, ?_⟩
  · rw [hheader, hblocks]
    exact hb
  · rw [hheader]
    exact hused
  · rw [hheader]
    omega
  · rw [hheader]
    exact (hs.heap.chained.bounds hb).2

/-- What is usable fits into the zone, with a header in front and one behind. -/
theorem Usable.size_lt {h : Heap} (hu : Usable z h ptr size) : size + 11 < 2 ^ 32 := by
  have h₁ := hu.header
  have h₂ := hu.room
  have h₃ := hu.inside
  have h₄ := z.sentinel_lt
  unfold memBlockSize at *
  omega

/-! ## The three calls -/

namespace HeapUse.Sound

theorem malloc_honest_iff (hs : s.Sound z bs) (size : Nat) :
    HonestSizes z s (.malloc size) ↔ HeapCall.Covered z s (.malloc size) := by
  constructor
  · intro hhonest
    rcases hs.malloc_cases size with ⟨hnone, -⟩ | ⟨-, h, p, heq, -⟩
    · exact Or.inr hnone
    · exact Or.inl (hhonest h (p + 8) heq (by omega)).size_lt
  · intro hcovered h ptr heq hptr
    rcases hs.malloc_cases size with ⟨-, h', bs', heq', -⟩ | ⟨hoffers, h', p, heq', hsound⟩
    · rw [heq'] at heq
      exact absurd (Prod.mk.inj (Option.some.inj heq)).2.symm hptr
    · rw [heq'] at heq
      obtain ⟨rfl, rfl⟩ := Prod.mk.inj (Option.some.inj heq)
      obtain ⟨⟨bs', hsound⟩, -⟩ := hsound (hcovered.resolve_right (not_not_intro hoffers))
      exact hsound.usable List.mem_cons_self

theorem calloc_honest_iff (hs : s.Sound z bs) (size typeSize : Nat) :
    HonestSizes z s (.calloc size typeSize) ↔ HeapCall.Covered z s (.calloc size typeSize) := by
  rcases hs.malloc_cases (u32 (size * typeSize)) with ⟨hnone, h', bs', heq', -⟩ | ⟨hoffers, h', p, heq', hsound⟩
  · have hout : ucxCalloc s.heap size typeSize = some (h', 0) := by
      unfold ucxCalloc
      rw [heq']
      rfl
    refine ⟨fun _ => Or.inr hnone, fun _ h ptr heq hptr => ?_⟩
    rw [hout] at heq
    exact absurd (Prod.mk.inj (Option.some.inj heq)).2.symm hptr
  · have hout : ucxCalloc s.heap size typeSize
        = some ({ h' with mem := memset h'.mem (p + 8) 0 (u32 (size * typeSize)) }, p + 8) := by
      unfold ucxCalloc
      rw [heq']
      exact if_neg (by omega)
    constructor
    · exact fun hhonest => Or.inl (hhonest _ _ hout (by omega)).1.size_lt
    · intro hcovered h ptr heq _
      have hfits : size * typeSize + 11 < 2 ^ 32 := hcovered.resolve_right (not_not_intro hoffers)
      have hmod : u32 (size * typeSize) = size * typeSize := Nat.mod_eq_of_lt (by omega)
      rw [hout] at heq
      rw [hmod] at hsound heq
      rw [hmod]
      obtain ⟨rfl, rfl⟩ := Prod.mk.inj (Option.some.inj heq)
      obtain ⟨⟨bs', hsound⟩, -⟩ := hsound hfits
      have hle := le_align4 (x := size * typeSize) (by omega)
      have hwritten := hsound.write
        (m := memset h'.mem (p + 8) 0 (size * typeSize)) List.mem_cons_self
        fun x hx => if_neg (by dsimp only at hx; omega)
      refine ⟨hwritten.usable List.mem_cons_self, fun i hi => if_pos (by omega), fun h₁ heq₁ a ha => ?_⟩
      rw [hmod, heq₁] at heq'
      obtain ⟨rfl, -⟩ := Prod.mk.inj (Option.some.inj heq')
      exact if_neg (by omega)

/-- A reallocation that copies: the new block, the bytes copied and the bytes read. -/
theorem realloc_copies {p old : Nat} {h' : Heap} {bs' : List Nat} (hs : s.Sound z bs) (hsize : size < 2 ^ 31)
    (hl : (ptr, old) ∈ s.live) (heq : ucxMalloc s.heap size = some (h', p + 8))
    (hsound : (⟨h', (p + 8, size) :: s.live⟩ : HeapUse).Sound z bs')
    (hkept : SameBytes s.heap.mem h'.mem ptr (align4 old)) :
    ∃ h, ucxRealloc s.heap ptr size = some (h, p + 8) ∧ reallocReads s.heap ptr size = size
      ∧ Usable z h (p + 8) size ∧ ∀ i < min old size, h.mem (p + 8 + i) = s.heap.mem (ptr + i) := by
  have hbound := hs.bounds hl
  have hholds : old ≤ align4 old := (hs.allocated _ hl).holds
  have hnull : ptr ≠ 0 := by omega
  have hne : p + 8 ≠ ptr := by
    rintro rfl
    exact (List.nodup_cons.mp hsound.distinct).1 (List.mem_map.mpr ⟨_, hl, rfl⟩)
  have hle := le_align4 (x := size) (by omega)
  have hcopied := hsound.write (m := memcpy h'.mem (p + 8) (fun i => h'.mem (ptr + i)) size)
    List.mem_cons_self fun x hx => if_neg (by dsimp only at hx; omega)
  have hlive : ptr ∈ ((p + 8, size) :: s.live).map Prod.fst :=
    List.mem_map.mpr ⟨_, List.mem_cons_of_mem _ hl, rfl⟩
  obtain ⟨hfreed, hsame⟩ := hcopied.free hlive
  have hnew : (p + 8, size) ∈ HeapUse.forget ((p + 8, size) :: s.live) ptr :=
    List.mem_filter.mpr ⟨List.mem_cons_self, decide_eq_true hne⟩
  refine ⟨_, ?_, ?_, hfreed.usable hnew, fun i hi => ?_⟩
  · unfold ucxRealloc
    rw [if_neg (by omega), if_neg hnull, heq]
    exact if_neg (by omega)
  · unfold reallocReads
    rw [if_neg (by omega), heq]
    exact if_neg (by omega)
  · -- freeing the old block leaves the copy, and the allocation has left the source
    rw [hsame _ List.mem_cons_self hne (p + 8 + i) (Nat.le_add_right _ _) (by dsimp only; omega)]
    show memcpy h'.mem (p + 8) (fun i => h'.mem (ptr + i)) size (p + 8 + i) = _
    unfold memcpy
    rw [if_pos (by omega), Nat.add_sub_cancel_left]
    exact hkept (ptr + i) (Nat.le_add_right _ _) (by omega)

theorem realloc_honest_iff (hs : s.Sound z bs) (hptr : ptr = 0 ∨ ptr ∈ s.live.map Prod.fst) (size : Nat) :
    HonestSizes z s (.realloc ptr size) ↔ HeapCall.Covered z s (.realloc ptr size) := by
  by_cases hsize : 2 ^ 31 ≤ size
  · refine ⟨fun _ => Or.inl hsize, fun _ h buf heq hbuf => ?_⟩
    unfold ucxRealloc at heq
    rw [if_pos hsize] at heq
    exact absurd (Prod.mk.inj (Option.some.inj heq)).2.symm hbuf
  · rcases hs.malloc_cases size with ⟨hnone, h', bs', heq', -⟩ | ⟨hoffers, h', p, heq', hsound⟩
    · have hout : ucxRealloc s.heap ptr size = some (h', 0) := by
        unfold ucxRealloc
        rw [if_neg hsize, heq']
        exact ite_self _
      refine ⟨fun _ => Or.inr (Or.inr (Or.inr hnone)), fun _ h buf heq hbuf => ?_⟩
      rw [hout] at heq
      exact absurd (Prod.mk.inj (Option.some.inj heq)).2.symm hbuf
    · obtain ⟨⟨bs', hsound⟩, hkept⟩ := hsound (by omega)
      by_cases hnull : ptr = 0
      · -- `NULL` is reallocated as `ucx_malloc` allocates
        have hout : ucxRealloc s.heap ptr size = some (h', p + 8) := by
          unfold ucxRealloc
          rw [if_neg hsize, if_pos hnull, heq']
        refine ⟨fun _ => Or.inr (Or.inl hnull), fun _ h buf heq _ => ?_⟩
        rw [hout] at heq
        obtain ⟨rfl, rfl⟩ := Prod.mk.inj (Option.some.inj heq)
        refine ⟨hsound.usable List.mem_cons_self, fun old hl => ?_⟩
        have := (hs.bounds hl).1
        omega
      · obtain ⟨l, hl, rfl⟩ := List.mem_map.mp (hptr.resolve_left hnull)
        obtain ⟨h, hout, hreads, husable, hcopied⟩ := hs.realloc_copies (by omega) hl heq' hsound (hkept l hl)
        constructor
        · intro hhonest
          have hread := ((hhonest h (p + 8) hout (by omega)).2 l.2 hl).2
          rw [hreads] at hread
          exact Or.inr (Or.inr (Or.inl hread))
        · intro hcovered h₁ buf heq _
          rw [hout] at heq
          obtain ⟨rfl, rfl⟩ := Prod.mk.inj (Option.some.inj heq)
          refine ⟨husable, fun old hold => ?_⟩
          obtain ⟨h₁, hout', -, -, hcopied'⟩ := hs.realloc_copies (by omega) hold heq' hsound (hkept _ hold)
          rw [hout'] at hout
          obtain ⟨rfl, -⟩ := Prod.mk.inj (Option.some.inj hout)
          refine ⟨hcopied', ?_⟩
          rw [hreads]
          rcases hcovered with h₁ | h₁ | h₁ | h₁
          · exact absurd h₁ hsize
          · exact absurd h₁ hnull
          · exact h₁
          · exact absurd hoffers h₁

end HeapUse.Sound

/-- In every heap in use that has only seen covered calls, the results of a call are honest if and only if it is
    covered. -/
theorem sizes_honest_iff (z : Zone) (mem : Area) (calls : List HeapCall) (s : HeapUse)
    (hrun : Transition.GuardedRun HeapUse.step (fun s call => call.Covered z s) (HeapUse.start z mem) calls s)
    (call : HeapCall) (hcall : call.Admissible s) : HonestSizes z s call ↔ call.Covered z s := by
  obtain ⟨bs, hs⟩ := HeapUse.intact_of_guardedRun (hrun.mono fun s call hcovered => hcovered.unwrapped)
  cases call with
  | malloc size => exact hs.malloc_honest_iff size
  | calloc size typeSize => exact hs.calloc_honest_iff size typeSize
  | realloc ptr size => exact hs.realloc_honest_iff hcall size
  | free ptr => exact Iff.rfl
  | store a x => exact Iff.rfl

/-- The first of two live blocks is reallocated to half its size. -/
theorem sizes_honest_small : ∃ s, Transition.run HeapUse.step (HeapUse.start smallZone fun _ => 0)
      [.malloc 16, .malloc 4] = some s
    ∧ (ucxRealloc s.heap 24 8).map Prod.snd = some 60 ∧ HonestSizes smallZone s (.realloc 24 8) := by
  have hrun : (Transition.run HeapUse.step (HeapUse.start smallZone fun _ => 0) [.malloc 16, .malloc 4]).map (fun s =>
      (s.live, (ucxRealloc s.heap 24 8).map Prod.snd, s.heap.mem.next 16))
        = some ([(48, 4), (24, 16)], some 60, 40) := by
    decide +kernel
  obtain ⟨s, hs, heq⟩ := Option.map_eq_some_iff.mp hrun
  simp only [Prod.mk.injEq] at heq
  obtain ⟨hlive, hout, hnext⟩ := heq
  have hguarded : Transition.GuardedRun HeapUse.step (fun s call => call.Covered smallZone s)
      (HeapUse.start smallZone fun _ => 0) [.malloc 16, .malloc 4] s :=
    (Transition.GuardedRun.of_run (P := fun call => ∀ s, call.Covered smallZone s) hs
      (by simp [HeapCall.Covered, HeapCall.Unwrapped])).mono fun s _ hok => hok s
  refine ⟨s, hs, hout, (sizes_honest_iff smallZone (fun _ => 0) _ s hguarded (.realloc 24 8) ?_).mpr ?_⟩
  · exact Or.inr (by simp [hlive])
  · exact Or.inr (Or.inr (Or.inl (by rw [show 24 - memBlockSize = 16 from rfl, hnext]; decide)))

/-- A request and a product that wrap to nothing, and a reallocation to twice the size. -/
theorem sizes_dishonest : ¬ HonestSizes smallZone (HeapUse.start smallZone fun _ => 0) (.malloc (2 ^ 32 - 1))
    ∧ ¬ HonestSizes smallZone (HeapUse.start smallZone fun _ => 0) (.calloc (2 ^ 31) 2)
    ∧ ∃ s, Transition.run HeapUse.step (HeapUse.start smallZone fun _ => 0) [.malloc 4] = some s
      ∧ ¬ HonestSizes smallZone s (.realloc 24 8) := by
  refine ⟨fun hhonest => ?_, fun hhonest => ?_, ?_⟩
  · have hout : (ucxMalloc (HeapUse.start smallZone fun _ => 0).heap (2 ^ 32 - 1)).map Prod.snd = some 24 := by
      decide +kernel
    obtain ⟨⟨h, ptr⟩, hout, rfl⟩ := Option.map_eq_some_iff.mp hout
    have := (hhonest h _ hout (by decide)).size_lt
    omega
  · have hout : (ucxCalloc (HeapUse.start smallZone fun _ => 0).heap (2 ^ 31) 2).map Prod.snd = some 24 := by
      decide +kernel
    obtain ⟨⟨h, ptr⟩, hout, rfl⟩ := Option.map_eq_some_iff.mp hout
    have := (hhonest h _ hout (by decide)).1.size_lt
    omega
  · have hrun : (Transition.run HeapUse.step (HeapUse.start smallZone fun _ => 0) [.malloc 4]).map (fun s =>
        (s.live, (ucxRealloc s.heap 24 8).map Prod.snd, reallocReads s.heap 24 8, s.heap.mem.next 16))
          = some ([(24, 4)], some 36, 8, 28) := by
      decide +kernel
    obtain ⟨s, hs, heq⟩ := Option.map_eq_some_iff.mp hrun
    refine ⟨s, hs, fun hhonest => ?_⟩
    obtain ⟨hlive, hout, hreads, hnext⟩ : s.live = [(24, 4)] ∧ (ucxRealloc s.heap 24 8).map Prod.snd = some 36
        ∧ reallocReads s.heap 24 8 = 8 ∧ s.heap.mem.next 16 = 28 := by
      simpa using heq
    obtain ⟨⟨h, buf⟩, hout, rfl⟩ := Option.map_eq_some_iff.mp hout
    have hread := ((hhonest h _ hout (by decide)).2 4 (by rw [hlive]; simp)).2
    rw [hreads, show 24 - memBlockSize = 16 from rfl, hnext] at hread
    omega

end UcxArinc
