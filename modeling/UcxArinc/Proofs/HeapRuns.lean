import UcxArinc.Proofs.HeapIntegrity

set_option autoImplicit false

/-! # Runs of the heap

A split keeps the chain, and so does every call. A run from `ucx_heap_init` on therefore keeps it, with the
live allocations in used blocks of their own. -/

namespace UcxArinc

variable {z : Zone} {h : Heap} {mem mem' mem'' : Area} {bs bs' bs'' : List Nat} {b c p n size ptr : Nat}
  {l : Nat × Nat}

/-! ## The blocks of a heap -/

/-- The blocks met from `p` on, in at most `n` steps. -/
def Area.blocksFrom (mem : Area) : Nat → Nat → List Nat
  | 0, _ => []
  | n + 1, p => if mem.next p = 0 then [] else p :: mem.blocksFrom n (mem.next p)

/-- The blocks of a heap from `p` on. -/
def Heap.blocks (h : Heap) (p : Nat) : List Nat := h.mem.blocksFrom maxTurns p

theorem blocksFrom_eq (hpath : LinkedPath mem.next p bs c) (hne : ∀ b ∈ bs, mem.next b ≠ 0)
    (hend : mem.next c = 0) (hn : bs.length < n) : mem.blocksFrom n p = bs := by
  induction bs generalizing p n with
  | nil =>
      obtain rfl := LinkedPath.nil_iff.mp hpath
      obtain ⟨n, rfl⟩ := Nat.exists_eq_add_one_of_ne_zero (Nat.ne_of_gt hn)
      rw [Area.blocksFrom, if_pos hend]
  | cons b bs ih =>
      obtain ⟨rfl, hrest⟩ := hpath
      obtain ⟨n, rfl⟩ := Nat.exists_eq_add_one_of_ne_zero (Nat.ne_of_gt (Nat.zero_lt_of_lt hn))
      rw [Area.blocksFrom, if_neg (hne p List.mem_cons_self),
        ih hrest (fun c hc => hne c (List.mem_cons_of_mem _ hc)) (by simpa using hn)]

namespace Chained

theorem next_ne_zero (h : Chained z mem bs) (hb : b ∈ bs) : mem.next b ≠ 0 := by
  have := h.room b hb
  omega

/-- The blocks met from any block of the chain on are those behind it. -/
theorem blocksFrom_suffix {pre rest : List Nat} (h : Chained z mem (pre ++ rest)) :
    mem.blocksFrom maxTurns (rest.headD z.sentinel) = rest := by
  obtain ⟨m, -, hrest⟩ := h.path.split
  have hlen := h.length_lt
  rw [← hrest.head_eq]
  refine blocksFrom_eq hrest (fun b hb => h.next_ne_zero (List.mem_append_right _ hb)) h.endNext ?_
  rw [List.length_append] at hlen
  omega

theorem blocksFrom_start (h : Chained z mem bs) : mem.blocksFrom maxTurns z.start = bs := by
  have hsuffix := @blocksFrom_suffix z mem [] bs h
  rwa [← h.path.head_eq] at hsuffix

/-- Of two blocks, one ends before the other begins. -/
theorem apart (h : Chained z mem bs) (hb : b ∈ bs) (hc : c ∈ bs) (hne : b ≠ c) :
    mem.next b ≤ c ∨ mem.next c ≤ b := by
  obtain ⟨before, behind, rfl⟩ := List.append_of_mem hb
  obtain ⟨-, hpairs, hbefore⟩ := List.pairwise_append.mp h.ordered
  rcases List.mem_append.mp hc with hc | hc
  · exact Or.inr (hbefore c hc b List.mem_cons_self)
  · rcases List.mem_cons.mp hc with rfl | hc
    · exact absurd rfl hne
    · exact Or.inl (List.rel_of_pairwise_cons hpairs hc)

end Chained

/-! ## What a call leaves alone -/

/-- The used blocks stay in the chain, with their bytes. -/
def UsedKept (mem : Area) (bs : List Nat) (mem' : Area) (bs' : List Nat) : Prop :=
  ∀ b ∈ bs, mem.used b = true → b ∈ bs' ∧ SameBytes mem mem' b (mem.next b - b)

/-- A header is part of its block. -/
theorem Chained.header_same (h : Chained z mem bs) (hb : b ∈ bs)
    (hsame : SameBytes mem mem' b (mem.next b - b)) : SameBytes mem mem' b 8 := by
  have := h.room b hb
  exact hsame.sub (le_refl b) (by omega)

theorem Merged.usedKept (h : Merged z mem bs mem' bs') : UsedKept mem bs mem' bs' :=
  fun b hb hused => ⟨h.used b hb hused, (h.block b hb hused).2⟩

theorem UsedKept.trans (hchained : Chained z mem bs) (h : UsedKept mem bs mem' bs')
    (h' : UsedKept mem' bs' mem'' bs'') : UsedKept mem bs mem'' bs'' := by
  intro b hb hused
  obtain ⟨hmem, hsame⟩ := h b hb hused
  have hheader := hchained.header_same hb hsame
  obtain ⟨hmem', hsame'⟩ := h' b hmem (by rw [used_congr hheader]; exact hused)
  rw [next_congr hheader] at hsame'
  exact ⟨hmem', hsame.trans hsame'⟩

/-! ## Splitting and freeing -/

/-- A free block that is large enough is split into a used and a free one. -/
theorem Chained.splitBlock {before behind : List Nat} (h : Chained z mem (before ++ p :: behind))
    (hsize : size % 4 = 0) (hroom : size + 8 ≤ mem.next p - p - 8) :
    Chained z (splitBlock mem p size) (before ++ p :: (p + size + 8) :: behind)
      ∧ (splitBlock mem p size).used p = true ∧ (splitBlock mem p size).next p = p + size + 8 := by
  have hp : p ∈ before ++ p :: behind := by simp
  have hmem : ∀ {b}, b ∈ before ∨ b ∈ behind → b ∈ before ++ p :: behind := by
    intro b hb
    simp only [List.mem_append, List.mem_cons]
    tauto
  have hend := z.sentinel_lt
  have hnext := (h.bounds hp).2
  have hsplit := @splitBlock_spec mem p size hsize (by omega)
  have hp4 := h.aligned p hp
  generalize UcxArinc.splitBlock mem p size = t at hsplit ⊢
  generalize hm : p + size + 8 = m at hsplit ⊢
  obtain ⟨e, hbefore, rfl, hbehind⟩ := h.path.split
  obtain ⟨-, hpairs, hleft⟩ := List.pairwise_append.mp h.ordered
  -- the other headers stay
  have hheader : ∀ b, b ∈ before ∨ b ∈ behind → SameBytes mem t b 8 := by
    rintro b (hb | hb)
    · have := h.room b (hmem (.inl hb))
      have := hleft b hb e List.mem_cons_self
      exact hsplit.same b 8 (by omega) (by omega)
    · have := List.rel_of_pairwise_cons hpairs hb
      exact hsplit.same b 8 (by omega) (by omega)
  have hlist : ∀ b ∈ before ++ e :: m :: behind, b = e ∨ b = m ∨ b ∈ before ∨ b ∈ behind := by
    intro b hb
    simp only [List.mem_append, List.mem_cons] at hb
    tauto
  have husedp : t.used e = true := by
    rw [used_eq_true, hsplit.size_eq]
    omega
  refine ⟨{
    path := (hbefore.congr fun b hb => next_congr (hheader b (.inl hb))).append
      ⟨rfl, hsplit.next, by
        dsimp only
        rw [hsplit.restNext]
        exact hbehind.congr fun b hb => next_congr (hheader b (.inr hb))⟩
    room := fun b hb => ?_
    aligned := fun b hb => ?_
    usedSize := fun b hb hused => ?_
    endNext := ?_
    endSize := ?_
    lastFree := ?_ }, husedp, hsplit.next⟩
  · rcases hlist b hb with rfl | rfl | hb
    · rw [hsplit.next]
      omega
    · rw [hsplit.restNext]
      omega
    · rw [next_congr (hheader b hb)]
      exact h.room b (hmem hb)
  · rcases hlist b hb with rfl | rfl | hb
    · exact hp4
    · omega
    · exact h.aligned b (hmem hb)
  · rcases hlist b hb with rfl | rfl | hb
    · rw [hsplit.size_eq, hsplit.next]
      omega
    · rw [hsplit.restFree] at hused
      cases hused
    · rw [used_congr (hheader b hb)] at hused
      rw [size_congr (hheader b hb), next_congr (hheader b hb)]
      exact h.usedSize b (hmem hb) hused
  · rw [next_congr (hsplit.same z.sentinel 8 (by omega) (by omega))]
    exact h.endNext
  · rw [size_congr (hsplit.same z.sentinel 8 (by omega) (by omega))]
    exact h.endSize
  · rcases List.eq_nil_or_concat behind with rfl | ⟨rest, l, rfl⟩
    · exact ⟨before ++ [e], m, by simp, hsplit.restFree⟩
    · obtain ⟨init, l', heq, hl⟩ := h.lastFree
      have heq' : (before ++ e :: rest) ++ [l] = init ++ [l'] := by simpa using heq
      obtain rfl : l = l' := by simpa using List.append_inj_right' heq' rfl
      refine ⟨before ++ e :: m :: rest, l, by simp, ?_⟩
      rw [used_congr (hheader l (.inr (by simp)))]
      exact hl

/-- A split touches no used block. -/
theorem UsedKept.splitBlock {before behind : List Nat} (h : Chained z mem (before ++ p :: behind))
    (hfree : mem.used p = false) (hsize : size % 4 = 0) (hroom : size + 8 ≤ mem.next p - p - 8) :
    UsedKept mem (before ++ p :: behind) (splitBlock mem p size)
      (before ++ p :: (p + size + 8) :: behind) := by
  intro b hb hused
  have hp : p ∈ before ++ p :: behind := by simp
  have hend := z.sentinel_lt
  have hnext := (h.bounds hp).2
  have hsplit := @splitBlock_spec mem p size hsize (by omega)
  have hne : b ≠ p := by
    rintro rfl
    rw [hfree] at hused
    cases hused
  refine ⟨?_, ?_⟩
  · simp only [List.mem_append, List.mem_cons] at hb ⊢
    tauto
  · have hroom' := h.room b hb
    rcases h.apart hb hp hne with hlt | hlt
    · exact hsplit.same b _ (by omega) (by omega)
    · exact hsplit.same b _ (by omega) (by omega)

/-- Freeing a block keeps the chain. -/
theorem Chained.free (h : Chained z mem bs) (hp : p ∈ bs) :
    Chained z (mem.setSize p (mem.size p / 2 * 2)) bs
      ∧ ∀ b ∈ bs, b ≠ p → SameBytes mem (mem.setSize p (mem.size p / 2 * 2)) b (mem.next b - b) := by
  have hroom := h.room p hp
  have hbound := h.bounds hp
  have hlt := word_lt mem (p + 4)
  have hsize : (mem.setSize p (mem.size p / 2 * 2)).size p = mem.size p / 2 * 2 :=
    size_setSize (by unfold Area.size; omega) mem p
  have hfree : (mem.setSize p (mem.size p / 2 * 2)).used p = false := by
    rw [used_eq_false, hsize]
    omega
  have hsame : ∀ b ∈ bs, b ≠ p →
      SameBytes mem (mem.setSize p (mem.size p / 2 * 2)) b (mem.next b - b) := by
    intro b hb hne
    have := h.room b hb
    rcases h.apart hb hp hne with hle | hle
    · exact setSize_same mem p _ (by omega)
    · exact setSize_same mem p _ (by omega)
  generalize hmem' : mem.setSize p (mem.size p / 2 * 2) = mem' at *
  have hnext : ∀ b ∈ bs, mem'.next b = mem.next b := by
    intro b hb
    by_cases hbp : b = p
    · subst hbp
      rw [← hmem', next_setSize]
    · exact next_congr (h.header_same hb (hsame b hb hbp))
  have hend : SameBytes mem mem' z.sentinel 8 := by
    rw [← hmem']
    exact setSize_same mem p _ (by omega)
  refine ⟨{
    path := h.path.congr hnext
    room := fun b hb => by rw [hnext b hb]; exact h.room b hb
    aligned := h.aligned
    usedSize := fun b hb hused => ?_
    endNext := by rw [next_congr hend]; exact h.endNext
    endSize := by rw [size_congr hend]; exact h.endSize
    lastFree := ?_ }, hsame⟩
  · by_cases hbp : b = p
    · rw [hbp, hfree] at hused
      cases hused
    · have hheader := h.header_same hb (hsame b hb hbp)
      rw [used_congr hheader] at hused
      rw [size_congr hheader, hnext b hb]
      exact h.usedSize b hb hused
  · obtain ⟨init, l, rfl, hl⟩ := h.lastFree
    refine ⟨init, l, rfl, ?_⟩
    by_cases hlp : l = p
    · rw [hlp]
      exact hfree
    · rw [used_congr (h.header_same (by simp) (hsame l (by simp) hlp))]
      exact hl

/-! ## One call of ucx_malloc -/

/-- The allocator's variables fit its chain: `first_free` is its start, and the search begins at a used block
    or there. -/
structure HeapSound (z : Zone) (h : Heap) (bs : List Nat) : Prop where
  chained : Chained z h.mem bs
  first : h.firstFree = z.start
  last : h.lastFree ∈ bs
  lastUsed : h.lastFree = z.start ∨ h.mem.used h.lastFree = true

/-- Some run of free blocks from `p` on offers `need` bytes. -/
def Offers (z : Zone) (h : Heap) (p need : Nat) : Prop :=
  ∃ r ∈ freeRuns h.mem z.sentinel none (h.blocks p), need ≤ r.2 - r.1 - memBlockSize

/-- What `ucx_malloc` asks a run for, in 32 bits. -/
def needFor (size : Nat) : Nat := u32 (align4 size + memBlockSize)

theorem needFor_eq (h : size + 11 < 2 ^ 32) : needFor size = align4 size + 8 := by
  unfold needFor memBlockSize
  rw [align4_eq (by omega)]
  exact Nat.mod_eq_of_lt (by omega)

/-- What one call does: no run from `last_free` on is large enough, or one is and its block is split. -/
inductive MallocOutcome (z : Zone) (h : Heap) (bs : List Nat) (size : Nat) : Option (Heap × Nat) → Prop
  | refused (mem' : Area) (bs' : List Nat) (hnone : ¬ Offers z h h.lastFree (needFor size))
      (hmerged : Merged z h.mem bs mem' bs') : MallocOutcome z h bs size (some ({ h with mem := mem' }, 0))
  | found (mem' : Area) (before : List Nat) (p : Nat) (behind : List Nat)
      (hoffers : Offers z h h.lastFree (needFor size))
      (hmerged : Merged z h.mem bs mem' (before ++ p :: behind)) (hfree : mem'.used p = false)
      (hroom : needFor size ≤ mem'.next p - p - 8) :
      MallocOutcome z h bs size
        (some ({ h with mem := splitBlock mem' p (align4 size), lastFree := p }, p + 8))

theorem ucxMalloc_outcome (hs : HeapSound z h bs) (size : Nat) :
    MallocOutcome z h bs size (ucxMalloc h size) := by
  obtain ⟨pre, behind, rfl⟩ := List.append_of_mem hs.last
  have hlen := hs.chained.length_lt
  rw [List.length_append] at hlen
  have hblocks : h.blocks h.lastFree = h.lastFree :: behind := hs.chained.blocksFrom_suffix
  unfold ucxMalloc
  dsimp only
  rcases searchBlock_spec (n := maxTurns) (p := h.lastFree) (align4 size) (by omega) hs.chained rfl
    (fun b hb _ => Option.some.inj hb) with ⟨mem', p, heq, hfinds⟩ | ⟨mem', heq, hnone⟩
  · obtain ⟨before, behind', hmerged⟩ := hfinds.merged
    have hp : p ∈ before ++ p :: behind' := by simp
    have hbound := hmerged.chained.bounds hp
    have hroom := hmerged.chained.room p hp
    have hend := z.sentinel_lt
    rw [heq]
    dsimp only
    rw [if_neg (hmerged.chained.next_ne_zero hp),
      show u32 (p + memBlockSize) = p + 8 from Nat.mod_eq_of_lt (by unfold memBlockSize; omega)]
    refine .found mem' before p behind' ⟨(p, mem'.next p), ?_, hfinds.room⟩ hmerged hfinds.free hfinds.room
    rw [hblocks]
    exact hfinds.run
  · obtain ⟨bs', hmerged⟩ := hnone.merged
    rw [heq]
    dsimp only
    rw [if_pos hmerged.chained.endNext]
    refine .refused mem' bs' ?_ hmerged
    rintro ⟨r, hr, hneed⟩
    rw [hblocks] at hr
    exact absurd hneed (Nat.not_le.mpr (hnone.none r hr))

/-- A call that finds nothing keeps the heap sound. -/
theorem HeapSound.merged (hs : HeapSound z h bs) (hmerged : Merged z h.mem bs mem' bs') :
    HeapSound z { h with mem := mem' } bs' where
  chained := hmerged.chained
  first := hs.first
  last := by
    rcases hs.lastUsed with heq | hused
    · rw [heq]
      exact hmerged.chained.start_mem
    · exact hmerged.used _ hs.last hused
  lastUsed := by
    refine hs.lastUsed.imp_right fun hused => ?_
    have hmem := hmerged.used _ hs.last hused
    exact ((hmerged.sub _ hmem).2.trans hused)

/-- And so does a call whose size does not wrap. -/
theorem HeapSound.split {before behind : List Nat} (hs : HeapSound z h bs)
    (hmerged : Merged z h.mem bs mem' (before ++ p :: behind)) (hfits : size + 11 < 2 ^ 32)
    (hroom : needFor size ≤ mem'.next p - p - 8) :
    HeapSound z { h with mem := splitBlock mem' p (align4 size), lastFree := p }
      (before ++ p :: (p + align4 size + 8) :: behind) := by
  rw [needFor_eq hfits] at hroom
  obtain ⟨hchained, hused, -⟩ := hmerged.chained.splitBlock (align4_aligned size) hroom
  exact ⟨hchained, hs.first, by simp, Or.inr hused⟩

/-! ## Live allocations -/

/-- A live allocation has a used block of its own, of the size it asked for, rounded. -/
structure Allocated (mem : Area) (bs : List Nat) (l : Nat × Nat) : Prop where
  block : ∃ b ∈ bs, l.1 = b + 8 ∧ mem.used b = true ∧ mem.next b = l.1 + align4 l.2
  holds : l.2 ≤ align4 l.2

/-- The heap is sound, and the live allocations have blocks of their own. -/
structure HeapUse.Sound (z : Zone) (s : HeapUse) (bs : List Nat) : Prop where
  heap : HeapSound z s.heap bs
  allocated : ∀ l ∈ s.live, Allocated s.heap.mem bs l
  distinct : (s.live.map Prod.fst).Nodup

/-- An allocation stays where its header does. -/
theorem Allocated.congr (ha : Allocated mem bs l)
    (hsame : ∀ b ∈ bs, mem.used b = true → l.1 = b + 8 → b ∈ bs' ∧ SameBytes mem mem' b 8) :
    Allocated mem' bs' l := by
  obtain ⟨b, hb, hptr, hused, hnext⟩ := ha.block
  obtain ⟨hmem, hheader⟩ := hsame b hb hused hptr
  refine ⟨⟨b, hmem, hptr, ?_, ?_⟩, ha.holds⟩
  · rw [used_congr hheader]
    exact hused
  · rw [next_congr hheader]
    exact hnext

namespace HeapUse.Sound

variable {s : HeapUse} {live : List (Nat × Nat)}

/-- An allocation lies inside the zone, in front of the last header. -/
theorem bounds (hs : Sound z s bs) (hl : l ∈ s.live) :
    z.start + 8 ≤ l.1 ∧ l.1 + align4 l.2 ≤ z.sentinel := by
  obtain ⟨b, hb, hptr, -, hnext⟩ := (hs.allocated l hl).block
  have hbound := hs.heap.chained.bounds hb
  omega

/-- Two allocations lie apart, with a header between them. -/
theorem apart {m : Nat × Nat} (hs : Sound z s bs) (hl : l ∈ s.live) (hm : m ∈ s.live) (hne : l.1 ≠ m.1) :
    l.1 + align4 l.2 + 8 ≤ m.1 ∨ m.1 + align4 m.2 + 8 ≤ l.1 := by
  obtain ⟨b, hb, hptr, -, hnext⟩ := (hs.allocated l hl).block
  obtain ⟨c, hc, hptr', -, hnext'⟩ := (hs.allocated m hm).block
  have := hs.heap.chained.apart hb hc (by omega)
  omega

/-- Fewer allocations are on record. -/
theorem sublist (hs : Sound z s bs) (hsub : live.Sublist s.live) : Sound z ⟨s.heap, live⟩ bs where
  heap := hs.heap
  allocated l hl := hs.allocated l (hsub.subset hl)
  distinct := hs.distinct.sublist (hsub.map _)

/-- The heap changes, and the used blocks stay. -/
theorem heap_changed {h : Heap} (hs : Sound z s bs) (hsound : HeapSound z h bs')
    (hkept : UsedKept s.heap.mem bs h.mem bs') : Sound z ⟨h, s.live⟩ bs' where
  heap := hsound
  allocated l hl := (hs.allocated l hl).congr fun b hb hused _ =>
    ⟨(hkept b hb hused).1, hs.heap.chained.header_same hb (hkept b hb hused).2⟩
  distinct := hs.distinct

/-- What the used blocks hold, the allocations hold. -/
theorem bytes_kept (hs : Sound z s bs) (hkept : UsedKept s.heap.mem bs mem' bs') (hl : l ∈ s.live) :
    SameBytes s.heap.mem mem' l.1 (align4 l.2) := by
  obtain ⟨b, hb, hptr, hused, hnext⟩ := (hs.allocated l hl).block
  exact (hkept b hb hused).2.sub (by omega) (by omega)

/-- Writing inside an allocation. -/
theorem write {m : Area} (hs : Sound z s bs) (hl : l ∈ s.live)
    (hwrite : ∀ x, x < l.1 ∨ l.1 + align4 l.2 ≤ x → m x = s.heap.mem x) :
    Sound z ⟨{ s.heap with mem := m }, s.live⟩ bs := by
  obtain ⟨p, hp, hptr, -, hnext⟩ := (hs.allocated l hl).block
  have hheader : ∀ b ∈ bs, SameBytes s.heap.mem m b 8 := by
    intro b hb x h₁ h₂
    have hroom := hs.heap.chained.room b hb
    by_cases hbp : b = p
    · exact hwrite x (by omega)
    · have := hs.heap.chained.apart hb hp hbp
      exact hwrite x (by omega)
  have hbound := hs.bounds hl
  have hend : SameBytes s.heap.mem m z.sentinel 8 := fun x h₁ _ => hwrite x (by omega)
  exact {
    heap :=
      { chained := hs.heap.chained.congr hheader hend
        first := hs.heap.first
        last := hs.heap.last
        lastUsed := hs.heap.lastUsed.imp_right fun hused => by
          rw [used_congr (hheader _ hs.heap.last)]
          exact hused }
    allocated := fun l hl => (hs.allocated l hl).congr fun b hb _ _ => ⟨hb, hheader b hb⟩
    distinct := hs.distinct }

/-- Freeing a live allocation. -/
theorem free (hs : Sound z s bs) (hptr : ptr ∈ s.live.map Prod.fst) :
    Sound z ⟨ucxFree s.heap ptr, HeapUse.forget s.live ptr⟩ bs
      ∧ ∀ l ∈ s.live, l.1 ≠ ptr → SameBytes s.heap.mem (ucxFree s.heap ptr).mem l.1 (align4 l.2) := by
  obtain ⟨l, hl, rfl⟩ := List.mem_map.mp hptr
  obtain ⟨p, hp, hlp, -, hnext⟩ := (hs.allocated l hl).block
  have hbound := hs.bounds hl
  have hend := z.sentinel_lt
  have hblock : u32Sub l.1 memBlockSize = p := by
    rw [u32Sub_eq (by unfold memBlockSize; omega) (by omega)]
    unfold memBlockSize
    omega
  obtain ⟨hchained, hsame⟩ := hs.heap.chained.free hp
  unfold ucxFree
  dsimp only
  rw [hblock]
  refine ⟨⟨⟨hchained, hs.heap.first, ?_, Or.inl hs.heap.first⟩, fun m hm => ?_, ?_⟩, fun m hm hne => ?_⟩
  · show s.heap.firstFree ∈ bs
    rw [hs.heap.first]
    exact hs.heap.chained.start_mem
  · obtain ⟨hm, hne⟩ := List.mem_filter.mp hm
    refine (hs.allocated m hm).congr fun b hb _ hmb => ⟨hb, ?_⟩
    have hbp : b ≠ p := by
      rintro rfl
      exact of_decide_eq_true hne (hmb.trans hlp.symm)
    exact hs.heap.chained.header_same hb (hsame b hb hbp)
  · exact hs.distinct.sublist (List.filter_sublist.map _)
  · obtain ⟨b, hb, hmb, -, hnext'⟩ := (hs.allocated m hm).block
    have hbp : b ≠ p := by
      rintro rfl
      exact hne (hmb.trans hlp.symm)
    exact (hsame b hb hbp).sub (by omega) (by omega)

/-- One call of `ucx_malloc`: what it returns, and what it leaves of the heap and of the allocations. -/
theorem malloc_cases (hs : Sound z s bs) (size : Nat) :
    (¬ Offers z s.heap s.heap.lastFree (needFor size) ∧ ∃ h bs', ucxMalloc s.heap size = some (h, 0)
      ∧ Sound z ⟨h, s.live⟩ bs' ∧ ∀ l ∈ s.live, SameBytes s.heap.mem h.mem l.1 (align4 l.2))
    ∨ (Offers z s.heap s.heap.lastFree (needFor size) ∧ ∃ h p, ucxMalloc s.heap size = some (h, p + 8)
      ∧ (size + 11 < 2 ^ 32 → (∃ bs', Sound z ⟨h, (p + 8, size) :: s.live⟩ bs')
        ∧ ∀ l ∈ s.live, SameBytes s.heap.mem h.mem l.1 (align4 l.2))) := by
  have houtcome := ucxMalloc_outcome hs.heap size
  generalize ucxMalloc s.heap size = outcome at houtcome
  cases houtcome with
  | refused mem' bs' hnone hmerged =>
      exact Or.inl ⟨hnone, _, bs', rfl, hs.heap_changed (hs.heap.merged hmerged) hmerged.usedKept,
        fun l hl => hs.bytes_kept hmerged.usedKept hl⟩
  | found mem' before p behind hoffers hmerged hfree hroom =>
      refine Or.inr ⟨hoffers, _, p, rfl, fun hfits => ?_⟩
      have hsound := hs.heap.split hmerged hfits hroom
      rw [needFor_eq hfits] at hroom
      have h4 := align4_aligned size
      have hkept := hmerged.usedKept.trans hs.heap.chained (.splitBlock hmerged.chained hfree h4 hroom)
      obtain ⟨-, hused, hnext⟩ := hmerged.chained.splitBlock h4 hroom
      have hlater := hs.heap_changed hsound hkept
      refine ⟨⟨_, hsound, fun l hl => ?_, ?_⟩, fun l hl => hs.bytes_kept hkept hl⟩
      · rcases List.mem_cons.mp hl with rfl | hl
        · exact ⟨⟨p, by simp, rfl, hused, hnext.trans (by dsimp only; omega)⟩, le_align4 (by omega)⟩
        · exact hlater.allocated l hl
      · -- the block taken was free, those of the live allocations are used
        refine List.nodup_cons.mpr ⟨fun hmem => ?_, hs.distinct⟩
        obtain ⟨l, hl, hlp⟩ := List.mem_map.mp hmem
        obtain ⟨b, hb, hptr, hbused, -⟩ := (hs.allocated l hl).block
        obtain rfl : b = p := by
          dsimp only at hlp
          omega
        have hmerged_used := (hmerged.sub b (hmerged.used b hb hbused)).2
        rw [hfree, hbused] at hmerged_used
        cases hmerged_used

end HeapUse.Sound

/-! ## Runs -/

/-- A request that does not wrap, or that no run satisfies even so. -/
def HeapCall.Unwrapped (z : Zone) (s : HeapUse) : HeapCall → Prop
  | .malloc size => size + 11 < 2 ^ 32 ∨ ¬ Offers z s.heap s.heap.lastFree (needFor size)
  | .calloc size typeSize =>
    size * typeSize + 11 < 2 ^ 32 ∨ ¬ Offers z s.heap s.heap.lastFree (needFor (u32 (size * typeSize)))
  | _ => True

/-- The heap is sound with some chain. -/
def HeapUse.Intact (z : Zone) (s : HeapUse) : Prop := ∃ bs, s.Sound z bs

namespace HeapUse.Intact

variable {s s' : HeapUse}

theorem malloc (hs : s.Intact z) {h : Heap}
    (hunwrapped : size + 11 < 2 ^ 32 ∨ ¬ Offers z s.heap s.heap.lastFree (needFor size))
    (heq : ucxMalloc s.heap size = some (h, ptr)) : Intact z ⟨h, HeapUse.record s.live ptr size⟩ := by
  obtain ⟨bs, hs⟩ := hs
  rcases hs.malloc_cases size with ⟨-, h', bs', heq', hsound, -⟩ | ⟨hoffers, h', p, heq', hsound⟩
  · rw [heq'] at heq
    obtain ⟨rfl, rfl⟩ := Prod.mk.inj (Option.some.inj heq)
    exact ⟨bs', hsound⟩
  · rw [heq'] at heq
    obtain ⟨rfl, rfl⟩ := Prod.mk.inj (Option.some.inj heq)
    exact (hsound (hunwrapped.resolve_right (not_not_intro hoffers))).1

theorem calloc (hs : s.Intact z) {typeSize : Nat} {h : Heap}
    (hunwrapped : HeapCall.Unwrapped z s (.calloc size typeSize))
    (heq : ucxCalloc s.heap size typeSize = some (h, ptr)) :
    Intact z ⟨h, HeapUse.record s.live ptr (size * typeSize)⟩ := by
  obtain ⟨bs, hs⟩ := hs
  unfold ucxCalloc at heq
  rcases hs.malloc_cases (u32 (size * typeSize)) with ⟨-, h', bs', heq', hsound, -⟩ | ⟨hoffers, h', p, heq', hsound⟩
  · rw [heq'] at heq
    obtain ⟨rfl, rfl⟩ := Prod.mk.inj (Option.some.inj heq)
    exact ⟨bs', hsound⟩
  · have hfits : size * typeSize + 11 < 2 ^ 32 := hunwrapped.resolve_right (not_not_intro hoffers)
    have hmod : u32 (size * typeSize) = size * typeSize := Nat.mod_eq_of_lt (by omega)
    rw [heq'] at heq
    rw [hmod] at hsound heq
    dsimp only at heq
    rw [if_neg (by omega)] at heq
    obtain ⟨rfl, rfl⟩ := Prod.mk.inj (Option.some.inj heq)
    obtain ⟨⟨bs', hsound⟩, -⟩ := hsound hfits
    refine ⟨bs', hsound.write List.mem_cons_self fun x hx => ?_⟩
    have hle := le_align4 (x := size * typeSize) (by omega)
    exact if_neg (by dsimp only at hx; omega)

theorem realloc (hs : s.Intact z) {h : Heap} {buf : Nat} (hptr : ptr = 0 ∨ ptr ∈ s.live.map Prod.fst)
    (heq : ucxRealloc s.heap ptr size = some (h, buf)) :
    Intact z ⟨h, HeapUse.record (if buf = 0 then s.live else HeapUse.forget s.live ptr) buf size⟩ := by
  unfold ucxRealloc at heq
  by_cases hsize : 2 ^ 31 ≤ size
  · rw [if_pos hsize] at heq
    obtain ⟨rfl, rfl⟩ := Prod.mk.inj (Option.some.inj heq)
    exact hs
  · rw [if_neg hsize] at heq
    obtain ⟨bs, hs⟩ := hs
    rcases hs.malloc_cases size with ⟨-, h', bs', heq', hsound, -⟩ | ⟨-, h', p, heq', hsound⟩
    · rw [heq'] at heq
      have hheap : h' = h ∧ 0 = buf := by
        by_cases hnull : ptr = 0
        · rw [if_pos hnull] at heq
          exact Prod.mk.inj (Option.some.inj heq)
        · rw [if_neg hnull] at heq
          exact Prod.mk.inj (Option.some.inj heq)
      obtain ⟨rfl, rfl⟩ := hheap
      exact ⟨bs', hsound⟩
    · obtain ⟨⟨bs', hsound⟩, -⟩ := hsound (by omega)
      rw [heq'] at heq
      by_cases hnull : ptr = 0
      · rw [if_pos hnull] at heq
        obtain ⟨rfl, rfl⟩ := Prod.mk.inj (Option.some.inj heq)
        exact ⟨bs', hsound.sublist (List.filter_sublist.cons_cons _)⟩
      · rw [if_neg hnull] at heq
        dsimp only at heq
        rw [if_neg (by omega)] at heq
        obtain ⟨rfl, rfl⟩ := Prod.mk.inj (Option.some.inj heq)
        have hlive := hptr.resolve_left hnull
        have hne : p + 8 ≠ ptr := by
          rintro rfl
          exact (List.nodup_cons.mp hsound.distinct).1 hlive
        have hle := le_align4 (x := size) (by omega)
        have hcopied := hsound.write (m := memcpy h'.mem (p + 8) (fun i => h'.mem (ptr + i)) size)
          List.mem_cons_self fun x hx => if_neg (by dsimp only at hx; omega)
        have hlive' : ptr ∈ ((p + 8, size) :: s.live).map Prod.fst := List.mem_cons_of_mem _ hlive
        have hfreed := (hcopied.free hlive').1
        have hforget : HeapUse.forget ((p + 8, size) :: s.live) ptr
            = (p + 8, size) :: HeapUse.forget s.live ptr := List.filter_cons_of_pos (decide_eq_true hne)
        rw [hforget] at hfreed
        exact ⟨bs', hfreed⟩

/-- Every call whose request does not wrap keeps the heap intact. -/
theorem step (hs : s.Intact z) {call : HeapCall} (hunwrapped : call.Unwrapped z s)
    (heq : s.step call = some s') : s'.Intact z := by
  cases call with
  | malloc size =>
      obtain ⟨⟨h, ptr⟩, hout, rfl⟩ := Option.map_eq_some_iff.mp heq
      exact hs.malloc hunwrapped hout
  | calloc size typeSize =>
      obtain ⟨⟨h, ptr⟩, hout, rfl⟩ := Option.map_eq_some_iff.mp heq
      exact hs.calloc hunwrapped hout
  | realloc ptr size =>
      obtain ⟨hptr, heq⟩ := Option.ite_none_right_eq_some.mp heq
      obtain ⟨⟨h, buf⟩, hout, rfl⟩ := Option.map_eq_some_iff.mp heq
      exact hs.realloc hptr hout
  | free ptr =>
      obtain ⟨hptr, heq⟩ := Option.ite_none_right_eq_some.mp heq
      cases heq
      obtain ⟨bs, hs⟩ := hs
      exact ⟨bs, (hs.free hptr).1⟩
  | store a x =>
      obtain ⟨hin, heq⟩ := Option.ite_none_right_eq_some.mp heq
      cases heq
      obtain ⟨l, hl, hin⟩ := List.any_eq_true.mp hin
      have hin := of_decide_eq_true hin
      obtain ⟨bs, hs⟩ := hs
      have hle := (hs.allocated l hl).holds
      refine ⟨bs, hs.write hl fun y hy => Function.update_of_ne ?_ _ _⟩
      rintro rfl
      omega

end HeapUse.Intact

/-- The heap after `ucx_heap_init`, with nothing allocated. -/
def HeapUse.start (z : Zone) (mem : Area) : HeapUse := ⟨ucxHeapInit mem z.start z.len, []⟩

theorem HeapUse.start_sound (z : Zone) (mem : Area) : (start z mem).Sound z [z.start] := by
  have h₁ := z.start_aligned
  have h₂ := z.len_aligned
  have h₃ := z.holds
  have h₄ := z.fits
  have hq : u32Sub (u32 (z.start + z.len)) memBlockSize = z.sentinel := by
    unfold u32Sub u32 memBlockSize Zone.sentinel
    omega
  have hz : z.sentinel = z.start + z.len - 8 := rfl
  have hsize : ∃ w, w % 2 = 0 ∧ w < 2 ^ 32 ∧ u32Sub (u32Sub (align4 z.len) memBlockSize) memBlockSize = w := by
    refine ⟨_, ?_, ?_, rfl⟩ <;> unfold u32Sub u32 memBlockSize align4 u32 <;> omega
  obtain ⟨w, hw, hwlt, hsize⟩ := hsize
  have hmem : (start z mem).heap.mem
      = (((mem.setNext z.start z.sentinel).setSize z.start w).setNext z.sentinel 0).setSize z.sentinel 0 := by
    show (ucxHeapInit mem z.start z.len).mem = _
    unfold ucxHeapInit
    dsimp only
    rw [hq, hsize]
  -- the last header is written behind the first
  generalize ht : (mem.setNext z.start z.sentinel).setSize z.start w = t at hmem
  have hsame : SameBytes t (start z mem).heap.mem z.start 8 := by
    rw [hmem]
    exact (setNext_same t z.sentinel 0 (by omega)).trans (setSize_same _ z.sentinel 0 (by omega))
  have hnext : (start z mem).heap.mem.next z.start = z.sentinel := by
    rw [next_congr hsame, ← ht, next_setSize, next_setNext (by omega)]
  have hused : (start z mem).heap.mem.used z.start = false := by
    rw [used_congr hsame, used_eq_false, ← ht, size_setSize hwlt]
    exact hw
  refine ⟨⟨{
    path := ⟨rfl, hnext⟩
    room := fun b hb => ?_
    aligned := fun b hb => ?_
    usedSize := fun b hb hb' => ?_
    endNext := by rw [hmem, next_setSize, next_setNext (by omega)]
    endSize := by rw [hmem, size_setSize (by omega)]
    lastFree := ⟨[], z.start, rfl, hused⟩ }, rfl, List.mem_singleton_self _, Or.inl rfl⟩, ?_, List.nodup_nil⟩
  · obtain rfl := List.mem_singleton.mp hb
    rw [hnext]
    omega
  · obtain rfl := List.mem_singleton.mp hb
    exact h₁
  · obtain rfl := List.mem_singleton.mp hb
    rw [hused] at hb'
    cases hb'
  · exact fun l hl => absurd hl List.not_mem_nil

/-- A heap that has been used with requests that do not wrap is intact. -/
theorem HeapUse.intact_of_guardedRun {calls : List HeapCall} {s : HeapUse}
    (hrun : Transition.GuardedRun HeapUse.step (fun s call => call.Unwrapped z s) (start z mem) calls s) :
    s.Intact z :=
  hrun.invariant (I := HeapUse.Intact z) (fun _ _ _ hs hunwrapped hstep => hs.step hunwrapped hstep)
    ⟨_, start_sound z mem⟩

/-! ## Integrity -/

/-- A request that wraps neither when it is rounded, nor with a header added, nor in the product that
    `ucx_calloc` computes. Every request below `2 ^ 31` bytes is one. -/
def HeapCall.Fits : HeapCall → Prop
  | .malloc size => size + 11 < 2 ^ 32
  | .calloc size typeSize => size * typeSize + 11 < 2 ^ 32
  | _ => True

theorem HeapCall.Fits.unwrapped {call : HeapCall} (hfits : call.Fits) (z : Zone) (s : HeapUse) :
    call.Unwrapped z s := by
  cases call with
  | malloc size => exact Or.inl hfits
  | calloc size typeSize => exact Or.inl hfits
  | _ => trivial

/-- What holds of a heap in use. -/
structure HeapUse.Integrity (z : Zone) (mem : Area) (s : HeapUse) : Prop where
  /-- following the blocks from `first_free` on ends at the sentinel -/
  chain : LinkedPath s.heap.mem.next s.heap.firstFree (s.heap.blocks s.heap.firstFree) z.sentinel
  increasing : (s.heap.blocks s.heap.firstFree ++ [z.sentinel]).Pairwise (· < ·)
  /-- the sentinel is as `ucx_heap_init` has left it -/
  sentinelKept : SameBytes (start z mem).heap.mem s.heap.mem z.sentinel 8
  sentinelEnds : s.heap.mem.next z.sentinel = 0 ∧ s.heap.mem.size z.sentinel = 0
  /-- an allocation is the area of a used block, and there is enough of it before the next header -/
  allocated : ∀ l ∈ s.live, ∃ b ∈ s.heap.blocks s.heap.firstFree, l.1 = b + memBlockSize
    ∧ s.heap.mem.used b = true ∧ l.1 + align4 l.2 ≤ s.heap.mem.next b ∧ l.2 ≤ align4 l.2
  inside : ∀ l ∈ s.live, z.start ≤ l.1 ∧ l.1 + align4 l.2 ≤ z.start + z.len
  disjoint : s.live.Pairwise fun l m => l.1 + align4 l.2 < m.1 ∨ m.1 + align4 m.2 < l.1
  lastBlockFree : ∃ init b, s.heap.blocks s.heap.firstFree = init ++ [b] ∧ s.heap.mem.used b = false
  lastFree : s.heap.lastFree ∈ s.heap.blocks s.heap.firstFree
  terminates : ∀ size, (ucxMalloc s.heap size).isSome = true

/-- A word that is zero is four zero bytes. -/
theorem bytes_of_word_eq_zero {a x : Nat} (hw : mem.word a = 0) (h₁ : a ≤ x) (h₂ : x < a + 4) : mem x = 0 := by
  unfold Area.word at hw
  have hx : x = a ∨ x = a + 1 ∨ x = a + 2 ∨ x = a + 3 := by omega
  rcases hx with rfl | rfl | rfl | rfl <;> exact UInt8.toNat_inj.mp (by simp only [UInt8.toNat_zero]; omega)

theorem Chained.sentinel_bytes (h : Chained z mem bs) {x : Nat} (h₁ : z.sentinel ≤ x) (h₂ : x < z.sentinel + 8) :
    mem x = 0 := by
  by_cases hx : x < z.sentinel + 4
  · exact bytes_of_word_eq_zero h.endNext h₁ hx
  · exact bytes_of_word_eq_zero h.endSize (Nat.not_lt.mp hx) h₂

/-- A heap in use keeps its integrity: whatever the program allocates, frees and writes into its
    allocations. -/
theorem heap_integrity (z : Zone) (mem : Area) (calls : List HeapCall) (s : HeapUse)
    (hrun : Transition.run HeapUse.step (HeapUse.start z mem) calls = some s)
    (hfits : ∀ call ∈ calls, call.Fits) : s.Integrity z mem := by
  obtain ⟨bs, hs⟩ := HeapUse.intact_of_guardedRun
    ((Transition.GuardedRun.of_run hrun hfits).mono fun s call hok => hok.unwrapped z s)
  have hchained := hs.heap.chained
  have hblocks : s.heap.blocks s.heap.firstFree = bs := by
    rw [hs.heap.first]
    exact hchained.blocksFrom_start
  have hlt : ∀ b ∈ bs, b < s.heap.mem.next b := fun b hb => by
    have := hchained.room b hb
    omega
  refine {
    chain := ?_
    increasing := ?_
    sentinelKept := fun x h₁ h₂ => ?_
    sentinelEnds := ⟨hchained.endNext, hchained.endSize⟩
    allocated := fun l hl => ?_
    inside := fun l hl => ?_
    disjoint := ?_
    lastBlockFree := ?_
    lastFree := ?_
    terminates := fun size => ?_ }
  · rw [hblocks, hs.heap.first]
    exact hchained.path
  · rw [hblocks]
    refine List.pairwise_append.mpr ⟨?_, List.pairwise_singleton _ _, fun b hb c hc => ?_⟩
    · exact hchained.ordered.imp_of_mem fun hb _ hle => (hlt _ hb).trans_le hle
    · obtain rfl := List.mem_singleton.mp hc
      exact (hlt b hb).trans_le (hchained.bounds hb).2
  · rw [hchained.sentinel_bytes h₁ h₂, (HeapUse.start_sound z mem).heap.chained.sentinel_bytes h₁ h₂]
  · obtain ⟨⟨b, hb, hptr, hused, hnext⟩, hle⟩ := hs.allocated l hl
    rw [hblocks]
    exact ⟨b, hb, hptr, hused, hnext.ge, hle⟩
  · have hbound := hs.bounds hl
    have hsentinel : z.sentinel = z.start + z.len - 8 := rfl
    omega
  · refine (List.pairwise_map.mp hs.distinct).imp_of_mem fun hl hm hne => ?_
    have := hs.apart hl hm hne
    omega
  · rw [hblocks]
    exact hchained.lastFree
  · rw [hblocks]
    exact hs.heap.last
  · rcases hs.malloc_cases size with ⟨-, h, bs', heq, -⟩ | ⟨-, h, p, heq, -⟩ <;> rw [heq] <;> rfl

/-- A zone of eighty bytes. -/
def smallZone : Zone := ⟨16, 80, rfl, rfl, by decide, by decide⟩

theorem heap_integrity_small : ∃ s, Transition.run HeapUse.step (HeapUse.start smallZone fun _ => 7)
    [.malloc 5, .malloc 8, .store 25 1, .free 24, .malloc 3] = some s
    ∧ s.live.length = 2 ∧ s.Integrity smallZone fun _ => 7 := by
  have hrun : ((Transition.run HeapUse.step (HeapUse.start smallZone fun _ => 7)
      [.malloc 5, .malloc 8, .store 25 1, .free 24, .malloc 3]).map fun s => s.live.length) = some 2 := by
    decide +kernel
  obtain ⟨s, hs, hlen⟩ := Option.map_eq_some_iff.mp hrun
  refine ⟨s, hs, hlen, heap_integrity smallZone (fun _ => 7) _ s hs ?_⟩
  simp [HeapCall.Fits]

end UcxArinc
