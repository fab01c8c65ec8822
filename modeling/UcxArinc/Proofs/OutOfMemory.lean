import UcxArinc.Proofs.HeapRuns

set_option autoImplicit false

/-! # Running out of memory

`ucx_malloc` searches the blocks from `last_free` on, and only `ucx_free` sets `last_free` back to the first
block. A hole in front of the block allocated last is not found, whatever the comment above the allocator
says of a search "from the beginning of the heap". -/

namespace UcxArinc

variable {z : Zone} {mem : Area} {bs : List Nat} {b k q need size : Nat}

/-! ## Runs of free blocks, divided at a used block -/

theorem freeRuns_append {u : Nat} (hu : mem.used u = true) (open? : Option Nat) (before behind : List Nat) :
    freeRuns mem k open? (before ++ u :: behind)
      = freeRuns mem u open? before ++ freeRuns mem k none (u :: behind) := by
  induction before generalizing open? with
  | nil => cases open? <;> simp [freeRuns, hu]
  | cons b before ih =>
      rw [List.cons_append]
      by_cases hb : mem.used b = true
      · cases open? with
        | none => simp only [freeRuns, hb, if_true, ih]
        | some q => simp only [freeRuns, hb, if_true, ih, List.cons_append]
      · cases open? with
        | none => simp only [freeRuns, if_neg hb, ih]
        | some q => simp only [freeRuns, if_neg hb, ih]

/-- A run begins at a block of the list, or at the one it was opened with. -/
theorem freeRuns_fst {open? : Option Nat} {r : Nat × Nat} (hr : r ∈ freeRuns mem k open? bs) :
    r.1 ∈ bs ∨ open? = some r.1 := by
  induction bs generalizing open? with
  | nil =>
      cases open? with
      | none => exact absurd hr List.not_mem_nil
      | some q =>
          obtain rfl := List.mem_singleton.mp hr
          exact Or.inr rfl
  | cons b bs ih =>
      have hlater : ∀ {o}, r ∈ freeRuns mem k o bs → (∀ q, o = some q → q = b ∨ open? = some q) →
          r.1 ∈ b :: bs ∨ open? = some r.1 := by
        intro o hr ho
        rcases ih hr with hmem | heq
        · exact Or.inl (List.mem_cons_of_mem _ hmem)
        · rcases ho _ heq with hb | hopen
          · exact Or.inl (hb ▸ List.mem_cons_self)
          · exact Or.inr hopen
      rw [freeRuns.eq_def] at hr
      cases open? with
      | none =>
          dsimp only at hr
          by_cases hb : mem.used b = true
          · rw [if_pos hb] at hr
            exact hlater hr (by simp)
          · rw [if_neg hb] at hr
            exact hlater hr fun q hq => Or.inl (Option.some.inj hq).symm
      | some q =>
          dsimp only at hr
          by_cases hb : mem.used b = true
          · rw [if_pos hb] at hr
            rcases List.mem_cons.mp hr with rfl | hr
            · exact Or.inr rfl
            · exact hlater hr (by simp)
          · rw [if_neg hb] at hr
            exact hlater hr fun q hq => Or.inr hq

/-! ## The runs the search sees -/

/-- The maximal runs of free blocks of a heap. -/
def Heap.runs (z : Zone) (h : Heap) : List (Nat × Nat) :=
  freeRuns h.mem z.sentinel none (h.blocks h.firstFree)

/-- The search sees the runs at or behind `last_free`. -/
theorem HeapSound.mem_freeRuns {h : Heap} (hs : HeapSound z h bs) {r : Nat × Nat} :
    r ∈ freeRuns h.mem z.sentinel none (h.blocks h.lastFree) ↔ r ∈ h.runs z ∧ h.lastFree ≤ r.1 := by
  obtain ⟨before, behind, rfl⟩ := List.append_of_mem hs.last
  have hbehind : h.blocks h.lastFree = h.lastFree :: behind := hs.chained.blocksFrom_suffix
  have hall : h.blocks h.firstFree = before ++ h.lastFree :: behind := by
    rw [hs.first]
    exact hs.chained.blocksFrom_start
  obtain ⟨-, hpairs, hleft⟩ := List.pairwise_append.mp hs.chained.ordered
  have hle : ∀ {k b}, b ∈ h.lastFree :: behind → k = h.lastFree → k ≤ b := by
    rintro k b hb rfl
    rcases List.mem_cons.mp hb with rfl | hb
    · exact le_refl _
    · exact (hs.chained.le_next _ hs.last).trans (List.rel_of_pairwise_cons hpairs hb)
  have hseen : ∀ {r}, r ∈ freeRuns h.mem z.sentinel none (h.lastFree :: behind) → h.lastFree ≤ r.1 :=
    fun hr => hle ((freeRuns_fst hr).resolve_right (by simp)) rfl
  have hbefore : ∀ b ∈ before, b < h.lastFree := fun b hb => by
    have hroom := hs.chained.room b (List.mem_append_left _ hb)
    have := hleft b hb _ List.mem_cons_self
    omega
  unfold Heap.runs
  rw [hbehind, hall]
  rcases hs.lastUsed with hstart | hused
  · -- nothing is in front of the first block
    have hnil : before = [] := by
      refine List.eq_nil_iff_forall_not_mem.mpr fun b hb => ?_
      have := (hs.chained.bounds (List.mem_append_left _ hb)).1
      have := hbefore b hb
      omega
    rw [hnil, List.nil_append]
    exact ⟨fun hr => ⟨hr, hseen hr⟩, And.left⟩
  · rw [freeRuns_append hused, List.mem_append]
    refine ⟨fun hr => ⟨Or.inr hr, hseen hr⟩, fun ⟨hr, hlt⟩ => hr.resolve_left fun hr => ?_⟩
    have := hbefore r.1 ((freeRuns_fst hr).resolve_right (by simp))
    omega

theorem HeapSound.offers_iff {h : Heap} (hs : HeapSound z h bs) :
    Offers z h h.lastFree need ↔ ∃ r ∈ h.runs z, h.lastFree ≤ r.1 ∧ need ≤ r.2 - r.1 - memBlockSize := by
  unfold Offers
  simp only [hs.mem_freeRuns, and_assoc]

/-- A run ends in front of the last header. -/
theorem freeRuns_snd {open? : Option Nat} {r : Nat × Nat} (hr : r ∈ freeRuns mem k open? bs) :
    r.2 = k ∨ r.2 ∈ bs := by
  induction bs generalizing open? with
  | nil =>
      cases open? with
      | none => exact absurd hr List.not_mem_nil
      | some q =>
          obtain rfl := List.mem_singleton.mp hr
          exact Or.inl rfl
  | cons b bs ih =>
      have hlater : ∀ {o}, r ∈ freeRuns mem k o bs → r.2 = k ∨ r.2 ∈ b :: bs :=
        fun hr => (ih hr).imp_right (List.mem_cons_of_mem _)
      rw [freeRuns.eq_def] at hr
      cases open? with
      | none =>
          dsimp only at hr
          by_cases hb : mem.used b = true
          · rw [if_pos hb] at hr
            exact hlater hr
          · rw [if_neg hb] at hr
            exact hlater hr
      | some q =>
          dsimp only at hr
          by_cases hb : mem.used b = true
          · rw [if_pos hb] at hr
            rcases List.mem_cons.mp hr with rfl | hr
            · exact Or.inr List.mem_cons_self
            · exact hlater hr
          · rw [if_neg hb] at hr
            exact hlater hr

theorem HeapSound.run_lt {h : Heap} (hs : HeapSound z h bs) {r : Nat × Nat} (hr : r ∈ h.runs z) :
    r.2 < 2 ^ 32 := by
  have hall : h.blocks h.firstFree = bs := by
    rw [hs.first]
    exact hs.chained.blocksFrom_start
  have hend := z.sentinel_lt
  unfold Heap.runs at hr
  rw [hall] at hr
  rcases freeRuns_snd hr with heq | hmem
  · omega
  · have hroom := hs.chained.room _ hmem
    have := (hs.chained.bounds hmem).2
    omega

/-! ## Refusals -/

/-- `ucx_malloc(size)` returns `0` only if no run of free blocks anywhere in the heap is large enough. -/
def HonestRefusal (z : Zone) (h : Heap) (size : Nat) : Prop :=
  (∃ h', ucxMalloc h size = some (h', 0)) →
    ∀ r ∈ h.runs z, r.2 - r.1 - memBlockSize < align4 size + memBlockSize

/-- In every heap in use, refusals are honest for the sizes for which a run at or behind `last_free` is large
    enough, or none in front of it is. -/
theorem refusal_honest_iff (z : Zone) (mem : Area) (calls : List HeapCall) (s : HeapUse)
    (hrun : Transition.GuardedRun HeapUse.step (fun s call => call.Unwrapped z s) (HeapUse.start z mem)
      calls s) (size : Nat) :
    HonestRefusal z s.heap size ↔
      (∃ r ∈ s.heap.runs z, s.heap.lastFree ≤ r.1 ∧ align4 size + memBlockSize ≤ r.2 - r.1 - memBlockSize)
      ∨ ∀ r ∈ s.heap.runs z, r.1 < s.heap.lastFree →
          r.2 - r.1 - memBlockSize < align4 size + memBlockSize := by
  obtain ⟨bs, hs⟩ := HeapUse.intact_of_guardedRun hrun
  have hle : needFor size ≤ align4 size + memBlockSize := Nat.mod_le _ _
  constructor
  · intro hhonest
    by_cases hseen : ∃ r ∈ s.heap.runs z,
        s.heap.lastFree ≤ r.1 ∧ align4 size + memBlockSize ≤ r.2 - r.1 - memBlockSize
    · exact Or.inl hseen
    · refine Or.inr fun r hr hlt => ?_
      rcases hs.malloc_cases size with ⟨-, h, bs', heq, -⟩ | ⟨hoffers, -⟩
      · exact hhonest ⟨h, heq⟩ r hr
      · -- only a request that wraps is served by a run that is too small for it
        obtain ⟨r', hr', hlast, hneed⟩ := hs.heap.offers_iff.mp hoffers
        have hbound := hs.heap.run_lt hr
        by_cases hwrap : align4 size + memBlockSize < 2 ^ 32
        · have heq : needFor size = align4 size + memBlockSize := Nat.mod_eq_of_lt hwrap
          exact absurd ⟨r', hr', hlast, heq ▸ hneed⟩ hseen
        · unfold memBlockSize at hwrap ⊢
          omega
  · rintro hcond ⟨h, heq⟩ r hr
    have hnone : ¬ Offers z s.heap s.heap.lastFree (needFor size) := by
      rcases hs.malloc_cases size with ⟨hnone, -⟩ | ⟨-, h', p, heq', -⟩
      · exact hnone
      · rw [heq'] at heq
        have := (Prod.mk.inj (Option.some.inj heq)).2
        omega
    have hbehind : ∀ r ∈ s.heap.runs z, s.heap.lastFree ≤ r.1 →
        r.2 - r.1 - memBlockSize < align4 size + memBlockSize := by
      intro r hr hlast
      refine lt_of_lt_of_le (Nat.not_le.mp fun hneed => ?_) hle
      exact hnone (hs.heap.offers_iff.mpr ⟨r, hr, hlast, hneed⟩)
    rcases hcond with ⟨r', hr', hlast, hneed⟩ | hfront
    · exact absurd hneed (Nat.not_le.mpr (hbehind r' hr' hlast))
    · by_cases hlast : s.heap.lastFree ≤ r.1
      · exact hbehind r hr hlast
      · exact hfront r hr (Nat.not_le.mp hlast)

/-- A request that no hole is large enough for is refused. -/
theorem refusal_honest_small : ∃ s, Transition.run HeapUse.step (HeapUse.start smallZone fun _ => 0)
      [.malloc 16, .malloc 0, .free 24, .malloc 24] = some s
    ∧ (ucxMalloc s.heap 32).map Prod.snd = some 0 ∧ HonestRefusal smallZone s.heap 32 := by
  have hrun : (Transition.run HeapUse.step (HeapUse.start smallZone fun _ => 0)
      [.malloc 16, .malloc 0, .free 24, .malloc 24]).map (fun s =>
        ((ucxMalloc s.heap 32).map Prod.snd, s.heap.runs smallZone)) = some (some 0, [(16, 40), (80, 88)]) := by
    decide +kernel
  obtain ⟨s, hs, heq⟩ := Option.map_eq_some_iff.mp hrun
  obtain ⟨hnull, hruns⟩ := Prod.mk.inj heq
  have hguarded := (Transition.GuardedRun.of_run (P := HeapCall.Fits) hs (by simp [HeapCall.Fits])).mono
    fun s call hok => hok.unwrapped smallZone s
  refine ⟨s, hs, hnull, (refusal_honest_iff smallZone (fun _ => 0) _ s hguarded 32).mpr (Or.inr ?_)⟩
  rw [hruns]
  exact fun r hr _ => (by decide : ∀ r ∈ [(16, 40), (80, 88)], r.2 - r.1 - memBlockSize < align4 32 + memBlockSize) r hr

/-- The hole left by the first allocation is missed once a later one stands behind it. -/
theorem hole_in_front_missed : ¬ ∀ (z : Zone) (mem : Area) (calls : List HeapCall) (s : HeapUse),
    Transition.GuardedRun HeapUse.step (fun s call => call.Unwrapped z s) (HeapUse.start z mem) calls s →
    ∀ size, HonestRefusal z s.heap size := by
  intro hall
  have hrun : (Transition.run HeapUse.step (HeapUse.start smallZone fun _ => 0)
      [.malloc 16, .malloc 0, .free 24, .malloc 24]).map (fun s =>
        ((ucxMalloc s.heap 8).map Prod.snd, s.heap.runs smallZone)) = some (some 0, [(16, 40), (80, 88)]) := by
    decide +kernel
  obtain ⟨s, hs, heq⟩ := Option.map_eq_some_iff.mp hrun
  obtain ⟨hnull, hruns⟩ := Prod.mk.inj heq
  obtain ⟨⟨h', ptr⟩, hout, rfl⟩ := Option.map_eq_some_iff.mp hnull
  have hguarded := (Transition.GuardedRun.of_run (P := HeapCall.Fits) hs (by simp [HeapCall.Fits])).mono
    fun s call hok => hok.unwrapped smallZone s
  have hhonest := hall smallZone (fun _ => 0) _ s hguarded 8 ⟨h', hout⟩ (16, 40) (by rw [hruns]; simp)
  exact absurd hhonest (by decide)

end UcxArinc
