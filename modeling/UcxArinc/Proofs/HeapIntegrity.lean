import UcxArinc.Library.LinkedPath
import UcxArinc.Library.Transition
import UcxArinc.Proofs.HeapMemory

set_option autoImplicit false

/-! # The chain of blocks

The blocks of a heap form a chain from the start of its zone to the last header, the sentinel. The block in
front of the sentinel is always free: `ucx_malloc` splits the block it takes and leaves a free one behind
it. So the search, which skips used blocks without looking for the end of the chain, never steps onto the
sentinel as if it were a block. -/

namespace UcxArinc

/-- The memory given to the heap: its bounds are 4-byte aligned, it holds the headers of the first and of
    the last block, and it lies in the address space. `ucx_heap_init` places the last header before it rounds `len`,
    so that one would not be aligned if `len` were no multiple of 4. -/
structure Zone where
  start : Nat
  len : Nat
  start_aligned : start % 4 = 0
  len_aligned : len % 4 = 0
  holds : 16 ≤ len
  fits : start + len ≤ 2 ^ 32

/-- The last header. -/
def Zone.sentinel (z : Zone) : Nat := z.start + z.len - 8

/-- The chain of the blocks `bs`. -/
structure Chained (z : Zone) (mem : Area) (bs : List Nat) : Prop where
  path : LinkedPath mem.next z.start bs z.sentinel
  room : ∀ b ∈ bs, b + 8 ≤ mem.next b
  aligned : ∀ b ∈ bs, b % 4 = 0
  usedSize : ∀ b ∈ bs, mem.used b = true → mem.size b = mem.next b - b - 8 + 1
  endNext : mem.next z.sentinel = 0
  endSize : mem.size z.sentinel = 0
  lastFree : ∃ init l, bs = init ++ [l] ∧ mem.used l = false

variable {z : Zone} {mem mem' mem'' : Area} {bs bs' bs'' : List Nat} {b c q e n : Nat}

theorem Zone.sentinel_aligned (z : Zone) : z.sentinel % 4 = 0 := by
  have h₁ := z.start_aligned
  have h₂ := z.len_aligned
  have h₃ := z.holds
  unfold Zone.sentinel
  omega

theorem Zone.sentinel_lt (z : Zone) : z.sentinel + 8 ≤ 2 ^ 32 := by
  have h₁ := z.holds
  have h₂ := z.fits
  unfold Zone.sentinel
  omega

namespace Chained

theorem le_next (h : Chained z mem bs) : ∀ b ∈ bs, b ≤ mem.next b :=
  fun b hb => (Nat.le_add_right b 8).trans (h.room b hb)

/-- A block lies in the zone, in front of the sentinel. -/
theorem bounds (h : Chained z mem bs) (hb : b ∈ bs) : z.start ≤ b ∧ mem.next b ≤ z.sentinel :=
  (h.path.between h.le_next).2 b hb

theorem ne_nil (h : Chained z mem bs) : bs ≠ [] := by
  obtain ⟨init, l, rfl, -⟩ := h.lastFree
  simp

theorem start_mem (h : Chained z mem bs) : z.start ∈ bs := by
  cases bs with
  | nil => exact absurd rfl h.ne_nil
  | cons b bs =>
      rw [h.path.1]
      exact List.mem_cons_self

/-- A block ends before every later block. -/
theorem ordered (h : Chained z mem bs) : bs.Pairwise fun b c => mem.next b ≤ c := h.path.pairwise h.le_next

/-- Fewer blocks than turns. -/
theorem length_lt (h : Chained z mem bs) : bs.length < maxTurns := by
  have hlen := h.path.length_mul_le h.room
  have hend := z.sentinel_lt
  unfold maxTurns
  omega

/-- Where the headers of the blocks stay, so does the chain. -/
theorem congr (h : Chained z mem bs) (hsame : ∀ b ∈ bs, SameBytes mem mem' b 8)
    (hend : SameBytes mem mem' z.sentinel 8) : Chained z mem' bs where
  path := h.path.congr fun b hb => next_congr (hsame b hb)
  room b hb := by rw [next_congr (hsame b hb)]; exact h.room b hb
  aligned := h.aligned
  usedSize b hb hused := by
    rw [used_congr (hsame b hb)] at hused
    rw [size_congr (hsame b hb), next_congr (hsame b hb)]
    exact h.usedSize b hb hused
  endNext := by rw [next_congr hend]; exact h.endNext
  endSize := by rw [size_congr hend]; exact h.endSize
  lastFree := by
    obtain ⟨init, l, rfl, hl⟩ := h.lastFree
    exact ⟨init, l, rfl, by rw [used_congr (hsame l (by simp))]; exact hl⟩

end Chained

/-! ## Coalescing -/

/-- A chain some of whose free blocks have become one: the used blocks and their bytes have stayed. -/
structure Merged (z : Zone) (mem : Area) (bs : List Nat) (mem' : Area) (bs' : List Nat) : Prop where
  chained : Chained z mem' bs'
  used : ∀ b ∈ bs, mem.used b = true → b ∈ bs'
  sub : ∀ b ∈ bs', b ∈ bs ∧ mem'.used b = mem.used b
  block : ∀ b ∈ bs, mem.used b = true →
    mem'.next b = mem.next b ∧ SameBytes mem mem' b (mem.next b - b)

namespace Merged

theorem refl (h : Chained z mem bs) : Merged z mem bs mem bs where
  chained := h
  used _ hb _ := hb
  sub _ hb := ⟨hb, rfl⟩
  block _ _ _ := ⟨rfl, fun _ _ _ => rfl⟩

theorem trans (h : Merged z mem bs mem' bs') (h' : Merged z mem' bs' mem'' bs'') :
    Merged z mem bs mem'' bs'' where
  chained := h'.chained
  used b hb hused := by
    have hmem := h.used b hb hused
    exact h'.used b hmem ((h.sub b hmem).2.trans hused)
  sub b hb := by
    obtain ⟨hmem, hused⟩ := h'.sub b hb
    exact ⟨(h.sub b hmem).1, hused.trans (h.sub b hmem).2⟩
  block b hb hused := by
    have hmem := h.used b hb hused
    obtain ⟨hnext, hsame⟩ := h.block b hb hused
    obtain ⟨hnext', hsame'⟩ := h'.block b hmem ((h.sub b hmem).2.trans hused)
    rw [hnext] at hnext' hsame'
    exact ⟨hnext', hsame.trans hsame'⟩

end Merged

/-- The parts of a chain around a run of blocks from `q` on, which ends at `e`. -/
theorem Chained.parts {pre fr tl : List Nat} (h : Chained z mem (pre ++ q :: (fr ++ tl))) :
    LinkedPath mem.next z.start pre q ∧ LinkedPath mem.next q (q :: fr) (tl.headD z.sentinel)
      ∧ LinkedPath mem.next (tl.headD z.sentinel) tl z.sentinel := by
  obtain ⟨m, hpre, hrest⟩ := h.path.split
  obtain rfl : m = q := hrest.1
  rw [← List.cons_append] at hrest
  obtain ⟨e, hrun, htl⟩ := hrest.split
  obtain rfl := htl.head_eq
  exact ⟨hpre, hrun, htl⟩

/-- A block's successor stands behind it in the list. -/
theorem Chained.next_eq {pre tl : List Nat} (h : Chained z mem (pre ++ q :: tl)) :
    mem.next q = tl.headD z.sentinel := by
  obtain ⟨m, -, hrest⟩ := h.path.split
  exact hrest.2.head_eq

/-- What a run of free blocks at the end of a list of blocks leaves last is free. -/
theorem lastFree_suffix {pre fr tl : List Nat}
    (h : ∃ init l, pre ++ q :: (fr ++ tl) = init ++ [l] ∧ mem.used l = false)
    (hq : mem'.used q = false) (hsame : ∀ b ∈ tl, mem'.used b = mem.used b) :
    ∃ init l, pre ++ q :: tl = init ++ [l] ∧ mem'.used l = false := by
  obtain ⟨init, l, heq, hl⟩ := h
  rcases List.eq_nil_or_concat tl with rfl | ⟨t, l', rfl⟩
  · exact ⟨pre, q, rfl, hq⟩
  · have heq' : (pre ++ q :: (fr ++ t)) ++ [l'] = init ++ [l] := by simpa using heq
    obtain rfl : l' = l := by simpa using List.append_inj_right' heq' rfl
    exact ⟨pre ++ q :: t, l', by simp, by rw [hsame l' (by simp)]; exact hl⟩

/-- A run of free blocks becomes one block. -/
theorem Merged.coalesce {pre fr tl : List Nat} (h : Chained z mem (pre ++ q :: (fr ++ tl)))
    (hfree : ∀ b ∈ q :: fr, mem.used b = false) :
    Merged z mem (pre ++ q :: (fr ++ tl)) (coalesce mem q (tl.headD z.sentinel)) (pre ++ q :: tl) := by
  obtain ⟨hpre, hrun, htl⟩ := h.parts
  have hmem : ∀ {b}, b ∈ pre ∨ b ∈ q :: fr ∨ b ∈ tl → b ∈ pre ++ q :: (fr ++ tl) := by
    intro b hb
    simp only [List.mem_append, List.mem_cons] at hb ⊢
    tauto
  generalize he : tl.headD z.sentinel = e at hrun htl ⊢
  have hend := z.sentinel_lt
  -- the blocks in front of the run, the run and the blocks behind it, by address
  have hbefore : ∀ b ∈ pre, mem.next b ≤ q := fun b hb =>
    ((hpre.between fun c hc => h.le_next c (hmem (.inl hc))).2 b hb).2
  have hqe : q + 8 ≤ e := (h.room q (hmem (.inr (.inl List.mem_cons_self)))).trans
    ((hrun.between fun c hc => h.le_next c (hmem (.inr (.inl hc)))).2 q List.mem_cons_self).2
  obtain ⟨hez, hbehind⟩ := htl.between fun c hc => h.le_next c (hmem (.inr (.inr hc)))
  obtain ⟨hnext, hsize⟩ := @coalesce_spec mem q e hqe (by omega)
  have hq4 := h.aligned q (hmem (.inr (.inl List.mem_cons_self)))
  have he4 : e % 4 = 0 := by
    rw [← he]
    cases tl with
    | nil => exact z.sentinel_aligned
    | cons b tl => exact h.aligned b (hmem (.inr (.inr List.mem_cons_self)))
  have hqfree : (UcxArinc.coalesce mem q e).used q = false := by
    rw [used_eq_false, hsize]
    omega
  -- the other headers stay
  have hheader : ∀ b, b ∈ pre ∨ b ∈ tl → SameBytes mem (UcxArinc.coalesce mem q e) b 8 := by
    rintro b (hb | hb)
    · have hroom := h.room b (hmem (.inl hb))
      have := hbefore b hb
      exact coalesce_same (by omega)
    · have := (hbehind b hb).1
      exact coalesce_same (by omega)
  have hsub : ∀ b ∈ pre ++ q :: tl, b = q ∨ b ∈ pre ∨ b ∈ tl := by
    intro b hb
    simp only [List.mem_append, List.mem_cons] at hb
    tauto
  have hused : ∀ b ∈ pre ++ q :: (fr ++ tl), mem.used b = true → b ∈ pre ∨ b ∈ tl := by
    intro b hb hused
    by_cases hfr : b ∈ q :: fr
    · rw [hfree b hfr] at hused
      cases hused
    · simp only [List.mem_append, List.mem_cons, not_or] at hb hfr
      tauto
  refine ⟨?_, fun b hb hu => ?_, fun b hb => ?_, fun b hb hu => ?_⟩
  · exact {
      path := (hpre.congr fun b hb => next_congr (hheader b (.inl hb))).append
        ⟨rfl, by dsimp only; rw [hnext]; exact htl.congr fun b hb => next_congr (hheader b (.inr hb))⟩
      room := fun b hb => by
        rcases hsub b hb with rfl | hb
        · rw [hnext]
          exact hqe
        · rw [next_congr (hheader b hb)]
          exact h.room b (hmem (by tauto))
      aligned := fun b hb => by
        rcases hsub b hb with rfl | hb
        · exact hq4
        · exact h.aligned b (hmem (by tauto))
      usedSize := fun b hb hu => by
        rcases hsub b hb with rfl | hb
        · rw [hqfree] at hu
          cases hu
        · rw [used_congr (hheader b hb)] at hu
          rw [size_congr (hheader b hb), next_congr (hheader b hb)]
          exact h.usedSize b (hmem (by tauto)) hu
      endNext := by rw [next_congr (coalesce_same (by omega))]; exact h.endNext
      endSize := by rw [size_congr (coalesce_same (by omega))]; exact h.endSize
      lastFree := lastFree_suffix h.lastFree hqfree fun b hb => used_congr (hheader b (.inr hb)) }
  · have := hused b hb hu
    simp only [List.mem_append, List.mem_cons]
    tauto
  · rcases hsub b hb with rfl | hb
    · exact ⟨hmem (.inr (.inl List.mem_cons_self)), hqfree.trans (hfree b List.mem_cons_self).symm⟩
    · exact ⟨hmem (by tauto), used_congr (hheader b hb)⟩
  · have hb' := hused b hb hu
    refine ⟨next_congr (hheader b hb'), coalesce_same ?_⟩
    rcases hb' with hb' | hb'
    · have := hbefore b hb'
      have := h.room b hb
      omega
    · have := (hbehind b hb').1
      omega

/-! ## Runs of free blocks -/

/-- The maximal runs of adjacent free blocks in a list that ends at `z`, each with its first block and its
    end; `open?` is the first block of the run that reaches up to the list. -/
def freeRuns (mem : Area) (z : Nat) : Option Nat → List Nat → List (Nat × Nat)
  | none, [] => []
  | some q, [] => [(q, z)]
  | none, b :: bs => if mem.used b then freeRuns mem z none bs else freeRuns mem z (some b) bs
  | some q, b :: bs =>
    if mem.used b then (q, b) :: freeRuns mem z none bs else freeRuns mem z (some q) bs

theorem freeRuns_congr {k : Nat} (open? : Option Nat) (h : ∀ b ∈ bs, mem'.used b = mem.used b) :
    freeRuns mem' k open? bs = freeRuns mem k open? bs := by
  induction bs generalizing open? with
  | nil => cases open? <;> rfl
  | cons b bs ih =>
      have hb := h b List.mem_cons_self
      have ih' := fun o => ih o fun c hc => h c (List.mem_cons_of_mem _ hc)
      cases open? with
      | none => simp only [freeRuns, hb, ih']
      | some q => simp only [freeRuns, hb, ih']

/-- Used blocks in front belong to no run. -/
theorem freeRuns_used {k : Nat} {us : List Nat} (h : ∀ b ∈ us, mem.used b = true) (l : List Nat) :
    freeRuns mem k none (us ++ l) = freeRuns mem k none l := by
  induction us with
  | nil => rfl
  | cons u us ih =>
      rw [List.cons_append, freeRuns, if_pos (h u List.mem_cons_self)]
      exact ih fun b hb => h b (List.mem_cons_of_mem _ hb)

/-- Free blocks continue a run. -/
theorem freeRuns_free {k : Nat} {fr : List Nat} (h : ∀ b ∈ fr, mem.used b = false) (l : List Nat) :
    freeRuns mem k (some q) (fr ++ l) = freeRuns mem k (some q) l := by
  induction fr with
  | nil => rfl
  | cons f fr ih =>
      have hf : ¬ mem.used f = true := by
        rw [h f List.mem_cons_self]
        exact Bool.false_ne_true
      rw [List.cons_append, freeRuns, if_neg hf]
      exact ih fun b hb => h b (List.mem_cons_of_mem _ hb)

/-- A used block, or the end, closes a run. -/
theorem freeRuns_close {k : Nat} {tl : List Nat} (h : ∀ b, tl.head? = some b → mem.used b = true) :
    freeRuns mem k (some q) tl = (q, tl.headD k) :: freeRuns mem k none tl := by
  cases tl with
  | nil => rfl
  | cons u tl =>
      have hu := h u rfl
      rw [freeRuns, if_pos hu, freeRuns, if_pos hu]
      rfl

/-- A list whose first run of free blocks is known. -/
structure FirstRun (mem : Area) (us : List Nat) (q : Nat) (fr tl : List Nat) : Prop where
  used : ∀ b ∈ us, mem.used b = true
  free : ∀ b ∈ q :: fr, mem.used b = false
  closed : ∀ b, tl.head? = some b → mem.used b = true

theorem FirstRun.freeRuns_eq {us fr tl : List Nat} (h : FirstRun mem us q fr tl) (k : Nat) :
    freeRuns mem k none (us ++ q :: (fr ++ tl)) = (q, tl.headD k) :: freeRuns mem k none tl := by
  have hq : ¬ mem.used q = true := by
    rw [h.free q List.mem_cons_self]
    exact Bool.false_ne_true
  rw [freeRuns_used h.used, freeRuns, if_neg hq,
    freeRuns_free fun b hb => h.free b (List.mem_cons_of_mem _ hb), freeRuns_close h.closed]

/-- A list of blocks begins with free blocks and goes on with a used one, or is free to its end. -/
theorem exists_free_prefix (mem : Area) (bs : List Nat) : ∃ fr tl, bs = fr ++ tl
    ∧ (∀ b ∈ fr, mem.used b = false) ∧ ∀ b, tl.head? = some b → mem.used b = true := by
  induction bs with
  | nil => exact ⟨[], [], rfl, fun b hb => absurd hb List.not_mem_nil, fun b hb => (nomatch hb)⟩
  | cons b bs ih =>
      by_cases hb : mem.used b = true
      · refine ⟨[], b :: bs, rfl, fun c hc => absurd hc List.not_mem_nil, fun c hc => ?_⟩
        obtain rfl := Option.some.inj hc
        exact hb
      · obtain ⟨fr, tl, rfl, hfr, htl⟩ := ih
        refine ⟨b :: fr, tl, rfl, fun c hc => ?_, htl⟩
        rcases List.mem_cons.mp hc with rfl | hc
        · exact Bool.eq_false_iff.mpr hb
        · exact hfr c hc

/-- A list of blocks whose last one is free has a first run. -/
theorem exists_firstRun (h : ∃ init l, bs = init ++ [l] ∧ mem.used l = false) :
    ∃ us q fr tl, bs = us ++ q :: (fr ++ tl) ∧ FirstRun mem us q fr tl := by
  induction bs with
  | nil =>
      obtain ⟨init, l, heq, -⟩ := h
      simp at heq
  | cons b bs ih =>
      by_cases hb : mem.used b = true
      · have hlast : ∃ init l, bs = init ++ [l] ∧ mem.used l = false := by
          obtain ⟨init, l, heq, hl⟩ := h
          cases init with
          | nil =>
              obtain ⟨rfl, -⟩ := List.cons.inj heq
              rw [hb] at hl
              cases hl
          | cons i init => exact ⟨init, l, (List.cons.inj heq).2, hl⟩
        obtain ⟨us, q, fr, tl, rfl, hrun⟩ := ih hlast
        refine ⟨b :: us, q, fr, tl, rfl, fun c hc => ?_, hrun.free, hrun.closed⟩
        rcases List.mem_cons.mp hc with rfl | hc
        · exact hb
        · exact hrun.used c hc
      · obtain ⟨fr, tl, rfl, hfr, htl⟩ := exists_free_prefix mem bs
        refine ⟨[], b, fr, tl, rfl, fun c hc => absurd hc List.not_mem_nil, fun c hc => ?_, htl⟩
        rcases List.mem_cons.mp hc with rfl | hc
        · exact Bool.eq_false_iff.mpr hb
        · exact hfr c hc

/-! ## The search -/

theorem skipUsed_eq {us : List Nat} {p : Nat} (h : LinkedPath mem.next p us e)
    (hused : ∀ b ∈ us, mem.used b = true) (he : mem.used e = false) (hn : us.length < n) (q : Nat) :
    skipUsed mem n p q = some (e, if us = [] then q else e) := by
  induction us generalizing p q n with
  | nil =>
      obtain rfl := LinkedPath.nil_iff.mp h
      obtain ⟨n, rfl⟩ := Nat.exists_eq_add_one_of_ne_zero (Nat.ne_of_gt hn)
      simp [skipUsed, he]
  | cons b us ih =>
      obtain ⟨rfl, hrest⟩ := h
      obtain ⟨n, rfl⟩ := Nat.exists_eq_add_one_of_ne_zero (Nat.ne_of_gt (Nat.zero_lt_of_lt hn))
      have hlen : us.length < n := by simpa using hn
      rw [skipUsed, if_pos (hused p List.mem_cons_self),
        ih hrest (fun c hc => hused c (List.mem_cons_of_mem _ hc)) hlen]
      cases us with
      | nil => simp [LinkedPath.nil_iff.mp hrest]
      | cons c us => simp

theorem skipFree_eq {fr : List Nat} {p : Nat} (h : LinkedPath mem.next p fr e)
    (hfree : ∀ b ∈ fr, mem.used b = false ∧ mem.next b ≠ 0) (he : mem.used e = true ∨ mem.next e = 0)
    (hn : fr.length < n) : skipFree mem n p = some e := by
  induction fr generalizing p n with
  | nil =>
      obtain rfl := LinkedPath.nil_iff.mp h
      obtain ⟨n, rfl⟩ := Nat.exists_eq_add_one_of_ne_zero (Nat.ne_of_gt hn)
      rw [skipFree, if_neg]
      rintro ⟨hfree, hnext⟩
      rcases he with he | he
      · rw [hfree] at he
        cases he
      · exact hnext he
  | cons b fr ih =>
      obtain ⟨rfl, hrest⟩ := h
      obtain ⟨n, rfl⟩ := Nat.exists_eq_add_one_of_ne_zero (Nat.ne_of_gt (Nat.zero_lt_of_lt hn))
      rw [skipFree, if_pos (hfree p List.mem_cons_self)]
      exact ih hrest (fun c hc => hfree c (List.mem_cons_of_mem _ hc)) (by simpa using hn)

/-- The search has found the block `p`, whose run offers `need` bytes. -/
structure Finds (z : Zone) (mem : Area) (bs rest : List Nat) (need : Nat) (mem' : Area) (p : Nat) : Prop where
  merged : ∃ before behind, Merged z mem bs mem' (before ++ p :: behind)
  free : mem'.used p = false
  run : (p, mem'.next p) ∈ freeRuns mem z.sentinel none rest
  room : need ≤ mem'.next p - p - 8

/-- The search has reached the end: no run offers as much. -/
structure FindsNone (z : Zone) (mem : Area) (bs rest : List Nat) (need : Nat) (mem' : Area) : Prop where
  merged : ∃ bs', Merged z mem bs mem' bs'
  none : ∀ r ∈ freeRuns mem z.sentinel none rest, r.2 - r.1 - 8 < need

theorem last_of_suffix {pre rest : List Nat} (hne : rest ≠ [])
    (h : ∃ init l, pre ++ rest = init ++ [l] ∧ mem.used l = false) :
    ∃ init l, rest = init ++ [l] ∧ mem.used l = false := by
  obtain ⟨init, l, heq, hl⟩ := h
  rcases List.eq_nil_or_concat rest with rfl | ⟨t, l', rfl⟩
  · exact absurd rfl hne
  · have heq' : (pre ++ t) ++ [l'] = init ++ [l] := by simpa using heq
    obtain rfl : l' = l := by simpa using List.append_inj_right' heq' rfl
    exact ⟨t, l', by simp, hl⟩

/-- One turn of the outer loop: it makes the first run one block, and takes it or goes on behind it. -/
theorem searchBlock_turn {size p q₀ : Nat} {pre us fr tl : List Nat}
    (h : Chained z mem (pre ++ (us ++ q :: (fr ++ tl)))) (hrun : FirstRun mem us q fr tl)
    (hp : p = (us ++ q :: (fr ++ tl)).headD z.sentinel) (hq : us = [] → q₀ = q) (n : Nat) :
    searchBlock size (n + 1) mem p q₀ =
      if u32 (size + memBlockSize) ≤ tl.headD z.sentinel - q - 8 then
        some (coalesce mem q (tl.headD z.sentinel), q)
      else searchBlock size n (coalesce mem q (tl.headD z.sentinel)) (tl.headD z.sentinel) q := by
  have hmem : ∀ {b}, b ∈ us ∨ b ∈ q :: fr ∨ b ∈ tl → b ∈ pre ++ (us ++ q :: (fr ++ tl)) := by
    intro b hb
    simp only [List.mem_append, List.mem_cons] at hb ⊢
    tauto
  have hnext : ∀ b, b ∈ us ∨ b ∈ q :: fr ∨ b ∈ tl → mem.next b ≠ 0 := fun b hb => by
    have := h.room b (hmem hb)
    omega
  have hlen := h.length_lt
  simp only [List.length_append, List.length_cons] at hlen
  -- the path from `p` on, in three parts
  obtain ⟨m, -, hrest⟩ := h.path.split
  obtain rfl : m = p := hrest.head_eq.trans hp.symm
  obtain ⟨m', hus, hqs⟩ := hrest.split
  obtain rfl : m' = q := hqs.1
  rw [← List.cons_append] at hqs
  obtain ⟨e, hqe, htl⟩ := hqs.split
  obtain rfl := htl.head_eq
  have hle : m' + 8 ≤ tl.headD z.sentinel := (h.room m' (hmem (.inr (.inl List.mem_cons_self)))).trans
    ((hqe.between fun c hc => h.le_next c (hmem (.inr (.inl hc)))).2 m' List.mem_cons_self).2
  have hend : tl.headD z.sentinel ≤ z.sentinel :=
    (htl.between fun c hc => h.le_next c (hmem (.inr (.inr hc)))).1
  have hsentinel := z.sentinel_lt
  -- the loop is entered, at a block
  have henter : ¬ mem.next m = 0 := by
    rw [hp]
    cases us with
    | nil => exact hnext m' (.inr (.inl List.mem_cons_self))
    | cons u us => exact hnext u (.inl List.mem_cons_self)
  have hskip : skipUsed mem maxTurns m q₀ = some (m', m') := by
    rw [skipUsed_eq hus hrun.used (hrun.free m' List.mem_cons_self) (by omega)]
    by_cases hnil : us = []
    · rw [if_pos hnil, hq hnil]
    · rw [if_neg hnil]
  have hfree : skipFree mem maxTurns m' = some (tl.headD z.sentinel) := by
    refine skipFree_eq hqe (fun b hb => ⟨hrun.free b hb, hnext b (.inr (.inl hb))⟩) ?_
      (by rw [List.length_cons]; omega)
    cases tl with
    | nil => exact Or.inr h.endNext
    | cons u tl => exact Or.inl (hrun.closed u rfl)
  have hne : tl.headD z.sentinel ≠ 0 := by omega
  rw [searchBlock, if_neg henter, hskip]
  dsimp only
  rw [hfree]
  dsimp only
  rw [if_pos hne, (coalesce_spec hle (by omega)).2]

/-- The search stops. Either it finds the first run that offers enough, or none does. -/
theorem searchBlock_spec (size : Nat) {rest pre : List Nat} {p q₀ : Nat}
    (hn : rest.length < n) (h : Chained z mem (pre ++ rest)) (hp : p = rest.headD z.sentinel)
    (hq : ∀ b, rest.head? = some b → mem.used b = false → q₀ = b) :
    (∃ mem' p', searchBlock size n mem p q₀ = some (mem', p')
      ∧ Finds z mem (pre ++ rest) rest (u32 (size + memBlockSize)) mem' p')
    ∨ ∃ mem', searchBlock size n mem p q₀ = some (mem', z.sentinel)
      ∧ FindsNone z mem (pre ++ rest) rest (u32 (size + memBlockSize)) mem' := by
  induction n generalizing rest pre mem p q₀ with
  | zero => exact absurd hn (Nat.not_lt_zero _)
  | succ n ih =>
      by_cases hne : rest = []
      · subst hne
        refine Or.inr ⟨mem, ?_, ⟨_, .refl h⟩, fun r hr => absurd hr List.not_mem_nil⟩
        rw [searchBlock, hp]
        exact if_pos h.endNext
      · obtain ⟨us, q, fr, tl, rfl, hrun⟩ := exists_firstRun (last_of_suffix hne h.lastFree)
        have hq' : us = [] → q₀ = q := by
          rintro rfl
          exact hq q rfl (hrun.free q List.mem_cons_self)
        rw [searchBlock_turn h hrun hp hq']
        generalize hneed : u32 (size + memBlockSize) = need at ih ⊢
        rw [← List.append_assoc] at h ⊢
        have hmerged := Merged.coalesce h hrun.free
        generalize he : tl.headD z.sentinel = e at *
        have hruns := hrun.freeRuns_eq z.sentinel
        rw [he] at hruns
        by_cases hfits : need ≤ e - q - 8
        · rw [if_pos hfits]
          have hnext : (coalesce mem q e).next q = e := hmerged.chained.next_eq.trans he
          refine Or.inl ⟨_, q, rfl, ⟨pre ++ us, tl, hmerged⟩, ?_, ?_, ?_⟩
          · rw [(hmerged.sub q (by simp)).2]
            exact hrun.free q List.mem_cons_self
          · rw [hnext, hruns]
            exact List.mem_cons_self
          · rw [hnext]
            exact hfits
        · -- the search goes on behind the run
          rw [if_neg hfits]
          have hchained : Chained z (coalesce mem q e) ((pre ++ us ++ [q]) ++ tl) := by
            simpa using hmerged.chained
          have hused : ∀ b ∈ tl, (coalesce mem q e).used b = mem.used b := fun b hb =>
            (hmerged.sub b (by simp [hb])).2
          have hclosed : ∀ b, tl.head? = some b → (coalesce mem q e).used b = false → q = b := by
            intro b hb hfree
            rw [hused b (List.mem_of_head? hb), hrun.closed b hb] at hfree
            cases hfree
          have hlen : tl.length < n := by
            simp only [List.length_append, List.length_cons] at hn
            omega
          have hbehind := freeRuns_congr (k := z.sentinel) none hused
          have hlist : pre ++ us ++ [q] ++ tl = pre ++ us ++ q :: tl := by simp
          rcases ih hlen hchained he.symm hclosed with ⟨mem', p', heq, hfinds⟩ | ⟨mem', heq, hnone⟩
          · refine Or.inl ⟨mem', p', heq, ?_, hfinds.free, ?_, hfinds.room⟩
            · obtain ⟨before, behind, hmerged'⟩ := hfinds.merged
              rw [hlist] at hmerged'
              exact ⟨before, behind, hmerged.trans hmerged'⟩
            · rw [hruns, ← hbehind]
              exact List.mem_cons_of_mem _ hfinds.run
          · refine Or.inr ⟨mem', heq, ?_, fun r hr => ?_⟩
            · obtain ⟨bs', hmerged'⟩ := hnone.merged
              rw [hlist] at hmerged'
              exact ⟨bs', hmerged.trans hmerged'⟩
            · rw [hruns, ← hbehind] at hr
              rcases List.mem_cons.mp hr with rfl | hr
              · exact not_le.mp hfits
              · exact hnone.none r hr

end UcxArinc
