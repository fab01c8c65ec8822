import UcxArinc.Proofs.WindowSchedule

set_option autoImplicit false

/-! # The module schedule recovers

After missed ticks `windows_idx` and `major_frame_count` need not fit each other. Each call brings the
scheduler one frame or at most one window further; the call that reaches the end of a frame exactly
puts both right, and from then on the scheduler is in step. -/

namespace UcxArinc

namespace Kcb

variable {s s' : Kcb} {t uptime : Nat}

/-- The next call comes at tick `t`, and the scheduler may be behind it by any number of frames and at
    any window. -/
structure Lagging (s : Kcb) (t : Nat) : Prop where
  wellFormed : WellFormedPlan s.moduleScheduler
  exist : s.PartitionsExist
  two_le_frame : 2 ≤ s.moduleScheduler.majorFrameTick
  idx_lt : s.moduleScheduler.windowsIdx < s.moduleScheduler.windowsPartition.length
  started : s.moduleScheduler.majorFrameCount * s.moduleScheduler.majorFrameTick ≤ t

/-- How far tick `t` is behind the start of the counted frame. -/
def lag (s : Kcb) (t : Nat) : Nat :=
  t - s.moduleScheduler.majorFrameCount * s.moduleScheduler.majorFrameTick

/-! ## One call -/

/-- An idle request takes the current partition away. -/
theorem serveIdleRequest_moved (s : Kcb) : ∃ current, s.serveIdleRequest = some
    (s.moved current s.moduleScheduler.majorFrameCount s.moduleScheduler.windowsIdx) := by
  by_cases hflag : s.moduleScheduler.idleCurrentPartition = true
  · refine ⟨none, ?_⟩
    rw [serveIdleRequest, if_pos hflag, krnlPartitionSwitch_idle]
    rfl
  · refine ⟨s.partitionCurrent, ?_⟩
    have hfalse : s.moduleScheduler.idleCurrentPartition = false := by simpa using hflag
    rw [serveIdleRequest, if_neg hflag, moved, ← hfalse]

/-- A call takes a scheduler that lags by a frame or more to the first window of the next frame, and
    leaves one that lags less in its frame. -/
theorem Lagging.partitionScheduler_eq (h : Lagging s t) (hoverflow : uptime * s.fTimer < 2 ^ 32)
    (ht : t = tickAt s.fTimer uptime) :
    ∃ current frames idx r, s.partitionScheduler uptime = some (s.moved current frames idx, r)
      ∧ ((s.moduleScheduler.majorFrameTick ≤ s.lag t ∧ frames = s.moduleScheduler.majorFrameCount + 1
          ∧ idx = 0 ∧ current = s.dispatched (s.moduleScheduler.windowsPartition.get
            ⟨0, h.wellFormed.zero_lt_length⟩).id)
        ∨ (s.lag t < s.moduleScheduler.majorFrameTick ∧ frames = s.moduleScheduler.majorFrameCount
          ∧ idx < s.moduleScheduler.windowsPartition.length)) := by
  have hidx := h.idx_lt
  have hlt : t < 2 ^ 32 := by
    unfold tickAt at ht
    omega
  have hposition : s.positionInFrame t = s.lag t := u32Sub_of_le h.started hlt
  obtain ⟨served, hserved⟩ := s.serveIdleRequest_moved
  unfold tickAt at ht
  rw [partitionScheduler]
  simp only [msToTicks_eq hoverflow, ← ht, hposition, hserved, List.getElem?_eq_getElem hidx]
  by_cases hwrap : s.moduleScheduler.majorFrameTick ≤ s.lag t
  · have hfirst := h.wellFormed.zero_lt_length
    have hcount : u32 (s.moduleScheduler.majorFrameCount + 1)
        = s.moduleScheduler.majorFrameCount + 1 := by
      refine u32_of_lt (lt_of_le_of_lt ?_ hlt)
      have hmul := Nat.le_mul_of_pos_right (s.moduleScheduler.majorFrameCount + 1)
        (show 0 < s.moduleScheduler.majorFrameTick by have := h.two_le_frame; omega)
      have hsucc : (s.moduleScheduler.majorFrameCount + 1) * s.moduleScheduler.majorFrameTick
        = s.moduleScheduler.majorFrameCount * s.moduleScheduler.majorFrameTick
          + s.moduleScheduler.majorFrameTick := Nat.succ_mul _ _
      have hstarted := h.started
      unfold lag at hwrap
      omega
    obtain ⟨r, hr⟩ := krnlPartitionSwitch_of_window h.exist (List.getElem_mem hfirst) served
      (s.moduleScheduler.majorFrameCount + 1) 0
    refine ⟨_, _, _, r, ?_, Or.inl ⟨hwrap, rfl, rfl, rfl⟩⟩
    rw [if_pos hwrap, List.getElem?_eq_getElem hfirst, hcount]
    exact hr
  · rw [if_neg hwrap]
    split_ifs
    · rw [krnlPartitionSwitch_idle]
      exact ⟨none, _, _, _, rfl, Or.inr ⟨not_le.mp hwrap, rfl, hidx⟩⟩
    · next hlast =>
        have hsucc : s.moduleScheduler.windowsIdx + 1
            < s.moduleScheduler.windowsPartition.length := by omega
        rw [List.getElem?_eq_getElem hsucc]
        dsimp only
        split_ifs
        · rw [krnlPartitionSwitch_idle]
          exact ⟨none, _, _, _, rfl, Or.inr ⟨not_le.mp hwrap, rfl, hidx⟩⟩
        · obtain ⟨r, hr⟩ := krnlPartitionSwitch_of_window h.exist (List.getElem_mem hsucc) served
            s.moduleScheduler.majorFrameCount (s.moduleScheduler.windowsIdx + 1)
          exact ⟨_, _, _, _, congrArg (Option.map _) hr, Or.inr ⟨not_le.mp hwrap, rfl, hsucc⟩⟩
    all_goals exact ⟨served, _, _, _, rfl, Or.inr ⟨not_le.mp hwrap, rfl, hidx⟩⟩

/-- The step lemma: after a call the scheduler is in step, or still lags with fewer calls to go. -/
theorem Lagging.schedule (h : Lagging s t) (hoverflow : uptime * s.fTimer < 2 ^ 32)
    (ht : t = tickAt s.fTimer uptime) :
    ∃ s' r, s.partitionScheduler uptime = some (s', r) ∧ SameConf s s'
      ∧ ((Synced s' t ∧ s'.partitionCurrent = s'.plannedPartition t)
        ∨ (Lagging s' (t + 1)
          ∧ CyclicPlan.callsLeft s.moduleScheduler.majorFrameTick (s'.lag (t + 1))
            < CyclicPlan.callsLeft s.moduleScheduler.majorFrameTick (s.lag t))) := by
  obtain ⟨current, frames, idx, r, heq, hcases⟩ := h.partitionScheduler_eq hoverflow ht
  have hconf := s.moved_sameConf current frames idx
  have hwf := hconf.wellFormed h.wellFormed
  have hexist : (s.moved current frames idx).PartitionsExist := hconf.exist rfl h.exist
  have hstarted := h.started
  refine ⟨_, r, heq, hconf, ?_⟩
  rcases hcases with ⟨hwrap, rfl, rfl, rfl⟩ | ⟨hin, rfl, hidx⟩
  · have hsucc : (s.moduleScheduler.majorFrameCount + 1) * s.moduleScheduler.majorFrameTick
        = s.moduleScheduler.majorFrameCount * s.moduleScheduler.majorFrameTick
          + s.moduleScheduler.majorFrameTick := Nat.succ_mul _ _
    rcases Nat.eq_or_lt_of_le hwrap with hexact | hlate
    · -- the call comes exactly at the end of the frame
      left
      have hzero : t = (s.moduleScheduler.majorFrameCount + 1) * s.moduleScheduler.majorFrameTick := by
        unfold lag at hexact
        omega
      have hfirst := h.wellFormed.zero_lt_length
      have hstop : 0 < (plan s.moduleScheduler h.wellFormed).firstSlot.stop := by
        have := (plan s.moduleScheduler h.wellFormed).start_lt_stop
          (plan s.moduleScheduler h.wellFormed).firstSlot_mem
        omega
      have hc0 := CyclicPlan.Cursor.first hstop
      have hc : (plan s.moduleScheduler h.wellFormed).Cursor t (s.moduleScheduler.majorFrameCount + 1) 0 0 :=
        ⟨hzero, hc0.pos_lt, hc0.idx_lt, hc0.start_le, hc0.lt_next⟩
      have hmod : t % s.moduleScheduler.majorFrameTick = 0 := hc.mod_eq
      have hplanned : s.plannedPartition t
          = s.dispatched (s.moduleScheduler.windowsPartition.get ⟨0, hfirst⟩).id := by
        refine plannedPartition_in_window h.wellFormed hc hfirst ?_
        have := h.wellFormed.positive _ (List.getElem_mem hfirst)
        omega
      rw [← hplanned]
      refine ⟨.of_moved h.wellFormed h.exist (by rw [hmod]; exact hc), ?_⟩
      exact (plannedPartition_congr (s.moved_sameConf _ _ _) rfl t).symm
    · right
      refine ⟨⟨hwf, hexist, h.two_le_frame, h.wellFormed.zero_lt_length, ?_⟩, ?_⟩
      · show (s.moduleScheduler.majorFrameCount + 1) * s.moduleScheduler.majorFrameTick ≤ t + 1
        unfold lag at hlate
        omega
      · have hnext : (s.moved (s.dispatched (s.moduleScheduler.windowsPartition.get
            ⟨0, h.wellFormed.zero_lt_length⟩).id) (s.moduleScheduler.majorFrameCount + 1) 0).lag (t + 1)
            = s.lag t + 1 - s.moduleScheduler.majorFrameTick := by
          show t + 1 - (s.moduleScheduler.majorFrameCount + 1) * s.moduleScheduler.majorFrameTick = _
          unfold lag at hlate ⊢
          omega
        rw [hnext]
        exact CyclicPlan.callsLeft_wrap h.two_le_frame hlate
  · right
    refine ⟨⟨hwf, hexist, h.two_le_frame, hidx, ?_⟩, ?_⟩
    · show s.moduleScheduler.majorFrameCount * s.moduleScheduler.majorFrameTick ≤ t + 1
      omega
    · have hnext : (s.moved current s.moduleScheduler.majorFrameCount idx).lag (t + 1) = s.lag t + 1 := by
        show t + 1 - s.moduleScheduler.majorFrameCount * s.moduleScheduler.majorFrameTick = _
        unfold lag
        omega
      rw [hnext]
      exact CyclicPlan.callsLeft_succ hin

/-! ## Runs -/

/-- Before the call at tick `t` the scheduler is in step, or will be after at most `n` calls. -/
def Recovering (s : Kcb) (t n : Nat) : Prop :=
  (∃ t₀, Synced s t₀ ∧ t₀ ≤ t ∧ t ≤ t₀ + 1)
    ∨ (Lagging s t ∧ CyclicPlan.callsLeft s.moduleScheduler.majorFrameTick (s.lag t) ≤ n)

/-- A call every tick: the first one at tick `t`. -/
structure CallsEveryTick (fTimer : Nat) (t : Nat) (uptimes : List Nat) : Prop where
  first : ∀ u ∈ uptimes.head?, tickAt fTimer u = t
  perTick : (uptimes.map (tickAt fTimer)).IsChain fun t t' => t' = t + 1

theorem CallsEveryTick.tail {fTimer u : Nat} {uptimes : List Nat}
    (h : CallsEveryTick fTimer t (u :: uptimes)) :
    tickAt fTimer u = t ∧ CallsEveryTick fTimer (t + 1) uptimes := by
  have hfirst := h.first u rfl
  have hchain := h.perTick
  rw [List.map_cons, List.isChain_cons] at hchain
  refine ⟨hfirst, fun u' hu' => ?_, hchain.2⟩
  rw [← hfirst]
  refine hchain.1 _ ?_
  rw [List.head?_map, Option.mem_def.mp hu']
  rfl

/-- The step lemma of a call: it succeeds, and one call fewer is left. -/
theorem Recovering.schedule {n : Nat} (h : Recovering s t n) (hoverflow : uptime * s.fTimer < 2 ^ 32)
    (ht : t = tickAt s.fTimer uptime) :
    ∃ s' r, s.partitionScheduler uptime = some (s', r) ∧ SameConf s s'
      ∧ Recovering s' (t + 1) (n - 1) ∧ (n ≤ 1 → s'.partitionCurrent = s'.plannedPartition t) := by
  rcases h with ⟨t₀, hsync, hle, hgap⟩ | ⟨hlagging, hleft⟩
  · have hshort : ∀ w ∈ s.moduleScheduler.windowsPartition, t ≤ t₀ + w.durationTick := by
      intro w hw
      have := hsync.wellFormed.positive w hw
      omega
    obtain ⟨s', r, heq, hconf, hsync', hcurrent⟩ := hsync.schedule hoverflow ht hle hshort
    exact ⟨s', r, heq, hconf, Or.inl ⟨t, hsync', by omega, le_refl _⟩, fun _ => hcurrent⟩
  · obtain ⟨s', r, heq, hconf, ⟨hsync', hcurrent⟩ | ⟨hlagging', hless⟩⟩ := hlagging.schedule hoverflow ht
    · exact ⟨s', r, heq, hconf, Or.inl ⟨t, hsync', by omega, le_refl _⟩, fun _ => hcurrent⟩
    · refine ⟨s', r, heq, hconf, Or.inr ⟨hlagging', ?_⟩, fun hn => ?_⟩
      · rw [hconf.frame]
        omega
      · -- the last call would have been the one that puts the scheduler in step
        have := CyclicPlan.callsLeft_pos s.moduleScheduler.majorFrameTick (s'.lag (t + 1))
        omega

/-- Mode changes leave the cursor alone. -/
theorem Recovering.setPartitionMode {n : Nat} {operatingMode : OperatingMode} (h : Recovering s t n)
    (hstep : s.setPartitionMode operatingMode = some s') : Recovering s' t n ∧ SameConf s s' := by
  rcases h with ⟨t₀, hsync, hle, hgap⟩ | ⟨hlagging, hleft⟩
  · obtain ⟨hsync', hconf⟩ := hsync.setPartitionMode hstep
    exact ⟨Or.inl ⟨t₀, hsync', hle, hgap⟩, hconf⟩
  · have key : ∀ s' : Kcb, SameConf s s' →
        (∀ p ∈ s.partitions, ∃ p' ∈ s'.partitions, p'.identifier = p.identifier) →
        s'.moduleScheduler.windowsIdx = s.moduleScheduler.windowsIdx →
        s'.moduleScheduler.majorFrameCount = s.moduleScheduler.majorFrameCount →
        Recovering s' t n ∧ SameConf s s' := by
      intro s' hconf hparts hidx hcount
      refine ⟨Or.inr ⟨⟨hconf.wellFormed hlagging.wellFormed, fun w hw => ?_, ?_, ?_, ?_⟩, ?_⟩, hconf⟩
      · obtain ⟨hne, p, hp, hid⟩ := hlagging.exist w (hconf.windows ▸ hw)
        obtain ⟨p', hp', hid'⟩ := hparts p hp
        exact ⟨hne, p', hp', hid'.trans hid⟩
      · rw [hconf.frame]
        exact hlagging.two_le_frame
      · rw [hidx, hconf.windows]
        exact hlagging.idx_lt
      · rw [hcount, hconf.frame]
        exact hlagging.started
      · unfold lag at hleft ⊢
        rw [hcount, hconf.frame]
        exact hleft
    have hsame : Recovering s t n ∧ SameConf s s := ⟨Or.inr ⟨hlagging, hleft⟩, rfl, rfl, rfl⟩
    rw [Kcb.setPartitionMode] at hstep
    split at hstep
    · cases hstep
    · next p hp =>
        split_ifs at hstep
        · cases hstep
          exact hsame
        · cases hstep
          exact hsame
        all_goals
          cases hstep
          refine key _ ⟨rfl, rfl, rfl⟩ (fun q hq => ⟨_, List.mem_map_of_mem hq, ?_⟩) rfl rfl
          split <;> rfl

/-- The run lemma: each call of the run succeeds and leaves one call fewer. -/
theorem Recovering.run {n u : Nat} {es : List Action} (h : Recovering s t n)
    (hrun : Transition.run step s es = some s')
    (hcalls : CallsEveryTick s.fTimer t (callUptimes es ++ [u]))
    (hover : NoOverflow s (callUptimes es)) :
    Recovering s' (tickAt s.fTimer u) (n - (callUptimes es).length) ∧ SameConf s s' := by
  induction es generalizing s t n with
  | nil =>
      cases hrun
      rw [hcalls.first u rfl]
      exact ⟨h, rfl, rfl, rfl⟩
  | cons e es ih =>
      rw [Transition.run_cons] at hrun
      obtain ⟨s₁, hstep, hrest⟩ := Option.bind_eq_some_iff.mp hrun
      cases e with
      | schedule v =>
          obtain ⟨hv, hcalls⟩ := hcalls.tail
          obtain ⟨s₂, r, heq, hconf, hnext, -⟩ := h.schedule (hover v List.mem_cons_self) hv.symm
          obtain rfl : s₂ = s₁ := by simpa [step, heq] using hstep
          have hover' : NoOverflow s₂ (callUptimes es) := by
            intro u' hu'
            rw [hconf.fTimer]
            exact hover u' (List.mem_cons_of_mem _ hu')
          rw [← hconf.fTimer] at hcalls
          obtain ⟨hlast, hconf'⟩ := ih hnext hrest hcalls hover'
          refine ⟨?_, hconf.trans hconf'⟩
          rw [callUptimes, List.length_cons, ← hconf.fTimer, Nat.add_comm, Nat.sub_add_eq]
          exact hlast
      | setPartitionMode operatingMode =>
          obtain ⟨hnext, hconf⟩ := h.setPartitionMode hstep
          have hcalls' : CallsEveryTick s₁.fTimer t (callUptimes es ++ [u]) := by
            rw [hconf.fTimer]
            exact hcalls
          have hover' : NoOverflow s₁ (callUptimes es) := by
            unfold NoOverflow
            rw [hconf.fTimer]
            exact hover
          obtain ⟨hlast, hconf'⟩ := ih hnext hrest hcalls' hover'
          refine ⟨?_, hconf.trans hconf'⟩
          rw [← hconf.fTimer]
          exact hlast

/-- The module schedule recovers: from any window and any number of frames behind, every call of one call
    per tick succeeds, and from call number `lag + 2 * frame` on each leaves current exactly the partition
    the plan assigns to its tick, however the running partitions change their modes in between. -/
theorem partitionScheduler_recovers (s s' : Kcb) (t u : Nat) (es : List Action) (h : Lagging s t)
    (hrun : Transition.run step s es = some s')
    (hcalls : CallsEveryTick s.fTimer t (callUptimes es ++ [u]))
    (hover : NoOverflow s (callUptimes es ++ [u])) :
    ∃ s'' id, s'.partitionScheduler u = some (s'', id)
      ∧ ((t - s.moduleScheduler.majorFrameCount * s.moduleScheduler.majorFrameTick)
          + 2 * s.moduleScheduler.majorFrameTick ≤ (callUptimes es ++ [u]).length →
        s''.partitionCurrent = s''.plannedPartition (tickAt s.fTimer u)) := by
  have hleft : _ ≤ s.lag t + 2 * _ := CyclicPlan.callsLeft_le h.two_le_frame
  obtain ⟨hlast, hconf⟩ := Recovering.run (Or.inr ⟨h, le_refl _⟩) hrun hcalls fun u' hu' =>
    hover u' (List.mem_append_left _ hu')
  have hoverflow : u * s'.fTimer < 2 ^ 32 := by
    rw [hconf.fTimer]
    exact hover u (by simp)
  obtain ⟨s'', r, heq, -, -, hplanned⟩ := hlast.schedule hoverflow (by rw [hconf.fTimer])
  refine ⟨s'', r, heq, fun hlate => hplanned ?_⟩
  rw [List.length_append, List.length_singleton] at hlate
  change s.lag t + _ ≤ _ at hlate
  omega

/-- The default configuration, more than a frame behind and in its third window at tick 12. -/
def laggingKcb : Kcb :=
  { defaultKcb 100 with
    moduleScheduler := { (defaultKcb 100).moduleScheduler with windowsIdx := 2 }
    partitionCurrent := some 2 }

/-- One call every tick from tick 12 on. -/
def callsFrom12 (n : Nat) : List Action := (List.range n).map fun k => .schedule (120 + 10 * k)

/-- Call number 32 finds the scheduler in step. -/
theorem partitionScheduler_recovers_default :
    ∃ s' s'' id, Transition.run step laggingKcb (callsFrom12 31) = some s'
      ∧ s'.partitionScheduler 430 = some (s'', id)
      ∧ s''.partitionCurrent = s''.plannedPartition (tickAt laggingKcb.fTimer 430) := by
  have hlagging : Lagging laggingKcb 12 :=
    ⟨⟨by decide, by decide, by decide, by decide, by decide, by decide, by decide⟩, by decide,
      by decide, by decide, by decide⟩
  obtain ⟨s', hs'⟩ := Option.isSome_iff_exists.mp
    (show (Transition.run step laggingKcb (callsFrom12 31)).isSome = true by decide)
  obtain ⟨s'', id, heq, hplanned⟩ := partitionScheduler_recovers laggingKcb s' 12 430 (callsFrom12 31)
    hlagging hs' ⟨by decide, by decide⟩ (by decide)
  exact ⟨s', s'', id, hs', heq, hplanned (by decide)⟩

end Kcb

end UcxArinc
