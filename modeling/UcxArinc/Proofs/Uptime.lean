import UcxArinc.Proofs.WindowSchedule

set_option autoImplicit false

/-! # How long the schedule holds

`MS_TO_TICKS` multiplies the uptime in milliseconds by `F_TIMER` in 32 bits before it divides. As
long as no product leaves 32 bits the other two truncations (the uptime itself and
`major_frame_count * major_frame_tick`) are exact too and the schedule is kept; with the default
`F_TIMER` of 100 it is lost after 42949672 ms. -/

namespace UcxArinc

namespace Kcb

theorem OneCallPerTick.paced {s : Kcb} {uptimes : List Nat}
    (hwf : WellFormedPlan s.moduleScheduler) (h : OneCallPerTick s uptimes) :
    PacedCalls s uptimes where
  first := h.first
  paced := h.perTick.imp fun t t' ht => by
    refine ⟨by omega, fun w hw => ?_⟩
    have := hwf.positive w hw
    omega

/-- In step with the tick of its call, the scheduler computes a position inside the frame. -/
theorem Synced.positionInFrame_lt {s : Kcb} {t : Nat} (h : Synced s t) (ht : t < 2 ^ 32) :
    s.positionInFrame t < s.moduleScheduler.majorFrameTick := by
  have htime : t = s.moduleScheduler.majorFrameCount * s.moduleScheduler.majorFrameTick
      + t % s.moduleScheduler.majorFrameTick := h.cursor.time_eq
  have hlt : t % s.moduleScheduler.majorFrameTick < s.moduleScheduler.majorFrameTick :=
    h.cursor.pos_lt
  rw [h.positionInFrame_eq (le_refl t) ht]
  omega

/-- As long as every product `uptime * F_TIMER` fits 32 bits, each of the calls made once a tick
    ends with a position inside the frame and dispatches the partition planned for the exact tick
    of its uptime. -/
theorem partitionScheduler_keeps_schedule (boot s₀ s : Kcb) (majorFrameTick : Nat)
    (windows : List WindowPartition) (es : List Action) (u : Nat)
    (hinit : boot.moduleScheduler = moduleSchedulerInit majorFrameTick windows)
    (hwf : WellFormedPlan boot.moduleScheduler) (hex : boot.PartitionsExist)
    (hstart : boot.arincStartScheduling = some s₀) (hrun : Transition.run step s₀ es = some s)
    (hcalls : OneCallPerTick boot (callUptimes es ++ [u]))
    (hover : NoOverflow boot (callUptimes es ++ [u])) :
    ∃ s' id, s.partitionScheduler u = some (s', id)
      ∧ s'.positionInFrame (msToTicks boot.fTimer (u32 u)) < majorFrameTick
      ∧ s'.partitionCurrent = s'.plannedPartition (tickAt boot.fTimer u) := by
  obtain ⟨⟨t, hsync, hle, hshort⟩, hconf⟩ := ready_of_run hinit hwf hex hstart hrun
    (hcalls.paced hwf) fun u' hu' => hover u' (List.mem_append_left _ hu')
  have hu : u * boot.fTimer < 2 ^ 32 := hover u (by simp)
  have hu' : u * s.fTimer < 2 ^ 32 := by rwa [hconf.fTimer]
  obtain ⟨s', r, heq, hconf', hsync', hcur⟩ := hsync.schedule hu' rfl hle hshort
  have hframe : s'.moduleScheduler.majorFrameTick = majorFrameTick := by
    rw [hconf'.frame, hconf.frame, hinit]
    rfl
  refine ⟨s', r, heq, ?_, ?_⟩
  · rw [msToTicks_eq hu, ← hconf.fTimer, ← hframe]
    exact hsync'.positionInFrame_lt (by omega)
  · rw [← hconf.fTimer]
    exact hcur

/-- The first three ticks of the default configuration. -/
theorem partitionScheduler_keeps_schedule_default :
    ∃ s s' id, Transition.run step { defaultKcb 100 with partitionCurrent := some 1 }
        [.schedule 0, .schedule 10] = some s
      ∧ s.partitionScheduler 20 = some (s', id)
      ∧ s'.positionInFrame (msToTicks (defaultKcb 100).fTimer (u32 20)) < msToTicks 100 100
      ∧ s'.partitionCurrent = s'.plannedPartition (tickAt (defaultKcb 100).fTimer 20) := by
  obtain ⟨s', id, hcall, hpos, hcur⟩ := partitionScheduler_keeps_schedule (defaultKcb 100)
    { defaultKcb 100 with partitionCurrent := some 1 } _ _ (defaultWindows 100)
    [.schedule 0, .schedule 10] 20 rfl
    ⟨by decide, by decide, by decide, by decide, by decide, by decide, by decide⟩
    (by decide) (by decide) (Option.some_get (by decide)).symm
    ⟨by decide, by decide⟩ (by decide)
  exact ⟨_, s', id, (Option.some_get (by decide)).symm, hcall, hpos, hcur⟩

/-! ## The first overflow -/

/-- One call at each of the first `n` ticks of the default configuration. -/
def everyTick (n : Nat) : List Action := (List.range n).map fun k => .schedule (10 * k)

/-- The default configuration after `arinc_start_scheduling`. -/
def defaultStarted : Kcb := { defaultKcb 100 with partitionCurrent := some 1 }

theorem defaultKcb_wellFormed : WellFormedPlan (defaultKcb 100).moduleScheduler :=
  ⟨by decide, by decide, by decide, by decide, by decide, by decide, by decide⟩

theorem defaultStarted_eq : (defaultKcb 100).arincStartScheduling = some defaultStarted := by
  decide

theorem defaultStarted_synced : Synced defaultStarted 0 :=
  (synced_of_start rfl defaultKcb_wellFormed (by decide) defaultStarted_eq (by decide)).1

theorem callUptimes_everyTick (n : Nat) :
    callUptimes (everyTick n) = (List.range n).map fun k => 10 * k := by
  have key : ∀ l : List Nat, callUptimes (l.map fun k => .schedule (10 * k))
      = l.map fun k => 10 * k := by
    intro l
    induction l with
    | nil => rfl
    | cons k l ih => simp only [List.map_cons, callUptimes, ih]
  exact key _

/-- Uptimes ten milliseconds apart are one call per tick of the default configuration. -/
theorem oneCallPerTick_range (n : Nat) :
    OneCallPerTick (defaultKcb 100) ((List.range (n + 1)).map fun k => 10 * k) := by
  have htick : (tickAt (defaultKcb 100).fTimer ∘ fun k => 10 * k) = id := by
    funext k
    show 10 * k * 100 / 1000 = k
    omega
  refine ⟨?_, ?_⟩
  · intro u hu w hw
    rw [List.range_succ_eq_map, List.map_cons, List.head?_cons] at hu
    cases hu
    cases hw
    decide
  · rw [List.map_map, htick, List.map_id, List.isChain_range_succ]
    exact fun _ _ => rfl

/-- As long as the products fit, calls at every tick leave the default configuration in step. -/
theorem everyTick_synced (n : Nat) (hn : n * 1000 < 2 ^ 32) :
    ∃ current frames idx, Transition.run step defaultStarted (everyTick (n + 1))
        = some (defaultStarted.moved current frames idx)
      ∧ Synced (defaultStarted.moved current frames idx) n := by
  induction n with
  | zero =>
      obtain ⟨frames, idx, r, heq, hc⟩ := defaultStarted_synced.partitionScheduler_eq
        (show 0 * 100 < 2 ^ 32 by decide) (show 0 = 0 * 100 / 1000 by decide) (le_refl 0)
        (by decide)
      refine ⟨_, frames, idx, ?_, .of_moved defaultStarted_synced.wellFormed
        defaultStarted_synced.exist hc⟩
      simp [everyTick, List.range_succ, step, heq]
  | succ n ih =>
      obtain ⟨current, frames, idx, hrun, hsync⟩ :=
        ih ((Nat.mul_le_mul_right _ (Nat.le_succ n)).trans_lt hn)
      have hshort : ∀ w ∈ (defaultStarted.moved current frames idx).moduleScheduler.windowsPartition,
          n + 1 ≤ n + w.durationTick := by
        intro w hw
        have := hsync.wellFormed.positive w hw
        omega
      obtain ⟨frames', idx', r, heq, hc⟩ := hsync.partitionScheduler_eq
        (show 10 * (n + 1) * 100 < 2 ^ 32 by omega)
        (show n + 1 = 10 * (n + 1) * 100 / 1000 by omega) (Nat.le_succ n) hshort
      have hsync' := Synced.of_moved hsync.wellFormed hsync.exist hc
      refine ⟨(defaultStarted.moved current frames idx).plannedPartition (n + 1), frames', idx',
        ?_, hsync'⟩
      have hsplit : everyTick (n + 1 + 1) = everyTick (n + 1) ++ [.schedule (10 * (n + 1))] := by
        rw [everyTick, List.range_succ, List.map_append]
        rfl
      rw [hsplit, Transition.run_append, hrun, Option.bind_some, Transition.run_cons, step, heq]
      rfl

/-- At an uptime of 42949680 ms the product wraps: the code sees tick 0 and dispatches partition 1
    where the plan, at tick 4294968, has partition 2. -/
theorem partitionScheduler_loses_schedule :
    ∃ s s' id, (defaultKcb 100).arincStartScheduling = some defaultStarted
      ∧ Transition.run step defaultStarted (everyTick 4294968) = some s
      ∧ OneCallPerTick (defaultKcb 100) (callUptimes (everyTick 4294968) ++ [42949680])
      ∧ s.partitionScheduler 42949680 = some (s', id)
      ∧ 10 ≤ s'.positionInFrame (msToTicks 100 (u32 42949680))
      ∧ s'.partitionCurrent = some 1
      ∧ s'.plannedPartition (tickAt 100 42949680) = some 2 := by
  obtain ⟨current, frames, idx, hrun, hsync⟩ := everyTick_synced 4294967 (by norm_num)
  have hframes : frames = 429496 := by
    have hdiv : 4294967 / (defaultKcb 100).moduleScheduler.majorFrameTick = frames :=
      hsync.cursor.div_eq
    rw [← hdiv]
    decide
  have hidx : idx < (defaultWindows 100).length := hsync.idx_lt
  have hcalls : callUptimes (everyTick 4294968) ++ [42949680]
      = (List.range 4294969).map fun k => 10 * k := by
    rw [callUptimes_everyTick, List.range_succ (n := 4294968), List.map_append]
    rfl
  refine ⟨_, defaultStarted.moved (some 1) 429497 0, 1, defaultStarted_eq, hrun, ?_, ?_, by decide,
    rfl, by decide⟩
  · rw [hcalls]
    exact oneCallPerTick_range _
  · subst hframes
    have hpos : (defaultStarted.moved current 429496 idx).positionInFrame 0 = 4290672336 := by
      show u32Sub 0 (429496 * 10) = 4290672336
      decide
    have htick : msToTicks (defaultStarted.moved current 429496 idx).fTimer (u32 42949680) = 0 := by
      show msToTicks 100 (u32 42949680) = 0
      decide
    have hidx' := List.getElem?_eq_getElem hidx
    rw [partitionScheduler]
    simp only [htick, hpos]
    rw [show (defaultStarted.moved current 429496 idx).moduleScheduler.windowsPartition[
      (defaultStarted.moved current 429496 idx).moduleScheduler.windowsIdx]? = _ from hidx']
    rfl

end Kcb

end UcxArinc
