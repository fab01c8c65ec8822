import UcxArinc.Implementation.Timer
import UcxArinc.Library.Transition

set_option autoImplicit false

/-! # Timers driven by ticks

`timer_handler_systick` counts a timer down by the ticks that have passed since it ran last, and reloads it
with its whole period. Ticks beyond the expiry, and ticks from before the start, are so lost or counted in
excess; a timer keeps time as long as neither happens. -/

namespace UcxArinc

namespace Timer

theorem toNat_countDown (tickDiff : Nat) (countdown : UInt32) :
    (countDown tickDiff countdown).toNat = countdown.toNat - tickDiff := by
  induction tickDiff generalizing countdown with
  | zero => rfl
  | succ tickDiff ih =>
      simp only [countDown]
      split
      · next hzero => simp [hzero]
      · next hzero =>
          have hpos : 1 ≤ countdown.toNat := by
            rw [Nat.one_le_iff_ne_zero]
            intro h
            exact hzero (UInt32.toNat_inj.mp h)
          have hle : (1 : UInt32) ≤ countdown := UInt32.le_iff_toNat_le.mpr (by simpa using hpos)
          rw [ih, UInt32.toNat_sub_of_le _ _ hle]
          simp only [UInt32.reduceToNat]
          omega

/-- A timer that is not due yet counts down. -/
theorem timerUpdateSystick_of_lt {timer : Timer} {tickDiff : Nat} (hmode : timer.mode ≠ .disabled)
    (hlt : tickDiff < timer.countdown.toNat) :
    timer.timerUpdateSystick tickDiff
      = ({ timer with countdown := countDown tickDiff timer.countdown }, false) := by
  have hcount := toNat_countDown tickDiff timer.countdown
  have hne : countDown tickDiff timer.countdown ≠ 0 := by
    intro hzero
    rw [hzero] at hcount
    simp only [UInt32.toNat_zero] at hcount
    omega
  simp [timerUpdateSystick, hmode, hne]

/-- A timer that is due is called back and reloaded, or disabled. -/
theorem timerUpdateSystick_of_le {timer : Timer} {tickDiff : Nat} (hmode : timer.mode ≠ .disabled)
    (hle : timer.countdown.toNat ≤ tickDiff) :
    timer.timerUpdateSystick tickDiff
      = (if timer.mode = .autoreload then { timer with countdown := timer.time }
          else { timer with countdown := 0, mode := .disabled }, true) := by
  have hcount := toNat_countDown tickDiff timer.countdown
  have hzero : countDown tickDiff timer.countdown = 0 := by
    rw [← UInt32.toNat_inj, hcount]
    simp only [UInt32.toNat_zero]
    omega
  simp [timerUpdateSystick, hmode, hzero]

theorem timerUpdateSystick_of_disabled {timer : Timer} (tickDiff : Nat) (hmode : timer.mode = .disabled) :
    timer.timerUpdateSystick tickDiff = (timer, false) := if_pos hmode

end Timer

namespace TimerKcb

variable {s s' : TimerKcb} {i : Nat} {timer : Timer} {timerId : UInt16} {mode : TimerMode}

/-- The timer at position `i` is called back by `timer_handler_systick`. -/
def callsBackSystick (s : TimerKcb) (i : Nat) : Bool := s.timerHandlerSystick.2[i]? = some true

/-- How often `timer_handler_systick` calls the timer at position `i` back. -/
def callbacks (i : Nat) (n : Nat) (s : TimerKcb) : TimerEvent → Nat
  | .timerHandlerSystick => if s.callsBackSystick i then n + 1 else n
  | _ => n

/-- The timer at position `i` is not started again and not cancelled. -/
def LeavesAlone (i : Nat) (s : TimerKcb) : TimerEvent → Prop
  | .start timerId _ | .cancel timerId => s.findTimer timerId ≠ some i
  | _ => True

/-- The handler comes in time for the timer at position `i`: unless it has just run, its last run was not in
    a tick that is 0 modulo `2 ^ 32`, and no more ticks have passed than an autoreload timer has left to
    count, or than 32 bits hold. -/
def InTime (i : Nat) (s : TimerKcb) : TimerEvent → Prop
  | .timerHandlerSystick => s.ticks = s.lastTick ∨ (u32 s.lastTick ≠ 0 ∧ s.ticks - s.lastTick < 2 ^ 32
    ∧ ∀ timer ∈ s.timerLst[i]?, timer.mode = .autoreload → s.ticks - s.lastTick ≤ timer.countdown.toNat)
  | _ => True

instance (s : TimerKcb) (e : TimerEvent) : Decidable (LeavesAlone i s e) := by
  cases e <;> simp only [LeavesAlone] <;> infer_instance

instance (s : TimerKcb) (e : TimerEvent) : Decidable (InTime i s e) := by
  cases e <;> simp only [InTime] <;> infer_instance

/-- The timer at position `i`, started at tick `start` with `mode`, has been called back `n` times and is in
    phase: what its countdown has consumed is what has passed since the last time it was due. -/
structure InPhase (i : Nat) (mode : TimerMode) (start : Nat) (time : UInt32) (s : TimerKcb) (n : Nat) :
    Prop where
  start_le : start ≤ s.lastTick
  last_le : s.lastTick ≤ s.ticks
  timer : ∃ timer, s.timerLst[i]? = some timer ∧ timer.time = time
    ∧ (if mode = .autoreload then
        timer.mode = mode ∧ 1 ≤ timer.countdown.toNat ∧ timer.countdown.toNat ≤ time.toNat
          ∧ s.lastTick + timer.countdown.toNat = start + (n + 1) * time.toNat
      else if n = 0 then
        timer.mode = mode ∧ 1 ≤ timer.countdown.toNat ∧ s.lastTick + timer.countdown.toNat = start + time.toNat
      else n = 1 ∧ timer.mode = .disabled ∧ start + time.toNat ≤ s.lastTick)

/-! ## The handler -/

/-- In the tick it has run in last, the handler does nothing. -/
theorem timerHandlerSystick_of_eq (h : s.ticks = s.lastTick) : s.timerHandlerSystick = (s, []) := by
  unfold timerHandlerSystick
  rw [h]
  split
  · obtain ⟨timerLst, timerId, ticks, lastTick, uptime⟩ := s
    dsimp only at h
    subst h
    rfl
  · simp

/-- Later it passes on the ticks that have passed. -/
theorem timerHandlerSystick_of_lt (hlast : u32 s.lastTick ≠ 0) (hlt : s.lastTick < s.ticks)
    (hfits : s.ticks - s.lastTick < 2 ^ 32) :
    s.timerHandlerSystick = ({ s with lastTick := s.ticks } : TimerKcb).forEachTimer
      (Timer.timerUpdateSystick (s.ticks - s.lastTick)) := by
  have hne : u32 s.ticks ≠ u32 s.lastTick := by
    unfold u32
    omega
  have hdiff : u32Sub (u32 s.ticks) (u32 s.lastTick) = s.ticks - s.lastTick := by
    unfold u32Sub u32
    omega
  unfold timerHandlerSystick
  rw [if_neg hlast, if_pos hne, hdiff]

theorem forEachTimer_getElem? (f : Timer → Timer × Bool) (h : s.timerLst[i]? = some timer) :
    (s.forEachTimer f).1.timerLst[i]? = some (f timer).1
      ∧ (s.forEachTimer f).2[i]? = some (f timer).2 := by
  simp [forEachTimer, h]

/-- Any event but the run of a handler leaves the timer as it is. -/
theorem LeavesAlone.getElem? {e : TimerEvent} (h : LeavesAlone i s e) (he : e ≠ .timerHandlerSystick)
    (he' : e ≠ .timerHandler) (hget : s.timerLst[i]? = some timer) (hs : s.step e = some s') :
    s'.timerLst[i]? = some timer ∧ s'.lastTick = s.lastTick ∧ s.ticks ≤ s'.ticks
      ∧ s.uptime ≤ s'.uptime := by
  have hother : ∀ {timerId f j}, s.findTimer timerId ≠ some i → s.findTimer timerId = some j →
      (s.modTimer j f).timerLst[i]? = some timer := by
    intro timerId f j hne hj
    have hij : j ≠ i := fun heq => hne (heq ▸ hj)
    simp [modTimer, hij, hget]
  cases e with
  | elapse ticks uptime =>
      simp only [step, Option.some.injEq] at hs
      subst hs
      exact ⟨hget, rfl, Nat.le_add_right _ _, Nat.le_add_right _ _⟩
  | timerHandlerSystick => exact absurd rfl he
  | timerHandler => exact absurd rfl he'
  | create timerCb time =>
      simp only [step, Option.some.injEq] at hs
      subst hs
      obtain ⟨hi, -⟩ := List.getElem?_eq_some_iff.mp hget
      refine ⟨?_, rfl, le_rfl, le_rfl⟩
      unfold ucxTimerCreate
      dsimp only
      rw [List.getElem?_append_left hi, hget]
  | start timerId mode =>
      simp only [step, Option.some.injEq] at hs
      subst hs
      unfold ucxTimerStart
      split
      · exact ⟨hget, rfl, le_rfl, le_rfl⟩
      · next j hj => exact ⟨hother h hj, rfl, le_rfl, le_rfl⟩
  | cancel timerId =>
      simp only [step, Option.some.injEq] at hs
      subst hs
      unfold ucxTimerCancel
      split
      · exact ⟨hget, rfl, le_rfl, le_rfl⟩
      · next j hj => exact ⟨hother h hj, rfl, le_rfl, le_rfl⟩

/-! ## In phase -/

variable {start n : Nat} {time : UInt32}

/-- The handler keeps a timer in phase it comes in time for. -/
theorem InPhase.handler (h : InPhase i mode start time s n) (hmode : mode ≠ .disabled)
    (htime : 1 ≤ time.toNat) (hin : InTime i s .timerHandlerSystick) :
    InPhase i mode start time s.timerHandlerSystick.1 (callbacks i n s .timerHandlerSystick) := by
  obtain ⟨timer, hget, htimer, hphase⟩ := h.timer
  have hstart := h.start_le
  have hlast := h.last_le
  by_cases hnow : s.ticks = s.lastTick
  · have hsame := timerHandlerSystick_of_eq hnow
    have hcalls : callbacks i n s .timerHandlerSystick = n := by
      simp [callbacks, callsBackSystick, hsame]
    rw [hsame, hcalls]
    exact h
  · obtain ⟨hzero, hfits, hleft⟩ := hin.resolve_left hnow
    have hrun := timerHandlerSystick_of_lt hzero (by omega) hfits
    obtain ⟨hget', hcall⟩ := @forEachTimer_getElem? { s with lastTick := s.ticks } i timer
      (Timer.timerUpdateSystick (s.ticks - s.lastTick)) hget
    rw [← hrun] at hget' hcall
    have hclock : s.timerHandlerSystick.1.lastTick = s.ticks ∧ s.timerHandlerSystick.1.ticks = s.ticks := by
      rw [hrun]
      exact ⟨rfl, rfl⟩
    have hcalls : callbacks i n s .timerHandlerSystick
        = if (timer.timerUpdateSystick (s.ticks - s.lastTick)).2 then n + 1 else n := by
      simp [callbacks, callsBackSystick, hcall]
    rw [hcalls]
    refine ⟨by omega, by omega, _, hget', ?_, ?_⟩
    · rw [← htimer]
      by_cases hoff : timer.mode = .disabled
      · rw [Timer.timerUpdateSystick_of_disabled _ hoff]
      · rcases Nat.lt_or_ge (s.ticks - s.lastTick) timer.countdown.toNat with hlt | hge
        · rw [Timer.timerUpdateSystick_of_lt hoff hlt]
        · rw [Timer.timerUpdateSystick_of_le hoff hge]
          split <;> rfl
    · rw [hclock.1]
      by_cases hauto : mode = .autoreload
      · rw [if_pos hauto] at hphase ⊢
        obtain ⟨hm, hpos, hle, hsum⟩ := hphase
        have hleft := hleft timer hget (hm.trans hauto)
        rcases Nat.lt_or_ge (s.ticks - s.lastTick) timer.countdown.toNat with hlt | hge
        · rw [Timer.timerUpdateSystick_of_lt (by rw [hm]; exact hmode) hlt]
          have hcount := Timer.toNat_countDown (s.ticks - s.lastTick) timer.countdown
          refine ⟨hm, ?_, ?_, ?_⟩ <;> simp only [hcount, Bool.false_eq_true, if_false] <;> omega
        · rw [Timer.timerUpdateSystick_of_le (by rw [hm]; exact hmode) hge, if_pos (hm.trans hauto)]
          refine ⟨hm, ?_, ?_, ?_⟩ <;> simp only [htimer, if_true] <;> try omega
          rw [Nat.succ_mul]
          omega
      · rw [if_neg hauto] at hphase ⊢
        by_cases hn : n = 0
        · rw [if_pos hn] at hphase
          obtain ⟨hm, hpos, hsum⟩ := hphase
          rcases Nat.lt_or_ge (s.ticks - s.lastTick) timer.countdown.toNat with hlt | hge
          · rw [Timer.timerUpdateSystick_of_lt (by rw [hm]; exact hmode) hlt]
            have hcount := Timer.toNat_countDown (s.ticks - s.lastTick) timer.countdown
            simp only [hn, Bool.false_eq_true, if_false, if_true, hcount]
            exact ⟨hm, by omega, by omega⟩
          · have hdue := Timer.timerUpdateSystick_of_le (by rw [hm]; exact hmode) hge
            rw [if_neg (by rw [hm]; exact hauto)] at hdue
            simp only [hdue, hn, if_true, Nat.zero_add, Nat.one_ne_zero, if_false, true_and]
            omega
        · rw [if_neg hn] at hphase
          obtain ⟨hone, hoff, hdue⟩ := hphase
          rw [Timer.timerUpdateSystick_of_disabled _ hoff]
          simp only [Bool.false_eq_true, if_false, hn]
          exact ⟨hone, hoff, by omega⟩

/-- Every event of a run that keeps to the conditions keeps the timer in phase. -/
theorem InPhase.step {e : TimerEvent} (h : InPhase i mode start time s n) (hmode : mode ≠ .disabled)
    (htime : 1 ≤ time.toNat) (he' : e ≠ .timerHandler) (halone : LeavesAlone i s e) (hin : InTime i s e)
    (hs : s.step e = some s') :
    InPhase i mode start time s' (callbacks i n s e) := by
  by_cases he : e = .timerHandlerSystick
  · subst he
    simp only [TimerKcb.step, Option.some.injEq] at hs
    rw [← hs]
    exact h.handler hmode htime hin
  · obtain ⟨timer, hget, htimer, hphase⟩ := h.timer
    obtain ⟨hget', hlast, hticks, -⟩ := halone.getElem? he he' hget hs
    have hcalls : callbacks i n s e = n := by
      cases e <;> first | rfl | exact absurd rfl he
    have hle := h.last_le
    have hstart := h.start_le
    rw [hcalls]
    refine ⟨by omega, by omega, timer, hget', htimer, ?_⟩
    rw [hlast]
    exact hphase

/-- How often a timer in phase has been called back. -/
theorem InPhase.callbacks_eq (h : InPhase i mode start time s n) :
    n = if mode = .autoreload then (s.lastTick - start) / time.toNat
      else if time.toNat ≤ s.lastTick - start then 1 else 0 := by
  obtain ⟨timer, -, -, hphase⟩ := h.timer
  have hstart := h.start_le
  by_cases hauto : mode = .autoreload
  · rw [if_pos hauto] at hphase ⊢
    obtain ⟨-, hpos, hle, hsum⟩ := hphase
    rw [Nat.succ_mul] at hsum
    symm
    rw [Nat.div_eq_iff (by omega)]
    constructor <;> omega
  · rw [if_neg hauto] at hphase ⊢
    by_cases hn : n = 0
    · rw [if_pos hn] at hphase
      rw [if_neg (by omega)]
      exact hn
    · rw [if_neg hn] at hphase
      rw [if_pos (by omega)]
      exact hphase.1

/-! ## Started timers -/

/-- A start rewrites the timer it finds. -/
theorem ucxTimerStart_getElem? (mode : TimerMode) (hfind : s.findTimer timerId = some i)
    (hget : s.timerLst[i]? = some timer) :
    (s.ucxTimerStart timerId mode).1.timerLst[i]? = some { timer with
      countdown := timer.time
      timecmp := UInt64.ofNat s.uptime + timer.time.toUInt64
      mode := mode }
      ∧ (s.ucxTimerStart timerId mode).1.ticks = s.ticks
      ∧ (s.ucxTimerStart timerId mode).1.lastTick = s.lastTick
      ∧ (s.ucxTimerStart timerId mode).1.uptime = s.uptime := by
  simp [ucxTimerStart, hfind, modTimer, hget]

/-- A timer started in a tick in which the handler has run is in phase. -/
theorem inPhase_start (mode : TimerMode) (hfind : s.findTimer timerId = some i) (hget : s.timerLst[i]? = some timer)
    (htime : 1 ≤ timer.time.toNat) (hclock : s.lastTick = s.ticks) :
    InPhase i mode s.ticks timer.time (s.ucxTimerStart timerId mode).1 0 := by
  obtain ⟨hget', hticks, hlast, -⟩ := ucxTimerStart_getElem? mode hfind hget
  refine ⟨by omega, by omega, _, hget', rfl, ?_⟩
  rw [hlast, hclock]
  dsimp only
  split
  · exact ⟨rfl, htime, le_rfl, by omega⟩
  · exact ⟨rfl, htime, rfl⟩

/-- After the handler has run in time, its last run was in the present tick. -/
theorem lastTick_of_inTime (hle : s.lastTick ≤ s.ticks) (hin : InTime i s .timerHandlerSystick) :
    s.timerHandlerSystick.1.lastTick = s.ticks := by
  by_cases hnow : s.ticks = s.lastTick
  · rw [timerHandlerSystick_of_eq hnow]
    exact hnow.symm
  · obtain ⟨hzero, hfits, -⟩ := hin.resolve_left hnow
    rw [timerHandlerSystick_of_lt hzero (by omega) hfits]
    rfl

/-- A timer started in a tick in which the handler has run keeps time while the handler comes in time: after
    a run of the handler it has been called back once for every whole period since the start, or, if it is
    a one-shot timer, once as soon as its time has passed. -/
theorem timer_keeps_time {s₀ : TimerKcb} {es : List TimerEvent} (hfind : s₀.findTimer timerId = some i)
    (hget : s₀.timerLst[i]? = some timer) (hmode : mode ≠ .disabled) (htime : 1 ≤ timer.time.toNat)
    (hclock : s₀.lastTick = s₀.ticks)
    (hrun : Transition.GuardedRun step (fun s e => e ≠ .timerHandler ∧ LeavesAlone i s e ∧ InTime i s e)
      (s₀.ucxTimerStart timerId mode).1 es s)
    (hin : InTime i s .timerHandlerSystick) :
    Transition.record step (callbacks i) 0 (s₀.ucxTimerStart timerId mode).1 (es ++ [.timerHandlerSystick])
      = if mode = .autoreload then (s.ticks - s₀.ticks) / timer.time.toNat
        else if timer.time.toNat ≤ s.ticks - s₀.ticks then 1 else 0 := by
  have hstart := inPhase_start mode hfind hget htime hclock
  have hstep : ∀ s e s' n, InPhase i mode s₀.ticks timer.time s n →
      (e ≠ .timerHandler ∧ LeavesAlone i s e ∧ InTime i s e) → step s e = some s' →
      InPhase i mode s₀.ticks timer.time s' (callbacks i n s e) :=
    fun s e s' n h hok hs => h.step hmode htime hok.1 hok.2.1 hok.2.2 hs
  have hphase := hrun.record_invariant hstep hstart
  have hlast := lastTick_of_inTime hphase.last_le hin
  have halone : LeavesAlone i s .timerHandlerSystick := trivial
  have hend := (hrun.snoc ⟨by simp, halone, hin⟩ rfl).record_invariant hstep hstart
  rw [hend.callbacks_eq, hlast]

/-- One timer of 10 ticks, in tick 1, in which the handler has run. -/
def oneTimer : TimerKcb := ⟨[⟨0x6000, 7, 10, 10, 0, .disabled⟩], 0x6001, 1, 1, 1⟩

/-- The handler runs at ticks 11 and 15. -/
theorem timer_keeps_time_oneTimer :
    Transition.run step noTimers [.create 7 10, .elapse 1 1, .timerHandlerSystick] = some oneTimer
      ∧ Transition.record step (callbacks 0) 0 (oneTimer.ucxTimerStart 0x6000 .autoreload).1
        ([.elapse 10 10, .timerHandlerSystick, .elapse 4 4] ++ [.timerHandlerSystick]) = 14 / 10 := by
  have hrun : Transition.GuardedRun step (fun s e => e ≠ .timerHandler ∧ LeavesAlone 0 s e ∧ InTime 0 s e)
      (oneTimer.ucxTimerStart 0x6000 .autoreload).1 [.elapse 10 10, .timerHandlerSystick, .elapse 4 4] _ :=
    Transition.guardedRun_of_checked rfl
  have hcalls := timer_keeps_time rfl rfl (by decide) (by decide) rfl hrun (by decide)
  exact ⟨rfl, hcalls.trans (by decide)⟩

/-- The handler runs at ticks 16 and 21: of the 20 ticks since the start, 5 are lost. -/
theorem jump_loses_ticks :
    Transition.record step (callbacks 0) 0 (oneTimer.ucxTimerStart 0x6000 .autoreload).1
      [.elapse 15 15, .timerHandlerSystick, .elapse 5 5, .timerHandlerSystick] ≠ (21 - oneTimer.ticks) / 10 := by
  decide

end TimerKcb

end UcxArinc
