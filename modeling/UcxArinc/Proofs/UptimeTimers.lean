import UcxArinc.Proofs.TickTimers

set_option autoImplicit false

/-! # Timers driven by the uptime

`timer_handler` hands the uptime on through a pointer and so sees it modulo `2 ^ 32`. A timer is therefore
never called back early, but from an uptime of `2 ^ 32` on it may be late by any time. -/

namespace UcxArinc

namespace TimerKcb

variable {s s' : TimerKcb} {i : Nat} {timer : Timer} {timerId : UInt16} {mode : TimerMode}
  {start : Nat} {time : UInt32} {calls : List Nat}

/-- The timer at position `i` is called back by `timer_handler`. -/
def callsBack (s : TimerKcb) (i : Nat) : Bool := s.timerHandler.2[i]? = some true

/-- The uptimes at which `timer_handler` calls the timer at position `i` back. -/
def callUptimes (i : Nat) (calls : List Nat) (s : TimerKcb) : TimerEvent → List Nat
  | .timerHandler => if s.callsBack i then calls ++ [s.uptime] else calls
  | _ => calls

/-- The deadline of a timer started at uptime `start`, once it has been called back at `calls`. -/
def deadline (start : Nat) (time : UInt32) (calls : List Nat) : Nat := start + (calls.length + 1) * time.toNat

/-- No call came before its deadline. -/
def NeverEarly (start : Nat) (time : UInt32) (calls : List Nat) : Prop :=
  ∀ (k : Nat) (h : k < calls.length), start + (k + 1) * time.toNat < calls[k]

theorem NeverEarly.snoc (h : NeverEarly start time calls) {uptime : Nat}
    (hlt : deadline start time calls < uptime) : NeverEarly start time (calls ++ [uptime]) := by
  intro k hk
  rcases Nat.lt_or_ge k calls.length with hlt' | hge
  · rw [List.getElem_append_left hlt']
    exact h k hlt'
  · obtain rfl : k = calls.length := by
      simp only [List.length_append, List.length_singleton] at hk
      omega
    simpa [deadline] using hlt

/-- The timer at position `i`, started at uptime `start` with `mode`, waits for the deadline that follows the
    calls so far, or is a one-shot timer that has been called. -/
structure Waits (i : Nat) (mode : TimerMode) (start : Nat) (time : UInt32) (s : TimerKcb) (calls : List Nat) :
    Prop where
  neverEarly : NeverEarly start time calls
  timer : ∃ timer, s.timerLst[i]? = some timer ∧ timer.time = time
    ∧ (if mode = .autoreload ∨ calls = [] then
        timer.mode = mode ∧ timer.timecmp.toNat = deadline start time calls
      else calls.length = 1 ∧ timer.mode = .disabled)

/-- An enabled timer is called back exactly if its deadline is below the low 32 bits of the uptime. -/
theorem Waits.callsBack_iff (h : Waits i mode start time s calls) (hmode : mode ≠ .disabled) :
    s.callsBack i = true ↔ (mode = .autoreload ∨ calls = []) ∧ deadline start time calls < u32 s.uptime := by
  obtain ⟨timer, hget, -, hwaits⟩ := h.timer
  have hcall := (forEachTimer_getElem? (Timer.timerUpdate s.uptime) hget).2
  unfold callsBack timerHandler
  rw [hcall]
  unfold Timer.timerUpdate
  split at hwaits
  · next hon =>
      obtain ⟨hm, hcmp⟩ := hwaits
      simp only [hm, hmode, if_false, hcmp, hon, true_and]
      split <;> simp_all
  · next hoff =>
      simp [hwaits.2, hoff]

/-- A run of the handler. -/
theorem Waits.handler (h : Waits i mode start time s calls) (hmode : mode ≠ .disabled) :
    Waits i mode start time s.timerHandler.1 (callUptimes i calls s .timerHandler) := by
  obtain ⟨timer, hget, htime, hwaits⟩ := h.timer
  have hget' := (forEachTimer_getElem? (Timer.timerUpdate s.uptime) hget).1
  have hcall := h.callsBack_iff hmode
  by_cases hback : s.callsBack i = true
  · obtain ⟨hon, hlt⟩ := hcall.mp hback
    have hle : u32 s.uptime ≤ s.uptime := Nat.mod_le _ _
    have hbound : u32 s.uptime < 2 ^ 32 := Nat.mod_lt _ (by omega)
    have hcalls : callUptimes i calls s .timerHandler = calls ++ [s.uptime] := if_pos hback
    rw [if_pos hon] at hwaits
    obtain ⟨hm, hcmp⟩ := hwaits
    rw [hcalls]
    refine ⟨h.neverEarly.snoc (by omega), _, hget', ?_⟩
    unfold Timer.timerUpdate
    simp only [hm, hmode, if_false, hcmp, hlt, if_true]
    by_cases hauto : mode = .autoreload
    · simp only [hauto, if_true, true_or, htime, true_and]
      have hsmall := time.toNat_lt
      rw [UInt64.toNat_add, hcmp, UInt32.toNat_toUInt64]
      unfold deadline at hlt ⊢
      rw [List.length_append, List.length_singleton, Nat.mod_eq_of_lt (by omega), Nat.succ_mul (calls.length + 1)]
      omega
    · have hnil := hon.resolve_left hauto
      simp [hauto, hnil, htime]
  · have hcalls : callUptimes i calls s .timerHandler = calls := if_neg hback
    rw [hcalls]
    refine ⟨h.neverEarly, timer, ?_, htime, hwaits⟩
    rw [timerHandler, hget']
    unfold Timer.timerUpdate
    split at hwaits
    · next hon =>
        obtain ⟨hm, hcmp⟩ := hwaits
        have hnot : ¬ deadline start time calls < u32 s.uptime := fun hlt => hback (hcall.mpr ⟨hon, hlt⟩)
        simp [hm, hmode, hcmp, hnot]
    · simp [hwaits.2]

/-- Every event of a run. -/
theorem Waits.step {e : TimerEvent} (h : Waits i mode start time s calls) (hmode : mode ≠ .disabled)
    (he : e ≠ .timerHandlerSystick) (halone : LeavesAlone i s e) (hs : s.step e = some s') :
    Waits i mode start time s' (callUptimes i calls s e) := by
  by_cases he' : e = .timerHandler
  · subst he'
    simp only [TimerKcb.step, Option.some.injEq] at hs
    rw [← hs]
    exact h.handler hmode
  · obtain ⟨timer, hget, htimer, hwaits⟩ := h.timer
    obtain ⟨hget', -⟩ := halone.getElem? he he' hget hs
    have hcalls : callUptimes i calls s e = calls := by
      cases e <;> first | rfl | exact absurd rfl he'
    rw [hcalls]
    exact ⟨h.neverEarly, timer, hget', htimer, hwaits⟩

/-- A timer started at an uptime that leaves room for its time. -/
theorem waits_start (hfind : s.findTimer timerId = some i) (hget : s.timerLst[i]? = some timer)
    (hfits : s.uptime + timer.time.toNat < 2 ^ 64) :
    Waits i mode s.uptime timer.time (s.ucxTimerStart timerId mode).1 [] := by
  obtain ⟨hget', -⟩ := ucxTimerStart_getElem? mode hfind hget
  refine ⟨?_, _, hget', rfl, ?_⟩
  · intro k hk
    simp at hk
  · simp only [or_true, if_true, true_and, deadline, List.length_nil, Nat.zero_add, Nat.one_mul]
    rw [UInt64.toNat_add, UInt64.toNat_ofNat', UInt32.toNat_toUInt64, Nat.mod_eq_of_lt (by omega : s.uptime < _)]
    exact Nat.mod_eq_of_lt hfits

/-! ## Runs -/

/-- The uptimes at which `timer_handler` runs. -/
def handlerUptimes (uptimes : List Nat) (s : TimerKcb) : TimerEvent → List Nat
  | .timerHandler => uptimes ++ [s.uptime]
  | _ => uptimes

/-- A timer is called back at most once in each run of the handler. -/
theorem callUptimes_sublist (i : Nat) (es : List TimerEvent) {calls uptimes : List Nat}
    (h : calls.Sublist uptimes) :
    (Transition.record step (callUptimes i) calls s es).Sublist
      (Transition.record step handlerUptimes uptimes s es) := by
  induction es generalizing s calls uptimes with
  | nil => exact h
  | cons e es ih =>
      simp only [Transition.record]
      split
      · exact h
      · refine ih ?_
        cases e with
        | timerHandler =>
            simp only [callUptimes, handlerUptimes]
            split
            · exact h.append (List.Sublist.refl _)
            · exact h.trans (List.sublist_append_left _ _)
        | elapse | timerHandlerSystick | create | start | cancel => exact h

/-- A run of the handler at an uptime above the `timecmp` of the timer at position `i` calls it back. -/
def CalledWhenDue (i : Nat) (s : TimerKcb) : Prop :=
  ∀ timer ∈ s.timerLst[i]?, timer.mode ≠ .disabled → timer.timecmp.toNat < s.uptime → s.callsBack i = true

/-- The low 32 bits of an uptime above the `timecmp` of the timer at position `i` are above it too. -/
def SeenWhenDue (i : Nat) (s : TimerKcb) : Prop :=
  ∀ timer ∈ s.timerLst[i]?, timer.mode ≠ .disabled → timer.timecmp.toNat < s.uptime →
    timer.timecmp.toNat < s.uptime % 2 ^ 32

theorem calledWhenDue_iff (i : Nat) (s : TimerKcb) : s.CalledWhenDue i ↔ s.SeenWhenDue i := by
  unfold CalledWhenDue SeenWhenDue
  refine forall₂_congr fun timer hget => forall₂_congr fun hmode _ => ?_
  have hcall := (forEachTimer_getElem? (Timer.timerUpdate s.uptime) hget).2
  unfold callsBack timerHandler
  rw [hcall]
  unfold Timer.timerUpdate u32
  simp only [hmode, if_false]
  split <;> simp_all

/-- A timer started at an uptime that leaves room for its time is never called back early, in no run of the
    handler more than once, and as a one-shot timer only once, whatever the uptimes; a run of the handler
    at an uptime above its `timecmp` calls it back exactly if the low 32 bits of the uptime are above it. -/
theorem uptime_timer_on_time {s₀ : TimerKcb} {es : List TimerEvent} (hfind : s₀.findTimer timerId = some i)
    (hget : s₀.timerLst[i]? = some timer) (hmode : mode ≠ .disabled)
    (hfits : s₀.uptime + timer.time.toNat < 2 ^ 64)
    (hrun : Transition.GuardedRun step (fun s e => e ≠ .timerHandlerSystick ∧ LeavesAlone i s e)
      (s₀.ucxTimerStart timerId mode).1 es s) :
    NeverEarly s₀.uptime timer.time
        (Transition.record step (callUptimes i) [] (s₀.ucxTimerStart timerId mode).1 es)
      ∧ (mode = .oneshot →
        (Transition.record step (callUptimes i) [] (s₀.ucxTimerStart timerId mode).1 es).length ≤ 1)
      ∧ (Transition.record step (callUptimes i) [] (s₀.ucxTimerStart timerId mode).1 es).Sublist
        (Transition.record step handlerUptimes [] (s₀.ucxTimerStart timerId mode).1 es)
      ∧ (s.CalledWhenDue i ↔ s.SeenWhenDue i) := by
  have hwaits := hrun.record_invariant (f := callUptimes i)
    (fun s e s' calls (h : Waits i mode s₀.uptime timer.time s calls) hok hs => h.step hmode hok.1 hok.2 hs)
    (waits_start hfind hget hfits)
  refine ⟨hwaits.neverEarly, ?_, callUptimes_sublist i es (List.Sublist.refl _), calledWhenDue_iff i s⟩
  rintro rfl
  obtain ⟨_, -, -, hcalls⟩ := hwaits.timer
  simp only [reduceCtorEq, false_or] at hcalls
  split at hcalls
  · next hnil => simp [hnil]
  · exact hcalls.1.le

/-- The handler runs at uptimes 11, 12 and 25. -/
theorem uptime_timer_oneTimer :
    ∃ s, Transition.run step (oneTimer.ucxTimerStart 0x6000 .autoreload).1
        [.elapse 10 10, .timerHandler, .elapse 1 1, .timerHandler, .elapse 13 13, .timerHandler] = some s
      ∧ NeverEarly 1 10 [12, 25] ∧ (s.CalledWhenDue 0 ↔ s.SeenWhenDue 0) := by
  have hrun : Transition.GuardedRun step (fun s e => e ≠ .timerHandlerSystick ∧ LeavesAlone 0 s e)
      (oneTimer.ucxTimerStart 0x6000 .autoreload).1
      [.elapse 10 10, .timerHandler, .elapse 1 1, .timerHandler, .elapse 13 13, .timerHandler] _ :=
    Transition.guardedRun_of_checked rfl
  obtain ⟨hearly, -, -, hdue⟩ := uptime_timer_on_time rfl rfl (by decide) (by decide) hrun
  exact ⟨_, hrun.run_eq, hearly, hdue⟩

/-- A timer of 10 ms, started at uptime 1, is not called back at uptime `2 ^ 32 + 1`. -/
theorem wrapped_uptime_missed :
    ∃ s, Transition.run step (oneTimer.ucxTimerStart 0x6000 .autoreload).1 [.elapse 0 (2 ^ 32)] = some s
      ∧ ¬ s.CalledWhenDue 0 := by
  refine ⟨_, rfl, fun h => ?_⟩
  have hback := h _ rfl (by decide) (by decide)
  revert hback
  decide

end TimerKcb

end UcxArinc
