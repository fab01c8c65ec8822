import UcxArinc.Implementation.ApexTypes

set_option autoImplicit false

/-! # Software timers

`kernel/timer.c` on a target with 32-bit pointers, in its version driven by ticks and in its version driven
by the uptime. Memory for a timer is taken as available, and callbacks leave the timers alone. -/

namespace UcxArinc

/-- `TIMER_DISABLED`, `TIMER_ONESHOT` and `TIMER_AUTORELOAD`. -/
inductive TimerMode
  | disabled
  | oneshot
  | autoreload
  deriving DecidableEq, Repr

/-- `struct timer_s`; the callback is a function pointer. -/
structure Timer where
  timerId : UInt16
  timerCb : Nat
  time : UInt32
  countdown : UInt32
  timecmp : UInt64
  mode : TimerMode
  deriving DecidableEq, Repr

namespace Timer

/-- `while (timer->countdown && tick_diff)`. -/
def countDown : Nat → UInt32 → UInt32
  | 0, countdown => countdown
  | tickDiff + 1, countdown => if countdown = 0 then countdown else countDown tickDiff (countdown - 1)

/-- `timer_update_systick`, and whether it calls back. -/
def timerUpdateSystick (tickDiff : Nat) (timer : Timer) : Timer × Bool :=
  if timer.mode = .disabled then (timer, false)
  else
    let timer := { timer with countdown := countDown tickDiff timer.countdown }
    if timer.countdown = 0 then
      (if timer.mode = .autoreload then { timer with countdown := timer.time }
        else { timer with mode := .disabled }, true)
    else (timer, false)

/-- `timer_update`, and whether it calls back; the uptime comes through a pointer. -/
def timerUpdate (arg : Nat) (timer : Timer) : Timer × Bool :=
  let time := u32 arg
  if timer.mode = .disabled then (timer, false)
  else if timer.timecmp.toNat < time then
    (if timer.mode = .autoreload then { timer with timecmp := timer.timecmp + timer.time.toUInt64 }
      else { timer with mode := .disabled }, true)
  else (timer, false)

end Timer

/-- What the timers use of the kernel: their list, the next identifier, the clocks and the static
    `last_tick`. `ticks` and `lastTick` count on where the code's wrap; the code sees them modulo
    `2 ^ 32`. -/
structure TimerKcb where
  timerLst : List Timer
  timerId : UInt16
  ticks : Nat
  lastTick : Nat
  uptime : Nat
  deriving DecidableEq, Repr

namespace TimerKcb

/-- A pass over the timers, with which of them it calls back. -/
def forEachTimer (s : TimerKcb) (f : Timer → Timer × Bool) : TimerKcb × List Bool :=
  ({ s with timerLst := s.timerLst.map fun timer => (f timer).1 }, s.timerLst.map fun timer => (f timer).2)

/-- `timer_handler_systick` up to its yield, with which timers it calls back. -/
def timerHandlerSystick (s : TimerKcb) : TimerKcb × List Bool :=
  if u32 s.lastTick = 0 then ({ s with lastTick := s.ticks }, [])
  else if u32 s.ticks ≠ u32 s.lastTick then
    ({ s with lastTick := s.ticks } : TimerKcb).forEachTimer
      (Timer.timerUpdateSystick (u32Sub (u32 s.ticks) (u32 s.lastTick)))
  else (s, [])

/-- `timer_handler` up to its yield, with which timers it calls back. -/
def timerHandler (s : TimerKcb) : TimerKcb × List Bool := s.forEachTimer (Timer.timerUpdate s.uptime)

/-- `list_foreach(kcb->timer_lst, timer_id_cmp, timer_id)`. -/
def findTimer (s : TimerKcb) (timerId : UInt16) : Option Nat :=
  s.timerLst.findIdx? fun timer => decide (timer.timerId = timerId)

/-- The timer at a position rewritten. -/
def modTimer (s : TimerKcb) (i : Nat) (f : Timer → Timer) : TimerKcb :=
  { s with timerLst := s.timerLst.modify i f }

/-- `ucx_timer_create`, with the identifier it returns. -/
def ucxTimerCreate (s : TimerKcb) (timerCb : Nat) (time : UInt32) : TimerKcb × UInt16 :=
  ({ s with
    timerLst := s.timerLst ++ [⟨s.timerId, timerCb, time, time, 0, .disabled⟩]
    timerId := s.timerId + 1 }, s.timerId)

/-- `ucx_timer_start`, and whether it found the timer. -/
def ucxTimerStart (s : TimerKcb) (timerId : UInt16) (mode : TimerMode) : TimerKcb × Bool :=
  match s.findTimer timerId with
  | none => (s, false)
  | some i =>
    (s.modTimer i fun timer => { timer with
      countdown := timer.time
      timecmp := UInt64.ofNat s.uptime + timer.time.toUInt64
      mode := mode }, true)

/-- `ucx_timer_cancel`, and whether it found the timer. -/
def ucxTimerCancel (s : TimerKcb) (timerId : UInt16) : TimerKcb × Bool :=
  match s.findTimer timerId with
  | none => (s, false)
  | some i => (s.modTimer i fun timer => { timer with mode := .disabled }, true)

/-- What happens to the timers: time passes, a handler runs, a timer is created, started or stopped. -/
inductive TimerEvent
  | elapse (ticks uptime : Nat)
  | timerHandlerSystick
  | timerHandler
  | create (timerCb : Nat) (time : UInt32)
  | start (timerId : UInt16) (mode : TimerMode)
  | cancel (timerId : UInt16)
  deriving DecidableEq, Repr

/-- One event. -/
def step (s : TimerKcb) : TimerEvent → Option TimerKcb
  | .elapse ticks uptime => some { s with ticks := s.ticks + ticks, uptime := s.uptime + uptime }
  | .timerHandlerSystick => some s.timerHandlerSystick.1
  | .timerHandler => some s.timerHandler.1
  | .create timerCb time => some (s.ucxTimerCreate timerCb time).1
  | .start timerId mode => some (s.ucxTimerStart timerId mode).1
  | .cancel timerId => some (s.ucxTimerCancel timerId).1

/-- No timer yet; the first identifier is `0x6000`. -/
def noTimers : TimerKcb := ⟨[], 0x6000, 0, 0, 0⟩

end TimerKcb

end UcxArinc
