import UcxArinc.Implementation.KernelSemaphore
import UcxArinc.Library.BitSmear
import UcxArinc.Library.RingBuffer
import UcxArinc.Library.Transition
import Mathlib.Data.List.Nodup
import Mathlib.Data.Nat.Log

set_option autoImplicit false

/-! # Kernel semaphores and their waiting tasks

A semaphore keeps its waiting tasks in a ring of `queueSize max_tasks` slots, one of which stays empty. So
it serves `max_tasks` waiting tasks unless `max_tasks` is itself a power of two above 1; then the last of
them makes the kernel panic. -/

namespace UcxArinc

/-! ## The size of a queue -/

theorem ispowerof2_iff {x : Nat} : ispowerof2 x = true ↔ x.isPowerOfTwo := by
  unfold ispowerof2
  rw [decide_eq_true_iff]
  exact Nat.ne_zero_and_sub_one_eq_zero_iff_isPowerOfTwo

/-- The next power of two, for a number that is none itself. -/
theorem nextpowerof2_spec {k x : Nat} (hle : 2 ^ k < x) (hlt : x ≤ 2 ^ (k + 1)) (hk : k < 31) :
    nextpowerof2 x = 2 ^ (k + 1) := by
  have hbig : 2 ^ (k + 1) ≤ 2 ^ 31 := Nat.pow_le_pow_right (by omega) hk
  have hpos : 0 < 2 ^ k := Nat.two_pow_pos k
  have hminus : u32Sub x 1 = x - 1 := by
    unfold u32Sub u32
    omega
  have hsmear := (BitSmear.covers_one (x - 1)).double.double.double.double.double.eq_two_pow_sub_one
    (by omega : 2 ^ k ≤ x - 1) (by omega) (by omega)
  unfold nextpowerof2
  dsimp only
  rw [hminus]
  simp only [Nat.mul_one, Nat.reduceMul] at hsmear
  rw [hsmear, Nat.sub_add_cancel (by omega)]
  exact Nat.mod_eq_of_lt (by omega)

/-- A queue's size is the least power of two from 2 on that is no less than what was asked for. -/
theorem queueSize_eq {n : Nat} (hn : n ≤ 2 ^ 31) : queueSize n = 2 ^ Nat.clog 2 (max 2 n) := by
  unfold queueSize
  dsimp only
  by_cases hsmall : n < 2
  · have htwo : ispowerof2 2 = true := by decide
    have hclog : Nat.clog 2 2 = 1 := Nat.clog_pow 2 1 (by omega)
    rw [if_pos hsmall, if_pos htwo, max_eq_left (by omega), hclog]
    rfl
  · rw [if_neg hsmall, max_eq_right (by omega)]
    by_cases hpow : ispowerof2 n = true
    · rw [if_pos hpow]
      obtain ⟨k, rfl⟩ := ispowerof2_iff.mp hpow
      rw [Nat.clog_pow 2 k (by omega)]
    · rw [if_neg hpow]
      -- n lies strictly between two powers of two
      have hle : n ≤ 2 ^ Nat.clog 2 n := Nat.le_pow_clog (by omega) n
      have hlt : 2 ^ (Nat.clog 2 n).pred < n := Nat.pow_pred_clog_lt_self (by omega) (by omega)
      have hpos : 0 < Nat.clog 2 n := Nat.clog_pos (by omega) (by omega)
      have hbound : Nat.clog 2 n ≤ 31 := Nat.clog_le_of_le_pow hn
      obtain ⟨k, hk⟩ : ∃ k, Nat.clog 2 n = k + 1 := ⟨Nat.clog 2 n - 1, by omega⟩
      rw [hk] at hle hlt hbound ⊢
      exact nextpowerof2_spec hlt hle (by omega)

theorem two_le_queueSize {n : Nat} (hn : n ≤ 2 ^ 31) : 2 ≤ queueSize n := by
  rw [queueSize_eq hn]
  exact (le_max_left 2 n).trans (Nat.le_pow_clog (by omega) _)

theorem le_queueSize {n : Nat} (hn : n ≤ 2 ^ 31) : n ≤ queueSize n := by
  rw [queueSize_eq hn]
  exact (le_max_right 2 n).trans (Nat.le_pow_clog (by omega) _)

/-- A queue's size stays below every power of two that bounds what was asked for. -/
theorem queueSize_le {m n : Nat} (hn : n ≤ 2 ^ m) (hpos : 1 ≤ m) (hm : m ≤ 31) : queueSize n ≤ 2 ^ m := by
  have hbig : 2 ^ m ≤ 2 ^ 31 := Nat.pow_le_pow_right (by omega) hm
  have htwo : 2 ^ 1 ≤ 2 ^ m := Nat.pow_le_pow_right (by omega) hpos
  rw [queueSize_eq (hn.trans hbig)]
  exact Nat.pow_le_pow_right (by omega) (Nat.clog_le_of_le_pow (max_le htwo hn))

/-- A queue's size is a power of two, and larger than what was asked for unless that is one itself. -/
theorem queueSize_spec {n : Nat} (hn : n < 2 ^ 16) :
    (∃ k, queueSize n = 2 ^ k) ∧ 2 ≤ queueSize n ∧ n ≤ queueSize n ∧ queueSize n ≤ 2 ^ 16
      ∧ (1 ≤ n → (n < queueSize n ↔ n = 1 ∨ ¬ n.isPowerOfTwo)) := by
  have hpow : ∃ k, queueSize n = 2 ^ k := ⟨_, queueSize_eq (by omega)⟩
  refine ⟨hpow, two_le_queueSize (by omega), le_queueSize (by omega),
    queueSize_le hn.le (by omega) (by omega), fun hpos => ?_⟩
  by_cases hone : n = 1
  · subst hone
    exact ⟨fun _ => Or.inl rfl, fun _ => two_le_queueSize (by omega)⟩
  · have hle := le_queueSize (n := n) (by omega)
    constructor
    · intro hlt
      refine Or.inr ?_
      rintro ⟨k, rfl⟩
      rw [queueSize_eq (by omega), max_eq_right (by omega), Nat.clog_pow 2 k (by omega)] at hlt
      omega
    · rintro (hn | hnot)
      · exact absurd hn hone
      · refine lt_of_le_of_ne hle fun heq => hnot ?_
        obtain ⟨k, hk⟩ := hpow
        exact ⟨k, heq.trans hk⟩

/-! ## The queue as a ring -/

namespace Queue

variable {q q' : Queue} {data n : Nat}

/-- The counters of a queue as those of a ring. -/
def cursors (q : Queue) : RingBuffer.Cursors := ⟨q.size, q.head, q.tail, q.elem⟩

/-- The queued entries, oldest first. -/
def contents (q : Queue) : List Nat := q.cursors.contents q.pdata

/-- A queue in use: its mask fits its size, its counters agree and one slot is empty. -/
structure Intact (q : Queue) (n : Nat) : Prop where
  size : q.size = n
  two_le : 2 ≤ n
  mask : ∀ x, x &&& q.mask = x % n
  valid : q.cursors.Valid
  room : q.elem + 1 ≤ n

theorem intact_create (pdata : Nat → Nat) (hn : n ≤ 2 ^ 31) :
    (queueCreate pdata n).Intact (queueSize n) := by
  have htwo := two_le_queueSize hn
  obtain ⟨k, hk⟩ : ∃ k, queueSize n = 2 ^ k := ⟨_, queueSize_eq hn⟩
  refine ⟨rfl, htwo, fun x => ?_, RingBuffer.Cursors.valid_clear ⟨queueSize n, 0, 0, 0⟩, ?_⟩
  · unfold queueCreate
    dsimp only
    rw [hk]
    exact Nat.and_two_pow_sub_one_eq_mod x k
  · unfold queueCreate
    dsimp only
    omega

theorem contents_create (pdata : Nat → Nat) (n : Nat) : (queueCreate pdata n).contents = [] :=
  RingBuffer.Cursors.contents_eq_nil.mpr rfl

@[simp] theorem contents_length (q : Queue) : q.contents.length = q.elem :=
  RingBuffer.Cursors.contents_length _ _

theorem Intact.head_lt (h : q.Intact n) : q.head < n := by
  have hlt := h.valid.readIndex_lt
  have hsize := h.size
  have htwo := h.two_le
  unfold cursors at hlt
  dsimp only at hlt
  omega

/-- Fewer than `n` places on from `a`, a ring of `n` slots is at `a` again only after no place at all. -/
theorem mod_eq_self_iff {a d : Nat} (ha : a < n) (hd : d < n) : (a + d) % n = a ↔ d = 0 := by
  rcases Nat.lt_or_ge (a + d) n with hlt | hge
  · rw [Nat.mod_eq_of_lt hlt]
    omega
  · rw [Nat.mod_eq_sub_mod hge, Nat.mod_eq_of_lt (by omega)]
    omega

theorem Intact.tail_eq (h : q.Intact n) : q.tail = (q.head + q.elem) % n := by
  have heq := h.valid.writeIndex_eq
  unfold cursors at heq
  dsimp only at heq
  rwa [h.size] at heq

/-- Enqueuing succeeds unless only the empty slot is left. -/
theorem Intact.enqueue_eq_none (h : q.Intact n) : q.enqueue data = none ↔ q.elem + 1 = n := by
  have hhead := h.head_lt
  have hroom := h.room
  have htwo := h.two_le
  have hnext : (q.tail + 1) &&& q.mask = (q.head + (q.elem + 1)) % n := by
    rw [h.mask, h.tail_eq, Nat.mod_add_mod, Nat.add_assoc]
  unfold enqueue
  dsimp only
  rw [hnext, ite_eq_left_iff]
  rcases Nat.lt_or_ge (q.elem + 1) n with hlt | hge
  · have hne := (mod_eq_self_iff hhead hlt).not.mpr (Nat.succ_ne_zero _)
    simp only [hne, not_false_eq_true, forall_const, reduceCtorEq, false_iff]
    omega
  · have heq : q.elem + 1 = n := by omega
    rw [heq, Nat.add_mod_right, Nat.mod_eq_of_lt hhead]
    simp

theorem Intact.enqueue (h : q.Intact n) (henq : q.enqueue data = some q') :
    q'.Intact n ∧ q'.contents = q.contents ++ [data] ∧ q'.elem = q.elem + 1 := by
  have hroom : q.elem + 1 < n := by
    refine lt_of_le_of_ne h.room fun heq => ?_
    rw [h.enqueue_eq_none.mpr heq] at henq
    simp at henq
  have hlt : q.cursors.count < q.cursors.size := by
    unfold cursors
    dsimp only
    rw [h.size]
    omega
  have hpush : q'.cursors = q.cursors.push ∧ q' = { q with
      pdata := Function.update q.pdata q.tail data, tail := q'.tail, elem := q.elem + 1 } := by
    unfold Queue.enqueue at henq
    dsimp only at henq
    split at henq
    · simp at henq
    · rw [Option.some.injEq] at henq
      subst henq
      refine ⟨?_, rfl⟩
      unfold cursors RingBuffer.Cursors.push
      dsimp only
      rw [h.mask, h.size]
  obtain ⟨hcursors, heq⟩ := hpush
  refine ⟨⟨?_, h.two_le, ?_, ?_, ?_⟩, ?_, ?_⟩
  · rw [heq]
    exact h.size
  · rw [heq]
    exact h.mask
  · rw [hcursors]
    exact h.valid.push hlt
  · rw [heq]
    exact hroom
  · have hsame : ∀ i < q.cursors.size, i ≠ q.cursors.writeIndex → q'.pdata i = q.pdata i := by
      intro i _ hi
      rw [heq]
      exact Function.update_of_ne hi _ _
    have hnew : q'.pdata q.cursors.writeIndex = data := by
      rw [heq]
      exact Function.update_self _ _ _
    unfold contents
    rw [hcursors, h.valid.contents_push hlt hsame, hnew]
  · rw [heq]

/-- Dequeuing yields the oldest entry, if there is one. -/
theorem Intact.dequeue (h : q.Intact n) :
    (q.contents = [] ∧ q.dequeue = none)
      ∨ ∃ q' data rest, q.contents = data :: rest ∧ q.dequeue = some (q', data) ∧ q'.Intact n
        ∧ q'.contents = rest ∧ q'.elem + 1 = q.elem := by
  have hhead := h.head_lt
  have hroom := h.room
  have htail := h.tail_eq
  have hempty : q.head = q.tail ↔ q.elem = 0 := by
    rw [htail, eq_comm]
    exact mod_eq_self_iff hhead (by omega)
  by_cases hzero : q.elem = 0
  · left
    refine ⟨RingBuffer.Cursors.contents_eq_nil.mpr hzero, ?_⟩
    exact if_pos (hempty.mpr hzero)
  · right
    have hpos : 0 < q.cursors.count := Nat.pos_of_ne_zero hzero
    have hpop : (⟨q.pdata, q.size, q.mask, (q.head + 1) &&& q.mask, q.tail, q.elem - 1⟩ : Queue).cursors
        = q.cursors.pop := by
      unfold cursors RingBuffer.Cursors.pop
      dsimp only
      rw [h.mask, h.size]
    refine ⟨_, _, _, h.valid.contents_pop hpos, if_neg fun heq => hzero (hempty.mp heq), ?_, ?_, ?_⟩
    · refine ⟨h.size, h.two_le, h.mask, ?_, ?_⟩
      · rw [hpop]
        exact h.valid.pop hpos
      · dsimp only
        omega
    · unfold contents
      rw [hpop]
    · dsimp only
      omega

end Queue

/-! ## The semaphore -/

namespace SemKernel


/-- What an observer counts: the signals, the waits that have been granted or are pending, and the tasks
    that wait, longest first. -/
structure Account where
  signals : Nat
  waits : Nat
  waiting : List Nat

variable {s s' : SemKernel} {a : Account} {value : Int} {maxTasks : UInt16}

/-- What is left for further waits. -/
def Account.balance (value : Int) (a : Account) : Int := value + a.signals - a.waits

/-- What a call adds to the account. -/
def Account.enter (value : Int) (a : Account) : SemCall → Account
  | .wait task => { a with
      waits := a.waits + 1
      waiting := if a.balance value ≤ 0 then a.waiting ++ [task] else a.waiting }
  | .trywait => if 0 < a.balance value then { a with waits := a.waits + 1 } else a
  | .signal => { a with signals := a.signals + 1, waiting := a.waiting.tail }

/-- The semaphore agrees with the account: the counter is what is left, and the queue holds exactly the
    waiting tasks, which are blocked and as many as the counter is below 0. -/
structure Agrees (value : Int) (s : SemKernel) (a : Account) : Prop where
  count : s.sem.count = a.balance value
  queue : s.sem.semQueue.contents = a.waiting
  length : (a.waiting.length : Int) = max 0 (-s.sem.count)
  nodup : a.waiting.Nodup
  blocked : ∀ task ∈ a.waiting, s.state task = .blocked

/-- The call serves: it does not panic, the semaphore still agrees with the account, and a signal readies
    exactly the task that has waited longest, if one waits. -/
def Serves (value : Int) (s : SemKernel) (a : Account) (call : SemCall) : Prop :=
  ∃ s', s.step call = some s' ∧ s'.Agrees value (a.enter value call)
    ∧ (call = .signal → ∀ task, s'.state task
      = if a.waiting.head? = some task then .ready else s.state task)

/-- Callers keep to this: a blocked task makes no call, and no more than `max_tasks` wait at a time. -/
def Allowed (maxTasks : UInt16) (s : SemKernel) : SemCall → Prop
  | .wait task => s.state task ≠ .blocked ∧ (s.sem.count ≤ 0 → s.sem.semQueue.elem < maxTasks.toNat)
  | _ => True

/-- The ring has room for the task that is about to wait, and the counter for the signal. -/
def HasRoom (maxTasks : UInt16) (s : SemKernel) : SemCall → Prop
  | .wait _ => s.sem.count ≤ 0 → 2 ≤ maxTasks.toNat → maxTasks.toNat.isPowerOfTwo →
    s.sem.semQueue.elem + 1 < maxTasks.toNat
  | .trywait => True
  | .signal => s.sem.count < 2 ^ 31 - 1

instance (s : SemKernel) (e : SemCall) : Decidable (s.Allowed maxTasks e) :=
  match e with
  | .wait task => inferInstanceAs (Decidable (s.state task ≠ .blocked ∧ _))
  | .trywait | .signal => inferInstanceAs (Decidable True)

instance (s : SemKernel) (e : SemCall) : Decidable (s.HasRoom maxTasks e) :=
  match e with
  | .wait _ => inferInstanceAs (Decidable (_ → _ → _ → _))
  | .trywait => inferInstanceAs (Decidable True)
  | .signal => inferInstanceAs (Decidable (_ < _))

/-- What holds between the calls of a run. -/
structure InStep (maxTasks : UInt16) (value : Int) (s : SemKernel) (a : Account) : Prop where
  intact : s.sem.semQueue.Intact (queueSize maxTasks.toNat)
  agrees : s.Agrees value a
  count_lt : s.sem.count < 2 ^ 31

/-- Only the counter has changed, and as many tasks wait as before. -/
theorem Agrees.recount (h : s.Agrees value a) {a' : Account} {count : Int} (hwaiting : a'.waiting = a.waiting)
    (hbalance : a'.balance value = count) (hlength : max 0 (-count) = max 0 (-s.sem.count)) :
    Agrees value { s with sem := { s.sem with count := count } } a' where
  count := hbalance.symm
  queue := by
    rw [hwaiting]
    exact h.queue
  length := by
    rw [hwaiting, h.length]
    exact hlength.symm
  nodup := by
    rw [hwaiting]
    exact h.nodup
  blocked := by
    rw [hwaiting]
    exact h.blocked

theorem i32_eq {x : Int} (hle : -2 ^ 31 ≤ x) (hlt : x < 2 ^ 31) : i32 x = x :=
  Int.bmod_eq_of_le (by omega) (by omega)

namespace InStep

theorem elem (h : s.InStep maxTasks value a) : (s.sem.semQueue.elem : Int) = max 0 (-s.sem.count) := by
  rw [← h.agrees.length, ← h.agrees.queue, Queue.contents_length]

theorem le_count (h : s.InStep maxTasks value a) : -2 ^ 16 ≤ s.sem.count := by
  have helem := h.elem
  have hroom := h.intact.room
  have hsize := (queueSize_spec maxTasks.toNat_lt).2.2.2.1
  omega

/-- The queue has room for another waiting task unless the ring is full at one task too few. -/
theorem enqueue_eq_none (h : s.InStep maxTasks value a) (hpos : 1 ≤ maxTasks.toNat) {task : Nat}
    (hlimit : s.sem.semQueue.elem < maxTasks.toNat) :
    s.sem.semQueue.enqueue task = none
      ↔ 2 ≤ maxTasks.toNat ∧ maxTasks.toNat.isPowerOfTwo ∧ s.sem.semQueue.elem + 1 = maxTasks.toNat := by
  obtain ⟨-, htwo, hle, -, hlt⟩ := queueSize_spec maxTasks.toNat_lt
  have hlt := hlt hpos
  rw [h.intact.enqueue_eq_none]
  constructor
  · intro hfull
    by_cases hone : maxTasks.toNat = 1
    · have := hlt.mpr (Or.inl hone)
      omega
    · by_cases hpow : maxTasks.toNat.isPowerOfTwo
      · exact ⟨by omega, hpow, by omega⟩
      · have := hlt.mpr (Or.inr hpow)
        omega
  · rintro ⟨htwo', hpow, hfull⟩
    have hnot : ¬ maxTasks.toNat < queueSize maxTasks.toNat := by
      rw [hlt]
      rintro (hone | hnot)
      · omega
      · exact hnot hpow
    omega

/-- A wait serves exactly if the ring has room. -/
theorem wait (h : s.InStep maxTasks value a) (hpos : 1 ≤ maxTasks.toNat) {task : Nat}
    (hallowed : s.Allowed maxTasks (.wait task)) :
    (s.Serves value a (.wait task) ↔ s.HasRoom maxTasks (.wait task))
      ∧ ∀ s', s.HasRoom maxTasks (.wait task) → s.step (.wait task) = some s' →
        s'.InStep maxTasks value (a.enter value (.wait task)) := by
  obtain ⟨hcaller, hlimit⟩ := hallowed
  have hle := h.le_count
  have hcount := i32_eq (x := s.sem.count - 1) (by omega) (by have := h.count_lt; omega)
  have hbalance := h.agrees.count
  have hlength := h.agrees.length
  have hbalance' : (a.enter value (.wait task)).balance value = s.sem.count - 1 := by
    rw [hbalance]
    simp only [Account.balance, Account.enter]
    omega
  by_cases hneg : s.sem.count ≤ 0
  · have hlimit := hlimit hneg
    have hwaiting : (a.enter value (.wait task)).waiting = a.waiting ++ [task] :=
      if_pos (by rwa [← hbalance])
    have hroom : s.HasRoom maxTasks (.wait task) ↔ s.sem.semQueue.enqueue task ≠ none := by
      rw [ne_eq, h.enqueue_eq_none hpos hlimit]
      unfold HasRoom
      constructor
      · rintro hroom ⟨htwo, hpow, hfull⟩
        have := hroom hneg htwo hpow
        omega
      · intro hroom _ htwo hpow
        by_contra hfull
        exact hroom ⟨htwo, hpow, by omega⟩
    cases henq : s.sem.semQueue.enqueue task with
    | none =>
        have hstep : s.step (.wait task) = none := by
          simp [step, ucxSemWait, hcount, henq, show s.sem.count - 1 < 0 by omega]
        refine ⟨?_, fun s' hr => absurd henq (hroom.mp hr)⟩
        rw [hroom, henq]
        simp [Serves, hstep]
    | some queue =>
        obtain ⟨hintact, hcontents, -⟩ := h.intact.enqueue henq
        have hstep : s.step (.wait task)
            = some ⟨⟨queue, s.sem.count - 1⟩, Function.update s.state task .blocked⟩ := by
          simp [step, ucxSemWait, hcount, henq, show s.sem.count - 1 < 0 by omega]
        have hnot : task ∉ a.waiting := fun hmem => hcaller (h.agrees.blocked task hmem)
        have hagrees : Agrees value ⟨⟨queue, s.sem.count - 1⟩, Function.update s.state task .blocked⟩
            (a.enter value (.wait task)) := by
          refine ⟨hbalance'.symm, ?_, ?_, ?_, ?_⟩
          · rw [hwaiting, ← h.agrees.queue]
            exact hcontents
          · rw [hwaiting, List.length_append, List.length_singleton]
            dsimp only
            omega
          · rw [hwaiting]
            simpa [List.nodup_append] using ⟨h.agrees.nodup, fun x hx heq => hnot (heq ▸ hx)⟩
          · intro t ht
            rw [hwaiting] at ht
            by_cases heq : t = task
            · simp [heq]
            · dsimp only
              rw [Function.update_of_ne heq]
              exact h.agrees.blocked t (by simpa [heq] using ht)
        constructor
        · rw [hroom, henq]
          simp only [ne_eq, reduceCtorEq, not_false_eq_true, iff_true]
          exact ⟨_, hstep, hagrees, by simp⟩
        · intro s' _ hs'
          rw [hstep, Option.some.injEq] at hs'
          subst hs'
          exact ⟨hintact, hagrees, by dsimp only; omega⟩
  · have hwaiting : (a.enter value (.wait task)).waiting = a.waiting :=
      if_neg (by rwa [← hbalance])
    have hstep : s.step (.wait task) = some { s with sem := { s.sem with count := s.sem.count - 1 } } := by
      simp [step, ucxSemWait, hcount, show ¬ s.sem.count - 1 < 0 by omega]
    have hagrees : Agrees value { s with sem := { s.sem with count := s.sem.count - 1 } }
        (a.enter value (.wait task)) := h.agrees.recount hwaiting hbalance' (by omega)
    constructor
    · refine ⟨fun _ hc => absurd hc hneg, fun _ => ⟨_, hstep, hagrees, by simp⟩⟩
    · intro s' _ hs'
      rw [hstep, Option.some.injEq] at hs'
      subst hs'
      have := h.count_lt
      exact ⟨h.intact, hagrees, by dsimp only; omega⟩

/-- A wait that does not block always serves. -/
theorem trywait (h : s.InStep maxTasks value a) :
    s.Serves value a .trywait
      ∧ ∀ s', s.step .trywait = some s' → s'.InStep maxTasks value (a.enter value .trywait) := by
  have hle := h.le_count
  have hlt := h.count_lt
  have hbalance := h.agrees.count
  by_cases hpos : s.sem.count ≤ 0
  · have hstep : s.step .trywait = some s := by simp [step, ucxSemTrywait, hpos]
    have henter : a.enter value .trywait = a := if_neg (by omega)
    rw [henter]
    refine ⟨⟨s, hstep, by rw [henter]; exact h.agrees, by simp⟩, ?_⟩
    intro s' hs'
    rw [hstep, Option.some.injEq] at hs'
    exact hs' ▸ h
  · have hcount := i32_eq (x := s.sem.count - 1) (by omega) (by omega)
    have hstep : s.step .trywait = some { s with sem := { s.sem with count := s.sem.count - 1 } } := by
      simp [step, ucxSemTrywait, hpos, hcount]
    have henter : a.enter value .trywait = { a with waits := a.waits + 1 } := if_pos (by omega)
    have hagrees : Agrees value { s with sem := { s.sem with count := s.sem.count - 1 } }
        (a.enter value .trywait) := by
      rw [henter]
      refine h.agrees.recount rfl ?_ (by omega)
      rw [hbalance]
      simp only [Account.balance]
      omega
    refine ⟨⟨_, hstep, hagrees, by simp⟩, ?_⟩
    intro s' hs'
    rw [hstep, Option.some.injEq] at hs'
    subst hs'
    exact ⟨h.intact, hagrees, by dsimp only; omega⟩

/-- A signal serves exactly if the counter does not overflow. -/
theorem signal (h : s.InStep maxTasks value a) :
    (s.Serves value a .signal ↔ s.HasRoom maxTasks .signal)
      ∧ ∀ s', s.HasRoom maxTasks .signal → s.step .signal = some s' →
        s'.InStep maxTasks value (a.enter value .signal) := by
  have hle := h.le_count
  have hlt := h.count_lt
  have hlength := h.agrees.length
  have hbalance : (a.enter value .signal).balance value = s.sem.count + 1 := by
    rw [h.agrees.count]
    simp only [Account.balance, Account.enter]
    omega
  by_cases hroom : s.sem.count < 2 ^ 31 - 1
  · have hcount := i32_eq (x := s.sem.count + 1) (by omega) (by omega)
    rcases h.intact.dequeue with ⟨hempty, -⟩ | ⟨queue, task, rest, hcontents, hdeq, hintact, hrest, -⟩
    · -- nobody waits
      rw [h.agrees.queue] at hempty
      rw [hempty, List.length_nil] at hlength
      have hstep : s.step .signal = some { s with sem := { s.sem with count := s.sem.count + 1 } } := by
        simp [step, ucxSemSignal, hcount, show ¬ s.sem.count + 1 ≤ 0 by omega]
      have hagrees : Agrees value { s with sem := { s.sem with count := s.sem.count + 1 } }
          (a.enter value .signal) :=
        h.agrees.recount (by simp [Account.enter, hempty]) hbalance (by omega)
      refine ⟨⟨fun _ => hroom, fun _ => ⟨_, hstep, hagrees, ?_⟩⟩, ?_⟩
      · intro _ t
        simp [hempty]
      · intro s' _ hs'
        rw [hstep, Option.some.injEq] at hs'
        subst hs'
        exact ⟨h.intact, hagrees, by dsimp only; omega⟩
    · rw [h.agrees.queue] at hcontents
      rw [hcontents, List.length_cons] at hlength
      have hnodup := h.agrees.nodup
      rw [hcontents, List.nodup_cons] at hnodup
      have hstep : s.step .signal
          = some ⟨⟨queue, s.sem.count + 1⟩, Function.update s.state task .ready⟩ := by
        simp [step, ucxSemSignal, hcount, hdeq, show s.sem.count + 1 ≤ 0 by omega]
      have hwaiting : (a.enter value .signal).waiting = rest := by simp [Account.enter, hcontents]
      have hagrees : Agrees value ⟨⟨queue, s.sem.count + 1⟩, Function.update s.state task .ready⟩
          (a.enter value .signal) := by
        refine ⟨hbalance.symm, ?_, ?_, ?_, ?_⟩
        · rw [hwaiting]
          exact hrest
        · rw [hwaiting]
          dsimp only
          omega
        · rw [hwaiting]
          exact hnodup.2
        · intro t ht
          rw [hwaiting] at ht
          have hne : t ≠ task := fun heq => hnodup.1 (heq ▸ ht)
          dsimp only
          rw [Function.update_of_ne hne]
          refine h.agrees.blocked t ?_
          rw [hcontents]
          exact List.mem_cons_of_mem _ ht
      refine ⟨⟨fun _ => hroom, fun _ => ⟨_, hstep, hagrees, ?_⟩⟩, ?_⟩
      · intro _ t
        by_cases heq : t = task
        · simp [heq, hcontents]
        · simp [hcontents, Function.update_of_ne heq, Ne.symm heq]
      · intro s' _ hs'
        rw [hstep, Option.some.injEq] at hs'
        subst hs'
        exact ⟨hintact, hagrees, by dsimp only; omega⟩
  · -- the counter wraps below 0, and the signal looks for a task that waits
    have hmax : s.sem.count = 2 ^ 31 - 1 := by omega
    have hempty : s.sem.semQueue.contents = [] := by
      rw [h.agrees.queue, ← List.length_eq_zero_iff]
      omega
    have hdeq : s.sem.semQueue.dequeue = none := by
      rcases h.intact.dequeue with ⟨-, hnone⟩ | ⟨_, _, _, hcontents, -⟩
      · exact hnone
      · rw [hempty] at hcontents
        simp at hcontents
    have hstep : s.step .signal = none := by
      simp [step, ucxSemSignal, hmax, hdeq, show i32 2147483648 ≤ 0 by decide]
    refine ⟨⟨fun hserves => ?_, fun hc => absurd hc hroom⟩, fun s' hc => absurd hc hroom⟩
    obtain ⟨s', hs', -⟩ := hserves
    rw [hstep] at hs'
    simp at hs'

/-- Every call. -/
theorem call (h : s.InStep maxTasks value a) (hpos : 1 ≤ maxTasks.toNat) (e : SemCall)
    (hallowed : s.Allowed maxTasks e) :
    (s.Serves value a e ↔ s.HasRoom maxTasks e)
      ∧ ∀ s', s.HasRoom maxTasks e → s.step e = some s' → s'.InStep maxTasks value (a.enter value e) := by
  cases e with
  | wait task => exact h.wait hpos hallowed
  | trywait => exact ⟨⟨fun _ => trivial, fun _ => h.trywait.1⟩, fun s' _ => h.trywait.2 s'⟩
  | signal => exact h.signal

end InStep

/-- A new semaphore that nobody waits for. -/
theorem inStep_create {pdata : Nat → Nat} {sem : Sem} {state : Nat → TaskState} (hvalue : value < 2 ^ 31)
    (h : ucxSemCreate pdata maxTasks value = some sem) :
    InStep maxTasks value ⟨sem, state⟩ ⟨0, 0, []⟩ := by
  unfold ucxSemCreate at h
  split at h
  · simp at h
  · rw [Option.some.injEq] at h
    subst h
    refine ⟨Queue.intact_create pdata (maxTasks.toNat_lt.le.trans (by decide)),
      ⟨?_, ?_, ?_, List.nodup_nil, by simp⟩, hvalue⟩
    · simp [Account.balance]
    · exact Queue.contents_create pdata _
    · simp only [List.length_nil]
      omega

/-- What an observer has counted after calls on a new semaphore. -/
def accountOf (value : Int) (start : SemKernel) (calls : List SemCall) : Account :=
  Transition.record step (fun a _ e => a.enter value e) ⟨0, 0, []⟩ start calls

/-- In every run of allowed calls that find room, the semaphore agrees with what an observer counts, and
    the next allowed call serves exactly if it finds room. -/
theorem semaphore_serves_iff {pdata : Nat → Nat} {sem : Sem} {state : Nat → TaskState}
    (hpos : 1 ≤ maxTasks.toNat) (hvalue : value < 2 ^ 31)
    (hcreate : ucxSemCreate pdata maxTasks value = some sem) {calls : List SemCall}
    (hrun : Transition.GuardedRun step (fun s e => s.Allowed maxTasks e ∧ s.HasRoom maxTasks e) ⟨sem, state⟩
      calls s) :
    s.Agrees value (accountOf value ⟨sem, state⟩ calls)
      ∧ ∀ call, s.Allowed maxTasks call →
        (s.Serves value (accountOf value ⟨sem, state⟩ calls) call ↔ s.HasRoom maxTasks call) := by
  have hstep : s.InStep maxTasks value (accountOf value ⟨sem, state⟩ calls) := by
    refine hrun.record_invariant ?_ (inStep_create hvalue hcreate)
    intro s e s' a hin hok hs
    exact (hin.call hpos e hok.1).2 s' hok.2 hs
  exact ⟨hstep.agrees, fun call hallowed => (hstep.call hpos call hallowed).1⟩

/-- A new semaphore, in memory that held zeros, that nobody waits for. -/
def freshSem (maxTasks : UInt16) (value : Int) : SemKernel :=
  ⟨⟨queueCreate (fun _ => 0) maxTasks.toNat, value⟩, fun _ => .ready⟩

/-- Three tasks wait for a semaphore of three, and one is readied. -/
theorem semaphore_serves_three :
    ∃ s, Transition.run step (freshSem 3 0) [.wait 5, .wait 6, .wait 7, .signal] = some s
      ∧ s.Agrees 0 ⟨1, 3, [6, 7]⟩
      ∧ ∀ call, s.Allowed 3 call → (s.Serves 0 ⟨1, 3, [6, 7]⟩ call ↔ s.HasRoom 3 call) := by
  have hrun : Transition.GuardedRun step (fun s e => s.Allowed 3 e ∧ s.HasRoom 3 e) (freshSem 3 0)
      [.wait 5, .wait 6, .wait 7, .signal] _ := Transition.guardedRun_of_checked rfl
  exact ⟨_, hrun.run_eq, semaphore_serves_iff (by decide) (by decide) rfl hrun⟩

/-- With `max_tasks` 2, the second task that waits makes the kernel panic. -/
theorem second_waiter_panics :
    ∃ s, ucxSemCreate (fun _ => 0) 2 0 = some (freshSem 2 0).sem
      ∧ Transition.run step (freshSem 2 0) [.wait 5] = some s ∧ s.Allowed 2 (.wait 6)
      ∧ s.step (.wait 6) = none ∧ ¬ s.Serves 0 (accountOf 0 (freshSem 2 0) [.wait 5]) (.wait 6) := by
  refine ⟨_, rfl, rfl, ⟨by decide, fun _ => by decide⟩, rfl, ?_⟩
  rintro ⟨s', hs', -⟩
  have hpanics : (none : Option SemKernel) = some s' := hs'
  simp at hpanics

end SemKernel

end UcxArinc
