import UcxArinc.Implementation.MessageQueue
import UcxArinc.Library.Refinement
import UcxArinc.Proofs.KernelSemaphores

set_option autoImplicit false

/-! # Pointer queues are bounded FIFOs

As long as the array has a slot for every index its mask lets through, a queue answers every call as a list
of at most `size - 1` entries does. The array's size in bytes is a 32-bit number, so that a queue asked for
with more than `2 ^ 31` bytes of slots has none at all. -/

namespace UcxArinc

open Refinement

/-- No null pointer is enqueued. -/
def QueueCall.NonNull : QueueCall → Prop
  | .enqueue data | .mqEnqueue data => data ≠ 0
  | _ => True

/-- A queue as it is meant: entries in the order of their arrival, `capacity` at most. -/
def boundedFifo (capacity : Nat) (entries : List Nat) : QueueCall → Option (List Nat × QueueAnswer)
  | .enqueue data | .mqEnqueue data =>
    if entries.length < capacity then some (entries ++ [data], .status 0)
    else some (entries, .status (-1))
  | .dequeue | .mqDequeue => some (entries.tail, .pointer (entries.head?.getD 0))
  | .peek | .mqPeek => some (entries, .pointer (entries.head?.getD 0))
  | .count | .mqItems => some (entries, .items entries.length)

/-- The capacity for a requested size. -/
def queueCapacity (size : Int32) : Nat := 2 ^ Nat.clog 2 (max 2 size.toInt.toNat) - 1

/-- The pointer a call has handed to the queue. -/
def accepted : QueueCall × QueueAnswer → List Nat
  | (.enqueue data, .status value) | (.mqEnqueue data, .status value) => if value = 0 then [data] else []
  | _ => []

/-- The pointer a call has taken from the queue. -/
def delivered : QueueCall × QueueAnswer → List Nat
  | (.dequeue, .pointer data) | (.mqDequeue, .pointer data) => if data = 0 then [] else [data]
  | _ => []

/-- The queue holds these entries, and its counters say how many. -/
structure Mq.Shows (mq : Mq) (entries : List Nat) : Prop where
  contents : mq.queue.queue.contents = entries
  elem : mq.queue.queue.elem = entries.length
  between : u32Sub mq.queue.queue.tail mq.queue.queue.head &&& mq.queue.queue.mask = entries.length
  nonNull : ∀ data ∈ entries, data ≠ 0

/-! ## The meant queue -/

theorem boundedFifo_exec (capacity : Nat) (entries : List Nat) (calls : List QueueCall) :
    ∃ entries' answers, exec (boundedFifo capacity) entries calls = some (entries', answers) := by
  induction calls generalizing entries with
  | nil => exact ⟨entries, [], rfl⟩
  | cons call calls ih =>
      have hstep : ∃ t a, boundedFifo capacity entries call = some (t, a) := by
        cases call with
        | enqueue data | mqEnqueue data =>
            by_cases hroom : entries.length < capacity
            · exact ⟨_, _, if_pos hroom⟩
            · exact ⟨_, _, if_neg hroom⟩
        | dequeue | mqDequeue | peek | mqPeek | count | mqItems => exact ⟨_, _, rfl⟩
      obtain ⟨t, a, hstep⟩ := hstep
      obtain ⟨entries', answers, hrest⟩ := ih t
      exact ⟨entries', a :: answers, exec_cons_eq_some.mpr ⟨t, a, answers, hstep, hrest, rfl⟩⟩

/-- One call: what is accepted goes behind the entries, what is delivered comes from their front. -/
theorem boundedFifo_account {capacity : Nat} {entries entries' : List Nat} {call : QueueCall}
    {answer : QueueAnswer} (hentries : ∀ data ∈ entries, data ≠ 0)
    (hstep : boundedFifo capacity entries call = some (entries', answer)) :
    entries ++ accepted (call, answer) = delivered (call, answer) ++ entries' := by
  cases call with
  | enqueue data | mqEnqueue data =>
      unfold boundedFifo at hstep
      dsimp only at hstep
      split at hstep <;> rw [Option.some.injEq, Prod.mk.injEq] at hstep <;> obtain ⟨rfl, rfl⟩ := hstep
      · simp [accepted, delivered]
      · simp [accepted, delivered]
  | dequeue | mqDequeue =>
      simp only [boundedFifo, Option.some.injEq, Prod.mk.injEq] at hstep
      obtain ⟨rfl, rfl⟩ := hstep
      cases entries with
      | nil => simp [accepted, delivered]
      | cons data rest =>
          have hdata := hentries data List.mem_cons_self
          simp [accepted, delivered, hdata]
  | peek | mqPeek | count | mqItems =>
      simp only [boundedFifo, Option.some.injEq, Prod.mk.injEq] at hstep
      obtain ⟨rfl, rfl⟩ := hstep
      simp [accepted, delivered]

theorem boundedFifo_nonNull {capacity : Nat} {entries entries' : List Nat} {call : QueueCall}
    {answer : QueueAnswer} (hcall : call.NonNull) (hentries : ∀ data ∈ entries, data ≠ 0)
    (hstep : boundedFifo capacity entries call = some (entries', answer)) :
    ∀ data ∈ entries', data ≠ 0 := by
  cases call with
  | enqueue data | mqEnqueue data =>
      unfold boundedFifo at hstep
      dsimp only at hstep
      split at hstep <;> rw [Option.some.injEq, Prod.mk.injEq] at hstep <;> obtain ⟨rfl, rfl⟩ := hstep
      · intro x hx
        rcases List.mem_append.mp hx with hold | hnew
        · exact hentries x hold
        · rw [List.mem_singleton.mp hnew]
          exact hcall
      · exact hentries
  | dequeue | mqDequeue =>
      simp only [boundedFifo, Option.some.injEq, Prod.mk.injEq] at hstep
      obtain ⟨rfl, rfl⟩ := hstep
      exact fun x hx => hentries x (List.mem_of_mem_tail hx)
  | peek | mqPeek | count | mqItems =>
      simp only [boundedFifo, Option.some.injEq, Prod.mk.injEq] at hstep
      obtain ⟨rfl, rfl⟩ := hstep
      exact hentries

/-- A sequence of calls: the accepted pointers are the delivered ones and then those still queued. -/
theorem boundedFifo_accounts {capacity : Nat} {entries entries' : List Nat} {calls : List QueueCall}
    {answers : List QueueAnswer} (hcalls : ∀ call ∈ calls, call.NonNull)
    (hentries : ∀ data ∈ entries, data ≠ 0)
    (hexec : exec (boundedFifo capacity) entries calls = some (entries', answers)) :
    entries ++ (calls.zip answers).flatMap accepted
        = (calls.zip answers).flatMap delivered ++ entries'
      ∧ ∀ data ∈ entries', data ≠ 0 := by
  induction calls generalizing entries answers with
  | nil =>
      rw [exec_nil, Option.some.injEq, Prod.mk.injEq] at hexec
      obtain ⟨rfl, rfl⟩ := hexec
      exact ⟨by simp, hentries⟩
  | cons call calls ih =>
      obtain ⟨t, a, rest, hstep, hrest, rfl⟩ := exec_cons_eq_some.mp hexec
      have hcall := hcalls call List.mem_cons_self
      have haccount := boundedFifo_account hentries hstep
      obtain ⟨hlater, hentries'⟩ := ih (fun c hc => hcalls c (List.mem_cons_of_mem _ hc))
        (boundedFifo_nonNull hcall hentries hstep) hrest
      refine ⟨?_, hentries'⟩
      rw [List.zip_cons_cons, List.flatMap_cons, List.flatMap_cons, List.append_assoc, ← hlater,
        ← List.append_assoc, ← List.append_assoc, haccount]

/-! ## The queue of the code -/

namespace Queue

variable {q q' : Queue} {data n : Nat}

/-- The distance between the counters is the number of entries, however often they have wrapped. -/
theorem Intact.between (h : q.Intact n) {k : Nat} (hn : n = 2 ^ k) (hk : k ≤ 31) :
    u32Sub q.tail q.head &&& q.mask = q.elem := by
  have hhead := h.head_lt
  have hroom := h.room
  have hbig : n ≤ 2 ^ 31 := by
    rw [hn]
    exact Nat.pow_le_pow_right (by omega) hk
  have hdvd : n ∣ 2 ^ 32 := by
    rw [hn]
    exact Nat.pow_dvd_pow 2 (by omega)
  have hsmall : u32 q.head = q.head := Nat.mod_eq_of_lt (by omega)
  rw [h.mask, u32Sub, hsmall, u32, Nat.mod_mod_of_dvd _ hdvd, h.tail_eq, Nat.mod_add_mod]
  obtain ⟨m, hm⟩ := hdvd
  rw [show q.head + q.elem + (2 ^ 32 - q.head) = q.elem + n * m by omega, Nat.add_mul_mod_self_left]
  exact Nat.mod_eq_of_lt (by omega)

end Queue

namespace PointerQueue

variable {q : PointerQueue} {entries : List Nat} {data n : Nat}

/-- A queue whose array has a slot for every index, holding these entries. -/
structure Holds (q : PointerQueue) (n : Nat) (entries : List Nat) : Prop where
  intact : q.queue.Intact n
  slots : n ≤ q.slots
  contents : q.queue.contents = entries

theorem Holds.elem (h : q.Holds n entries) : q.queue.elem = entries.length := by
  rw [← h.contents, Queue.contents_length]

theorem Holds.head_lt (h : q.Holds n entries) : q.queue.head < q.slots :=
  lt_of_lt_of_le h.intact.head_lt h.slots

theorem Holds.tail_lt (h : q.Holds n entries) : q.queue.tail < q.slots := by
  have hpos := h.intact.two_le
  refine lt_of_lt_of_le ?_ h.slots
  rw [h.intact.tail_eq]
  exact Nat.mod_lt _ (by omega)

/-- Enqueuing appends, or fails if only the empty slot is left. -/
theorem Holds.queueEnqueue (h : q.Holds n entries) (data : Nat) :
    (entries.length < n - 1 → ∃ q', q.queueEnqueue data = some (q', 0) ∧ q'.Holds n (entries ++ [data]))
      ∧ (¬ entries.length < n - 1 → q.queueEnqueue data = some (q, -1)) := by
  have hfull : q.queue.enqueue data = none ↔ _ := h.intact.enqueue_eq_none
  have hroom := h.intact.room
  rw [h.elem] at hfull hroom
  unfold PointerQueue.queueEnqueue
  constructor
  · intro hlt
    cases hnext : q.queue.enqueue data with
    | none =>
        have := hfull.mp hnext
        omega
    | some queue =>
        obtain ⟨hintact, hcontents, -⟩ := h.intact.enqueue hnext
        dsimp only
        rw [if_pos h.tail_lt]
        refine ⟨_, rfl, hintact, h.slots, ?_⟩
        rw [hcontents, h.contents]
  · intro hge
    rw [hfull.mpr (by omega)]

/-- Dequeuing takes the first entry, or yields the null pointer if there is none. -/
theorem Holds.queueDequeue (h : q.Holds n entries) :
    ∃ q', q.queueDequeue = some (q', entries.head?.getD 0) ∧ q'.Holds n entries.tail := by
  unfold PointerQueue.queueDequeue
  rcases h.intact.dequeue with ⟨hempty, hnone⟩ | ⟨queue, data, rest, hcontents, hsome, hintact, hrest, -⟩
  · rw [h.contents] at hempty
    subst hempty
    rw [hnone]
    exact ⟨q, rfl, h⟩
  · rw [h.contents] at hcontents
    subst hcontents
    rw [hsome]
    dsimp only
    rw [if_pos h.head_lt]
    exact ⟨_, rfl, hintact, h.slots, hrest⟩

/-- Peeking yields what dequeuing would. -/
theorem Holds.queuePeek (h : q.Holds n entries) : q.queuePeek = some (entries.head?.getD 0) := by
  obtain ⟨q', hdequeue, -⟩ := h.queueDequeue
  unfold PointerQueue.queueDequeue Queue.dequeue at hdequeue
  unfold PointerQueue.queuePeek
  by_cases hempty : q.queue.head = q.queue.tail
  · rw [if_pos hempty] at hdequeue ⊢
    rw [Option.some.injEq, Prod.mk.injEq] at hdequeue
    rw [← hdequeue.2]
  · rw [if_neg hempty] at hdequeue ⊢
    dsimp only at hdequeue
    rw [if_pos h.head_lt] at hdequeue ⊢
    rw [Option.some.injEq, Prod.mk.injEq] at hdequeue
    rw [hdequeue.2]

theorem Holds.queueCount (h : q.Holds n entries) : q.queueCount = entries.length := h.elem

end PointerQueue

/-! ## Every sequence of calls -/

/-- Each call is answered as the bounded FIFO answers it. -/
theorem Mq.simulates (n : Nat) :
    Simulates (fun (mq : Mq) entries => mq.queue.Holds n entries) Mq.step (boundedFifo (n - 1)) := by
  intro mq entries call entries' answer hholds hstep
  cases call with
  | enqueue data | mqEnqueue data =>
      obtain ⟨hroom, hfull⟩ := hholds.queueEnqueue data
      by_cases hlt : entries.length < n - 1
      · obtain ⟨q', henqueue, hholds'⟩ := hroom hlt
        simp only [boundedFifo, if_pos hlt, Option.some.injEq, Prod.mk.injEq] at hstep
        obtain ⟨rfl, rfl⟩ := hstep
        exact ⟨⟨q'⟩, by simp [Mq.step, Mq.ucxMqEnqueue, henqueue], hholds'⟩
      · have henqueue := hfull hlt
        simp only [boundedFifo, if_neg hlt, Option.some.injEq, Prod.mk.injEq] at hstep
        obtain ⟨rfl, rfl⟩ := hstep
        exact ⟨mq, by simp [Mq.step, Mq.ucxMqEnqueue, henqueue], hholds⟩
  | dequeue | mqDequeue =>
      obtain ⟨q', hdequeue, hholds'⟩ := hholds.queueDequeue
      simp only [boundedFifo, Option.some.injEq, Prod.mk.injEq] at hstep
      obtain ⟨rfl, rfl⟩ := hstep
      exact ⟨⟨q'⟩, by simp [Mq.step, Mq.ucxMqDequeue, hdequeue], hholds'⟩
  | peek | mqPeek =>
      have hpeek := hholds.queuePeek
      simp only [boundedFifo, Option.some.injEq, Prod.mk.injEq] at hstep
      obtain ⟨rfl, rfl⟩ := hstep
      exact ⟨mq, by simp [Mq.step, Mq.ucxMqPeek, hpeek], hholds⟩
  | count | mqItems =>
      have hcount := hholds.queueCount
      simp only [boundedFifo, Option.some.injEq, Prod.mk.injEq] at hstep
      obtain ⟨rfl, rfl⟩ := hstep
      exact ⟨mq, by simp [Mq.step, Mq.ucxMqItems, hcount], hholds⟩

/-- The queue is a bounded FIFO: it takes every sequence of calls without leaving its array, answers it as
    the FIFO does, and its counters agree with the entries it holds. -/
def Mq.RefinesFifo (mq : Mq) (capacity : Nat) : Prop :=
  ∀ calls : List QueueCall, (∀ call ∈ calls, call.NonNull) →
    ∃ mq' entries answers, exec Mq.step mq calls = some (mq', answers)
      ∧ exec (boundedFifo capacity) [] calls = some (entries, answers) ∧ mq'.Shows entries
      ∧ (calls.zip answers).flatMap accepted = (calls.zip answers).flatMap delivered ++ entries

variable {pointer : PointerSize} {pdata : Nat → Nat} {size : Int32}

theorem size_le (size : Int32) : size.toInt.toNat ≤ 2 ^ 31 := by
  have hlt := size.toInt_lt
  omega

/-- The array has a slot for every index unless its size in bytes exceeds 32 bits. -/
theorem slots_spec (pointer : PointerSize) (pdata : Nat → Nat) (size : Int32) :
    (size.toInt ≤ 2 ^ 31 / pointer.bytes →
        queueSize size.toInt.toNat ≤ (PointerQueue.queueCreate pointer pdata size).slots)
      ∧ (¬ size.toInt ≤ 2 ^ 31 / pointer.bytes →
        (PointerQueue.queueCreate pointer pdata size).slots = 0) := by
  obtain ⟨m, hbytes, hm, hlimit⟩ : ∃ m, pointer.bytes = 2 ^ m ∧ m ≤ 3
      ∧ (2 ^ 31 / (pointer.bytes : Int)) = ((2 ^ (31 - m) : Nat) : Int) := by
    cases pointer with
    | avr => exact ⟨1, rfl, by omega, rfl⟩
    | bits32 => exact ⟨2, rfl, by omega, rfl⟩
    | bits64 => exact ⟨3, rfl, by omega, rfl⟩
  have hpos : 0 < 2 ^ m := Nat.two_pow_pos m
  rw [hlimit]
  unfold PointerQueue.queueCreate
  dsimp only
  rw [hbytes]
  constructor
  · intro hle
    have hsize := queueSize_le (Int.toNat_le.mpr hle) (by omega) (by omega)
    have hprod : queueSize size.toInt.toNat * 2 ^ m ≤ 2 ^ 31 := by
      calc queueSize size.toInt.toNat * 2 ^ m
          ≤ 2 ^ (31 - m) * 2 ^ m := Nat.mul_le_mul_right _ hsize
        _ = 2 ^ 31 := by rw [← Nat.pow_add, Nat.sub_add_cancel (by omega)]
    rw [u32, Nat.mod_eq_of_lt (by omega), Nat.mul_div_cancel _ hpos]
  · intro hgt
    have hsize := le_queueSize (size_le size)
    have hpow := queueSize_eq (size_le size)
    rw [hpow] at hsize ⊢
    -- a power of two above 2 ^ (31 - m) is a multiple of 2 ^ (32 - m)
    have hexp : 31 - m < Nat.clog 2 (max 2 size.toInt.toNat) :=
      (Nat.pow_lt_pow_iff_right (by omega)).mp (by omega : 2 ^ (31 - m) < _)
    have hdvd : 2 ^ 32 ∣ 2 ^ Nat.clog 2 (max 2 size.toInt.toNat) * 2 ^ m := by
      rw [← Nat.pow_add]
      exact Nat.pow_dvd_pow 2 (by omega)
    rw [u32, Nat.mod_eq_zero_of_dvd hdvd, Nat.zero_div]

theorem PointerQueue.Holds.shows {mq : Mq} {entries : List Nat} {k : Nat}
    (h : mq.queue.Holds (2 ^ k) entries) (hk : k ≤ 31) (hentries : ∀ data ∈ entries, data ≠ 0) :
    mq.Shows entries := by
  refine ⟨h.contents, h.elem, ?_, hentries⟩
  rw [h.intact.between rfl hk, h.elem]

/-- A queue with a slot for every index is a bounded FIFO. -/
theorem Mq.refinesFifo {mq : Mq} {k : Nat} (h : mq.queue.Holds (2 ^ k) []) (hk : k ≤ 31) :
    mq.RefinesFifo (2 ^ k - 1) := by
  intro calls hcalls
  obtain ⟨entries, answers, hfifo⟩ := boundedFifo_exec (2 ^ k - 1) [] calls
  obtain ⟨mq', hexec, hholds⟩ := (Mq.simulates (2 ^ k)).exec h hfifo
  obtain ⟨haccounts, hentries⟩ := boundedFifo_accounts hcalls (by simp) hfifo
  exact ⟨mq', entries, answers, hexec, hfifo, hholds.shows hk hentries, haccounts⟩

/-- A queue asked for with at most `2 ^ 31` bytes of slots is a bounded FIFO. -/
theorem refinesFifo_of_le (hle : size.toInt ≤ 2 ^ 31 / pointer.bytes) :
    (⟨PointerQueue.queueCreate pointer pdata size⟩ : Mq).RefinesFifo (queueCapacity size) := by
  have hslots := (slots_spec pointer pdata size).1 hle
  have hintact := Queue.intact_create pdata (size_le size)
  rw [queueSize_eq (size_le size)] at hslots hintact
  refine Mq.refinesFifo ⟨hintact, hslots, Queue.contents_create _ _⟩ ?_
  exact Nat.clog_le_of_le_pow (max_le (by omega) (size_le size))

/-- Any other queue writes outside its array at the first entry. -/
theorem not_refinesFifo_of_lt (hlt : ¬ size.toInt ≤ 2 ^ 31 / pointer.bytes) (capacity : Nat) :
    ¬ (⟨PointerQueue.queueCreate pointer pdata size⟩ : Mq).RefinesFifo capacity := by
  intro hrefines
  obtain ⟨mq', entries, answers, hexec, -⟩ := hrefines [.enqueue 1] (by simp [QueueCall.NonNull])
  obtain ⟨mq₁, answer, rest, hstep, -, -⟩ := exec_cons_eq_some.mp hexec
  have hslots := (slots_spec pointer pdata size).2 hlt
  have hroom : (queueCreate pdata size.toInt.toNat).enqueue 1 ≠ none := by
    have htwo := two_le_queueSize (size_le size)
    rw [Ne, (Queue.intact_create pdata (size_le size)).enqueue_eq_none]
    unfold queueCreate
    dsimp only
    omega
  simp only [Mq.step, PointerQueue.queueEnqueue, hslots, Nat.not_lt_zero, if_false] at hstep
  cases hnext : (PointerQueue.queueCreate pointer pdata size).queue.enqueue 1 with
  | none => exact hroom hnext
  | some queue => simp [hnext] at hstep

/-- A queue is a bounded FIFO exactly if its slots take at most `2 ^ 31` bytes as asked for. -/
theorem queue_refinesFifo_iff (pointer : PointerSize) (pdata : Nat → Nat) (size : Int32) :
    (⟨PointerQueue.queueCreate pointer pdata size⟩ : Mq).RefinesFifo (queueCapacity size)
      ↔ size.toInt ≤ 2 ^ 31 / pointer.bytes := by
  constructor
  · intro hrefines
    by_contra hlt
    exact not_refinesFifo_of_lt hlt _ hrefines
  · exact refinesFifo_of_le

/-- With pointers of four bytes, one element more than `2 ^ 29` is one too many. -/
theorem queue_without_slots :
    ¬ (⟨PointerQueue.queueCreate .bits32 (fun _ => 0) 536870913⟩ : Mq).RefinesFifo
      (queueCapacity 536870913) :=
  not_refinesFifo_of_lt (by decide) _

/-- A message queue is a bounded FIFO for every size it can be asked for with. -/
theorem messageQueue_refinesFifo (pointer : PointerSize) (pdata : Nat → Nat) (size : UInt16) :
    (Mq.ucxMqCreate pointer pdata size).RefinesFifo (queueCapacity (Int32.ofNat size.toNat)) := by
  have hlt := size.toNat_lt
  have hsize : (Int32.ofNat size.toNat).toInt = size.toNat := Int32.toInt_ofNat_of_lt (by omega)
  refine refinesFifo_of_le ?_
  rw [hsize]
  cases pointer <;> simp only [PointerSize.bytes] <;> omega

end UcxArinc
