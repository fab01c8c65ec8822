import UcxArinc.Implementation.Pipe
import UcxArinc.Proofs.KernelSemaphores

set_option autoImplicit false

/-! # Pipes

A pipe is the ring of a queue with bytes for entries. A size above 32768 is rounded up to 65536, which is 0
as a `uint16_t`: such a pipe has no byte of storage and a mask that lets every index through. In the other
pipes the bytes come out as they went in, unless `char` is signed and a byte 0xff is read: that is the value
`ucx_pipe_get` has for an empty pipe. -/

namespace UcxArinc

open Transition

namespace Pipe

variable {p p' : Pipe} {n : Nat}

/-- The ring of a pipe. -/
def queue (p : Pipe) : Queue := ⟨fun i => (p.data i).toNat, p.mask + 1, p.mask, p.head, p.tail, p.size⟩

/-- The bytes in a pipe, first come first. -/
def contents (p : Pipe) : List UInt8 := p.queue.cursors.contents p.data

/-- A pipe in use, with `n` bytes of storage. -/
structure Intact (p : Pipe) (n : Nat) : Prop where
  queue : p.queue.Intact n
  bytes : p.bytes = n

/-- The mask fits the storage, and the indices are within it. -/
structure InBounds (p : Pipe) : Prop where
  mask : p.mask + 1 = p.bytes
  head : p.head < p.bytes
  tail : p.tail < p.bytes

@[simp] theorem contents_length (p : Pipe) : p.contents.length = p.size :=
  RingBuffer.Cursors.contents_length _ _

theorem contents_toNat (p : Pipe) : p.contents.map UInt8.toNat = p.queue.contents := by
  unfold contents Queue.contents RingBuffer.Cursors.contents
  rw [List.map_map]
  rfl

theorem Intact.inBounds (h : p.Intact n) : p.InBounds := by
  have htwo := h.queue.two_le
  have hhead := h.queue.head_lt
  have htail : p.queue.tail < n := by
    rw [h.queue.tail_eq]
    exact Nat.mod_lt _ (by omega)
  rw [← h.bytes] at hhead htail
  exact ⟨h.queue.size.trans h.bytes.symm, hhead, htail⟩

/-! ## Creation -/

theorem pipeSize_eq {size : UInt16} (hle : size.toNat ≤ 32768) : pipeSize size = queueSize size.toNat := by
  have hbound : queueSize size.toNat ≤ 2 ^ 15 := queueSize_le (by omega) (by omega) (by omega)
  unfold pipeSize
  unfold queueSize at hbound ⊢
  dsimp only at hbound ⊢
  generalize (if size.toNat < 2 then 2 else size.toNat) = m at hbound ⊢
  by_cases hpow : ispowerof2 m = true
  · rw [if_pos hpow, if_pos hpow]
  · rw [if_neg hpow] at hbound
    rw [if_neg hpow, if_neg hpow]
    exact Nat.mod_eq_of_lt (by omega)

/-- Sizes above 32768 are rounded up to nothing. -/
theorem pipeSize_eq_zero {size : UInt16} (hlt : 32768 < size.toNat) : pipeSize size = 0 := by
  have hbound := size.toNat_lt
  have hnext : nextpowerof2 size.toNat = 2 ^ 16 := nextpowerof2_spec (k := 15) (by omega) (by omega) (by omega)
  have hnot : ¬ ispowerof2 size.toNat = true := by
    rw [ispowerof2_iff]
    rintro ⟨k, hk⟩
    rw [hk] at hlt hbound
    have hlow : 15 < k := (Nat.pow_lt_pow_iff_right (a := 2) (by omega)).mp hlt
    have hhigh : k < 16 := (Nat.pow_lt_pow_iff_right (a := 2) (by omega)).mp hbound
    omega
  have hsmall : ¬ size.toNat < 2 := by omega
  unfold pipeSize
  dsimp only
  rw [if_neg hsmall, if_neg hnot, hnext, Nat.mod_self]

theorem intact_create {size : UInt16} (data : Area) (hle : size.toNat ≤ 32768) :
    (ucxPipeCreate data size).Intact (queueSize size.toNat) := by
  have htwo := two_le_queueSize (n := size.toNat) (by omega)
  have hbound : queueSize size.toNat ≤ 2 ^ 15 := queueSize_le (by omega) (by omega) (by omega)
  have hmask : u32Sub (queueSize size.toNat) 1 = queueSize size.toNat - 1 := by
    unfold u32Sub u32
    omega
  have hqueue : (ucxPipeCreate data size).queue
      = queueCreate (fun i => (data i).toNat) size.toNat := by
    unfold queue ucxPipeCreate queueCreate
    dsimp only
    rw [pipeSize_eq hle, hmask, Nat.sub_add_cancel (by omega)]
  refine ⟨?_, pipeSize_eq hle⟩
  rw [hqueue]
  exact Queue.intact_create _ (by omega)

theorem contents_create (data : Area) (size : UInt16) : (ucxPipeCreate data size).contents = [] :=
  RingBuffer.Cursors.contents_eq_nil.mpr rfl

/-! ## One byte -/

/-- Getting takes the first byte, or finds that there is none. -/
theorem Intact.get (h : p.Intact n) (signedChar : Bool) :
    (p.contents = [] ∧ p.ucxPipeGet signedChar = (p, -1))
      ∨ ∃ p' c rest, p.contents = c :: rest ∧ p.ucxPipeGet signedChar = (p', charValue signedChar c)
        ∧ p'.Intact n ∧ p'.contents = rest := by
  by_cases hempty : p.head = p.tail
  · left
    have hnone : p.queue.dequeue = none := if_pos hempty
    rcases h.queue.dequeue with ⟨hnil, -⟩ | ⟨_, _, _, -, hsome, -⟩
    · rw [← contents_toNat, List.map_eq_nil_iff] at hnil
      exact ⟨hnil, if_pos hempty⟩
    · rw [hnone] at hsome
      exact absurd hsome (by simp)
  · right
    have hsome : p.queue.dequeue = some
        ({ p.queue with head := (p.head + 1) &&& p.mask, elem := p.size - 1 }, (p.data p.head).toNat) :=
      if_neg hempty
    rcases h.queue.dequeue with ⟨-, hnone⟩ | ⟨q, c, rest, hcons, heq, hintact, hrest, -⟩
    · rw [hsome] at hnone
      exact absurd hnone (by simp)
    · rw [hsome, Option.some.injEq, Prod.mk.injEq] at heq
      obtain ⟨rfl, rfl⟩ := heq
      have hpos : 0 < p.queue.cursors.count := by
        have hlength := Queue.contents_length p.queue
        rw [hcons, List.length_cons] at hlength
        exact lt_of_lt_of_eq (Nat.succ_pos _) hlength
      refine ⟨{ p with head := (p.head + 1) &&& p.mask, size := p.size - 1 }, p.data p.head, _,
        h.queue.valid.contents_pop hpos, if_neg hempty, ⟨hintact, h.bytes⟩, ?_⟩
      have hnext : (p.head + 1) &&& p.mask = (p.head + 1) % (p.mask + 1) := by
        have hmask := h.queue.mask (p.head + 1)
        rwa [← h.queue.size] at hmask
      unfold Pipe.contents Pipe.queue Queue.cursors RingBuffer.Cursors.pop
      dsimp only
      rw [hnext]

/-- Putting appends a byte, or finds that there is no room. -/
theorem Intact.put (h : p.Intact n) (c : UInt8) :
    (p.size + 1 = n ∧ p.ucxPipePut c = (p, -1))
      ∨ ∃ p', p.size + 1 < n ∧ p.ucxPipePut c = (p', 0) ∧ p'.Intact n ∧ p'.contents = p.contents ++ [c] := by
  by_cases hfull : (p.tail + 1) &&& p.mask = p.head
  · left
    have hnone : p.queue.enqueue c.toNat = none := if_pos hfull
    exact ⟨h.queue.enqueue_eq_none.mp hnone, if_pos hfull⟩
  · right
    have hpdata : Function.update p.queue.pdata p.tail c.toNat
        = fun i => (Function.update p.data p.tail c i).toNat := by
      funext i
      by_cases hi : i = p.tail
      · subst hi
        simp
      · simp [Function.update_of_ne hi, Pipe.queue]
    have hsome : p.queue.enqueue c.toNat = some { p.queue with
        pdata := fun i => (Function.update p.data p.tail c i).toNat, tail := (p.tail + 1) &&& p.mask,
        elem := p.size + 1 } := by
      rw [← hpdata]
      exact if_neg hfull
    obtain ⟨hintact, hcontents, -⟩ := h.queue.enqueue hsome
    have hroom := h.queue.room
    have hne : p.size + 1 ≠ n := by
      intro heq
      rw [h.queue.enqueue_eq_none.mpr heq] at hsome
      exact absurd hsome (by simp)
    refine ⟨_, lt_of_le_of_ne hroom hne, if_neg hfull, ⟨hintact, h.bytes⟩, ?_⟩
    have hinj : Function.Injective UInt8.toNat := fun a b => UInt8.toNat_inj.mp
    apply hinj.list_map
    rw [contents_toNat, List.map_append, contents_toNat]
    exact hcontents

theorem Intact.flush (h : p.Intact n) : p.ucxPipeFlush.Intact n where
  queue :=
    { size := h.queue.size
      two_le := h.queue.two_le
      mask := h.queue.mask
      valid := RingBuffer.Cursors.valid_clear p.queue.cursors
      room := by
        have htwo := h.queue.two_le
        exact (by omega : 0 + 1 ≤ n) }
  bytes := h.bytes

end Pipe

/-! ## Storage -/

namespace PipeSystem

variable {s s' : PipeSystem} {n : Nat} {signedChar : Bool} {e : Event} {es : List Event}

/-- A new pipe, before any call. -/
def created (data : Area) (size : UInt16) : PipeSystem := ⟨Pipe.ucxPipeCreate data size, fun _ => none⟩

theorem moveByte_intact {p : Pipe} (h : p.Intact n) (signedChar : Bool) (call : PipeCall) :
    (moveByte signedChar p call).1.Intact n := by
  unfold moveByte
  split
  · rcases h.get signedChar with ⟨-, hget⟩ | ⟨p', c, rest, -, hget, hintact, -⟩
    · rw [hget]
      exact h
    · rw [hget]
      dsimp only
      split
      · exact hintact
      · exact hintact
  · rcases h.put (call.data call.i) with ⟨-, hput⟩ | ⟨p', -, hput, hintact, -⟩
    · rw [hput]
      exact h
    · rw [hput]
      exact hintact

theorem step_intact (h : s.pipe.Intact n) (hstep : step signedChar s e = some s') : s'.pipe.Intact n := by
  cases e with
  | start task function data size =>
      unfold step at hstep
      dsimp only at hstep
      split at hstep
      · simp at hstep
      · rw [Option.some.injEq] at hstep
        subst hstep
        exact h
  | turn task =>
      unfold step at hstep
      dsimp only at hstep
      split at hstep
      · simp at hstep
      · rename_i call hcall
        have hmoved := moveByte_intact h signedChar call
        split at hstep
        · split at hstep
          · rename_i hmove
            rw [hmove] at hmoved
            rw [Option.some.injEq] at hstep
            subst hstep
            exact hmoved
          · rename_i hmove
            rw [hmove] at hmoved
            split at hstep <;> rw [Option.some.injEq] at hstep <;> subst hstep
            · exact hmoved
            · exact hmoved
        · rw [Option.some.injEq] at hstep
          subst hstep
          exact h
  | flush =>
      cases hstep
      exact h.flush

/-- Every access is within the storage exactly if the size is at most 32768. -/
theorem pipe_inBounds_iff (signedChar : Bool) (data : Area) (size : UInt16) :
    (∀ es s', run (step signedChar) (created data size) es = some s' → s'.pipe.InBounds)
      ↔ size.toNat ≤ 32768 := by
  constructor
  · intro hbounds
    by_contra hlt
    have hhead := (hbounds [] _ rfl).head
    have hzero : (created data size).pipe.bytes = 0 := Pipe.pipeSize_eq_zero (by omega)
    rw [hzero] at hhead
    exact absurd hhead (Nat.not_lt_zero _)
  · intro hle es s' hrun
    have hintact : s'.pipe.Intact (queueSize size.toNat) :=
      run_invariant (I := fun t : PipeSystem => t.pipe.Intact (queueSize size.toNat)) hrun
        (fun _ _ _ h hstep => step_intact h hstep) (Pipe.intact_create data hle)
    exact hintact.inBounds

/-- Asked for with 32769 bytes, a pipe gets none. -/
theorem pipe_without_storage :
    ¬ ∀ es s', run (step true) (created (fun _ => 0) 32769) es = some s' → s'.pipe.InBounds := by
  intro hbounds
  have hhead := (hbounds [] _ rfl).head
  exact absurd hhead (by decide)

/-! ## Bytes in and out -/

/-- What an observer of the calls notes: the bytes that have been read and written, in this order and by
    which task; what the finished reads of each task have returned and its finished writes have reported
    written; and what a pipe held when a non-blocking read stopped short. -/
structure History where
  reads : List (Nat × UInt8)
  writes : List (Nat × UInt8)
  returned : Nat → List UInt8
  reported : Nat → List UInt8
  shortReads : List (List UInt8)

namespace History

variable {h : History}

def start : History := ⟨[], [], fun _ => [], fun _ => [], []⟩

/-- A call has moved a byte. -/
def move (h : History) (task : Nat) (call : PipeCall) (c : UInt8) : History :=
  if call.function.Reads then { h with reads := h.reads ++ [(task, c)] }
  else { h with writes := h.writes ++ [(task, c)] }

/-- A call has returned. -/
def finish (h : History) (task : Nat) (call : PipeCall) : History :=
  if call.function.Reads then
    { h with returned := Function.update h.returned task (h.returned task ++ call.moved) }
  else { h with reported := Function.update h.reported task (h.reported task ++ call.moved) }

/-- A non-blocking call has stopped short. -/
def stopShort (h : History) (call : PipeCall) (stored : List UInt8) : History :=
  if call.function.Reads then { h with shortReads := h.shortReads ++ [stored] } else h

/-- What an event adds. -/
def update (signedChar : Bool) (h : History) (s : PipeSystem) : Event → History
  | .turn task =>
    match s.calls task with
    | none => h
    | some call =>
      if call.i < call.size.toNat then
        match moveByte signedChar s.pipe call with
        | (_, some call') => h.move task call (call'.data call.i)
        | (_, none) =>
          if call.function.NonBlocking then (h.stopShort call s.pipe.contents).finish task call else h
      else h.finish task call
  | _ => h

end History

/-- The bytes a task's call in progress has read (or written). -/
def inProgress (s : PipeSystem) (task : Nat) (reads : Prop) [Decidable reads] : List UInt8 :=
  match s.calls task with
  | none => []
  | some call => if (call.function.Reads ↔ reads) then call.moved else []

/-- The bytes of one task. -/
def ofTask (task : Nat) (log : List (Nat × UInt8)) : List UInt8 :=
  (log.filter fun entry => entry.1 = task).map Prod.snd

/-- A pipe is a transparent FIFO: what has been read and then what is stored is what has been written, each
    task's bytes are those its calls return or report, and a non-blocking read has stopped short only on an
    empty pipe. -/
structure Transparent (s : PipeSystem) (h : History) : Prop where
  fifo : h.reads.map Prod.snd ++ s.pipe.contents = h.writes.map Prod.snd
  size : h.reads.length + s.pipe.size = h.writes.length
  returned : ∀ task, ofTask task h.reads = h.returned task ++ s.inProgress task True
  reported : ∀ task, ofTask task h.writes = h.reported task ++ s.inProgress task False
  shortReads : ∀ stored ∈ h.shortReads, stored = []

/-- The pipe is not flushed, and no byte 0xff is about to be read where it looks like an empty pipe. -/
def NoneLost (signedChar : Bool) (s : PipeSystem) : Event → Prop
  | .start .. => True
  | .turn task =>
    match s.calls task with
    | none => True
    | some call => call.function.Reads → call.i < call.size.toNat → signedChar = true →
      s.pipe.contents.head? ≠ some 0xff
  | .flush => False

instance (signedChar : Bool) (s : PipeSystem) (e : Event) : Decidable (s.NoneLost signedChar e) :=
  match e with
  | .start .. => inferInstanceAs (Decidable True)
  | .turn task =>
    match hcall : s.calls task with
    | none => isTrue (by simp only [NoneLost, hcall])
    | some call => decidable_of_iff (call.function.Reads → call.i < call.size.toNat → signedChar = true →
        s.pipe.contents.head? ≠ some 0xff) (by simp only [NoneLost, hcall])
  | .flush => inferInstanceAs (Decidable False)

/-! ### One byte -/

theorem toChar_charValue (signedChar : Bool) (c : UInt8) : toChar (charValue signedChar c) = c := by
  have hlt := c.toNat_lt
  have hnat : (charValue signedChar c % 256).toNat = c.toNat := by
    unfold charValue
    split <;> omega
  rw [toChar, hnat, UInt8.ofNat_toNat]

/-- Only a signed 0xff reads as -1. -/
theorem charValue_eq_neg_one {signedChar : Bool} {c : UInt8} (h : charValue signedChar c = -1) :
    signedChar = true ∧ c = 0xff := by
  have hlt := c.toNat_lt
  unfold charValue at h
  split at h
  · rename_i hsigned
    refine ⟨hsigned.1, UInt8.toNat_inj.mp ?_⟩
    have hvalue : (0xff : UInt8).toNat = 255 := rfl
    omega
  · omega

/-- A critical section that moves no byte leaves the pipe as it was; of a read, it has found it empty. -/
theorem moveByte_none {p p' : Pipe} {call : PipeCall} (hp : p.Intact n)
    (hlost : call.function.Reads → signedChar = true → p.contents.head? ≠ some 0xff)
    (hmove : moveByte signedChar p call = (p', none)) :
    p' = p ∧ (call.function.Reads → p.contents = []) := by
  unfold moveByte at hmove
  split at hmove
  · rename_i hreads
    rcases hp.get signedChar with ⟨hempty, hget⟩ | ⟨q, c, rest, hcons, hget, -, -⟩
    · rw [hget] at hmove
      dsimp only at hmove
      rw [if_pos rfl, Prod.mk.injEq] at hmove
      exact ⟨hmove.1.symm, fun _ => hempty⟩
    · rw [hget] at hmove
      dsimp only at hmove
      split at hmove
      · rename_i hminus
        obtain ⟨hsigned, rfl⟩ := charValue_eq_neg_one hminus
        rw [hcons] at hlost
        exact absurd rfl (hlost hreads hsigned)
      · simp at hmove
  · rename_i hwrites
    rcases hp.put (call.data call.i) with ⟨-, hput⟩ | ⟨q, -, hput, -, -⟩
    · rw [hput] at hmove
      dsimp only at hmove
      rw [if_pos rfl, Prod.mk.injEq] at hmove
      exact ⟨hmove.1.symm, fun hreads => absurd hreads hwrites⟩
    · rw [hput] at hmove
      simp at hmove

/-- A critical section that moves a byte takes the first one into the caller's buffer, or puts the caller's
    behind the others. -/
theorem moveByte_some {p p' : Pipe} {call call' : PipeCall} (hp : p.Intact n)
    (hmove : moveByte signedChar p call = (p', some call')) :
    (call.function.Reads ∧ ∃ c, p.contents = c :: p'.contents
        ∧ call' = { call with data := Function.update call.data call.i c, i := call.i + 1 })
      ∨ ¬ call.function.Reads ∧ p'.contents = p.contents ++ [call.data call.i]
        ∧ call' = { call with i := call.i + 1 } := by
  unfold moveByte at hmove
  split at hmove
  · rename_i hreads
    left
    rcases hp.get signedChar with ⟨-, hget⟩ | ⟨q, c, rest, hcons, hget, -, hrest⟩
    · rw [hget] at hmove
      simp at hmove
    · rw [hget] at hmove
      dsimp only at hmove
      split at hmove
      · simp at hmove
      · rw [toChar_charValue, Prod.mk.injEq, Option.some.injEq] at hmove
        obtain ⟨rfl, rfl⟩ := hmove
        exact ⟨hreads, c, by rw [hrest, hcons], rfl⟩
  · rename_i hwrites
    right
    rcases hp.put (call.data call.i) with ⟨-, hput⟩ | ⟨q, -, hput, -, hcontents⟩
    · rw [hput] at hmove
      simp at hmove
    · rw [hput] at hmove
      dsimp only at hmove
      rw [if_neg (by decide), Prod.mk.injEq, Option.some.injEq] at hmove
      obtain ⟨rfl, rfl⟩ := hmove
      exact ⟨hwrites, hcontents, rfl⟩

/-! ### The observer's notes -/

variable {h : History} {task : Nat} {call : PipeCall} {c : UInt8}

theorem ofTask_append (t : Nat) (log : List (Nat × UInt8)) (task : Nat) (c : UInt8) :
    ofTask t (log ++ [(task, c)]) = ofTask t log ++ if t = task then [c] else [] := by
  unfold ofTask
  rw [List.filter_append, List.map_append]
  congr 1
  by_cases heq : t = task
  · subst heq
    simp
  · have hne : ¬ task = t := fun h' => heq h'.symm
    simp [heq, hne]

theorem inProgress_self {reads : Prop} [Decidable reads] (hcall : s.calls task = some call) :
    s.inProgress task reads = if (call.function.Reads ↔ reads) then call.moved else [] := by
  unfold inProgress
  rw [hcall]

theorem inProgress_none {reads : Prop} [Decidable reads] (hcall : s.calls task = none) :
    s.inProgress task reads = [] := by
  unfold inProgress
  rw [hcall]

/-- Another task's call has changed. -/
theorem inProgress_of_ne {reads : Prop} [Decidable reads] {t : Nat}
    (hcalls : ∀ t, t ≠ task → s'.calls t = s.calls t) (hne : t ≠ task) :
    s'.inProgress t reads = s.inProgress t reads := by
  unfold inProgress
  rw [hcalls t hne]

theorem moved_write : ({ call with i := call.i + 1 } : PipeCall).moved = call.moved ++ [call.data call.i] := by
  unfold PipeCall.moved Area.bytes
  rw [List.range_succ, List.map_append, List.map_singleton]

theorem moved_read :
    ({ call with data := Function.update call.data call.i c, i := call.i + 1 } : PipeCall).moved
      = call.moved ++ [c] := by
  unfold PipeCall.moved Area.bytes
  dsimp only
  rw [List.range_succ, List.map_append, List.map_singleton, Function.update_self]
  congr 1
  refine List.map_congr_left fun j hj => Function.update_of_ne ?_ _ _
  exact (List.mem_range.mp hj).ne

namespace Transparent

/-- A call begins: no byte has been moved. -/
theorem start (hT : s.Transparent h) (hnone : s.calls task = none) (function : PipeFunction) (data : Area)
    (size : UInt16) :
    Transparent { s with calls := Function.update s.calls task (some ⟨function, data, size, 0⟩) } h := by
  have hsame : ∀ (t : Nat) (reads : Prop) [Decidable reads], inProgress
      { s with calls := Function.update s.calls task (some ⟨function, data, size, 0⟩) } t reads
        = s.inProgress t reads := by
    intro t reads _
    by_cases heq : t = task
    · subst heq
      rw [inProgress_none hnone, inProgress_self (Function.update_self _ _ _)]
      simp [PipeCall.moved, Area.bytes]
    · exact inProgress_of_ne (fun t ht => Function.update_of_ne ht _ _) heq
  refine ⟨hT.fifo, hT.size, fun t => ?_, fun t => ?_, hT.shortReads⟩
  · rw [hsame]
    exact hT.returned t
  · rw [hsame]
    exact hT.reported t

/-- A call returns what it has moved. -/
theorem finish (hT : s.Transparent h) (hcall : s.calls task = some call) :
    Transparent { s with calls := Function.update s.calls task none } (h.finish task call) := by
  have hother : ∀ t, t ≠ task → Function.update s.calls task none t = s.calls t := fun t ht =>
    Function.update_of_ne ht _ _
  have hreturned := hT.returned task
  have hreported := hT.reported task
  rw [inProgress_self hcall] at hreturned hreported
  unfold History.finish
  by_cases hreads : call.function.Reads
  · rw [if_pos hreads]
    simp only [hreads, if_true, iff_false, not_true, if_false] at hreturned hreported
    refine ⟨hT.fifo, hT.size, fun t => ?_, fun t => ?_, hT.shortReads⟩
    · by_cases heq : t = task
      · subst heq
        dsimp only
        rw [inProgress_none (Function.update_self _ _ _), Function.update_self, hreturned, List.append_nil]
      · dsimp only
        rw [inProgress_of_ne (s := s) hother heq, Function.update_of_ne heq]
        exact hT.returned t
    · by_cases heq : t = task
      · subst heq
        rw [inProgress_none (Function.update_self _ _ _)]
        exact hreported
      · rw [inProgress_of_ne hother heq]
        exact hT.reported t
  · rw [if_neg hreads]
    simp only [hreads, iff_true, if_true, if_false] at hreturned hreported
    refine ⟨hT.fifo, hT.size, fun t => ?_, fun t => ?_, hT.shortReads⟩
    · by_cases heq : t = task
      · subst heq
        rw [inProgress_none (Function.update_self _ _ _)]
        exact hreturned
      · rw [inProgress_of_ne hother heq]
        exact hT.returned t
    · by_cases heq : t = task
      · subst heq
        dsimp only
        rw [inProgress_none (Function.update_self _ _ _), Function.update_self, hreported, List.append_nil]
      · dsimp only
        rw [inProgress_of_ne (s := s) hother heq, Function.update_of_ne heq]
        exact hT.reported t

/-- A non-blocking call stops short; if it reads, on an empty pipe. -/
theorem stopShort (hT : s.Transparent h) {stored : List UInt8}
    (hempty : call.function.Reads → stored = []) : s.Transparent (h.stopShort call stored) := by
  unfold History.stopShort
  split
  · rename_i hreads
    refine ⟨hT.fifo, hT.size, hT.returned, hT.reported, fun bytes hbytes => ?_⟩
    rcases List.mem_append.mp hbytes with hold | hnew
    · exact hT.shortReads bytes hold
    · rw [List.mem_singleton.mp hnew]
      exact hempty hreads
  · exact hT

/-- A byte is read. -/
theorem moveRead (hT : s.Transparent h) (hcall : s.calls task = some call) (hreads : call.function.Reads)
    {p : Pipe} (hcontents : s.pipe.contents = c :: p.contents) :
    Transparent ⟨p, Function.update s.calls task
      (some { call with data := Function.update call.data call.i c, i := call.i + 1 })⟩
      (h.move task call c) := by
  have hother : ∀ (new : Option PipeCall) t, t ≠ task → Function.update s.calls task new t = s.calls t :=
    fun _ t ht => Function.update_of_ne ht _ _
  have hsize : s.pipe.size = p.size + 1 := by
    rw [← Pipe.contents_length, hcontents, List.length_cons, Pipe.contents_length]
  unfold History.move
  rw [if_pos hreads]
  refine ⟨?_, ?_, fun t => ?_, fun t => ?_, hT.shortReads⟩
  · have hfifo := hT.fifo
    rw [hcontents] at hfifo
    simpa using hfifo
  · have hlength := hT.size
    rw [List.length_append, List.length_singleton]
    dsimp only
    omega
  · dsimp only
    rw [ofTask_append]
    have hreturned := hT.returned t
    by_cases heq : t = task
    · subst heq
      rw [inProgress_self hcall, if_pos (by simp [hreads])] at hreturned
      rw [if_pos rfl, inProgress_self (Function.update_self _ _ _), if_pos (by simp [hreads]), moved_read,
        hreturned, List.append_assoc]
    · rw [inProgress_of_ne (s := s) (hother _) heq, if_neg heq, List.append_nil]
      exact hreturned
  · have hreported := hT.reported t
    by_cases heq : t = task
    · subst heq
      rw [inProgress_self hcall, if_neg (by simp [hreads])] at hreported
      rw [inProgress_self (Function.update_self _ _ _), if_neg (by simp [hreads])]
      exact hreported
    · rw [inProgress_of_ne (s := s) (hother _) heq]
      exact hreported

/-- A byte is written. -/
theorem moveWrite (hT : s.Transparent h) (hcall : s.calls task = some call)
    (hwrites : ¬ call.function.Reads) {p : Pipe}
    (hcontents : p.contents = s.pipe.contents ++ [call.data call.i]) :
    Transparent ⟨p, Function.update s.calls task (some { call with i := call.i + 1 })⟩
      (h.move task call (call.data call.i)) := by
  have hother : ∀ (new : Option PipeCall) t, t ≠ task → Function.update s.calls task new t = s.calls t :=
    fun _ t ht => Function.update_of_ne ht _ _
  have hsize : p.size = s.pipe.size + 1 := by
    rw [← Pipe.contents_length, hcontents, List.length_append, Pipe.contents_length, List.length_singleton]
  unfold History.move
  rw [if_neg hwrites]
  refine ⟨?_, ?_, fun t => ?_, fun t => ?_, hT.shortReads⟩
  · dsimp only
    rw [hcontents, ← List.append_assoc, hT.fifo, List.map_append, List.map_singleton]
  · have hlength := hT.size
    rw [List.length_append, List.length_singleton]
    dsimp only
    omega
  · have hreturned := hT.returned t
    by_cases heq : t = task
    · subst heq
      rw [inProgress_self hcall, if_neg (by simp [hwrites])] at hreturned
      rw [inProgress_self (Function.update_self _ _ _), if_neg (by simp [hwrites])]
      exact hreturned
    · rw [inProgress_of_ne (s := s) (hother _) heq]
      exact hreturned
  · dsimp only
    rw [ofTask_append]
    have hreported := hT.reported t
    by_cases heq : t = task
    · subst heq
      rw [inProgress_self hcall, if_pos (by simp [hwrites])] at hreported
      rw [if_pos rfl, inProgress_self (Function.update_self _ _ _), if_pos (by simp [hwrites]), moved_write,
        hreported, List.append_assoc]
    · rw [inProgress_of_ne (s := s) (hother _) heq, if_neg heq, List.append_nil]
      exact hreported

end Transparent

/-- One event, unless it flushes the pipe or loses a byte. -/
theorem Transparent.step (hT : s.Transparent h) (hintact : s.pipe.Intact n)
    (hlost : s.NoneLost signedChar e) (hstep : PipeSystem.step signedChar s e = some s') :
    s'.Transparent (h.update signedChar s e) := by
  cases e with
  | start task function data size =>
      unfold PipeSystem.step at hstep
      dsimp only at hstep
      split at hstep
      · simp at hstep
      · rename_i hnone
        rw [Option.some.injEq] at hstep
        subst hstep
        exact hT.start hnone function data size
  | turn task =>
      unfold PipeSystem.step at hstep
      unfold History.update
      unfold NoneLost at hlost
      cases hcall : s.calls task with
      | none => simp [hcall] at hstep
      | some call =>
          simp only [hcall] at hstep hlost ⊢
          by_cases hmore : call.i < call.size.toNat
          · rw [if_pos hmore] at hstep ⊢
            cases hmove : moveByte signedChar s.pipe call with
            | mk p next =>
                rw [hmove] at hstep
                cases next with
                | none =>
                    obtain ⟨rfl, hempty⟩ := moveByte_none hintact (fun hreads => hlost hreads hmore) hmove
                    dsimp only at hstep ⊢
                    by_cases hnb : call.function.NonBlocking
                    · rw [if_pos hnb, Option.some.injEq] at hstep
                      subst hstep
                      rw [if_pos hnb]
                      exact (hT.stopShort hempty).finish hcall
                    · rw [if_neg hnb, Option.some.injEq] at hstep
                      subst hstep
                      rw [if_neg hnb]
                      exact hT
                | some call' =>
                    dsimp only at hstep ⊢
                    rw [Option.some.injEq] at hstep
                    subst hstep
                    rcases moveByte_some hintact hmove with ⟨hreads, c, hcons, rfl⟩ | ⟨hwrites, hcontents, rfl⟩
                    · have hT' := hT.moveRead hcall hreads hcons
                      simpa using hT'
                    · exact hT.moveWrite hcall hwrites hcontents
          · rw [if_neg hmore, Option.some.injEq] at hstep
            subst hstep
            rw [if_neg hmore]
            exact hT.finish hcall
  | flush => exact absurd hlost id

theorem transparent_start (data : Area) (size : UInt16) : (created data size).Transparent History.start := by
  have hcontents : (created data size).pipe.contents = [] := Pipe.contents_create data size
  refine ⟨?_, rfl, fun t => rfl, fun t => rfl, by simp [History.start]⟩
  rw [hcontents]
  rfl

/-- A pipe that loses no byte to the mark of an empty pipe is a transparent FIFO, whichever calls are made
    and however their turns mix. -/
theorem pipe_transparent (signedChar : Bool) (data : Area) {size : UInt16} {es : List Event}
    {s' : PipeSystem} (hsize : size.toNat ≤ 32768)
    (hrun : GuardedRun (step signedChar) (NoneLost signedChar) (created data size) es s') :
    s'.Transparent (record (step signedChar) (History.update signedChar) History.start
      (created data size) es) := by
  have hinvariant := hrun.record_invariant (f := History.update signedChar) (b := History.start)
    (I := fun t b => t.pipe.Intact (queueSize size.toNat) ∧ t.Transparent b)
    (fun t e t' b hI hok hstep => ⟨step_intact hI.1 hstep, hI.2.step hI.1 hok hstep⟩)
    ⟨Pipe.intact_create data hsize, transparent_start data size⟩
  exact hinvariant.2

/-- Two bytes through a pipe of two slots, where `char` is signed. -/
def twoBytes : List Event :=
  [.start 0 .write (fun i => UInt8.ofNat i) 2, .turn 0, .turn 0, .start 1 .read (fun _ => 0) 2, .turn 1,
    .turn 0, .turn 1, .turn 1, .turn 0]

theorem pipe_transparent_twoBytes :
    ∃ s', GuardedRun (step true) (NoneLost true) (created (fun _ => 0) 2) twoBytes s'
      ∧ s'.Transparent (record (step true) (History.update true) History.start
        (created (fun _ => 0) 2) twoBytes) := by
  obtain ⟨s', hrun⟩ : ∃ s', checkedRun (step true) (NoneLost true) (created (fun _ => 0) 2) twoBytes
      = some s' := ⟨_, rfl⟩
  have hguarded := guardedRun_of_checked hrun
  exact ⟨s', hguarded, pipe_transparent true (fun _ => 0) (by decide) hguarded⟩

/-- A byte 0xff written and read back, where `char` is signed. -/
def lostByte : List Event :=
  [.start 0 .nbwrite (fun _ => 0xff) 1, .turn 0, .turn 0, .start 0 .nbread (fun _ => 0) 1, .turn 0]

/-- The byte is gone: the read has returned none, and none is stored. -/
theorem pipe_not_transparent_lostByte :
    ¬ ∀ s', run (step true) (created (fun _ => 0) 2) lostByte = some s' →
      s'.Transparent (record (step true) (History.update true) History.start
        (created (fun _ => 0) 2) lostByte) := by
  intro htransparent
  have hsize := (htransparent _ rfl).size
  exact absurd hsize (by decide)

end PipeSystem

end UcxArinc
