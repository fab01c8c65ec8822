import UcxArinc.Proofs.BufferMoves
import UcxArinc.Proofs.EndsOfWaits

set_option autoImplicit false

/-! # The counters of the buffers

In every state a partition reaches the counters of a buffer agree with each other, and with those who wait:
for a message where there is none, for room where there is none. -/

namespace UcxArinc

namespace Pcb

variable {s s' t : Pcb} {i j : Nat} {event : MessageChannel.Event Nat (List UInt8)}

/-- The counters of buffer `i`. -/
def bufferCursors (s : Pcb) (i : Nat) : RingBuffer.Cursors where
  size := (s.res.buffers i).maxNbMessage.toNat
  readIndex := (s.res.buffers i).readIndex
  writeIndex := (s.res.buffers i).writeIndex
  count := (s.res.buffers i).nbMessage.toNat

/-- The counters of buffer `i` are in range and agree. -/
structure RingSound (s : Pcb) (i : Nat) : Prop where
  messageSize_pos : 0 < (s.res.buffers i).maxMessageSize
  size_pos : 0 < (s.res.buffers i).maxNbMessage
  size_lt : (s.res.buffers i).maxNbMessage < 2 ^ 31
  nonneg : 0 ≤ (s.res.buffers i).nbMessage
  valid : (s.bufferCursors i).Valid

/-- Besides, its waiters wait for what is not there. -/
structure BufferSound (s : Pcb) (i : Nat) : Prop extends RingSound s i where
  readers : s.waitingProcesses (.bufferReaders i) ≠ [] → (s.res.buffers i).nbMessage = 0
  writers : s.waitingProcesses (.bufferWriters i) ≠ [] →
    (s.res.buffers i).nbMessage = (s.res.buffers i).maxNbMessage

/-- Every buffer there is. -/
def BuffersSound (s : Pcb) : Prop := ∀ i < s.res.bufferCount, BufferSound s i

theorem RingSound.count_le (h : RingSound s i) :
    (s.res.buffers i).nbMessage ≤ (s.res.buffers i).maxNbMessage := by
  have hle := h.valid.count_le
  simp only [bufferCursors] at hle
  have hpos := h.size_pos
  omega

theorem toU32_of_lt {x : Int} (hnonneg : 0 ≤ x) (hlt : x < 2 ^ 32) : toU32 x = x.toNat := by
  rw [toU32, Int.emod_eq_of_lt hnonneg hlt]

/-- `(slot + 1) % MAX_NB_MESSAGE` does not wrap. -/
theorem RingSound.nextSlot (h : RingSound s i) {slot : Nat} (hslot : slot < (s.bufferCursors i).size) :
    s.nextSlot i slot = (slot + 1) % (s.bufferCursors i).size := by
  have hsize := h.size_pos
  have hlt := h.size_lt
  simp only [bufferCursors] at hslot ⊢
  rw [Pcb.nextSlot, toU32_of_lt hsize.le (by omega), u32, Nat.mod_eq_of_lt (by omega : slot + 1 < 2 ^ 32)]

theorem RingSound.cursors_pos (h : RingSound s i) : 0 < (s.bufferCursors i).size := by
  have hsize := h.size_pos
  simp only [bufferCursors]
  omega

theorem RingSound.readIndex_lt (h : RingSound s i) : (s.res.buffers i).readIndex < (s.bufferCursors i).size :=
  h.valid.readIndex_lt h.cursors_pos

theorem RingSound.writeIndex_lt (h : RingSound s i) :
    (s.res.buffers i).writeIndex < (s.bufferCursors i).size := by
  have hwrite : (s.res.buffers i).writeIndex = _ := h.valid.writeIndex_eq
  rw [hwrite]
  exact Nat.mod_lt _ h.cursors_pos

/-- What is true of the counters rests on the record. -/
theorem RingSound.congr (h : RingSound s i) (hrecord : t.res.buffers i = s.res.buffers i) : RingSound t i := by
  obtain ⟨hmessage, hpos, hlt, hnonneg, hvalid⟩ := h
  refine ⟨hrecord ▸ hmessage, hrecord ▸ hpos, hrecord ▸ hlt, hrecord ▸ hnonneg, ?_⟩
  rw [bufferCursors, hrecord]
  exact hvalid

/-! ## Storing and taking -/

theorem storeMessage_buffers (s : Pcb) (j : Nat) (messageAddr : Area) (length : Int) :
    (s.storeMessage j messageAddr length).res.buffers = Function.update s.res.buffers j { s.res.buffers j with
      nbMessage := (s.res.buffers j).nbMessage + 1
      writeIndex := s.nextSlot j (s.res.buffers j).writeIndex } := rfl

theorem takeMessage_buffers (s : Pcb) (j p : Nat) :
    (s.takeMessage j p).res.buffers = Function.update s.res.buffers j { s.res.buffers j with
      nbMessage := (s.res.buffers j).nbMessage - 1
      readIndex := s.nextSlot j (s.res.buffers j).readIndex } := rfl

/-- A message stored moves the write index. -/
theorem RingSound.push_eq (h : RingSound s j) (messageAddr : Area) (length : Int) :
    (s.storeMessage j messageAddr length).bufferCursors j = (s.bufferCursors j).push := by
  have hnext := h.nextSlot h.writeIndex_lt
  have hcount : ((s.res.buffers j).nbMessage + 1).toNat = (s.res.buffers j).nbMessage.toNat + 1 :=
    Int.toNat_add h.nonneg (by decide)
  simp only [bufferCursors, storeMessage_buffers, Function.update_self, RingBuffer.Cursors.push] at hnext ⊢
  rw [hnext, hcount]

/-- A message taken out moves the read index. -/
theorem RingSound.pop_eq (h : RingSound s j) (p : Nat) :
    (s.takeMessage j p).bufferCursors j = (s.bufferCursors j).pop := by
  have hnext := h.nextSlot h.readIndex_lt
  have hcount : ((s.res.buffers j).nbMessage - 1).toNat = (s.res.buffers j).nbMessage.toNat - 1 := by omega
  simp only [bufferCursors, takeMessage_buffers, Function.update_self, RingBuffer.Cursors.pop] at hnext ⊢
  rw [hnext, hcount]

theorem RingSound.storeMessage (h : RingSound s j)
    (hroom : (s.res.buffers j).nbMessage < (s.res.buffers j).maxNbMessage) (messageAddr : Area) (length : Int) :
    RingSound (s.storeMessage j messageAddr length) j := by
  have hnonneg := h.nonneg
  have hvalid := h.valid.push (by simp only [bufferCursors]; omega)
  rw [← h.push_eq messageAddr length] at hvalid
  refine ⟨?_, ?_, ?_, ?_, hvalid⟩
  all_goals rw [storeMessage_buffers, Function.update_self]
  · exact h.messageSize_pos
  · exact h.size_pos
  · exact h.size_lt
  · exact Int.le_add_one hnonneg

theorem RingSound.takeMessage (h : RingSound s j) (hsome : 0 < (s.res.buffers j).nbMessage) (p : Nat) :
    RingSound (s.takeMessage j p) j := by
  have hvalid := h.valid.pop (by simp only [bufferCursors]; omega)
  rw [← h.pop_eq p] at hvalid
  refine ⟨?_, ?_, ?_, ?_, hvalid⟩
  all_goals rw [takeMessage_buffers, Function.update_self]
  · exact h.messageSize_pos
  · exact h.size_pos
  · exact h.size_lt
  · exact Int.sub_nonneg_of_le hsome

/-! ## Steps -/

/-- What a buffer loses of its waiters does not matter. -/
theorem BufferSound.kept (h : BufferSound s i) (hrecord : t.res.buffers i = s.res.buffers i)
    (hreaders : (t.waitingProcesses (.bufferReaders i)).Sublist (s.waitingProcesses (.bufferReaders i)))
    (hwriters : (t.waitingProcesses (.bufferWriters i)).Sublist (s.waitingProcesses (.bufferWriters i))) :
    BufferSound t i := by
  refine ⟨h.toRingSound.congr hrecord, fun hne => ?_, fun hne => ?_⟩
  · rw [hrecord]
    exact h.readers (MessageChannel.ne_nil_of_sublist hreaders hne)
  · rw [hrecord]
    exact h.writers (MessageChannel.ne_nil_of_sublist hwriters hne)

/-- The records of the buffers, their number and the stored bytes. -/
theorem buffers_of_store (h : t.bufferStore = s.bufferStore) : t.res.buffers = s.res.buffers
    ∧ t.res.bufferCount = s.res.bufferCount ∧ t.res.buffersData = s.res.buffersData
    ∧ t.res.buffersSizeData = s.res.buffersSizeData := by
  simpa [bufferStore] using h

/-- The call of a service for buffer `j` keeps it sound. -/
theorem BufferMove.soundSelf (hmove : BufferMove s j event t) (h : BufferSound s j) : BufferSound t j := by
  cases hmove with
  | stored messageAddr length hpos hfits hroom hnobody hstore hlists =>
      obtain ⟨hbuffers, -⟩ := buffers_of_store hstore
      refine ⟨(h.toRingSound.storeMessage hroom messageAddr length).congr (congrFun hbuffers j), ?_, ?_⟩
      · rw [hlists]
        exact fun hne => absurd hnobody hne
      · rw [hlists]
        exact fun hne => absurd (h.writers hne) hroom.ne
  | handed message hroom hfirst hstore hlists =>
      obtain ⟨hbuffers, -⟩ := buffers_of_store hstore
      refine h.kept (congrFun hbuffers j) ?_ ?_
      · rw [hlists, Function.update_self, hfirst]
        exact List.sublist_cons_self _ _
      · rw [hlists, Function.update_of_ne (by simp)]
  | taken p hsome hnobody hstore hlists =>
      obtain ⟨hbuffers, -⟩ := buffers_of_store hstore
      refine ⟨(h.toRingSound.takeMessage hsome p).congr (congrFun hbuffers j), ?_, ?_⟩
      · rw [hlists]
        exact fun hne => absurd (h.readers hne) hsome.ne'
      · rw [hlists]
        exact fun hne => absurd hnobody hne
  | @exchanged t writer rest p hsome hfirst hstore hlists =>
      obtain ⟨hbuffers, -⟩ := buffers_of_store hstore
      have hfull := h.writers (by simp [hfirst])
      have htaken := h.toRingSound.takeMessage hsome p
      have hroom : ((s.takeMessage j p).res.buffers j).nbMessage
          < ((s.takeMessage j p).res.buffers j).maxNbMessage := by
        rw [takeMessage_buffers, Function.update_self]
        dsimp only
        omega
      have hstored := htaken.storeMessage hroom (s.proc writer).waitingMessage (s.proc writer).waitingMessageSize
      have hnumber : (t.res.buffers j).nbMessage = (s.res.buffers j).nbMessage
          ∧ (t.res.buffers j).maxNbMessage = (s.res.buffers j).maxNbMessage := by
        rw [hbuffers, storeMessage_buffers, takeMessage_buffers]
        simp
      refine ⟨hstored.congr (congrFun hbuffers j), ?_, ?_⟩
      · rw [hlists, Function.update_of_ne (by simp)]
        exact fun hne => absurd (h.readers hne) hsome.ne'
      · rw [hnumber.1, hnumber.2]
        exact fun _ => hfull
  | readerQueued hnone hreaders hstore hlists =>
      obtain ⟨hbuffers, -⟩ := buffers_of_store hstore
      refine ⟨h.toRingSound.congr (congrFun hbuffers j), fun _ => ?_, ?_⟩
      · rw [hbuffers]
        exact le_antisymm hnone h.nonneg
      · rw [hlists, Function.update_of_ne (by simp), hbuffers]
        exact h.writers
  | writerQueued hfull hwriters hstore hlists =>
      obtain ⟨hbuffers, -⟩ := buffers_of_store hstore
      refine ⟨h.toRingSound.congr (congrFun hbuffers j), ?_, fun _ => ?_⟩
      · rw [hlists, Function.update_of_ne (by simp), hbuffers]
        exact h.readers
      · rw [hbuffers]
        exact le_antisymm h.count_le hfull
  | refused hstore hlists =>
      obtain ⟨hbuffers, -⟩ := buffers_of_store hstore
      refine h.kept (congrFun hbuffers j) ?_ ?_
      · rw [hlists]
      · rw [hlists]

/-- Another buffer keeps its record and its waiters. -/
theorem BufferMove.others (hmove : BufferMove s j event t) (hne : i ≠ j) :
    t.res.buffers i = s.res.buffers i
      ∧ t.waitingProcesses (.bufferReaders i) = s.waitingProcesses (.bufferReaders i)
      ∧ t.waitingProcesses (.bufferWriters i) = s.waitingProcesses (.bufferWriters i) := by
  cases hmove with
  | stored messageAddr length hpos hfits hroom hnobody hstore hlists =>
      obtain ⟨hbuffers, -⟩ := buffers_of_store hstore
      rw [hbuffers, hlists, storeMessage_buffers, Function.update_of_ne hne]
      exact ⟨rfl, rfl, rfl⟩
  | taken p hsome hnobody hstore hlists =>
      obtain ⟨hbuffers, -⟩ := buffers_of_store hstore
      rw [hbuffers, hlists, takeMessage_buffers, Function.update_of_ne hne]
      exact ⟨rfl, rfl, rfl⟩
  | exchanged p hsome hfirst hstore hlists =>
      obtain ⟨hbuffers, -⟩ := buffers_of_store hstore
      rw [hbuffers, hlists, storeMessage_buffers, takeMessage_buffers, Function.update_of_ne hne,
        Function.update_of_ne hne]
      simp [hne]
  | handed message hroom hfirst hstore hlists =>
      obtain ⟨hbuffers, -⟩ := buffers_of_store hstore
      rw [hbuffers, hlists]
      simp [hne]
  | readerQueued hnone hreaders hstore hlists =>
      obtain ⟨hbuffers, -⟩ := buffers_of_store hstore
      rw [hbuffers, hlists]
      simp [hne]
  | writerQueued hfull hwriters hstore hlists =>
      obtain ⟨hbuffers, -⟩ := buffers_of_store hstore
      rw [hbuffers, hlists]
      simp [hne]
  | refused hstore hlists =>
      obtain ⟨hbuffers, -⟩ := buffers_of_store hstore
      rw [hbuffers, hlists]
      exact ⟨rfl, rfl, rfl⟩

theorem BufferMove.count (hmove : BufferMove s j event t) : t.res.bufferCount = s.res.bufferCount := by
  cases hmove with
  | stored messageAddr length hpos hfits hroom hnobody hstore hlists => exact (buffers_of_store hstore).2.1
  | taken p hsome hnobody hstore hlists => exact (buffers_of_store hstore).2.1
  | exchanged p hsome hfirst hstore hlists => exact (buffers_of_store hstore).2.1
  | handed message hroom hfirst hstore hlists => exact (buffers_of_store hstore).2.1
  | readerQueued hnone hreaders hstore hlists => exact (buffers_of_store hstore).2.1
  | writerQueued hfull hwriters hstore hlists => exact (buffers_of_store hstore).2.1
  | refused hstore hlists => exact (buffers_of_store hstore).2.1

/-- The number of messages a buffer is created with is a number of 31 bits. -/
def ShortBuffers : Action → Prop
  | .call (.createBuffer _ _ maxNbMessage _) => maxNbMessage < 2 ^ 31
  | _ => True

/-- A new buffer is sound, and the others are as before. -/
theorem BufferCreated.sound {maxMessageSize maxNbMessage : Int} (hnew : BufferCreated maxMessageSize maxNbMessage s s')
    (hshort : maxNbMessage < 2 ^ 31) (h : BuffersSound s) : BuffersSound s' := by
  obtain ⟨name, bufferId, discipline, hrecord⟩ := hnew.record
  have hsize := hnew.size_pos
  have hnumber := hnew.number_pos
  intro i hi
  rw [hnew.count] at hi
  by_cases hlast : i = s.res.bufferCount
  · subst hlast
    have hself := congrFun hrecord s.res.bufferCount
    rw [Function.update_self] at hself
    have hvalid : (s'.bufferCursors s.res.bufferCount).Valid := by
      rw [bufferCursors, hself]
      exact ⟨id, Nat.zero_le _, (Nat.zero_mod _).symm⟩
    have hreaders : s'.waitingProcesses (.bufferReaders s.res.bufferCount) = [] := by
      rw [hnew.lists]
      simp
    have hwriters : s'.waitingProcesses (.bufferWriters s.res.bufferCount) = [] := by
      rw [hnew.lists]
      simp
    refine ⟨⟨?_, ?_, ?_, ?_, hvalid⟩, fun hne => absurd hreaders hne, fun hne => absurd hwriters hne⟩
    all_goals rw [hself]
    · exact hsize
    · exact hnumber
    · exact hshort
  · have hold : i < s.res.bufferCount := by omega
    refine (h i hold).kept ?_ ?_ ?_
    · rw [hrecord, Function.update_of_ne hlast]
    · rw [hnew.lists]
      simp [hlast]
    · rw [hnew.lists]
      simp [hlast]

/-- Every step keeps the buffers sound. -/
theorem BuffersSound.step {e : Action} (h : BuffersSound s) (hsound : Sound s) (hshort : ShortBuffers e)
    (hstep : s.step e = some s') : BuffersSound s' := by
  cases step_buffers hsound hstep with
  | moved j huses hj hmove =>
      intro i hi
      rw [hmove.count] at hi
      by_cases hsame : i = j
      · subst hsame
        exact hmove.soundSelf (h i hi)
      · obtain ⟨hrecord, hreaders, hwriters⟩ := hmove.others hsame
        exact (h i hi).kept hrecord (hreaders ▸ .refl _) (hwriters ▸ .refl _)
  | created name maxMessageSize maxNbMessage discipline hcall hnew =>
      rw [hcall] at hshort
      exact hnew.sound hshort h
  | kept hnot hstore hreaders hwriters =>
      obtain ⟨hbuffers, hcount, -⟩ := buffers_of_store hstore
      intro i hi
      exact (h i (hcount ▸ hi)).kept (congrFun hbuffers i) (hreaders i) (hwriters i)

theorem buffersSound_of_run (period identifier : Int) (conf : PartitionConf) (maxErrors : Nat) (krnl : Krnl)
    (memory : Nat → Process) (lastTick : Nat) {es : List Action}
    (hrun : Transition.GuardedRun Pcb.step (fun _ e => ShortBuffers e)
      (partitionInit period identifier conf maxErrors krnl memory lastTick).startPartitionOs es s) :
    Sound s ∧ BuffersSound s := by
  refine hrun.invariant (I := fun u => Sound u ∧ BuffersSound u) ?_
    ⟨sound_startPartitionOs period identifier conf maxErrors krnl memory lastTick, ?_⟩
  · rintro u e u' ⟨hu, hbuffers⟩ hshort hstep
    exact ⟨hu.step hstep, hbuffers.step hu hshort hstep⟩
  · intro i hi
    have hstores := congrArg (fun x => x.buffers.2.1)
      (startPartitionOs_stores (partitionInit period identifier conf maxErrors krnl memory lastTick))
    have hnone : (partitionInit period identifier conf maxErrors krnl memory
        lastTick).startPartitionOs.res.bufferCount = 0 := hstores
    omega

/-- In every state a partition reaches, whatever its processes do and however their waits end, each buffer holds
    between none and `MAX_NB_MESSAGE` messages, its write index is as far from its read index as there are
    messages, readers wait only where there is no message, writers only where there is no room, and the counter
    of waiting processes counts both. -/
theorem buffer_counters_agree (period identifier : Int) (conf : PartitionConf) (maxErrors : Nat) (krnl : Krnl)
    (memory : Nat → Process) (lastTick : Nat) {es : List Action}
    (hrun : Transition.GuardedRun Pcb.step (fun _ e => ShortBuffers e)
      (partitionInit period identifier conf maxErrors krnl memory lastTick).startPartitionOs es s)
    (hi : i < s.res.bufferCount) : 0 ≤ (s.res.buffers i).nbMessage
      ∧ (s.res.buffers i).nbMessage ≤ (s.res.buffers i).maxNbMessage
      ∧ ((s.res.buffers i).readIndex : Int) < (s.res.buffers i).maxNbMessage
      ∧ ((s.res.buffers i).writeIndex : Int)
        = ((s.res.buffers i).readIndex + (s.res.buffers i).nbMessage) % (s.res.buffers i).maxNbMessage
      ∧ (s.waitingProcesses (.bufferReaders i) ≠ [] → (s.res.buffers i).nbMessage = 0)
      ∧ (s.waitingProcesses (.bufferWriters i) ≠ [] →
        (s.res.buffers i).nbMessage = (s.res.buffers i).maxNbMessage)
      ∧ s.waitingCount (.buffer, i)
        = (s.waitingProcesses (.bufferReaders i)).length + (s.waitingProcesses (.bufferWriters i)).length := by
  obtain ⟨-, hbuffers⟩ := buffersSound_of_run period identifier conf maxErrors krnl memory lastTick hrun
  obtain ⟨-, hqueues⟩ := queues_of_run period identifier conf maxErrors krnl memory lastTick hrun.run_eq
  have h := hbuffers i hi
  have hsize := h.size_pos
  have hnonneg := h.nonneg
  have hread := h.readIndex_lt
  have hwrite := h.valid.writeIndex_eq
  simp only [bufferCursors] at hread hwrite
  refine ⟨hnonneg, h.count_le, by omega, ?_, h.readers, h.writers, ?_⟩
  · rw [hwrite]
    push_cast
    rw [Int.toNat_of_nonneg hnonneg, Int.toNat_of_nonneg hsize.le]
  · rw [hqueues.counted]
    simp [waitersIn, listsOf]

/-- Process 0 fills the buffer, receives once and sends until it has to wait. -/
def bufferFilling : List Action :=
  bufferUsers ++ [.call (.sendBuffer 1 (fun _ => 7) 4 0), .call (.sendBuffer 1 (fun _ => 8) 5 0),
    .call (.receiveBuffer 1 0 fun _ => 0), .call (.sendBuffer 1 (fun _ => 9) 6 0),
    .call (.sendBuffer 1 (fun _ => 6) 7 infiniteTimeValue)]

theorem buffer_counters_agree_full : ∃ s, Transition.run Pcb.step (defaultPartition 1) bufferFilling = some s
    ∧ s.waitingProcesses (.bufferWriters 0) = [0] ∧ (s.res.buffers 0).readIndex = 1
    ∧ (s.res.buffers 0).nbMessage = (s.res.buffers 0).maxNbMessage
    ∧ ((s.res.buffers 0).writeIndex : Int)
      = ((s.res.buffers 0).readIndex + (s.res.buffers 0).nbMessage) % (s.res.buffers 0).maxNbMessage := by
  have hstate : ((Transition.run Pcb.step (defaultPartition 1) bufferFilling).map fun s =>
      (s.waitingProcesses (.bufferWriters 0), (s.res.buffers 0).readIndex, s.res.bufferCount))
      = some ([0], 1, 1) := by decide
  obtain ⟨s, hs, hfields⟩ := Option.map_eq_some_iff.mp hstate
  simp only [Prod.mk.injEq] at hfields
  obtain ⟨hlist, hread, hcount⟩ := hfields
  have hrun : Transition.GuardedRun Pcb.step (fun _ e => ShortBuffers e) (defaultPartition 1) bufferFilling s :=
    .of_run hs (by simp [bufferFilling, bufferUsers, ShortBuffers])
  obtain ⟨-, -, -, hwrite, -, hwriters, -⟩ := buffer_counters_agree 50 1 defaultPartitionConf 10 defaultKrnl
    (fun _ => zeroProcess) 0 (i := 0) hrun (by omega)
  exact ⟨s, hs, hlist, hread, hwriters (by simp [hlist]), hwrite⟩

end Pcb

end UcxArinc
