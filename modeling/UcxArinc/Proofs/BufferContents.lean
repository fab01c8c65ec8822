import UcxArinc.Proofs.BufferCursors
import UcxArinc.Proofs.EventLog

set_option autoImplicit false

/-! # The contents of the buffers

All buffers of a partition share one array of bytes and one array of sizes. As long as what the creation checks
admit fits these arrays, and no two buffers share a size entry, every buffer is a channel that delivers the
messages sent to it in order, whatever happens to the others. -/

namespace UcxArinc

namespace Pcb

variable {s s' t : Pcb} {i j p : Nat} {event : MessageChannel.Event Nat (List UInt8)}

/-! ## Where messages are stored -/

/-- The message in a slot of buffer `i`. -/
def storedMessage (s : Pcb) (i slot : Nat) : List UInt8 :=
  Area.bytes (fun a => s.res.buffersData (s.bufferData i slot + a)) (s.res.buffersSizeData (s.bufferSize i slot))

/-- The messages in buffer `i`, oldest first. -/
def bufferMessages (s : Pcb) (i : Nat) : List (List UInt8) := (s.bufferCursors i).contents (s.storedMessage i)

/-- Buffer `i` as a message channel. -/
def bufferChannel (i : Nat) (s : Pcb) : MessageChannel.Channel Nat (List UInt8) where
  capacity := (s.res.buffers i).maxNbMessage.toNat
  stored := s.bufferMessages i
  readers := s.waitingProcesses (.bufferReaders i)
  writers := s.waitingProcesses (.bufferWriters i)

/-- The messages of each buffer fit its part of the bytes, all parts and all size entries have 32-bit addresses,
    and no two buffers share a size entry. -/
structure BufferLayout (s : Pcb) : Prop where
  count_le : s.res.bufferCount ≤ s.conf.maxBuffers
  data : s.conf.maxBuffers * s.conf.maxBufferDataSize < 2 ^ 32
  part : ∀ i < s.res.bufferCount,
    (s.res.buffers i).maxMessageSize * (s.res.buffers i).maxNbMessage ≤ s.conf.maxBufferDataSize
  sizes : ∀ i < s.res.bufferCount, (i + 1) * (s.res.buffers i).maxNbMessage ≤ 2 ^ 32
  apart : ∀ i < s.res.bufferCount, ∀ j < s.res.bufferCount, i ≠ j →
    ∀ a < (s.bufferCursors i).size, ∀ b < (s.bufferCursors j).size,
      i * (s.bufferCursors i).size + a ≠ j * (s.bufferCursors j).size + b

/-- The part of a buffer as a whole lies below `2 ^ 32`. -/
theorem BufferLayout.part_lt (h : BufferLayout s) (hi : i < s.res.bufferCount) (hring : RingSound s i) :
    0 ≤ s.conf.maxBufferDataSize ∧ (i + 1) * s.conf.maxBufferDataSize.toNat < 2 ^ 32 := by
  have hpart := h.part i hi
  have hsize := hring.messageSize_pos
  have hnumber := hring.size_pos
  have hpos : 0 < s.conf.maxBufferDataSize := (Int.mul_pos hsize hnumber).trans_le hpart
  refine ⟨hpos.le, ?_⟩
  have hdata := h.data
  have hle : (i + 1) * s.conf.maxBufferDataSize.toNat ≤ s.conf.maxBuffers * s.conf.maxBufferDataSize.toNat :=
    Nat.mul_le_mul_right _ (hi.trans_le h.count_le)
  rw [← Int.toNat_of_nonneg hpos.le] at hdata
  exact_mod_cast hle.trans_lt (by exact_mod_cast hdata)

/-- The bytes of a slot end within the part of the buffer. -/
theorem BufferLayout.slot_le (h : BufferLayout s) (hi : i < s.res.bufferCount) (hring : RingSound s i) {slot : Nat}
    (hslot : slot < (s.bufferCursors i).size) :
    (slot + 1) * (s.res.buffers i).maxMessageSize.toNat ≤ s.conf.maxBufferDataSize.toNat := by
  have hpart := h.part i hi
  have hsize := hring.messageSize_pos
  have hnumber := hring.size_pos
  have hle : (slot + 1) * (s.res.buffers i).maxMessageSize.toNat
      ≤ (s.res.buffers i).maxNbMessage.toNat * (s.res.buffers i).maxMessageSize.toNat :=
    Nat.mul_le_mul_right _ hslot
  refine hle.trans (Int.ofNat_le.mp ?_)
  rw [Int.toNat_of_nonneg ((Int.mul_pos hsize hnumber).le.trans hpart), Nat.cast_mul, Int.toNat_of_nonneg hsize.le,
    Int.toNat_of_nonneg hnumber.le, mul_comm]
  exact hpart

theorem BufferLayout.messageSize_le (h : BufferLayout s) (hi : i < s.res.bufferCount) (hring : RingSound s i) :
    (s.res.buffers i).maxMessageSize < 2 ^ 32 := by
  have hslot := h.slot_le hi hring hring.cursors_pos
  obtain ⟨-, hpart⟩ := h.part_lt hi hring
  have hle : s.conf.maxBufferDataSize.toNat ≤ (i + 1) * s.conf.maxBufferDataSize.toNat :=
    Nat.le_mul_of_pos_left _ (Nat.succ_pos i)
  omega

/-- Where the bytes of a slot are. -/
theorem BufferLayout.bufferData_eq (h : BufferLayout s) (hi : i < s.res.bufferCount) (hring : RingSound s i)
    {slot : Nat} (hslot : slot < (s.bufferCursors i).size) : s.bufferData i slot
      = i * s.conf.maxBufferDataSize.toNat + slot * (s.res.buffers i).maxMessageSize.toNat := by
  have hend := h.slot_le hi hring hslot
  have hsize := hring.messageSize_pos
  have hlt := h.messageSize_le hi hring
  obtain ⟨hnonneg, hpart⟩ := h.part_lt hi hring
  rw [Nat.succ_mul] at hpart hend
  rw [bufferData, toU32_of_lt hnonneg (by omega), toU32_of_lt hsize.le hlt, u32, u32,
    Nat.mod_eq_of_lt (by omega : i * s.conf.maxBufferDataSize.toNat < 2 ^ 32), Nat.mod_eq_of_lt (by omega)]

/-- Where the size of a slot is. -/
theorem BufferLayout.bufferSize_eq (h : BufferLayout s) (hi : i < s.res.bufferCount) (hring : RingSound s i)
    {slot : Nat} (hslot : slot < (s.bufferCursors i).size) :
    s.bufferSize i slot = i * (s.bufferCursors i).size + slot := by
  have hnumber := hring.size_pos
  have hlt := hring.size_lt
  have hsizes : (i + 1) * (s.res.buffers i).maxNbMessage.toNat ≤ 2 ^ 32 := by
    have hle := h.sizes i hi
    rw [← Int.toNat_of_nonneg hnumber.le] at hle
    exact_mod_cast hle
  rw [Nat.succ_mul] at hsizes
  simp only [bufferCursors] at hslot ⊢
  rw [bufferSize, toU32_of_lt hnumber.le (by omega), u32, u32,
    Nat.mod_eq_of_lt (by omega : i * (s.res.buffers i).maxNbMessage.toNat < 2 ^ 32), Nat.mod_eq_of_lt (by omega)]

/-- Places in parts of equal size are the same only in the same part. -/
theorem eq_of_mul_add_eq {m x y : Nat} (hx : x < m) (hy : y < m) (h : i * m + x = j * m + y) : i = j ∧ x = y := by
  have hquotient : ∀ k z, z < m → (k * m + z) / m = k := fun k z hz => by
    rw [Nat.mul_comm, Nat.mul_add_div (Nat.zero_lt_of_lt hz), Nat.div_eq_of_lt hz, Nat.add_zero]
  have hsame : i = j := by rw [← hquotient i x hx, h, hquotient j y hy]
  subst hsame
  exact ⟨rfl, Nat.add_left_cancel h⟩

/-- The counters of every buffer there is agree. -/
def RingsSound (s : Pcb) : Prop := ∀ i < s.res.bufferCount, RingSound s i

/-- Two slots share neither bytes nor a size entry. -/
structure SlotsApart (s : Pcb) (i slot j slot' : Nat) : Prop where
  bytes : ∀ a < (s.res.buffers i).maxMessageSize.toNat, ∀ b < (s.res.buffers j).maxMessageSize.toNat,
    s.bufferData i slot + a ≠ s.bufferData j slot' + b
  entry : s.bufferSize i slot ≠ s.bufferSize j slot'

theorem BufferLayout.slotsApart (h : BufferLayout s) (hrings : RingsSound s) (hi : i < s.res.bufferCount)
    (hj : j < s.res.bufferCount) {slot slot' : Nat} (hslot : slot < (s.bufferCursors i).size)
    (hslot' : slot' < (s.bufferCursors j).size) (hne : i ≠ j ∨ slot ≠ slot') : SlotsApart s i slot j slot' := by
  have hringI := hrings i hi
  have hringJ := hrings j hj
  refine ⟨fun a ha b hb heq => ?_, fun heq => ?_⟩
  · rw [h.bufferData_eq hi hringI hslot, h.bufferData_eq hj hringJ hslot'] at heq
    have hendI := h.slot_le hi hringI hslot
    have hendJ := h.slot_le hj hringJ hslot'
    rw [Nat.succ_mul] at hendI hendJ
    rw [Nat.add_assoc, Nat.add_assoc] at heq
    obtain ⟨rfl, hplaces⟩ := eq_of_mul_add_eq (by omega) (by omega) heq
    exact hne.elim (fun hij => hij rfl) fun hslots => hslots (eq_of_mul_add_eq ha hb hplaces).1
  · rw [h.bufferSize_eq hi hringI hslot, h.bufferSize_eq hj hringJ hslot'] at heq
    by_cases hsame : i = j
    · subst hsame
      exact hne.elim (fun hij => hij rfl) fun hslots => hslots (by omega)
    · exact h.apart i hi j hj hsame slot hslot slot' hslot' heq

/-! ## Storing a message -/

theorem memcpy_inside (dst : Area) (base : Nat) (src : Area) (n : Nat) :
    Area.bytes (fun a => memcpy dst base src n (base + a)) n = src.bytes n := by
  refine bytes_congr fun a ha => ?_
  simp [memcpy, ha]

theorem memcpy_outside (dst : Area) {base base' : Nat} (src : Area) {n n' : Nat}
    (h : ∀ a < n', ∀ b < n, base' + a ≠ base + b) :
    Area.bytes (fun a => memcpy dst base src n (base' + a)) n' = Area.bytes (fun a => dst (base' + a)) n' := by
  refine bytes_congr fun a ha => ?_
  refine if_neg fun hin => ?_
  exact h a ha (base' + a - base) (by omega) (by omega)

/-- A message stored is the one in the slot at the write index. -/
theorem storedMessage_self (messageAddr : Area) {length : Int} (hpos : 0 ≤ length) (hlt : length < 2 ^ 32) :
    (s.storeMessage j messageAddr length).storedMessage j (s.res.buffers j).writeIndex
      = messageAddr.bytes length.toNat := by
  have hrecord := congrFun (storeMessage_buffers s j messageAddr length) j
  rw [Function.update_self] at hrecord
  have hsize : (s.storeMessage j messageAddr length).bufferSize j (s.res.buffers j).writeIndex
      = s.bufferSize j (s.res.buffers j).writeIndex := by
    rw [bufferSize, bufferSize, hrecord]
  have hdata : (s.storeMessage j messageAddr length).bufferData j (s.res.buffers j).writeIndex
      = s.bufferData j (s.res.buffers j).writeIndex := by
    rw [bufferData, bufferData, hrecord]
    rfl
  have hentry : (s.storeMessage j messageAddr length).res.buffersSizeData
      (s.bufferSize j (s.res.buffers j).writeIndex) = length.toNat :=
    (Function.update_self _ _ _).trans (toU32_of_lt hpos hlt)
  rw [storedMessage, hsize, hdata, hentry]
  exact memcpy_inside _ _ _ _

/-- It leaves the other slots alone. -/
theorem storedMessage_other (messageAddr : Area) {length : Int} {slot : Nat}
    (hfits : length.toNat ≤ (s.res.buffers j).maxMessageSize.toNat)
    (hstored : (s.storedMessage i slot).length ≤ (s.res.buffers i).maxMessageSize.toNat)
    (hapart : SlotsApart s i slot j (s.res.buffers j).writeIndex) :
    (s.storeMessage j messageAddr length).storedMessage i slot = s.storedMessage i slot := by
  have hrecord : ((s.storeMessage j messageAddr length).res.buffers i).maxMessageSize
        = (s.res.buffers i).maxMessageSize
      ∧ ((s.storeMessage j messageAddr length).res.buffers i).maxNbMessage = (s.res.buffers i).maxNbMessage := by
    rw [storeMessage_buffers]
    by_cases hsame : i = j
    · rw [hsame, Function.update_self]
      exact ⟨rfl, rfl⟩
    · rw [Function.update_of_ne hsame]
      exact ⟨rfl, rfl⟩
  have hsize : (s.storeMessage j messageAddr length).bufferSize i slot = s.bufferSize i slot := by
    rw [bufferSize, bufferSize, hrecord.2]
  have hdata : (s.storeMessage j messageAddr length).bufferData i slot = s.bufferData i slot := by
    rw [bufferData, bufferData, hrecord.1]
    rfl
  have hentry : (s.storeMessage j messageAddr length).res.buffersSizeData (s.bufferSize i slot)
      = s.res.buffersSizeData (s.bufferSize i slot) := Function.update_of_ne hapart.entry _ _
  rw [storedMessage, bytes_length] at hstored
  rw [storedMessage, hsize, hdata, hentry]
  exact memcpy_outside _ _ fun a ha b hb => hapart.bytes a (ha.trans_le hstored) b (hb.trans_le hfits)

/-- No message is longer than its buffer admits. -/
def BuffersFit (s : Pcb) : Prop := ∀ i < s.res.bufferCount, ∀ m ∈ s.bufferMessages i,
  m.length ≤ (s.res.buffers i).maxMessageSize.toNat

/-- A message stored comes last in its buffer, and the other buffers keep theirs. -/
theorem storeMessage_messages (hrings : RingsSound s) (hlayout : BufferLayout s) (hfit : BuffersFit s)
    (hj : j < s.res.bufferCount) (hroom : (s.res.buffers j).nbMessage < (s.res.buffers j).maxNbMessage)
    (messageAddr : Area) {length : Int} (hpos : 0 ≤ length) (hlt : length < (s.res.buffers j).maxMessageSize)
    (hi : i < s.res.bufferCount) : (s.storeMessage j messageAddr length).bufferMessages i
      = if i = j then s.bufferMessages j ++ [messageAddr.bytes length.toNat] else s.bufferMessages i := by
  have hring := hrings j hj
  have hsize := hlayout.messageSize_le hj hring
  have hcount : (s.bufferCursors j).count < (s.bufferCursors j).size := by
    have hnonneg := hring.nonneg
    simp only [bufferCursors]
    omega
  -- the slots in use keep their messages
  have hsame : ∀ k < (s.bufferCursors i).count,
      (s.storeMessage j messageAddr length).storedMessage i
          (((s.bufferCursors i).readIndex + k) % (s.bufferCursors i).size)
        = s.storedMessage i (((s.bufferCursors i).readIndex + k) % (s.bufferCursors i).size) := by
    intro k hk
    refine storedMessage_other messageAddr (by omega) (hfit i hi _ (RingBuffer.Cursors.mem_contents hk)) ?_
    refine hlayout.slotsApart hrings hi hj (Nat.mod_lt _ (hrings i hi).cursors_pos) hring.writeIndex_lt ?_
    by_cases hij : i = j
    · subst hij
      exact Or.inr (hring.valid.free_slot hcount hk)
    · exact Or.inl hij
  by_cases hij : i = j
  · subst hij
    rw [if_pos rfl, bufferMessages, hring.push_eq, hring.valid.contents_push_used hsame]
    congr 2
    exact storedMessage_self messageAddr hpos (hlt.trans hsize)
  · have hcursors : (s.storeMessage j messageAddr length).bufferCursors i = s.bufferCursors i := by
      rw [bufferCursors, bufferCursors, storeMessage_buffers, Function.update_of_ne hij]
    rw [if_neg hij, bufferMessages, hcursors]
    exact RingBuffer.Cursors.contents_congr hsame

/-- A message taken out came first in its buffer, and the other buffers keep theirs. -/
theorem takeMessage_messages (hring : RingSound s j) (hsome : 0 < (s.res.buffers j).nbMessage) (p : Nat) :
    s.bufferMessages j = s.headMessage j :: (s.takeMessage j p).bufferMessages j
      ∧ ∀ i ≠ j, (s.takeMessage j p).bufferMessages i = s.bufferMessages i := by
  have hstored : ∀ i slot, (s.takeMessage j p).storedMessage i slot = s.storedMessage i slot := by
    intro i slot
    have hrecord : ((s.takeMessage j p).res.buffers i).maxMessageSize = (s.res.buffers i).maxMessageSize
        ∧ ((s.takeMessage j p).res.buffers i).maxNbMessage = (s.res.buffers i).maxNbMessage := by
      rw [takeMessage_buffers]
      by_cases hsame : i = j
      · rw [hsame, Function.update_self]
        exact ⟨rfl, rfl⟩
      · rw [Function.update_of_ne hsame]
        exact ⟨rfl, rfl⟩
    have hsize : (s.takeMessage j p).bufferSize i slot = s.bufferSize i slot := by
      rw [bufferSize, bufferSize, hrecord.2]
    have hdata : (s.takeMessage j p).bufferData i slot = s.bufferData i slot := by
      rw [bufferData, bufferData, hrecord.1]
      rfl
    rw [storedMessage, hsize, hdata]
    rfl
  constructor
  · have hcount : 0 < (s.bufferCursors j).count := by
      simp only [bufferCursors]
      omega
    rw [bufferMessages, hring.valid.contents_pop hcount, bufferMessages, hring.pop_eq]
    congr 1
    exact (RingBuffer.Cursors.contents_congr fun k _ => hstored j _).symm
  · intro i hij
    have hcursors : (s.takeMessage j p).bufferCursors i = s.bufferCursors i := by
      rw [bufferCursors, bufferCursors, takeMessage_buffers, Function.update_of_ne hij]
    rw [bufferMessages, hcursors]
    exact RingBuffer.Cursors.contents_congr fun k _ => hstored i _

/-! ## Steps -/

theorem bufferMessages_congr_at (hrecord : t.res.buffers i = s.res.buffers i)
    (hdata : t.res.buffersData = s.res.buffersData) (hsizes : t.res.buffersSizeData = s.res.buffersSizeData)
    (hconf : t.conf = s.conf) : t.bufferMessages i = s.bufferMessages i := by
  unfold bufferMessages bufferCursors storedMessage bufferData bufferSize
  rw [hrecord, hdata, hsizes, hconf]

theorem bufferMessages_congr (hstore : t.bufferStore = s.bufferStore) (hconf : t.conf = s.conf) :
    t.bufferMessages = s.bufferMessages := by
  obtain ⟨hbuffers, -, hdata, hsizes⟩ := buffers_of_store hstore
  funext i
  exact bufferMessages_congr_at (congrFun hbuffers i) hdata hsizes hconf

/-- The layout rests on the sizes. -/
theorem BufferLayout.congr (h : BufferLayout s) (hconf : t.conf = s.conf)
    (hcount : t.res.bufferCount ≤ s.res.bufferCount)
    (hsizes : ∀ i < t.res.bufferCount, (t.res.buffers i).maxMessageSize = (s.res.buffers i).maxMessageSize
      ∧ (t.res.buffers i).maxNbMessage = (s.res.buffers i).maxNbMessage) : BufferLayout t := by
  have hcursors : ∀ i < t.res.bufferCount, (t.bufferCursors i).size = (s.bufferCursors i).size := fun i hi =>
    congrArg Int.toNat (hsizes i hi).2
  refine ⟨?_, hconf ▸ h.data, fun i hi => ?_, fun i hi => ?_, fun i hi j hj hij a ha b hb => ?_⟩
  · rw [hconf]
    exact hcount.trans h.count_le
  · rw [(hsizes i hi).1, (hsizes i hi).2, hconf]
    exact h.part i (hi.trans_le hcount)
  · rw [(hsizes i hi).2]
    exact h.sizes i (hi.trans_le hcount)
  · rw [hcursors i hi] at ha ⊢
    rw [hcursors j hj] at hb ⊢
    exact h.apart i (hi.trans_le hcount) j (hj.trans_le hcount) hij a ha b hb

theorem takeMessage_sizes (s : Pcb) (j p i : Nat) :
    ((s.takeMessage j p).res.buffers i).maxMessageSize = (s.res.buffers i).maxMessageSize
      ∧ ((s.takeMessage j p).res.buffers i).maxNbMessage = (s.res.buffers i).maxNbMessage := by
  rw [takeMessage_buffers]
  by_cases hij : i = j
  · rw [hij, Function.update_self]
    exact ⟨rfl, rfl⟩
  · rw [Function.update_of_ne hij]
    exact ⟨rfl, rfl⟩

theorem RingsSound.takeMessage (h : RingsSound s) (hj : j < s.res.bufferCount)
    (hsome : 0 < (s.res.buffers j).nbMessage) (p : Nat) : RingsSound (s.takeMessage j p) := by
  intro i hi
  by_cases hij : i = j
  · rw [hij]
    exact (h j hj).takeMessage hsome p
  · refine (h i hi).congr ?_
    rw [takeMessage_buffers, Function.update_of_ne hij]

/-- The message of a writer that is let in fits the buffer, as it did when the writer sent it. -/
def WriterFits (s : Pcb) : Action → Prop
  | .call (.receiveBuffer bufferId _ _) => ∀ j, s.findBufferById bufferId = some j →
    ∀ writer rest, s.waitingProcesses (.bufferWriters j) = writer :: rest →
      0 ≤ (s.proc writer).waitingMessageSize
        ∧ (s.proc writer).waitingMessageSize < (s.res.buffers j).maxMessageSize
  | _ => True

/-- The messages after a call for buffer `j`. -/
structure MessagesMoved (s : Pcb) (j : Nat) (event : MessageChannel.Event Nat (List UInt8)) (t : Pcb) : Prop where
  self : s.bufferMessages j ++ event.accepted = event.assigned ++ t.bufferMessages j
  others : ∀ i < s.res.bufferCount, i ≠ j → t.bufferMessages i = s.bufferMessages i
  fits : ∀ m ∈ t.bufferMessages j, m.length ≤ (s.res.buffers j).maxMessageSize.toNat

theorem BufferMove.messages (hmove : BufferMove s j event t) (hconf : t.conf = s.conf) (hbuffers : BuffersSound s)
    (hlayout : BufferLayout s) (hfit : BuffersFit s) (hj : j < s.res.bufferCount)
    (hwriter : ∀ m writer m', event = .exchanged m writer m' → 0 ≤ (s.proc writer).waitingMessageSize
      ∧ (s.proc writer).waitingMessageSize < (s.res.buffers j).maxMessageSize) :
    MessagesMoved s j event t := by
  have hrings : RingsSound s := fun i hi => (hbuffers i hi).toRingSound
  have hsame : t.bufferStore = s.bufferStore → t.bufferMessages = s.bufferMessages :=
    fun hstore => bufferMessages_congr hstore hconf
  cases hmove with
  | stored messageAddr length hpos hfits hroom hnobody hstore hlists =>
      have hstored := fun i hi => storeMessage_messages (i := i) hrings hlayout hfit hj hroom messageAddr hpos.le
        hfits hi
      have hmessages := bufferMessages_congr (s := s.storeMessage j messageAddr length) hstore hconf
      refine ⟨?_, fun i hi hij => ?_, ?_⟩
      · rw [hmessages, hstored j hj, if_pos rfl]
        rfl
      · rw [hmessages, hstored i hi, if_neg hij]
      · rw [hmessages, hstored j hj, if_pos rfl]
        intro m hm
        rcases List.mem_append.mp hm with hold | hnew
        · exact hfit j hj m hold
        · rw [List.mem_singleton.mp hnew, bytes_length]
          omega
  | handed message hroom hfirst hstore hlists =>
      have hempty : s.bufferMessages j = [] := by
        rw [bufferMessages, RingBuffer.Cursors.contents_eq_nil]
        simp [bufferCursors, (hbuffers j hj).readers (by simp [hfirst])]
      refine ⟨?_, fun i _ _ => by rw [hsame hstore], by rw [hsame hstore]; exact hfit j hj⟩
      rw [hsame hstore, hempty]
      rfl
  | taken p hsome hnobody hstore hlists =>
      obtain ⟨hfirst, hothers⟩ := takeMessage_messages (hrings j hj) hsome p
      have hmessages := bufferMessages_congr (s := s.takeMessage j p) hstore hconf
      refine ⟨?_, fun i _ hij => by rw [hmessages, hothers i hij], fun m hm => ?_⟩
      · rw [hmessages, hfirst]
        simp [MessageChannel.Event.accepted, MessageChannel.Event.assigned]
      · rw [hmessages] at hm
        exact hfit j hj m (hfirst ▸ List.mem_cons_of_mem _ hm)
  | @exchanged t writer rest p hsome hfirst hstore hlists =>
      obtain ⟨hpos, hlt⟩ := hwriter _ _ _ rfl
      obtain ⟨hhead, hothers⟩ := takeMessage_messages (hrings j hj) hsome p
      have hsizes := takeMessage_sizes s j p
      have hlayout' : BufferLayout (s.takeMessage j p) := hlayout.congr rfl (le_refl _) fun i _ => hsizes i
      have hfit' : BuffersFit (s.takeMessage j p) := by
        intro i hi m hm
        rw [(hsizes i).1]
        by_cases hij : i = j
        · subst hij
          exact hfit i hi m (hhead ▸ List.mem_cons_of_mem _ hm)
        · exact hfit i hi m (hothers i hij ▸ hm)
      have hroom : ((s.takeMessage j p).res.buffers j).nbMessage
          < ((s.takeMessage j p).res.buffers j).maxNbMessage := by
        have hle := (hrings j hj).count_le
        rw [takeMessage_buffers, Function.update_self]
        dsimp only
        omega
      have hstored := fun i hi => storeMessage_messages (i := i) (hrings.takeMessage hj hsome p) hlayout' hfit' hj
        hroom (s.proc writer).waitingMessage hpos (by rwa [(hsizes j).1]) hi
      have hmessages := bufferMessages_congr (s := (s.takeMessage j p).storeMessage j
        (s.proc writer).waitingMessage (s.proc writer).waitingMessageSize) hstore hconf
      refine ⟨?_, fun i hi hij => ?_, ?_⟩
      · rw [hmessages, hstored j hj, if_pos rfl, hhead]
        simp [MessageChannel.Event.accepted, MessageChannel.Event.assigned, waitingMessageOf]
      · rw [hmessages, hstored i hi, if_neg hij, hothers i hij]
      · rw [hmessages, hstored j hj, if_pos rfl]
        intro m hm
        rcases List.mem_append.mp hm with hold | hnew
        · exact hfit j hj m (hhead ▸ List.mem_cons_of_mem _ hold)
        · rw [List.mem_singleton.mp hnew, bytes_length]
          omega
  | readerQueued hnone hreaders hstore hlists =>
      exact ⟨by simp [MessageChannel.Event.accepted, MessageChannel.Event.assigned, hsame hstore],
        fun i _ _ => by rw [hsame hstore], by rw [hsame hstore]; exact hfit j hj⟩
  | writerQueued hfull hwriters hstore hlists =>
      exact ⟨by simp [MessageChannel.Event.accepted, MessageChannel.Event.assigned, hsame hstore],
        fun i _ _ => by rw [hsame hstore], by rw [hsame hstore]; exact hfit j hj⟩
  | refused hstore hlists =>
      exact ⟨by simp [MessageChannel.Event.accepted, MessageChannel.Event.assigned, hsame hstore],
        fun i _ _ => by rw [hsame hstore], by rw [hsame hstore]; exact hfit j hj⟩

/-- The sizes of a buffer stay as it was created with. -/
theorem BufferMove.sizes (hmove : BufferMove s j event t) (i : Nat) :
    (t.res.buffers i).maxMessageSize = (s.res.buffers i).maxMessageSize
      ∧ (t.res.buffers i).maxNbMessage = (s.res.buffers i).maxNbMessage := by
  by_cases hij : i = j
  · subst hij
    cases hmove with
    | stored messageAddr length hpos hfits hroom hnobody hstore hlists =>
        rw [(buffers_of_store hstore).1, storeMessage_buffers, Function.update_self]
        exact ⟨rfl, rfl⟩
    | taken p hsome hnobody hstore hlists =>
        rw [(buffers_of_store hstore).1, takeMessage_buffers, Function.update_self]
        exact ⟨rfl, rfl⟩
    | exchanged p hsome hfirst hstore hlists =>
        rw [(buffers_of_store hstore).1, storeMessage_buffers, takeMessage_buffers, Function.update_self,
          Function.update_self]
        exact ⟨rfl, rfl⟩
    | handed message hroom hfirst hstore hlists =>
        rw [(buffers_of_store hstore).1]
        exact ⟨rfl, rfl⟩
    | readerQueued hnone hreaders hstore hlists =>
        rw [(buffers_of_store hstore).1]
        exact ⟨rfl, rfl⟩
    | writerQueued hfull hwriters hstore hlists =>
        rw [(buffers_of_store hstore).1]
        exact ⟨rfl, rfl⟩
    | refused hstore hlists =>
        rw [(buffers_of_store hstore).1]
        exact ⟨rfl, rfl⟩
  · rw [(hmove.others hij).1]
    exact ⟨rfl, rfl⟩

theorem bufferMessages_length (s : Pcb) (i : Nat) :
    (s.bufferMessages i).length = (s.res.buffers i).nbMessage.toNat :=
  RingBuffer.Cursors.contents_length _ _

/-- What a channel is after the messages and the waiters have changed. -/
theorem bufferChannel_eq (hmove : BufferMove s j event t) {stored : List (List UInt8)} {readers writers : List Nat}
    (hstored : t.bufferMessages j = stored) (hreaders : t.waitingProcesses (.bufferReaders j) = readers)
    (hwriters : t.waitingProcesses (.bufferWriters j) = writers) :
    bufferChannel j t = { bufferChannel j s with stored := stored, readers := readers, writers := writers } := by
  simp only [bufferChannel, hstored, hreaders, hwriters, (hmove.sizes j).2]

/-- A call for buffer `j` is an event of its channel. -/
theorem BufferMove.channel (hmove : BufferMove s j event t) (hbuffer : BufferSound s j)
    (hmessages : MessagesMoved s j event t) :
    MessageChannel.Step (bufferChannel j s) event (bufferChannel j t) := by
  have hself := hmessages.self
  have hchannel := @bufferChannel_eq s t j event hmove
  have hnonneg := hbuffer.nonneg
  have hlength := bufferMessages_length s j
  cases hmove with
  | stored messageAddr length hpos hfits hroom hnobody hstore hlists =>
      rw [hchannel hself.symm (by rw [hlists]) (by rw [hlists])]
      refine .stored ?_ hnobody
      show (s.bufferMessages j).length < _
      rw [hlength]
      simp only [bufferChannel]
      omega
  | handed message hroom hfirst hstore hlists =>
      have hempty : s.bufferMessages j = [] := by
        rw [← List.length_eq_zero_iff, hlength, hbuffer.readers (by simp [hfirst])]
        rfl
      have hsame : t.bufferMessages j = s.bufferMessages j := by
        rw [hempty] at hself ⊢
        simpa [MessageChannel.Event.accepted, MessageChannel.Event.assigned] using hself
      rw [hchannel hsame (by rw [hlists, Function.update_self]) (by rw [hlists, Function.update_of_ne (by simp)])]
      exact .handed hfirst
  | taken p hsome hnobody hstore hlists =>
      have hhead : s.bufferMessages j = s.headMessage j :: t.bufferMessages j := by
        simpa [MessageChannel.Event.accepted, MessageChannel.Event.assigned] using hself
      rw [hchannel rfl (by rw [hlists]) (by rw [hlists])]
      exact .taken hhead hnobody
  | @exchanged t writer rest p hsome hfirst hstore hlists =>
      have hhead := (takeMessage_messages hbuffer.toRingSound hsome p).1
      have hleft : t.bufferMessages j = (s.takeMessage j p).bufferMessages j ++ [s.waitingMessageOf writer] := by
        rw [hhead] at hself
        simpa [MessageChannel.Event.accepted, MessageChannel.Event.assigned] using hself.symm
      rw [hchannel hleft (by rw [hlists, Function.update_of_ne (by simp)]) (by rw [hlists, Function.update_self])]
      exact .exchanged hhead hfirst
  | readerQueued hnone hreaders hstore hlists =>
      have hempty : s.bufferMessages j = [] := List.length_eq_zero_iff.mp (by rw [hlength]; omega)
      have hsame : t.bufferMessages j = s.bufferMessages j := by
        simpa [MessageChannel.Event.accepted, MessageChannel.Event.assigned] using hself.symm
      rw [hchannel hsame (by rw [hlists, Function.update_self]) (by rw [hlists, Function.update_of_ne (by simp)])]
      exact .readerQueued hempty hreaders
  | writerQueued hfull hwriters hstore hlists =>
      have hsame : t.bufferMessages j = s.bufferMessages j := by
        simpa [MessageChannel.Event.accepted, MessageChannel.Event.assigned] using hself.symm
      rw [hchannel hsame (by rw [hlists, Function.update_of_ne (by simp)]) (by rw [hlists, Function.update_self])]
      refine .writerQueued ?_ hwriters
      show _ ≤ (s.bufferMessages j).length
      rw [hlength]
      simp only [bufferChannel]
      omega
  | refused hstore hlists =>
      have hsame : t.bufferMessages j = s.bufferMessages j := by
        simpa [MessageChannel.Event.accepted, MessageChannel.Event.assigned] using hself.symm
      rw [hchannel hsame (by rw [hlists]) (by rw [hlists])]
      exact .other (.refl _) (.refl _)

theorem sendEvent_ne_exchanged (s : Pcb) (j : Nat) (messageAddr : Area) (length : Int) (o : Outcome)
    (m : List UInt8) (writer : Nat) (m' : List UInt8) :
    s.sendEvent j messageAddr length o ≠ .exchanged m writer m' := by
  unfold sendEvent
  split
  · split <;> rintro ⟨⟩
  · rintro ⟨⟩
  · split
    · split <;> rintro ⟨⟩
    · rintro ⟨⟩

/-- Only a receive lets a writer in, the first that waits. -/
theorem receiveEvent_exchanged {o : Outcome} {m m' : List UInt8} {writer : Nat}
    (h : s.receiveEvent j o = .exchanged m writer m') :
    ∃ rest, s.waitingProcesses (.bufferWriters j) = writer :: rest := by
  unfold receiveEvent at h
  split at h
  · split at h <;> cases h
  · cases h
  · split at h
    · split at h
      · next first rest hfirst =>
          cases h
          exact ⟨rest, hfirst⟩
      · cases h
    · cases h

theorem WriterFits.of_event {e : Action} (h : WriterFits s e) {m m' : List UInt8} {writer : Nat}
    (hevent : bufferEvent j s e = .exchanged m writer m') : 0 ≤ (s.proc writer).waitingMessageSize
      ∧ (s.proc writer).waitingMessageSize < (s.res.buffers j).maxMessageSize := by
  unfold bufferEvent at hevent
  split at hevent
  · split at hevent
    · exact absurd hevent (sendEvent_ne_exchanged _ _ _ _ _ _ _ _)
    · cases hevent
  · split at hevent
    · next hj =>
        obtain ⟨rest, hfirst⟩ := receiveEvent_exchanged hevent
        exact h j hj writer rest hfirst
    · cases hevent
  · cases hevent

theorem step_conf {e : Action} (hsound : Sound s) (hstep : s.step e = some s') : s'.conf = s.conf :=
  moves_conf (step_moves hsound.running (permits_all s e) hstep)

/-- A step keeps the sizes of the buffers there are. -/
theorem step_sizes {e : Action} (hsound : Sound s) (hstep : s.step e = some s') :
    s.res.bufferCount ≤ s'.res.bufferCount ∧ ∀ i < s.res.bufferCount,
      (s'.res.buffers i).maxMessageSize = (s.res.buffers i).maxMessageSize
        ∧ (s'.res.buffers i).maxNbMessage = (s.res.buffers i).maxNbMessage := by
  cases step_buffers hsound hstep with
  | moved j huses hj hmove => exact ⟨hmove.count.ge, fun i _ => hmove.sizes i⟩
  | created name maxMessageSize maxNbMessage discipline hcall hnew =>
      obtain ⟨name, bufferId, discipline, hrecord⟩ := hnew.record
      refine ⟨hnew.count ▸ Nat.le_succ _, fun i hi => ?_⟩
      rw [hrecord, Function.update_of_ne (Nat.ne_of_lt hi)]
      exact ⟨rfl, rfl⟩
  | kept hnot hstore hreaders hwriters =>
      obtain ⟨hbuffers, hcount, -⟩ := buffers_of_store hstore
      exact ⟨hcount.ge, fun i _ => by rw [hbuffers]; exact ⟨rfl, rfl⟩⟩

/-- What is laid out at the end was laid out all along. -/
theorem BufferLayout.before {e : Action} (h : BufferLayout s') (hsound : Sound s) (hstep : s.step e = some s') :
    BufferLayout s := by
  obtain ⟨hcount, hsizes⟩ := step_sizes hsound hstep
  exact h.congr (step_conf hsound hstep).symm hcount fun i hi =>
    ⟨(hsizes i hi).1.symm, (hsizes i hi).2.symm⟩

/-- A call uses one buffer at most. -/
theorem UsesBuffer.unique {e : Action} (h : UsesBuffer s i e) (h' : UsesBuffer s j e) : i = j := by
  cases e with
  | call service =>
      cases service with
      | sendBuffer | receiveBuffer => exact Option.some.inj (Eq.trans (Eq.symm h) h')
      | _ => exact h.elim
  | _ => exact h.elim

/-- What a step does to the messages of the buffers there are. -/
theorem step_messages {e : Action} (hsound : Sound s) (hbuffers : BuffersSound s) (hlayout : BufferLayout s)
    (hfit : BuffersFit s) (hwriter : WriterFits s e) (hstep : s.step e = some s') (hi : i < s.res.bufferCount) :
    MessageChannel.Step (bufferChannel i s) (bufferEvent i s e) (bufferChannel i s')
      ∧ ∀ m ∈ s'.bufferMessages i, m.length ≤ (s.res.buffers i).maxMessageSize.toNat := by
  have hconf := step_conf hsound hstep
  have hother : bufferEvent i s e = .other → (s'.res.buffers i).maxNbMessage = (s.res.buffers i).maxNbMessage →
      s'.bufferMessages i = s.bufferMessages i →
      (s'.waitingProcesses (.bufferReaders i)).Sublist (s.waitingProcesses (.bufferReaders i)) →
      (s'.waitingProcesses (.bufferWriters i)).Sublist (s.waitingProcesses (.bufferWriters i)) →
      MessageChannel.Step (bufferChannel i s) (bufferEvent i s e) (bufferChannel i s')
        ∧ ∀ m ∈ s'.bufferMessages i, m.length ≤ (s.res.buffers i).maxMessageSize.toNat := by
    intro hevent hnumber hmessages hreaders hwriters
    refine ⟨?_, hmessages ▸ hfit i hi⟩
    rw [hevent, bufferChannel, bufferChannel, hnumber, hmessages]
    exact MessageChannel.Step.other (c := bufferChannel i s) hreaders hwriters
  cases step_buffers hsound hstep with
  | moved j huses hj hmove =>
      have hmessages := hmove.messages hconf hbuffers hlayout hfit hj fun m writer m' => hwriter.of_event
      by_cases hij : i = j
      · subst hij
        exact ⟨hmove.channel (hbuffers i hi) hmessages, hmessages.fits⟩
      · obtain ⟨-, hreaders, hwriters⟩ := hmove.others hij
        exact hother (bufferEvent_other fun hi' => hij (hi'.unique huses)) (hmove.sizes i).2
          (hmessages.others i hi hij) (hreaders ▸ .refl _) (hwriters ▸ .refl _)
  | created name maxMessageSize maxNbMessage discipline hcall hnew =>
      obtain ⟨name, bufferId, kind, hrecord⟩ := hnew.record
      have hsame : s'.res.buffers i = s.res.buffers i := by
        rw [hrecord, Function.update_of_ne (Nat.ne_of_lt hi)]
      refine hother (by rw [hcall]; rfl) (by rw [hsame]) (bufferMessages_congr_at hsame hnew.data hnew.sizes hconf) ?_ ?_
      · rw [hnew.lists]
        simp [Nat.ne_of_lt hi]
      · rw [hnew.lists]
        simp [Nat.ne_of_lt hi]
  | kept hnot hstore hreaders hwriters =>
      exact hother (bufferEvent_other (hnot i)) (by rw [(buffers_of_store hstore).1])
        (congrFun (bufferMessages_congr hstore hconf) i) (hreaders i) (hwriters i)

/-- Every step keeps the messages within their buffers. -/
theorem BuffersFit.step {e : Action} (h : BuffersFit s) (hsound : Sound s) (hbuffers : BuffersSound s)
    (hlayout : BufferLayout s) (hwriter : WriterFits s e) (hstep : s.step e = some s') : BuffersFit s' := by
  intro i hi m hm
  by_cases hold : i < s.res.bufferCount
  · rw [((step_sizes hsound hstep).2 i hold).1]
    exact (step_messages hsound hbuffers hlayout h hwriter hstep hold).2 m hm
  · cases step_buffers hsound hstep with
    | moved j huses hj hmove => exact absurd (hmove.count ▸ hi) hold
    | kept hnot hstore hreaders hwriters => exact absurd ((buffers_of_store hstore).2.1 ▸ hi) hold
    | created name maxMessageSize maxNbMessage discipline hcall hnew =>
        obtain ⟨name, bufferId, kind, hrecord⟩ := hnew.record
        obtain rfl : i = s.res.bufferCount := by
          have hcount := hnew.count
          omega
        have hempty : s'.bufferMessages s.res.bufferCount = [] := by
          rw [← List.length_eq_zero_iff, bufferMessages_length, hrecord, Function.update_self]
          rfl
        rw [hempty] at hm
        cases hm

/-! ## Runs -/

/-- The layout at the end of a run is the layout in all its states. -/
theorem layout_guarded {ok : Pcb → Action → Prop} {es : List Action} (hrun : Transition.GuardedRun Pcb.step ok s es s')
    (hsound : Sound s) (hlayout : BufferLayout s') :
    BufferLayout s ∧ Transition.GuardedRun Pcb.step (fun u e => ok u e ∧ BufferLayout u) s es s' := by
  induction hrun with
  | nil u => exact ⟨hlayout, .nil u⟩
  | cons hok hstep _ ih =>
      obtain ⟨hnext, hguarded⟩ := ih (hsound.step hstep) hlayout
      have hhere := hnext.before hsound hstep
      exact ⟨hhere, .cons ⟨hok, hhere⟩ hstep hguarded⟩

/-- What the actions of a run are for the channel of buffer `i`. -/
def bufferEvents (i : Nat) (s : Pcb) (es : List Action) : List (MessageChannel.Event Nat (List UInt8)) :=
  LabelledRun.labels Pcb.step (bufferEvent i) s es

/-- The calls create buffers of numbers of 31 bits, and let in writers whose message fits. -/
def OrderlyCall (s : Pcb) (e : Action) : Prop := ShortBuffers e ∧ WriterFits s e

theorem buffersFit_of_run {es : List Action} (hrun : Transition.GuardedRun Pcb.step
    (fun u e => OrderlyCall u e ∧ BufferLayout u) s es s') (hsound : Sound s) (hbuffers : BuffersSound s)
    (hfit : BuffersFit s) : Sound s' ∧ BuffersSound s' ∧ BuffersFit s' := by
  refine hrun.invariant (I := fun u => Sound u ∧ BuffersSound u ∧ BuffersFit u) ?_ ⟨hsound, hbuffers, hfit⟩
  rintro u e u' ⟨hu, hbuffersU, hfitU⟩ ⟨⟨hshort, hwriter⟩, hlayout⟩ hstep
  exact ⟨hu.step hstep, hbuffersU.step hu hshort hstep, hfitU.step hu hbuffersU hlayout hwriter hstep⟩

/-- A run of the partition is a run of the channel of each buffer there is. -/
theorem run_bufferChannel {es : List Action} (hrun : Transition.GuardedRun Pcb.step
    (fun u e => OrderlyCall u e ∧ BufferLayout u) s es s') (hsound : Sound s) (hbuffers : BuffersSound s)
    (hfit : BuffersFit s) (hi : i < s.res.bufferCount) :
    MessageChannel.Run (bufferChannel i s) (bufferEvents i s es) (bufferChannel i s') := by
  refine (LabelledRun.run_of_guarded (I := fun u => Sound u ∧ BuffersSound u ∧ BuffersFit u ∧ i < u.res.bufferCount)
    hrun ?_ ⟨hsound, hbuffers, hfit, hi⟩).2
  rintro u e u' ⟨hu, hbuffersU, hfitU, hiU⟩ ⟨⟨hshort, hwriter⟩, hlayout⟩ hstep
  have hcount := (step_sizes hu hstep).1
  exact ⟨⟨hu.step hstep, hbuffersU.step hu hshort hstep, hfitU.step hu hbuffersU hlayout hwriter hstep,
    hiU.trans_le hcount⟩, (step_messages hu hbuffersU hlayout hfitU hwriter hstep hiU).1⟩

theorem bufferCount_initial (period identifier : Int) (conf : PartitionConf) (maxErrors : Nat) (krnl : Krnl)
    (memory : Nat → Process) (lastTick : Nat) :
    (partitionInit period identifier conf maxErrors krnl memory lastTick).startPartitionOs.res.bufferCount = 0 :=
  congrArg (fun x => x.buffers.2.1)
    (startPartitionOs_stores (partitionInit period identifier conf maxErrors krnl memory lastTick))

/-- While the writers that are let in have messages that fit, and as far as the buffers created are laid out apart,
    every buffer of a partition delivers in order: whatever the processes do, and however their waits end, the
    messages it assigns to receivers, and then those it holds, are those it held and then those it has accepted,
    byte by byte. -/
theorem buffers_deliver_in_order (period identifier : Int) (conf : PartitionConf) (maxErrors : Nat) (krnl : Krnl)
    (memory : Nat → Process) (lastTick : Nat) {es es' : List Action}
    (hrun : Transition.GuardedRun Pcb.step OrderlyCall
      (partitionInit period identifier conf maxErrors krnl memory lastTick).startPartitionOs es s)
    (hrun' : Transition.GuardedRun Pcb.step OrderlyCall s es' s') (hlayout : BufferLayout s')
    (hi : i < s.res.bufferCount) :
    MessageChannel.Run (bufferChannel i s) (bufferEvents i s es') (bufferChannel i s')
      ∧ s.bufferMessages i ++ (bufferEvents i s es').flatMap MessageChannel.Event.accepted
        = (bufferEvents i s es').flatMap MessageChannel.Event.assigned ++ s'.bufferMessages i := by
  have hinit := sound_startPartitionOs period identifier conf maxErrors krnl memory lastTick
  have hcount := bufferCount_initial period identifier conf maxErrors krnl memory lastTick
  have hsound : Sound s := hrun.invariant (fun _ _ _ hu _ hstep => hu.step hstep) hinit
  obtain ⟨hlayoutS, hguarded'⟩ := layout_guarded hrun' hsound hlayout
  obtain ⟨-, hguarded⟩ := layout_guarded hrun hinit hlayoutS
  obtain ⟨-, hbuffers, hfit⟩ := buffersFit_of_run hguarded hinit (fun j hj => absurd hj (by omega))
    fun j hj => absurd hj (by omega)
  have hchannel := run_bufferChannel hguarded' hsound hbuffers hfit hi
  have h := hbuffers i hi
  have hsize := h.size_pos
  have hle := h.count_le
  have hlength := bufferMessages_length s i
  refine ⟨hchannel, hchannel.fifo ⟨?_, ?_, fun hne => ?_, fun hne => ?_⟩⟩
  · simp only [bufferChannel]
    omega
  · simp only [bufferChannel]
    omega
  · rw [← List.length_eq_zero_iff]
    simp only [bufferChannel]
    rw [hlength, h.readers hne]
    rfl
  · simp only [bufferChannel]
    rw [hlength, h.writers hne]

/-- Process 0 fills the buffer. -/
def bufferFull : List Action :=
  bufferUsers ++ [.call (.sendBuffer 1 (fun _ => 7) 4 0), .call (.sendBuffer 1 (fun _ => 8) 5 0)]

/-- It waits with another message, and process 1 receives. -/
def bufferExchange : List Action :=
  [.call (.sendBuffer 1 (fun _ => 9) 6 infiniteTimeValue), .loop, .call (.receiveBuffer 1 0 fun _ => 0)]

theorem buffers_deliver_in_order_exchange : ∃ s s', Transition.run Pcb.step (defaultPartition 1) bufferFull = some s
    ∧ Transition.run Pcb.step s bufferExchange = some s'
    ∧ (bufferEvents 0 s bufferExchange).flatMap MessageChannel.Event.assigned = [[7, 7, 7, 7]]
    ∧ (bufferEvents 0 s bufferExchange).flatMap MessageChannel.Event.accepted = [[9, 9, 9, 9, 9, 9]]
    ∧ s.bufferMessages 0 ++ [[9, 9, 9, 9, 9, 9]] = [7, 7, 7, 7] :: s'.bufferMessages 0 := by
  have hfull : ((Transition.run Pcb.step (defaultPartition 1) bufferFull).map fun s =>
      (s.res.bufferCount, (bufferEvents 0 s bufferExchange).flatMap MessageChannel.Event.assigned,
        (bufferEvents 0 s bufferExchange).flatMap MessageChannel.Event.accepted))
      = some (1, [[7, 7, 7, 7]], [[9, 9, 9, 9, 9, 9]]) := by decide
  have hwaits : ((Transition.run Pcb.step (defaultPartition 1) bufferFull).bind fun s =>
      (Transition.run Pcb.step s (bufferExchange.take 2)).map fun u => (u.findBufferById 1,
        u.waitingProcesses (.bufferWriters 0), (u.proc 0).waitingMessageSize, (u.res.buffers 0).maxMessageSize))
      = some (some 0, [0], 6, 8) := by decide
  have hends : ((Transition.run Pcb.step (defaultPartition 1) bufferFull).bind fun s =>
      (Transition.run Pcb.step s bufferExchange).map fun s' => (s'.res.bufferCount, s'.conf.maxBuffers,
        s'.conf.maxBufferDataSize, (s'.res.buffers 0).maxMessageSize, (s'.res.buffers 0).maxNbMessage))
      = some (1, 8, 192, 8, 2) := by decide
  obtain ⟨s, hs, hfields⟩ := Option.map_eq_some_iff.mp hfull
  simp only [Prod.mk.injEq] at hfields
  obtain ⟨hcount, hassigned, haccepted⟩ := hfields
  rw [hs, Option.bind_some] at hwaits hends
  obtain ⟨u, hu, hfields⟩ := Option.map_eq_some_iff.mp hwaits
  simp only [Prod.mk.injEq] at hfields
  obtain ⟨hfind, hwriters, hwaiting, hmost⟩ := hfields
  obtain ⟨s', hs', hfields⟩ := Option.map_eq_some_iff.mp hends
  simp only [Prod.mk.injEq] at hfields
  obtain ⟨hcount', hbuffers', hdata', hsize', hnumber'⟩ := hfields
  have hrun : Transition.GuardedRun Pcb.step OrderlyCall (defaultPartition 1) bufferFull s :=
    (Transition.GuardedRun.of_run (P := fun e => ∀ u, OrderlyCall u e) hs
      (by simp [bufferFull, bufferUsers, OrderlyCall, ShortBuffers, WriterFits])).mono fun u _ h => h u
  have hbefore : Transition.GuardedRun Pcb.step OrderlyCall s (bufferExchange.take 2) u :=
    (Transition.GuardedRun.of_run (P := fun e => ∀ u, OrderlyCall u e) hu
      (by simp [bufferExchange, OrderlyCall, ShortBuffers, WriterFits])).mono fun u _ h => h u
  have hreceive : u.step (.call (.receiveBuffer 1 0 fun _ => 0)) = some s' := by
    have hlast := Transition.run_append Pcb.step s (bufferExchange.take 2) (bufferExchange.drop 2)
    rw [List.take_append_drop, hs', hu] at hlast
    simpa [bufferExchange] using hlast.symm
  have hfits : OrderlyCall u (.call (.receiveBuffer 1 0 fun _ => 0)) := by
    refine ⟨trivial, fun j hj writer rest hfirst => ?_⟩
    rw [hfind] at hj
    cases hj
    rw [hwriters] at hfirst
    cases hfirst
    rw [hwaiting, hmost]
    decide
  have hlayout : BufferLayout s' := by
    have hzero : ∀ i < s'.res.bufferCount, i = 0 := fun i hi => by omega
    refine ⟨by omega, ?_, fun i hi => ?_, fun i hi => ?_, fun i hi j hj hij => ?_⟩
    · rw [hbuffers', hdata']
      decide
    · rw [hzero i hi, hsize', hnumber', hdata']
      decide
    · rw [hzero i hi, hnumber']
      decide
    · exact absurd ((hzero i hi).trans (hzero j hj).symm) hij
  obtain ⟨-, horder⟩ := buffers_deliver_in_order 50 1 defaultPartitionConf 10 defaultKrnl (fun _ => zeroProcess) 0
    hrun (hbefore.snoc hfits hreceive) hlayout (i := 0) (by omega)
  refine ⟨s, s', hs, hs', hassigned, haccepted, ?_⟩
  have hexchange : bufferExchange.take 2 ++ [.call (.receiveBuffer 1 0 fun _ => 0)] = bufferExchange := rfl
  rwa [hexchange, hassigned, haccepted] at horder

/-! ## Layouts -/

/-- A buffer is created with no fewer messages than those before it, at most `most`; their number and the total
    size are numbers of 31 bits. -/
def GrowingBuffers (most : Int) (s : Pcb) : Action → Prop
  | .call (.createBuffer _ maxMessageSize maxNbMessage _) => maxNbMessage < 2 ^ 31
    ∧ maxMessageSize * maxNbMessage < 2 ^ 31 ∧ maxNbMessage ≤ most
    ∧ ∀ i < s.res.bufferCount, (s.res.buffers i).maxNbMessage ≤ maxNbMessage
  | _ => True

theorem GrowingBuffers.short {most : Int} {e : Action} (h : GrowingBuffers most s e) : ShortBuffers e := by
  unfold GrowingBuffers at h
  split at h
  · exact h.1
  · next hnot =>
      unfold ShortBuffers
      split
      · exact absurd rfl (hnot _ _ _ _)
      · trivial

/-- The buffers created so, in their order. -/
structure Growing (most : Int) (s : Pcb) : Prop where
  count_le : s.res.bufferCount ≤ s.conf.maxBuffers
  positive : ∀ i < s.res.bufferCount, 0 < (s.res.buffers i).maxMessageSize ∧ 0 < (s.res.buffers i).maxNbMessage
  part : ∀ i < s.res.bufferCount,
    (s.res.buffers i).maxMessageSize * (s.res.buffers i).maxNbMessage ≤ s.conf.maxBufferDataSize
  number_le : ∀ i < s.res.bufferCount, (s.res.buffers i).maxNbMessage ≤ most
  growing : ∀ j < s.res.bufferCount, ∀ i < j, (s.res.buffers i).maxNbMessage ≤ (s.res.buffers j).maxNbMessage

variable {most : Int}

/-- The sizes are all that counts. -/
theorem Growing.congr (h : Growing most s) (hconf : t.conf = s.conf) (hcount : t.res.bufferCount = s.res.bufferCount)
    (hsizes : ∀ i < s.res.bufferCount, (t.res.buffers i).maxMessageSize = (s.res.buffers i).maxMessageSize
      ∧ (t.res.buffers i).maxNbMessage = (s.res.buffers i).maxNbMessage) : Growing most t := by
  refine ⟨?_, fun i hi => ?_, fun i hi => ?_, fun i hi => ?_, fun j hj i hij => ?_⟩
  · rw [hcount, hconf]
    exact h.count_le
  all_goals rw [hcount] at *
  · rw [(hsizes i hi).1, (hsizes i hi).2]
    exact h.positive i hi
  · rw [(hsizes i hi).1, (hsizes i hi).2, hconf]
    exact h.part i hi
  · rw [(hsizes i hi).2]
    exact h.number_le i hi
  · rw [(hsizes i (hij.trans hj)).2, (hsizes j hj).2]
    exact h.growing j hj i hij

/-- A buffer created last is the largest. -/
theorem Growing.created {maxMessageSize maxNbMessage : Int} (h : Growing most s)
    (hnew : BufferCreated maxMessageSize maxNbMessage s s') (hconf : s'.conf = s.conf)
    (hexact : maxMessageSize * maxNbMessage < 2 ^ 31) (hmost : maxNbMessage ≤ most)
    (hgrows : ∀ i < s.res.bufferCount, (s.res.buffers i).maxNbMessage ≤ maxNbMessage) : Growing most s' := by
  obtain ⟨name, bufferId, discipline, hrecord⟩ := hnew.record
  have hsize := hnew.size_pos
  have hnumber := hnew.number_pos
  have hproduct : 0 < maxMessageSize * maxNbMessage := Int.mul_pos hsize hnumber
  have hpart : maxMessageSize * maxNbMessage ≤ s.conf.maxBufferDataSize := by
    have hfits := hnew.fits
    rwa [i32, Int.bmod_eq_of_le (by omega) (by omega)] at hfits
  have hlast : (s'.res.buffers s.res.bufferCount).maxMessageSize = maxMessageSize
      ∧ (s'.res.buffers s.res.bufferCount).maxNbMessage = maxNbMessage := by
    rw [hrecord, Function.update_self]
    exact ⟨rfl, rfl⟩
  have hold : ∀ i < s.res.bufferCount, s'.res.buffers i = s.res.buffers i := fun i hi => by
    rw [hrecord, Function.update_of_ne hi.ne]
  have hcases : ∀ i < s'.res.bufferCount, i < s.res.bufferCount ∨ i = s.res.bufferCount := fun i hi => by
    rw [hnew.count] at hi
    omega
  refine ⟨?_, fun i hi => ?_, fun i hi => ?_, fun i hi => ?_, fun j hj i hij => ?_⟩
  · rw [hnew.count, hconf]
    exact hnew.room
  · rcases hcases i hi with hbefore | rfl
    · rw [hold i hbefore]
      exact h.positive i hbefore
    · rw [hlast.1, hlast.2]
      exact ⟨hsize, hnumber⟩
  · rw [hconf]
    rcases hcases i hi with hbefore | rfl
    · rw [hold i hbefore]
      exact h.part i hbefore
    · rwa [hlast.1, hlast.2]
  · rcases hcases i hi with hbefore | rfl
    · rw [hold i hbefore]
      exact h.number_le i hbefore
    · rwa [hlast.2]
  · rcases hcases j hj with hbefore | rfl
    · rw [hold i (hij.trans hbefore), hold j hbefore]
      exact h.growing j hbefore i hij
    · rw [hold i hij, hlast.2]
      exact hgrows i hij

theorem Growing.step {e : Action} (h : Growing most s) (hsound : Sound s) (hgrowing : GrowingBuffers most s e)
    (hstep : s.step e = some s') : Growing most s' := by
  have hconf := step_conf hsound hstep
  cases step_buffers hsound hstep with
  | moved j huses hj hmove => exact h.congr hconf hmove.count fun i _ => hmove.sizes i
  | created name maxMessageSize maxNbMessage discipline hcall hnew =>
      rw [hcall] at hgrowing
      obtain ⟨-, hexact, hmost, hgrows⟩ := hgrowing
      exact h.created hnew hconf hexact hmost hgrows
  | kept hnot hstore hreaders hwriters =>
      obtain ⟨hbuffers, hcount, -⟩ := buffers_of_store hstore
      refine h.congr hconf hcount fun i _ => ?_
      rw [hbuffers]
      exact ⟨rfl, rfl⟩

/-- Buffers of growing numbers of messages are laid out apart: the size entries of one end where those of the next
    begin, or before. -/
theorem Growing.layout (h : Growing most s) (hdata : s.conf.maxBuffers * s.conf.maxBufferDataSize < 2 ^ 32)
    (hsizes : s.conf.maxBuffers * most ≤ 2 ^ 32) : BufferLayout s := by
  have hentry : ∀ j < s.res.bufferCount, ∀ i < j, ∀ a < (s.bufferCursors i).size,
      i * (s.bufferCursors i).size + a < j * (s.bufferCursors j).size := by
    intro j hj i hij a ha
    have hle : (s.bufferCursors i).size ≤ (s.bufferCursors j).size := Int.toNat_le_toNat (h.growing j hj i hij)
    calc i * (s.bufferCursors i).size + a < (i + 1) * (s.bufferCursors i).size := by
          rw [Nat.succ_mul]
          omega
      _ ≤ j * (s.bufferCursors j).size := Nat.mul_le_mul hij hle
  refine ⟨h.count_le, hdata, h.part, fun i hi => ?_, fun i hi j hj hij a ha b hb => ?_⟩
  · obtain ⟨-, hpos⟩ := h.positive i hi
    have hmost := h.number_le i hi
    calc ((i : Int) + 1) * (s.res.buffers i).maxNbMessage ≤ s.conf.maxBuffers * most := by
          refine Int.mul_le_mul ?_ hmost hpos.le (by omega)
          exact_mod_cast hi.trans_le h.count_le
      _ ≤ 2 ^ 32 := hsizes
  · rcases Nat.lt_or_gt_of_ne hij with hlt | hgt
    · have hless := hentry j hj i hlt a ha
      omega
    · have hless := hentry i hi j hgt b hb
      omega

theorem growing_of_run (period identifier : Int) (conf : PartitionConf) (maxErrors : Nat) (krnl : Krnl)
    (memory : Nat → Process) (lastTick : Nat) {es : List Action}
    (hrun : Transition.GuardedRun Pcb.step (GrowingBuffers most)
      (partitionInit period identifier conf maxErrors krnl memory lastTick).startPartitionOs es s) :
    s.conf = conf ∧ Growing most s := by
  have hinit := sound_startPartitionOs period identifier conf maxErrors krnl memory lastTick
  have hcount := bufferCount_initial period identifier conf maxErrors krnl memory lastTick
  have hstart : (partitionInit period identifier conf maxErrors krnl memory lastTick).startPartitionOs.conf = conf :=
    moves_conf (startPartitionOs_moves (A := Permit.all) _)
  have hnone : Growing most (partitionInit period identifier conf maxErrors krnl memory lastTick).startPartitionOs :=
    ⟨by omega, fun i hi => by omega, fun i hi => by omega, fun i hi => by omega, fun j hj => by omega⟩
  obtain ⟨-, hstays⟩ := hrun.invariant (I := fun u => Sound u ∧ u.conf = conf ∧ Growing most u)
    (fun u e u' ⟨hu, hconf, hgrowing⟩ hok hstep =>
      ⟨hu.step hstep, (step_conf hu hstep).trans hconf, hgrowing.step hu hok hstep⟩)
    ⟨hinit, hstart, hnone⟩
  exact hstays

/-- Where the two arrays of a partition have 32-bit addresses, and its buffers are created with no fewer messages
    than those before them and no more than `most`, of numbers and total sizes of 31 bits, the bytes of every slot
    lie in the data array, its size entry lies among the first `most` for each buffer there may be, and different
    slots, of one buffer or of two, share none of them. The arrays of `static_conf.h` have `BUFFER_MAX_NB_MESSAGE`
    size entries for each buffer. -/
theorem buffers_laid_out (period identifier : Int) (conf : PartitionConf) (maxErrors : Nat) (krnl : Krnl)
    (memory : Nat → Process) (lastTick : Nat) {es : List Action}
    (hdata : conf.maxBuffers * conf.maxBufferDataSize < 2 ^ 32) (hsizes : conf.maxBuffers * most ≤ 2 ^ 32)
    (hrun : Transition.GuardedRun Pcb.step (GrowingBuffers most)
      (partitionInit period identifier conf maxErrors krnl memory lastTick).startPartitionOs es s)
    (hi : i < s.res.bufferCount) {slot : Nat} (hslot : slot < (s.res.buffers i).maxNbMessage) :
    s.bufferData i slot + (s.res.buffers i).maxMessageSize ≤ conf.maxBuffers * conf.maxBufferDataSize
      ∧ s.bufferSize i slot < conf.maxBuffers * most
      ∧ ∀ j < s.res.bufferCount, ∀ slot' : Nat, slot' < (s.res.buffers j).maxNbMessage → (i ≠ j ∨ slot ≠ slot') →
        SlotsApart s i slot j slot' := by
  obtain ⟨-, hbuffers⟩ := buffersSound_of_run period identifier conf maxErrors krnl memory lastTick
    (hrun.mono fun _ _ h => h.short)
  obtain ⟨hconf, hgrowing⟩ := growing_of_run period identifier conf maxErrors krnl memory lastTick hrun
  have hlayout : BufferLayout s := hgrowing.layout (hconf ▸ hdata) (hconf ▸ hsizes)
  have hrings : RingsSound s := fun j hj => (hbuffers j hj).toRingSound
  have hlast : (i : Int) + 1 ≤ conf.maxBuffers := by
    have hle := hgrowing.count_le
    rw [hconf] at hle
    exact_mod_cast hi.trans_le hle
  have hslots : ∀ j, ∀ slot' : Nat, slot' < (s.res.buffers j).maxNbMessage → slot' < (s.bufferCursors j).size := by
    intro j slot' hslot'
    simp only [bufferCursors]
    omega
  refine ⟨?_, ?_, fun j hj slot' hslot' hne => ?_⟩
  · have hend := hlayout.slot_le hi (hrings i hi) (hslots i slot hslot)
    obtain ⟨hnonneg, -⟩ := hlayout.part_lt hi (hrings i hi)
    have hsize := (hgrowing.positive i hi).1
    rw [hlayout.bufferData_eq hi (hrings i hi) (hslots i slot hslot)]
    rw [hconf] at hend hnonneg ⊢
    rw [Nat.succ_mul, ← Int.ofNat_le] at hend
    push_cast [Int.toNat_of_nonneg hnonneg, Int.toNat_of_nonneg hsize.le] at hend ⊢
    calc i * conf.maxBufferDataSize + slot * (s.res.buffers i).maxMessageSize + (s.res.buffers i).maxMessageSize
        ≤ i * conf.maxBufferDataSize + conf.maxBufferDataSize := by omega
      _ = (i + 1) * conf.maxBufferDataSize := by rw [Int.add_mul, Int.one_mul]
      _ ≤ conf.maxBuffers * conf.maxBufferDataSize := Int.mul_le_mul_of_nonneg_right hlast hnonneg
  · have hpos := (hgrowing.positive i hi).2
    have hmost := hgrowing.number_le i hi
    rw [hlayout.bufferSize_eq hi (hrings i hi) (hslots i slot hslot), bufferCursors]
    push_cast [Int.toNat_of_nonneg hpos.le]
    calc i * (s.res.buffers i).maxNbMessage + slot < (i + 1) * (s.res.buffers i).maxNbMessage := by
          rw [Int.add_mul, Int.one_mul]
          omega
      _ ≤ conf.maxBuffers * most := Int.mul_le_mul hlast hmost hpos.le (by omega)
  · exact hlayout.slotsApart hrings hi hj (hslots i slot hslot) (hslots j slot' hslot') hne

/-- Two buffers, the second of as many messages as the first has. -/
def twoBuffers : List Action :=
  [.loop, .call (.createBuffer "M".toList 8 2 0), .call (.createBuffer "N".toList 16 3 0)]

theorem buffers_laid_out_two : ∃ s, Transition.run Pcb.step (defaultPartition 1) twoBuffers = some s
    ∧ s.bufferSize 1 2 < 8 * 3 ∧ SlotsApart s 1 2 0 1 := by
  have hfirst : ((Transition.run Pcb.step (defaultPartition 1) (twoBuffers.take 2)).map fun u =>
      (u.res.bufferCount, (u.res.buffers 0).maxNbMessage)) = some (1, 2) := by decide
  have hboth : ((Transition.run Pcb.step (defaultPartition 1) twoBuffers).map fun s =>
      (s.res.bufferCount, (s.res.buffers 0).maxNbMessage, (s.res.buffers 1).maxNbMessage)) = some (2, 2, 3) := by
    decide
  obtain ⟨u, hu, hfields⟩ := Option.map_eq_some_iff.mp hfirst
  simp only [Prod.mk.injEq] at hfields
  obtain ⟨hcountU, hnumberU⟩ := hfields
  obtain ⟨s, hs, hfields⟩ := Option.map_eq_some_iff.mp hboth
  simp only [Prod.mk.injEq] at hfields
  obtain ⟨hcount, hnumber, hnumber'⟩ := hfields
  have hsecond : u.step (.call (.createBuffer "N".toList 16 3 0)) = some s := by
    have hlast := Transition.run_append Pcb.step (defaultPartition 1) (twoBuffers.take 2) (twoBuffers.drop 2)
    rw [List.take_append_drop, hs, hu] at hlast
    simpa [twoBuffers] using hlast.symm
  have hbefore : Transition.GuardedRun Pcb.step (GrowingBuffers 3) (defaultPartition 1) (twoBuffers.take 2) u := by
    obtain ⟨v, hv, hnext⟩ := Option.bind_eq_some_iff.mp hu
    obtain ⟨w, hw, hnext⟩ := Option.bind_eq_some_iff.mp hnext
    have hnone : v.res.bufferCount = 0 := by
      have hfield : (((defaultPartition 1).step .loop).map fun v => v.res.bufferCount) = some 0 := by decide
      rw [hv] at hfield
      simpa using hfield
    refine .cons trivial hv (.cons ⟨by decide, by decide, by decide, fun i hi => by omega⟩ hw ?_)
    cases hnext
    exact .nil _
  have hgrows : GrowingBuffers 3 u (.call (.createBuffer "N".toList 16 3 0)) := by
    refine ⟨by decide, by decide, by decide, fun i hi => ?_⟩
    rw [hcountU, Nat.lt_one_iff] at hi
    rw [hi, hnumberU]
    decide
  obtain ⟨-, hentry, hapart⟩ := buffers_laid_out 50 1 defaultPartitionConf 10 defaultKrnl (fun _ => zeroProcess) 0
    (by decide) (by decide) (hbefore.snoc hgrows hsecond) (show 1 < s.res.bufferCount by omega)
    (show ((2 : Nat) : Int) < (s.res.buffers 1).maxNbMessage by omega)
  refine ⟨s, hs, ?_, hapart 0 (by omega) 1 (by omega) (by decide)⟩
  exact_mod_cast hentry

end Pcb

end UcxArinc
