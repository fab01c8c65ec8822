import UcxArinc.Library.RingBuffer
import UcxArinc.Proofs.ModuleRuns

set_option autoImplicit false

/-! # Queuing channels deliver in order

A queuing channel is a ring of `max_nb_messages` slots of `max_message_size` bytes that the partitions at its two
ends share. As long as nobody waits at a port, what has been received since the ring was last cleared, followed by
what is stored, is what has been accepted since then. -/

namespace UcxArinc

/-! ## The ring -/

namespace QueuingChannel

variable {c : QueuingChannel} {messageAddr : Area} {length : Int}

/-- The counters of the channel. -/
def cursors (c : QueuingChannel) : RingBuffer.Cursors :=
  ⟨c.maxNbMessages, c.readIndex, c.writeIndex, c.currentNbMessages⟩

/-- The message in slot `k` with its `LENGTH`. -/
def slot (c : QueuingChannel) (k : Nat) : List UInt8 × Int :=
  (Area.bytes (fun a => c.bufferData (u32 (k * c.maxMessageSize) + a)) (c.bufferSizes k), c.bufferSizes k)

/-- The messages stored, oldest first. -/
def stored (c : QueuingChannel) : List (List UInt8 × Int) := c.cursors.contents c.slot

/-- A message of `length` bytes in slot `k` lies in `buffer_data`, and its size in `buffer_sizes`. -/
def InBounds (c : QueuingChannel) (k length : Nat) : Prop :=
  k < c.maxNbMessages ∧ u32 (k * c.maxMessageSize) + length ≤ c.maxNbMessages * c.maxMessageSize

/-- The counters agree, the sizes fit their slots, and the arrays fit the memory. -/
structure Intact (c : QueuingChannel) : Prop where
  valid : c.cursors.Valid
  sizes : ∀ k, k < c.maxNbMessages → c.bufferSizes k ≤ c.maxMessageSize
  number : c.maxNbMessages < 2 ^ 32
  fits : c.maxNbMessages * c.maxMessageSize < 2 ^ 32

theorem stored_length (c : QueuingChannel) : c.stored.length = c.currentNbMessages :=
  RingBuffer.Cursors.contents_length _ _

theorem stored_eq_nil : c.stored = [] ↔ c.currentNbMessages = 0 := RingBuffer.Cursors.contents_eq_nil

theorem bytes_length (a : Area) (n : Nat) : (a.bytes n).length = n := by
  unfold Area.bytes
  rw [List.length_map, List.length_range]

/-- A slot ends before the next one begins. -/
theorem slot_end_le {k n : Nat} (hk : k < n) (size : Nat) : k * size + size ≤ n * size := by
  rw [← Nat.succ_mul]
  exact Nat.mul_le_mul_right size hk

theorem Intact.offset (h : c.Intact) {k : Nat} (hk : k < c.maxNbMessages) :
    u32 (k * c.maxMessageSize) = k * c.maxMessageSize := by
  refine Nat.mod_eq_of_lt ?_
  have hend := slot_end_le hk c.maxMessageSize
  have hfits := h.fits
  omega

theorem Intact.inBounds (h : c.Intact) {k n : Nat} (hk : k < c.maxNbMessages) (hn : n ≤ c.maxMessageSize) :
    c.InBounds k n := by
  refine ⟨hk, ?_⟩
  rw [h.offset hk]
  have hend := slot_end_le hk c.maxMessageSize
  omega

theorem Intact.readIndex_lt (h : c.Intact) (hsome : 0 < c.currentNbMessages) : c.readIndex < c.maxNbMessages :=
  h.valid.readIndex_lt (Nat.lt_of_lt_of_le hsome h.valid.count_le)

/-! ## Sending -/

theorem Intact.cursors_enqueue (h : c.Intact) (hroom : c.currentNbMessages < c.maxNbMessages) :
    (c.channelEnqueue messageAddr length).cursors = c.cursors.push := by
  have hnumber := h.number
  have hindex : c.writeIndex < c.maxNbMessages := h.valid.writeIndex_lt hroom
  unfold channelEnqueue cursors RingBuffer.Cursors.push u32
  dsimp only
  rw [Nat.mod_eq_of_lt (show c.currentNbMessages + 1 < 2 ^ 32 by omega),
    Nat.mod_eq_of_lt (show c.writeIndex + 1 < 2 ^ 32 by omega)]

theorem Intact.size_enqueue (h : c.Intact) (hroom : c.currentNbMessages < c.maxNbMessages) (hpos : 0 < length)
    (hfit : length ≤ c.maxMessageSize) : toU32 length = length.toNat := by
  have hend := slot_end_le (Nat.zero_lt_of_lt hroom) c.maxMessageSize
  have hfits := h.fits
  unfold toU32
  rw [Int.emod_eq_of_lt (le_of_lt hpos) (by omega)]

/-- The message is in the slot at the write index. -/
theorem Intact.slot_enqueue (h : c.Intact) (hroom : c.currentNbMessages < c.maxNbMessages) (hpos : 0 < length)
    (hfit : length ≤ c.maxMessageSize) :
    (c.channelEnqueue messageAddr length).slot c.writeIndex = (messageAddr.bytes length.toNat, length) := by
  unfold slot channelEnqueue
  dsimp only
  rw [Function.update_self, h.size_enqueue hroom hpos hfit, Int.toNat_of_nonneg (le_of_lt hpos)]
  refine Prod.ext ?_ rfl
  refine List.map_congr_left fun a ha => ?_
  have hin := List.mem_range.mp ha
  unfold memcpy
  rw [if_pos ⟨Nat.le_add_right _ _, Nat.add_lt_add_left hin _⟩, Nat.add_sub_cancel_left]

/-- The other slots are left alone. -/
theorem Intact.slot_enqueue_of_ne (h : c.Intact) (hroom : c.currentNbMessages < c.maxNbMessages)
    (hfit : length ≤ c.maxMessageSize) {k : Nat} (hk : k < c.maxNbMessages) (hne : k ≠ c.writeIndex) :
    (c.channelEnqueue messageAddr length).slot k = c.slot k := by
  have hindex : c.writeIndex < c.maxNbMessages := h.valid.writeIndex_lt hroom
  have hsize := h.sizes k hk
  unfold slot channelEnqueue
  dsimp only
  rw [Function.update_of_ne hne, h.offset hk, h.offset hindex]
  refine Prod.ext (List.map_congr_left fun a ha => ?_) rfl
  have hin := List.mem_range.mp ha
  unfold memcpy
  refine if_neg ?_
  -- a whole slot lies between
  rcases Nat.lt_or_gt_of_ne hne with hlt | hgt
  · have hend := slot_end_le hlt c.maxMessageSize
    omega
  · have hend := slot_end_le hgt c.maxMessageSize
    omega

theorem Intact.enqueue (h : c.Intact) (hroom : c.currentNbMessages < c.maxNbMessages) (hpos : 0 < length)
    (hfit : length ≤ c.maxMessageSize) : (c.channelEnqueue messageAddr length).Intact := by
  refine ⟨?_, fun k hk => ?_, h.number, h.fits⟩
  · rw [h.cursors_enqueue hroom]
    exact h.valid.push hroom
  · show Function.update c.bufferSizes c.writeIndex (toU32 length) k ≤ c.maxMessageSize
    by_cases hk' : k = c.writeIndex
    · rw [hk', Function.update_self, h.size_enqueue hroom hpos hfit]
      omega
    · rw [Function.update_of_ne hk']
      exact h.sizes k hk

theorem Intact.stored_enqueue (h : c.Intact) (hroom : c.currentNbMessages < c.maxNbMessages) (hpos : 0 < length)
    (hfit : length ≤ c.maxMessageSize) :
    (c.channelEnqueue messageAddr length).stored = c.stored ++ [(messageAddr.bytes length.toNat, length)] := by
  unfold stored
  rw [h.cursors_enqueue hroom, h.valid.contents_push hroom fun k hk hne => h.slot_enqueue_of_ne hroom hfit hk hne]
  exact congrArg (fun x => _ ++ [x]) (h.slot_enqueue hroom hpos hfit)

/-! ## Receiving -/

theorem u32Sub_one {n : Nat} (hpos : 0 < n) (hlt : n < 2 ^ 32) : u32Sub n 1 = n - 1 := by
  have hone : u32 1 = 1 := rfl
  unfold u32Sub
  rw [hone]
  unfold u32
  rw [show n + (2 ^ 32 - 1) = n - 1 + 2 ^ 32 by omega, Nat.add_mod_right]
  exact Nat.mod_eq_of_lt (by omega)

theorem Intact.cursors_dequeue (h : c.Intact) (hsome : 0 < c.currentNbMessages) :
    c.channelDequeue.cursors = c.cursors.pop := by
  have hnumber := h.number
  have hindex := h.readIndex_lt hsome
  have hcount : c.currentNbMessages ≤ c.maxNbMessages := h.valid.count_le
  have hread : u32 (c.readIndex + 1) = c.readIndex + 1 := Nat.mod_eq_of_lt (by omega)
  unfold channelDequeue cursors RingBuffer.Cursors.pop
  dsimp only
  rw [hread, u32Sub_one hsome (by omega)]

theorem Intact.dequeue (h : c.Intact) (hsome : 0 < c.currentNbMessages) : c.channelDequeue.Intact := by
  have hvalid := h.valid.pop hsome
  rw [← h.cursors_dequeue hsome] at hvalid
  refine ⟨hvalid, ?_, ?_, ?_⟩
  all_goals
    unfold channelDequeue
    dsimp only
  · exact h.sizes
  · exact h.number
  · exact h.fits

theorem maxMessageSize_dequeue (c : QueuingChannel) : c.channelDequeue.maxMessageSize = c.maxMessageSize := by
  unfold channelDequeue
  rfl

theorem slot_dequeue (c : QueuingChannel) : c.channelDequeue.slot = c.slot := by
  unfold channelDequeue slot
  rfl

/-- The oldest message is at the read index. -/
theorem Intact.stored_dequeue (h : c.Intact) (hsome : 0 < c.currentNbMessages) :
    c.stored = (c.headMessage, (c.headMessage.length : Int)) :: c.channelDequeue.stored := by
  have hlength : c.headMessage.length = c.bufferSizes c.readIndex := bytes_length _ _
  have hhead : c.slot c.readIndex = (c.headMessage, (c.headMessage.length : Int)) := by
    rw [hlength]
    rfl
  unfold stored
  rw [h.cursors_dequeue hsome, slot_dequeue, ← hhead]
  exact h.valid.contents_pop hsome

/-! ## Clearing -/

theorem Intact.clear (h : c.Intact) : c.channelClear.Intact :=
  ⟨RingBuffer.Cursors.valid_clear c.cursors, h.sizes, h.number, h.fits⟩

theorem stored_clear (c : QueuingChannel) : c.channelClear.stored = [] := stored_eq_nil.mpr rfl

end QueuingChannel

/-! ## Calls without a time-out -/

namespace Pcb

variable {s s' : Pcb} {c : Nat}

/-- A send or a receive does not wait. -/
def CallsWithoutTimeOut : Action → Prop
  | .call (.sendQueuingMessage _ _ _ timeOut) => timeOut = 0
  | .call (.receiveQueuingMessage _ timeOut) => timeOut = 0
  | _ => True

/-- The channel of the queuing port an identifier names. -/
def queuingChannelOf (s : Pcb) (queuingPortId : Int) : Option Nat :=
  (s.findQueuingPortById queuingPortId).bind fun index => (s.res.queuingPorts index).channel

/-- The message and `LENGTH` that a send to channel `c` has stored. -/
def messageAccepted (s : Pcb) (c : Nat) : Action → Option (List UInt8 × Int)
  | .call (.sendQueuingMessage queuingPortId messageAddr length timeOut) =>
    if s.queuingChannelOf queuingPortId = some c
        ∧ succeeds (s.sendQueuingMessage queuingPortId messageAddr length timeOut) then
      some (messageAddr.bytes length.toNat, length)
    else none
  | _ => none

/-- The message and `LENGTH` that a receive from channel `c` has returned. -/
def messageReturned (s : Pcb) (c : Nat) : Action → Option (List UInt8 × Int)
  | .call (.receiveQueuingMessage queuingPortId timeOut) =>
    if s.queuingChannelOf queuingPortId = some c ∧ succeeds (s.receiveQueuingMessage queuingPortId timeOut) then
      (s.receiveQueuingMessage queuingPortId timeOut).2.map fun r => (r.message, r.length)
    else none
  | _ => none

/-- The call has cleared channel `c`. -/
def clearsChannel (s : Pcb) (c : Nat) : Action → Bool
  | .call (.clearQueuingPort queuingPortId) =>
    decide (s.queuingChannelOf queuingPortId = some c) && succeeds (s.clearQueuingPort queuingPortId)
  | _ => false

/-- What a call on a queuing port does. -/
abbrev QueuingOutcome (s : Pcb) (queuingPortId : Int) : (Nat → Nat → Prop) → (Nat → Outcome) → Outcome → Prop :=
  PortOutcome s (s.findQueuingPortById queuingPortId) fun index => (s.res.queuingPorts index).channel

theorem sendQueuingMessage_outcome (queuingPortId : Int) (messageAddr : Area) (length : Int) :
    QueuingOutcome s queuingPortId
      (fun index c => 0 < length ∧ length < (s.res.queuingPorts index).maxMessageSize
        ∧ (s.krnl.queuingChannels c).currentNbMessages < (s.krnl.queuingChannels c).maxNbMessages)
      (fun c => (s.setQueuingChannel c ((s.krnl.queuingChannels c).channelEnqueue messageAddr length)).ret .noError)
      (s.sendQueuingMessage queuingPortId messageAddr length 0) := by
  unfold sendQueuingMessage
  split
  · exact .refused _ nofun
  · next index hfind =>
      refine refused_elim (.refused _ nofun) fun _ => refused_elim (.refused _ nofun) fun hfit => ?_
      refine refused_elim (.refused _ nofun) fun hpos => refused_elim (.refused _ nofun) fun _ => ?_
      refine withCurrent_elim .crashed fun node _ => ?_
      dsimp only
      split
      · exact .crashed
      · next c hchannel =>
          split
          · next hroom => exact .done index c hfind hchannel ⟨not_le.mp hpos, not_le.mp hfit, hroom.1⟩
          · exact .refused _ nofun

theorem receiveQueuingMessage_outcome (queuingPortId : Int) :
    QueuingOutcome s queuingPortId (fun _ c => 0 < (s.krnl.queuingChannels c).currentNbMessages)
      (fun c => s.takeFromChannel c) (s.receiveQueuingMessage queuingPortId 0) := by
  unfold receiveQueuingMessage
  split
  · exact .refused _ nofun
  · next index hfind =>
      refine refused_elim (.refused _ nofun) fun _ => refused_elim (.refused _ nofun) fun _ => ?_
      refine withCurrent_elim .crashed fun node _ => ?_
      dsimp only
      split
      · exact .crashed
      · next c hchannel =>
          split
          · next hsome => exact .done index c hfind hchannel hsome
          · exact .refused _ nofun

theorem clearQueuingPort_outcome (queuingPortId : Int) :
    QueuingOutcome s queuingPortId (fun _ _ => True)
      (fun c => (s.setQueuingChannel c (s.krnl.queuingChannels c).channelClear).ret .noError)
      (s.clearQueuingPort queuingPortId) := by
  unfold clearQueuingPort
  split
  · exact .refused _ nofun
  · next index hfind =>
      refine refused_elim (.refused _ nofun) fun _ => ?_
      split
      · exact .crashed
      · next c hchannel => exact .done index c hfind hchannel trivial

/-! ## Nobody waits at a port -/

/-- Nobody has blocked at a queuing port. -/
structure NobodyAtPorts (s : Pcb) : Prop where
  lists : ∀ i, s.waitingProcesses (.queuingPort i) = []
  contexts : ∀ p, portOf (s.proc p).context = none

theorem NobodyAtPorts.moves (h : NobodyAtPorts s)
    (hm : ∀ i, Moves (onlyBlocks fun _ _ q _ => q ≠ .queuingPort i) s s') : NobodyAtPorts s' := by
  refine ⟨fun i => ?_, fun p => ?_⟩
  · have hlist := sublist_of_moves (hm i)
    rw [h.lists i] at hlist
    exact List.sublist_nil.mp hlist
  · by_contra hsome
    obtain ⟨i, hi⟩ := Option.ne_none_iff_exists'.mp hsome
    have hplain : resumesPlainly (s'.proc p).context = false := by
      by_contra hplain
      rw [portOf_of_plain (Bool.not_eq_false _ ▸ hplain)] at hi
      cases hi
    have hself : (s'.proc p).context ≠ .suspendSelf := by
      intro hself
      rw [hself] at hi
      cases hi
    rcases waitsIn_of_moves (hm i) rfl hplain hself with hbefore | ⟨t, q, timer, hne, hfrom⟩
    · rw [← hbefore, h.contexts p] at hi
      cases hi
    · exact hne (hfrom.portOf hi)

theorem NobodyAtPorts.step (h : NobodyAtPorts s) (hsound : Sound s) {e : Action} (hcall : CallsWithoutTimeOut e)
    (hstep : s.step e = some s') : NobodyAtPorts s' := by
  refine h.moves fun i => step_moves hsound.running
    (permits_onlyBlocks fun service he c _ t _ q hblocks _ hq => ?_) hstep
  subst hq he
  rcases hblocks.awaited with ⟨_, _, _, timeOut, hne, rfl⟩ | ⟨_, timeOut, hne, rfl⟩
  · exact hne hcall
  · exact hne hcall

theorem nobodyAtPorts_startPartitionOs (period identifier : Int) (conf : PartitionConf) (maxErrors : Nat)
    (krnl : Krnl) (memory : Nat → Process) (lastTick : Nat) : NobodyAtPorts
      (partitionInit period identifier conf maxErrors krnl memory lastTick).startPartitionOs := by
  have hinit : NobodyAtPorts (partitionInit period identifier conf maxErrors krnl memory lastTick) :=
    ⟨fun _ => rfl, fun _ => rfl⟩
  exact hinit.moves fun _ => startPartitionOs_moves _

/-! ## What a step does to a channel -/

/-- The channel after a step, by what the step has accepted, returned or cleared. -/
inductive ChannelStep (s : Pcb) (e : Action) (c : Nat) : QueuingChannel → Prop
  | same (haccepted : s.messageAccepted c e = none) (hreturned : s.messageReturned c e = none)
      (hclears : s.clearsChannel c e = false) : ChannelStep s e c (s.krnl.queuingChannels c)
  | accepted (index : Nat) (messageAddr : Area) (length : Int)
      (haccepted : s.messageAccepted c e = some (messageAddr.bytes length.toNat, length))
      (hreturned : s.messageReturned c e = none) (hclears : s.clearsChannel c e = false)
      (hindex : index < s.res.queuingPortCount) (hchannel : (s.res.queuingPorts index).channel = some c)
      (hpos : 0 < length) (hfit : length < (s.res.queuingPorts index).maxMessageSize)
      (hroom : (s.krnl.queuingChannels c).currentNbMessages < (s.krnl.queuingChannels c).maxNbMessages) :
      ChannelStep s e c ((s.krnl.queuingChannels c).channelEnqueue messageAddr length)
  | returned (haccepted : s.messageAccepted c e = none)
      (hreturned : s.messageReturned c e = some ((s.krnl.queuingChannels c).headMessage,
        ((s.krnl.queuingChannels c).headMessage.length : Int)))
      (hclears : s.clearsChannel c e = false) (hsome : 0 < (s.krnl.queuingChannels c).currentNbMessages) :
      ChannelStep s e c (s.krnl.queuingChannels c).channelDequeue
  | cleared (hclears : s.clearsChannel c e = true) :
      ChannelStep s e c (s.krnl.queuingChannels c).channelClear

theorem setQueuingChannel_of_ne {c' : Nat} (h : c ≠ c') (x : QueuingChannel) :
    (s.setQueuingChannel c' x).krnl.queuingChannels c = s.krnl.queuingChannels c :=
  Function.update_of_ne h _ _

theorem setQueuingChannel_self (x : QueuingChannel) : (s.setQueuingChannel c x).krnl.queuingChannels c = x :=
  Function.update_self _ _ _

theorem queuingChannelOf_eq {queuingPortId : Int} {index c' : Nat}
    (hfind : s.findQueuingPortById queuingPortId = some index)
    (hchannel : (s.res.queuingPorts index).channel = some c') : s.queuingChannelOf queuingPortId = some c' := by
  rw [queuingChannelOf, hfind]
  exact hchannel

theorem sendQueuingMessage_channelStep (c : Nat) (queuingPortId : Int) (messageAddr : Area) (length : Int) :
    ChannelStep s (.call (.sendQueuingMessage queuingPortId messageAddr length 0)) c
      ((s.sendQueuingMessage queuingPortId messageAddr length 0).1.krnl.queuingChannels c) := by
  have houtcome := sendQueuingMessage_outcome (s := s) queuingPortId messageAddr length
  have haccepted : s.messageAccepted c (.call (.sendQueuingMessage queuingPortId messageAddr length 0))
    = if s.queuingChannelOf queuingPortId = some c ∧ succeeds (s.sendQueuingMessage queuingPortId messageAddr length 0)
      then some (messageAddr.bytes length.toNat, length) else none := rfl
  generalize s.sendQueuingMessage queuingPortId messageAddr length 0 = o at houtcome haccepted ⊢
  cases houtcome with
  | refused rc hrc =>
      refine .same (haccepted.trans (if_neg fun h => ?_)) rfl rfl
      rw [succeeds_ret, decide_eq_true_iff] at h
      exact hrc h.2
  | crashed => exact .same (haccepted.trans (if_neg fun h => nomatch h.2)) rfl rfl
  | done index c' hfind hchannel hP =>
      obtain ⟨hpos, hfit, hroom⟩ := hP
      show ChannelStep s _ c
        ((s.setQueuingChannel c' ((s.krnl.queuingChannels c').channelEnqueue messageAddr length)).krnl.queuingChannels c)
      by_cases hc : c = c'
      · subst hc
        rw [setQueuingChannel_self]
        exact .accepted index messageAddr length (haccepted.trans (if_pos ⟨queuingChannelOf_eq hfind hchannel, rfl⟩))
          rfl rfl (findIndex_eq_some hfind).1 hchannel hpos hfit hroom
      · rw [setQueuingChannel_of_ne hc]
        refine .same (haccepted.trans (if_neg fun h => hc ?_)) rfl rfl
        rw [queuingChannelOf_eq hfind hchannel] at h
        exact (Option.some.inj h.1).symm

theorem receiveQueuingMessage_channelStep (c : Nat) (queuingPortId : Int) :
    ChannelStep s (.call (.receiveQueuingMessage queuingPortId 0)) c
      ((s.receiveQueuingMessage queuingPortId 0).1.krnl.queuingChannels c) := by
  have houtcome := receiveQueuingMessage_outcome (s := s) queuingPortId
  have hreturned : s.messageReturned c (.call (.receiveQueuingMessage queuingPortId 0))
    = if s.queuingChannelOf queuingPortId = some c ∧ succeeds (s.receiveQueuingMessage queuingPortId 0)
      then (s.receiveQueuingMessage queuingPortId 0).2.map fun r => (r.message, r.length) else none := rfl
  generalize s.receiveQueuingMessage queuingPortId 0 = o at houtcome hreturned ⊢
  cases houtcome with
  | refused rc hrc =>
      refine .same rfl (hreturned.trans (if_neg fun h => ?_)) rfl
      rw [succeeds_ret, decide_eq_true_iff] at h
      exact hrc h.2
  | crashed => exact .same rfl (hreturned.trans (if_neg fun h => nomatch h.2)) rfl
  | done index c' hfind hchannel hsome =>
      show ChannelStep s _ c
        ((s.setQueuingChannel c' (s.krnl.queuingChannels c').channelDequeue).krnl.queuingChannels c)
      by_cases hc : c = c'
      · subst hc
        rw [setQueuingChannel_self]
        exact .returned rfl (hreturned.trans (if_pos ⟨queuingChannelOf_eq hfind hchannel, rfl⟩)) rfl hsome
      · rw [setQueuingChannel_of_ne hc]
        refine .same rfl (hreturned.trans (if_neg fun h => hc ?_)) rfl
        rw [queuingChannelOf_eq hfind hchannel] at h
        exact (Option.some.inj h.1).symm

theorem clearQueuingPort_channelStep (c : Nat) (queuingPortId : Int) :
    ChannelStep s (.call (.clearQueuingPort queuingPortId)) c
      ((s.clearQueuingPort queuingPortId).1.krnl.queuingChannels c) := by
  have houtcome := clearQueuingPort_outcome (s := s) queuingPortId
  have hclears : s.clearsChannel c (.call (.clearQueuingPort queuingPortId))
    = (decide (s.queuingChannelOf queuingPortId = some c) && succeeds (s.clearQueuingPort queuingPortId)) := rfl
  generalize s.clearQueuingPort queuingPortId = o at houtcome hclears ⊢
  cases houtcome with
  | refused rc hrc =>
      refine .same rfl rfl (hclears.trans ?_)
      rw [succeeds_ret, decide_eq_false hrc, Bool.and_false]
  | crashed => exact .same rfl rfl (hclears.trans (Bool.and_false _))
  | done index c' hfind hchannel =>
      show ChannelStep s _ c
        ((s.setQueuingChannel c' (s.krnl.queuingChannels c').channelClear).krnl.queuingChannels c)
      rw [queuingChannelOf_eq hfind hchannel] at hclears
      by_cases hc : c = c'
      · subst hc
        rw [setQueuingChannel_self]
        refine .cleared (hclears.trans ?_)
        rw [decide_eq_true rfl]
        rfl
      · rw [setQueuingChannel_of_ne hc]
        refine .same rfl rfl (hclears.trans ?_)
        rw [decide_eq_false fun h => hc (Option.some.inj h).symm, Bool.false_and]

/-- Where nobody waits at a port, a step does to a channel what its call does. -/
theorem NobodyAtPorts.channelStep (h : NobodyAtPorts s) {e : Action} (hcall : CallsWithoutTimeOut e)
    (hkernel : e.isKernel = false) (hstep : s.step e = some s') (c : Nat) :
    ChannelStep s e c (s'.krnl.queuingChannels c) := by
  have hsame : ∀ {k : Krnl}, k.queuingChannels = s.krnl.queuingChannels → s.messageAccepted c e = none →
      s.messageReturned c e = none → s.clearsChannel c e = false → ChannelStep s e c (k.queuingChannels c) := by
    intro k hk haccepted hreturned hclears
    rw [hk]
    exact .same haccepted hreturned hclears
  have hstores := congrArg Stores.krnl (step_stores hstep)
  cases e with
  | call service =>
      obtain ⟨-, rfl⟩ := call_eq_some hstep
      have hkrnl := congrArg Krnl.queuingChannels (exec_krnl s service)
      cases service with
      | sendQueuingMessage queuingPortId messageAddr length timeOut =>
          obtain rfl : timeOut = 0 := hcall
          exact sendQueuingMessage_channelStep c queuingPortId messageAddr length
      | receiveQueuingMessage queuingPortId timeOut =>
          obtain rfl : timeOut = 0 := hcall
          exact receiveQueuingMessage_channelStep c queuingPortId
      | clearQueuingPort queuingPortId => exact clearQueuingPort_channelStep c queuingPortId
      | _ => exact hsame hkrnl rfl rfl rfl
  | loop =>
      obtain ⟨-, rfl⟩ := loop_eq_some hstep
      refine hsame ?_ rfl rfl rfl
      have hloop := congrArg (fun x : Stores => x.krnl.queuingChannels) (partitionOsLoop_stores s)
      cases hresumed : s.resumedContext with
      | none =>
          rw [hresumed] at hloop
          exact hloop
      | some k =>
          obtain ⟨node, -, hk, -⟩ := resumedContext_eq_some hresumed
          rw [dispatched_context] at hk
          have hnone := h.contexts node.data
          rw [hk] at hnone
          rw [hresumed] at hloop
          cases k with
          | sendQueuingMessage | receiveQueuingMessage => cases hnone
          | _ => exact hloop
  | kernel => cases hkernel
  | fault errorCode messageAddr length => exact hsame (congrArg Krnl.queuingChannels hstores) rfl rfl rfl
  | mainReturn => exact hsame (congrArg Krnl.queuingChannels hstores) rfl rfl rfl

/-! ## When a call succeeds -/

/-- The time passes the test of the services. -/
theorem timeOutInvalid_zero (huptime : s.krnl.uptime ≤ maxUptime) : s.timeOutInvalid 0 = false := by
  have hmax : maxUptime ≤ maxSystemTime := by decide
  have hlt : maxSystemTime < 2 ^ 64 := by decide
  unfold timeOutInvalid timeOverflow
  rw [Int.toNat_zero, Nat.add_zero, Nat.mod_eq_of_lt (by omega), decide_eq_false (show ¬ maxSystemTime < _ by omega),
    Bool.and_false, Bool.or_false]
  rfl

/-- A process sends a message of a length that the port admits: there has to be room. -/
theorem NobodyAtPorts.send_succeeds_iff (h : NobodyAtPorts s) (huptime : s.krnl.uptime ≤ maxUptime)
    (hcurrent : s.processCurrent.isSome) {queuingPortId : Int} {index : Nat}
    (hfind : s.findQueuingPortById queuingPortId = some index)
    (hchannel : (s.res.queuingPorts index).channel = some c)
    (hsource : (s.res.queuingPorts index).portDirection = .source) {messageAddr : Area} {length : Int}
    (hpos : 0 < length) (hfit : length < (s.res.queuingPorts index).maxMessageSize) :
    succeeds (s.sendQueuingMessage queuingPortId messageAddr length 0) = true
      ↔ (s.krnl.queuingChannels c).currentNbMessages < (s.krnl.queuingChannels c).maxNbMessages := by
  obtain ⟨node, hnode⟩ := Option.isSome_iff_exists.mp hcurrent
  unfold sendQueuingMessage withCurrent
  rw [hfind]
  dsimp only
  rw [timeOutInvalid_zero huptime, if_neg Bool.false_ne_true, if_neg (not_le.mpr hfit), if_neg (not_le.mpr hpos),
    if_neg (not_not.mpr hsource), hnode, hchannel]
  dsimp only
  rw [h.lists index]
  by_cases hroom : (s.krnl.queuingChannels c).currentNbMessages < (s.krnl.queuingChannels c).maxNbMessages
  · rw [if_pos ⟨hroom, rfl⟩, succeeds_ret]
    exact ⟨fun _ => hroom, fun _ => rfl⟩
  · rw [if_neg fun hboth => hroom hboth.1, if_pos rfl, succeeds_ret]
    exact ⟨fun hsucceeds => absurd hsucceeds (by decide), fun hroom' => absurd hroom' hroom⟩

/-- A process receives: there has to be a message. -/
theorem receive_succeeds_iff (huptime : s.krnl.uptime ≤ maxUptime) (hcurrent : s.processCurrent.isSome)
    {queuingPortId : Int} {index : Nat} (hfind : s.findQueuingPortById queuingPortId = some index)
    (hchannel : (s.res.queuingPorts index).channel = some c)
    (hdestination : (s.res.queuingPorts index).portDirection = .destination) :
    succeeds (s.receiveQueuingMessage queuingPortId 0) = true
      ↔ 0 < (s.krnl.queuingChannels c).currentNbMessages := by
  obtain ⟨node, hnode⟩ := Option.isSome_iff_exists.mp hcurrent
  unfold receiveQueuingMessage withCurrent
  rw [hfind]
  dsimp only
  rw [timeOutInvalid_zero huptime, if_neg Bool.false_ne_true, if_neg (not_not.mpr hdestination), hnode, hchannel]
  dsimp only
  by_cases hsome : 0 < (s.krnl.queuingChannels c).currentNbMessages
  · rw [if_pos hsome]
    exact ⟨fun _ => hsome, fun _ => rfl⟩
  · rw [if_neg hsome, if_pos rfl, succeeds_ret]
    exact ⟨fun hsucceeds => absurd hsucceeds (by decide), fun hsome' => absurd hsome' hsome⟩

end Pcb

/-! ## Delivery -/

namespace CoreModule

variable {m m' : CoreModule} {c : Nat}

/-- The messages accepted by a channel and those returned from it, since it was last cleared. -/
structure ChannelHistory where
  accepted : List (List UInt8 × Int)
  returned : List (List UInt8 × Int)

/-- A step enters the message it has stored and the one it has returned. -/
def recordMessages (c : Nat) (h : ChannelHistory) (m : CoreModule) : ModuleAction → ChannelHistory
  | .partition i e =>
    if (m.partition i).clearsChannel c e then ⟨[], []⟩
    else ⟨h.accepted ++ ((m.partition i).messageAccepted c e).toList,
      h.returned ++ ((m.partition i).messageReturned c e).toList⟩
  | .time _ _ _ _ => h

/-- What is on record of a run. -/
def channelHistory (c : Nat) (m : CoreModule) (es : List ModuleAction) : ChannelHistory :=
  Transition.record CoreModule.step (recordMessages c) ⟨[], []⟩ m es

/-- Nobody waits in a send or a receive. -/
def WithoutTimeOut : ModuleAction → Prop
  | .partition _ e => Pcb.CallsWithoutTimeOut e
  | .time _ _ _ _ => True

/-- The messages of every port fit the channel, and the channel holds none. -/
structure EmptyChannel (krnl : Krnl) (c : Nat) : Prop where
  rows : ∀ row ∈ krnl.systemPortTable, row.queuingChannel = some c →
    row.messageSizeBytes ≤ ((krnl.queuingChannels c).maxMessageSize : Int)
  intact : (krnl.queuingChannels c).Intact
  empty : (krnl.queuingChannels c).stored = []

/-- Nothing that was accepted is lost, doubled or overtaken. -/
structure DeliversMessages (table : List PortMapping) (c : Nat) (m : CoreModule) (h : ChannelHistory) : Prop where
  grounded : Grounded table m
  nobody : ∀ i, (m.partition i).NobodyAtPorts
  rows : ∀ row ∈ table, row.queuingChannel = some c →
    row.messageSizeBytes ≤ ((m.krnl.queuingChannels c).maxMessageSize : Int)
  intact : (m.krnl.queuingChannels c).Intact
  delivered : h.returned ++ (m.krnl.queuingChannels c).stored = h.accepted

/-- The messages of a port fit its channel. -/
theorem DeliversMessages.fits {table : List PortMapping} {h : ChannelHistory} (hd : DeliversMessages table c m h)
    {i index : Nat} (hindex : index < (m.partition i).res.queuingPortCount)
    (hchannel : ((m.partition i).res.queuingPorts index).channel = some c) :
    ((m.partition i).res.queuingPorts index).maxMessageSize ≤ ((m.krnl.queuingChannels c).maxMessageSize : Int) := by
  obtain ⟨row, hrow, hport⟩ := (hd.grounded.partitions i).ports.queuing index hindex
  rw [hport.maxMessageSize]
  exact hd.rows row hrow (hport.channel.symm.trans hchannel)

theorem DeliversMessages.step {table : List PortMapping} {h : ChannelHistory} (hd : DeliversMessages table c m h)
    {e : ModuleAction} (hcall : WithoutTimeOut e) (hstep : m.step e = some m') :
    DeliversMessages table c m' (recordMessages c h m e) := by
  have hgrounded := hd.grounded.step hstep
  cases e with
  | time uptime ticks windowsIdx majorFrameCount =>
      obtain ⟨-, -, -, hchannels, -, hpartitions⟩ := step_time hstep
      have hrows := hd.rows
      have hintact := hd.intact
      have hdelivered := hd.delivered
      rw [← hchannels] at hrows hintact hdelivered
      exact ⟨hgrounded, fun i => hpartitions i ▸ ⟨(hd.nobody i).lists, (hd.nobody i).contexts⟩, hrows, hintact,
        hdelivered⟩
  | partition i e =>
      have hpartition := step_partition hstep
      have hnobody : ∀ j, (m'.partition j).NobodyAtPorts := by
        intro j
        by_cases hj : j = i
        · rw [hj]
          exact (hd.nobody i).step (hd.grounded.partitions i).sound hcall hpartition.step
        · rw [hpartition.others j hj]
          exact ⟨(hd.nobody j).lists, (hd.nobody j).contexts⟩
      have hchannel := (hd.nobody i).channelStep hcall hpartition.notKernel hpartition.step c
      have hrows := hd.rows
      rw [show (m'.partition i).krnl = m'.krnl from rfl] at hchannel
      show DeliversMessages table c m' (if (m.partition i).clearsChannel c e then ⟨[], []⟩ else _)
      generalize hnew : m'.krnl.queuingChannels c = x at hchannel
      cases hchannel with
      | same haccepted hreturned hclears =>
          rw [hclears, haccepted, hreturned, Option.toList_none, List.append_nil, List.append_nil]
          refine ⟨hgrounded, hnobody, ?_, ?_, ?_⟩
          all_goals rw [hnew]
          · exact hrows
          · exact hd.intact
          · exact hd.delivered
      | accepted index messageAddr length haccepted hreturned hclears hindex hport hpos hfit hroom =>
          have hsize : length ≤ ((m.krnl.queuingChannels c).maxMessageSize : Int) :=
            (le_of_lt hfit).trans (hd.fits hindex hport)
          rw [hclears, haccepted, hreturned, Option.toList_some, Option.toList_none, List.append_nil]
          refine ⟨hgrounded, hnobody, ?_, ?_, ?_⟩
          all_goals rw [hnew]
          · exact hrows
          · exact hd.intact.enqueue hroom hpos hsize
          · show h.returned ++ ((m.krnl.queuingChannels c).channelEnqueue messageAddr length).stored = h.accepted ++ _
            rw [hd.intact.stored_enqueue hroom hpos hsize, ← List.append_assoc, hd.delivered]
      | returned haccepted hreturned hclears hsome =>
          rw [hclears, haccepted, hreturned, Option.toList_some, Option.toList_none, List.append_nil]
          refine ⟨hgrounded, hnobody, ?_, ?_, ?_⟩
          all_goals rw [hnew]
          · rw [QueuingChannel.maxMessageSize_dequeue]
            exact hrows
          · exact hd.intact.dequeue hsome
          · show (h.returned ++ [_]) ++ (m.krnl.queuingChannels c).channelDequeue.stored = h.accepted
            rw [List.append_assoc, List.singleton_append, ← hd.delivered]
            exact congrArg _ (hd.intact.stored_dequeue hsome).symm
      | cleared hclears =>
          rw [hclears]
          refine ⟨hgrounded, hnobody, ?_, ?_, ?_⟩
          all_goals rw [hnew]
          · exact hrows
          · exact hd.intact.clear
          · exact QueuingChannel.stored_clear (m.krnl.queuingChannels c)

/-- What a port call can rely on: a process receives exactly where a message is stored, and sends a message of a
    length the port admits exactly where there is room; the bytes it reads or writes are the channel's own. A length
    of `MAX_MESSAGE_SIZE` itself is not admitted: `SEND_QUEUING_MESSAGE` refuses it. -/
structure PortServes (m : CoreModule) (c i : Nat) (queuingPortId : Int) (index : Nat) : Prop where
  receives : ((m.partition i).res.queuingPorts index).portDirection = .destination →
    (Pcb.succeeds ((m.partition i).receiveQueuingMessage queuingPortId 0) = true
        ↔ (m.krnl.queuingChannels c).stored ≠ [])
      ∧ ((m.krnl.queuingChannels c).stored ≠ [] → (m.krnl.queuingChannels c).InBounds
        (m.krnl.queuingChannels c).readIndex
        ((m.krnl.queuingChannels c).bufferSizes (m.krnl.queuingChannels c).readIndex))
  sends : ((m.partition i).res.queuingPorts index).portDirection = .source →
    ∀ messageAddr length, 0 < length → length < ((m.partition i).res.queuingPorts index).maxMessageSize →
      (Pcb.succeeds ((m.partition i).sendQueuingMessage queuingPortId messageAddr length 0) = true
        ↔ (m.krnl.queuingChannels c).stored.length < (m.krnl.queuingChannels c).maxNbMessages)
      ∧ ((m.krnl.queuingChannels c).stored.length < (m.krnl.queuingChannels c).maxNbMessages →
        (m.krnl.queuingChannels c).InBounds (m.krnl.queuingChannels c).writeIndex length.toNat)

theorem DeliversMessages.serves {table : List PortMapping} {h : ChannelHistory} (hd : DeliversMessages table c m h)
    {i : Nat} {queuingPortId : Int} {index : Nat} (hctl : (m.partition i).ctl = .process)
    (hfind : (m.partition i).findQueuingPortById queuingPortId = some index)
    (hchannel : ((m.partition i).res.queuingPorts index).channel = some c) :
    PortServes m c i queuingPortId index := by
  have hcurrent := (hd.grounded.partitions i).current hctl
  have huptime : (m.partition i).krnl.uptime ≤ maxUptime := hd.grounded.uptime
  have hstored := QueuingChannel.stored_length (m.krnl.queuingChannels c)
  have hsome : (m.krnl.queuingChannels c).stored ≠ [] ↔ 0 < (m.krnl.queuingChannels c).currentNbMessages := by
    rw [← hstored, List.length_pos_iff]
  refine ⟨fun hdestination => ⟨?_, fun hne => ?_⟩, fun hsource messageAddr length hpos hfit => ⟨?_, fun hroom => ?_⟩⟩
  · rw [hsome]
    exact Pcb.receive_succeeds_iff huptime hcurrent hfind hchannel hdestination
  · have hread := hd.intact.readIndex_lt (hsome.mp hne)
    exact hd.intact.inBounds hread (hd.intact.sizes _ hread)
  · rw [hstored]
    exact (hd.nobody i).send_succeeds_iff huptime hcurrent hfind hchannel hsource hpos hfit
  · rw [hstored] at hroom
    have hsize := hd.fits (Pcb.findIndex_eq_some hfind).1 hchannel
    exact hd.intact.inBounds (hd.intact.valid.writeIndex_lt hroom) (by omega)

theorem deliversMessages_moduleInit (krnl : Krnl) (table : Nat → PartitionBoot) (huptime : krnl.uptime ≤ maxUptime)
    (hempty : EmptyChannel krnl c) :
    DeliversMessages krnl.systemPortTable c (moduleInit krnl table) ⟨[], []⟩ := by
  refine ⟨grounded_moduleInit krnl table huptime, fun i => ?_, hempty.rows, hempty.intact, hempty.empty⟩
  have hnobody := Pcb.nobodyAtPorts_startPartitionOs (table i).period (table i).identifier (table i).conf
    (table i).maxErrors krnl (table i).memory (table i).lastTick
  exact ⟨hnobody.lists, hnobody.contexts⟩

/-- In every interleaving of the partitions in which no send and no receive waits, the messages returned from a
    channel since it was last cleared, followed by those stored, are the ones accepted since then, each once, in
    order, with its bytes and `LENGTH`; and the calls succeed exactly where a message is stored or there is room. -/
theorem channel_delivers_in_order (krnl : Krnl) (table : Nat → PartitionBoot) (huptime : krnl.uptime ≤ maxUptime)
    (hempty : EmptyChannel krnl c) {es : List ModuleAction}
    (hrun : Transition.GuardedRun CoreModule.step (fun _ e => WithoutTimeOut e) (moduleInit krnl table) es m) :
    (channelHistory c (moduleInit krnl table) es).returned ++ (m.krnl.queuingChannels c).stored
        = (channelHistory c (moduleInit krnl table) es).accepted
      ∧ ∀ i queuingPortId index, (m.partition i).ctl = .process →
        (m.partition i).findQueuingPortById queuingPortId = some index →
        ((m.partition i).res.queuingPorts index).channel = some c → PortServes m c i queuingPortId index := by
  have hd := hrun.record_invariant (I := DeliversMessages krnl.systemPortTable c) (f := recordMessages c)
    (fun m e m' h hd hcall hstep => hd.step hcall hstep) (deliversMessages_moduleInit krnl table huptime hempty)
  exact ⟨hd.delivered, fun i queuingPortId index hctl hfind hchannel => hd.serves hctl hfind hchannel⟩

/-- A partition creates its port of the commands channel; its only process executes. -/
def opensPort (name : Name) (portDirection : Int) : List Action :=
  [.loop, .call (.createQueuingPort name 32 10 portDirection 0),
    .call (.createProcess (aperiodicProcess "A".toList 50)), .call (.start 1),
    .call (.setPartitionMode 3), .loop]

/-- Partition 2 sends two messages, and partition 1 receives the first. -/
def sendAndReceive : List ModuleAction :=
  (opensPort "P2_OUT_CMDS".toList 0).map (.partition 2)
    ++ [.partition 2 (.call (.sendQueuingMessage 1 (fun _ => 7) 1 0))]
    ++ (opensPort "P1_IN_CMDS".toList 1).map (.partition 1)
    ++ [.partition 2 (.call (.sendQueuingMessage 1 (fun _ => 8) 2 0)),
      .partition 1 (.call (.receiveQueuingMessage 1 0))]

theorem emptyChannel_default : EmptyChannel defaultKrnl 0 := by
  have hrows : ∀ row ∈ systemPortTable, row.queuingChannel = some 0 → row.messageSizeBytes ≤ 64 := by decide
  exact ⟨hrows, ⟨⟨fun _ => by decide, by decide, rfl⟩, fun _ _ => Nat.zero_le _, by decide, by decide⟩, rfl⟩

theorem channel_delivers_sent :
    ∃ m, Transition.run CoreModule.step defaultModule sendAndReceive = some m
      ∧ (channelHistory 0 defaultModule sendAndReceive).accepted = [([7], 1), ([8, 8], 2)]
      ∧ (channelHistory 0 defaultModule sendAndReceive).returned = [([7], 1)]
      ∧ (channelHistory 0 defaultModule sendAndReceive).returned ++ (m.krnl.queuingChannels 0).stored
        = (channelHistory 0 defaultModule sendAndReceive).accepted := by
  have hrun : (Transition.run CoreModule.step defaultModule sendAndReceive).isSome = true := by decide
  have haccepted : (channelHistory 0 defaultModule sendAndReceive).accepted = [([7], 1), ([8, 8], 2)] := by decide
  have hreturned : (channelHistory 0 defaultModule sendAndReceive).returned = [([7], 1)] := by decide
  obtain ⟨m, hm⟩ := Option.isSome_iff_exists.mp hrun
  have hguarded := Transition.GuardedRun.of_run (P := WithoutTimeOut) hm ?_
  · exact ⟨m, hm, haccepted, hreturned, (channel_delivers_in_order defaultKrnl _ (by decide) emptyChannel_default
      hguarded).1⟩
  · unfold sendAndReceive opensPort
    intro e he
    simp only [List.map_cons, List.map_nil, List.cons_append, List.nil_append, List.mem_cons, List.not_mem_nil,
      or_false] at he
    rcases he with rfl | rfl | rfl | rfl | rfl | rfl | rfl | rfl | rfl | rfl | rfl | rfl | rfl | rfl | rfl
    all_goals first | exact True.intro | exact rfl

end CoreModule

end UcxArinc
