import UcxArinc.Implementation.Network
import UcxArinc.Proofs.EmittedPackets

set_option autoImplicit false

/-! # What a link writes

Whatever the stack does with a packet, it hands over nothing or one packet with a new IP header of its own
addresses (`Emits`); what `ip_in` makes of a packet is a `Reception`. `eth_send` then writes the packet for the MAC
address it has looked up, or asks for the address in its place. So one call at a host writes at most one frame,
and changes little else (`Move`). -/

namespace UcxArinc

open Cells OnesComplement Net

/-! ## What the packet functions hand over -/

section Emits

variable {netif : Netif} {own : IpAddr} {turns : Nat} {len : UInt16} {s s' t : Packet} {val : Int}

/-- Nothing more is handed over, or one packet of `ip_out`. -/
def Net.Emits (netif : Netif) (s s' : Packet) : Prop :=
  s'.sent = s.sent ∨ ∃ dstAddr proto len t, t.sent = s.sent ∧ s' = ipSent netif dstAddr proto len t

theorem ipOut_emits (hturns : 10 < turns) {dstAddr : IpAddr} {proto : Int}
    (h : ipOut netif turns dstAddr proto len s = some (val, s')) : Emits netif s s' := by
  rw [ipOut_run hturns] at h
  simp only [Option.some.injEq, Prod.mk.injEq] at h
  exact Or.inr ⟨dstAddr, proto, len, s, rfl, h.2.symm⟩

theorem udpOut_emits (hturns : 32768 ≤ turns) {dstAddr : IpAddr} {srcPort dstPort : UInt16}
    (h : udpOut netif turns dstAddr srcPort dstPort len s = some (val, s')) : Emits netif s s' := by
  rcases Nat.lt_or_ge 65527 len.toNat with hlong | hshort
  · rw [udpOut_endless hlong] at h
    cases h
  · rw [udpOut_run hshort hturns] at h
    simp only [Option.some.injEq, Prod.mk.injEq] at h
    exact Or.inr ⟨dstAddr, 17, len + 20, udpBuilt netif dstAddr srcPort dstPort len s, rfl, h.2.symm⟩

/-- All bytes of two packets agree, but for the checksum of a datagram. -/
def Net.SameDatagram (t s : Packet) : Prop := ∀ i, i ≠ 26 → i ≠ 27 → t.bytes i = s.bytes i

/-- What `ip_in` makes of a packet, where -2 is what the callback of the application returns. -/
inductive Net.Reception (netif : Netif) (own : IpAddr) (len : UInt16) (s : Packet) : Int → Packet → Prop
  /-- Nothing is sent, and the application is not called. -/
  | quiet {val : Int} {t : Packet} (hsent : t.sent = s.sent) (hval : val ≠ -2) : Reception netif own len s val t
  /-- A ping is answered. -/
  | pinged {val : Int} {t : Packet} (dstAddr : IpAddr) (hsent : t.sent = s.sent)
      (hproto : t.bytes 9 = 1) (hval : val ≠ -2) : Reception netif own len s val (ipSent netif dstAddr (-1) len t)
  /-- A datagram to the echo port is answered. -/
  | echoed {val : Int} {t : Packet} (hsent : t.sent = s.sent) (hsame : SameDatagram t s) (hproto : s.bytes 9 = 17)
      (hport : udpDstPort s.bytes = 7) (hval : val ≠ -2) :
      Reception netif own len s val (udpSent netif (packetSrc s.bytes) 7 (udpSrcPort s.bytes) (udpLen s.bytes) t)
  /-- The application is called with a datagram. -/
  | handed {t : Packet} (hsent : t.sent = s.sent) (hsame : SameDatagram t s) (hproto : s.bytes 9 = 17)
      (haddr : Addressed netif own (packetDst s.bytes)) : Reception netif own len s (-2) t

theorem icmpEchoReply_reception (hturns : 10 < turns) (hsent : t.sent = s.sent) (hproto : t.bytes 9 = 1)
    (h : icmpEchoReply netif turns len t = some (val, s')) : Reception netif own len s val s' := by
  by_cases htype : t.bytes 20 = 8
  · rw [icmpEchoReply_run hturns netif len t htype] at h
    simp only [Option.some.injEq, Prod.mk.injEq] at h
    rw [← h.1, ← h.2]
    exact .pinged (packetSrc t.bytes) hsent hproto (by omega)
  · rw [icmpEchoReply_other turns netif len t htype] at h
    simp only [Option.some.injEq, Prod.mk.injEq] at h
    rw [← h.1, ← h.2]
    exact .quiet hsent (by split <;> decide)

theorem udpDeliver_reception (hturns : 32768 ≤ turns) (hsent : t.sent = s.sent) (hsame : SameDatagram t s)
    (hproto : s.bytes 9 = 17) (haddr : Addressed netif own (packetDst s.bytes))
    (h : udpDeliver netif Link.appCallbacks turns (udpLen t.bytes) t = some (val, s')) :
    Reception netif own len s val s' := by
  have hsrc : packetSrc t.bytes = packetSrc s.bytes := by
    simp only [packetSrc, hsame 12 (by decide) (by decide), hsame 13 (by decide) (by decide),
      hsame 14 (by decide) (by decide), hsame 15 (by decide) (by decide)]
  have hshort : ∀ i, i < 25 → short (t.bytes i) (t.bytes (i + 1)) = short (s.bytes i) (s.bytes (i + 1)) := by
    intro i hi
    rw [hsame i (by omega) (by omega), hsame (i + 1) (by omega) (by omega)]
  have hsrcPort : udpSrcPort t.bytes = udpSrcPort s.bytes := hshort 20 (by decide)
  have hdstPort : udpDstPort t.bytes = udpDstPort s.bytes := hshort 22 (by decide)
  have hlen : udpLen t.bytes = udpLen s.bytes := hshort 24 (by decide)
  by_cases hecho : udpDstPort t.bytes = 7
  · rcases Nat.lt_or_ge 65527 (udpLen t.bytes).toNat with hlong | hfits
    · rw [udpDeliver_endless hecho hlong] at h
      cases h
    · rw [udpDeliver_echo hecho hfits hturns, hsrc, hsrcPort, hlen] at h
      simp only [Option.some.injEq, Prod.mk.injEq] at h
      rw [← h.1, ← h.2]
      exact .echoed hsent hsame hproto (hdstPort ▸ hecho) (by omega)
  · by_cases hdiscard : udpDstPort t.bytes = 9
    · rw [udpDeliver_discard hdiscard] at h
      simp only [Option.some.injEq, Prod.mk.injEq] at h
      rw [← h.1, ← h.2]
      exact .quiet hsent (by omega)
    · rw [udpDeliver_other hecho hdiscard] at h
      simp only [Option.some.injEq, Prod.mk.injEq] at h
      rw [← h.1, ← h.2]
      exact .handed hsent hsame hproto haddr

theorem udpIn_reception (hturns : 32768 ≤ turns) (hsent : t.sent = s.sent) (hbytes : t.bytes = s.bytes)
    (hproto : s.bytes 9 = 17) (haddr : Addressed netif own (packetDst s.bytes))
    (h : udpIn netif Link.appCallbacks turns t = some (val, s')) : Reception netif own len s val s' := by
  by_cases hplain : udpField t.bytes = 0
  · rw [udpIn_plain hplain] at h
    refine udpDeliver_reception (t := t.read 28) hturns hsent (fun i _ _ => ?_) hproto haddr h
    exact congrFun hbytes i
  · rcases Nat.lt_or_ge 65527 (udpLen t.bytes).toNat with hlong | hshort
    · rw [udpIn_endless hplain hlong] at h
      cases h
    · rw [udpIn_tested hplain hshort hturns] at h
      split at h
      · refine udpDeliver_reception (t := ((t.read 28).write 26 [0, 0]).read
          (20 + (udpLen t.bytes).toNat + (udpLen t.bytes).toNat % 2)) hturns hsent (fun i h26 h27 => ?_) hproto haddr h
        change put t.bytes 26 [0, 0] i = s.bytes i
        rw [hbytes]
        rcases Nat.lt_or_ge i 26 with hi | hi
        · exact put_of_lt hi
        · refine put_of_ge ?_
          change 28 ≤ i
          omega
      · simp only [Option.some.injEq, Prod.mk.injEq] at h
        rw [← h.1, ← h.2]
        exact .quiet hsent (by decide)

theorem ipDispatch_reception (hturns : 32768 ≤ turns) (hsent : t.sent = s.sent) (hbytes : t.bytes = s.bytes)
    (haddr : Addressed netif own (packetDst s.bytes))
    (h : ipDispatch netif Link.appCallbacks turns len t = some (val, s')) : Reception netif own len s val s' := by
  by_cases hicmp : t.bytes 9 = 1
  · rw [ipDispatch_icmp hicmp] at h
    exact icmpEchoReply_reception (t := t.read 10) (by omega) hsent hicmp h
  · by_cases hudp : t.bytes 9 = 17
    · rw [ipDispatch_udp hudp] at h
      exact udpIn_reception (t := t.read 10) hturns hsent hbytes (hbytes ▸ hudp) haddr h
    · rw [ipDispatch_other hicmp hudp] at h
      simp only [Option.some.injEq, Prod.mk.injEq] at h
      rw [← h.1, ← h.2]
      exact .quiet hsent (by change (-1 : Int) ≠ -2; decide)

/-- What `ip_in` makes of any packet. -/
theorem ipIn_reception (hturns : 32768 ≤ turns) (h : ipIn netif Link.appCallbacks turns own len s = some (val, s')) :
    Reception netif own len s val s' := by
  have hquiet : ∀ {u : Packet}, some (-1, u) = some (val, s') → u.sent = s.sent → Reception netif own len s val s' := by
    intro u heq hsent
    simp only [Option.some.injEq, Prod.mk.injEq] at heq
    rw [← heq.1, ← heq.2]
    exact .quiet hsent (by decide)
  by_cases hver : s.bytes 0 = 0x45
  · by_cases hwhole : fragment s.bytes = 0
    · by_cases httl : s.bytes 8 = 0
      · exact hquiet ((ipIn_ttl hver hwhole httl).symm.trans h) rfl
      · by_cases haddr : Addressed netif own (packetDst s.bytes)
        · rw [ipIn_addressed hver hwhole httl haddr (by omega)] at h
          split at h
          · exact ipDispatch_reception (t := ⟨s.bytes, max s.readEnd 20, max s.writeEnd 12, s.sent⟩) hturns rfl rfl
              haddr h
          · exact hquiet h rfl
        · exact hquiet ((ipIn_address hver hwhole httl haddr).symm.trans h) rfl
    · exact hquiet ((ipIn_fragment hver hwhole).symm.trans h) rfl
  · exact hquiet ((ipIn_version hver).symm.trans h) rfl

theorem Net.Reception.emits (h : Reception netif own len s val s') : Emits netif s s' := by
  cases h with
  | quiet hsent _ => exact Or.inl hsent
  | pinged dstAddr hsent _ _ => exact Or.inr ⟨dstAddr, -1, len, _, hsent, rfl⟩
  | echoed hsent _ _ _ _ => exact Or.inr ⟨_, 17, _, udpBuilt netif _ 7 _ _ _, hsent, rfl⟩
  | handed hsent _ _ _ => exact Or.inl hsent

end Emits

/-! ## Frames -/

namespace EthFrame

/-- The bytes of a frame, and zeros behind. -/
def cells (frame : List UInt8) (i : Nat) : UInt8 := frame.getD i 0

theorem cells_slice {memory : Nat → UInt8} {n i : Nat} (h : i < n) : cells (slice memory 0 n) i = memory i := by
  simp [cells, slice, h]

/-- What a buffer holds of a frame that has been read into it. -/
theorem put_received {memory : Nat → UInt8} {frame padding : List UInt8} {i : Nat} (h : i < frame.length) :
    put memory 0 (frame ++ padding) i = cells frame i := by
  rw [put, if_pos (Nat.zero_le i), Nat.sub_zero, List.getElem?_append_left h, cells, List.getD_eq_getElem?_getD,
    List.getElem?_eq_getElem h]
  rfl

/-- Two buffers that hold the same bytes from a place on, so many. -/
def SameUpTo (f g : Nat → UInt8) (n : Nat) : Prop := ∀ i < n, f i = g i

variable {f g : Nat → UInt8} {n : Nat}

theorem SameUpTo.type (h : SameUpTo f g n) (hn : 14 ≤ n) : type f = type g := by
  simp only [EthFrame.type, shortAt, h 12 (by omega), h 13 (by omega)]

theorem SameUpTo.dstMac (h : SameUpTo f g n) (hn : 14 ≤ n) : dstMac f = dstMac g := by
  simp only [EthFrame.dstMac, macAt, h 0 (by omega), h 1 (by omega), h 2 (by omega), h 3 (by omega), h 4 (by omega),
    h 5 (by omega)]

theorem SameUpTo.addrAt (h : SameUpTo f g n) {i : Nat} (hn : i + 4 ≤ n) : addrAt f i = addrAt g i := by
  simp only [EthFrame.addrAt, h i (by omega), h (i + 1) (by omega), h (i + 2) (by omega), h (i + 3) (by omega)]

theorem SameUpTo.macAt (h : SameUpTo f g n) {i : Nat} (hn : i + 6 ≤ n) : macAt f i = macAt g i := by
  simp only [EthFrame.macAt, h i (by omega), h (i + 1) (by omega), h (i + 2) (by omega), h (i + 3) (by omega),
    h (i + 4) (by omega), h (i + 5) (by omega)]

theorem SameUpTo.shortAt (h : SameUpTo f g n) {i : Nat} (hn : i + 2 ≤ n) : shortAt f i = shortAt g i := by
  simp only [EthFrame.shortAt, h i (by omega), h (i + 1) (by omega)]

theorem sameUpTo_slice (memory : Nat → UInt8) (n : Nat) : SameUpTo (cells (slice memory 0 n)) memory n :=
  fun _ hi => cells_slice hi

end EthFrame

namespace Link

open EthFrame

variable {link link' : Link} {mac : MacAddr} {ip : IpAddr} {len : UInt16}

@[simp] theorem dstMac_ipFrame : dstMac (link.ipFrame mac) = mac := rfl
@[simp] theorem type_ipFrame : type (link.ipFrame mac) = frameIp := rfl
@[simp] theorem packet_ipFrame : packet (link.ipFrame mac) = packet link.frame := by
  funext i
  unfold packet ipFrame
  rw [put_of_ge, put_of_ge, put_of_ge]
  · simp [MacAddr.bytes]
    omega
  · simp [MacAddr.bytes]
    omega
  · simp [shortBytes]

@[simp] theorem type_arpRequest : type (link.arpRequest ip) = frameArp := rfl
@[simp] theorem senderHa_arpRequest : senderHa (link.arpRequest ip) = link.mac := rfl
@[simp] theorem senderPa_arpRequest : senderPa (link.arpRequest ip) = link.ip := rfl

@[simp] theorem type_arpReply : type link.arpReply = frameArp := rfl
@[simp] theorem senderHa_arpReply : senderHa link.arpReply = link.mac := rfl
@[simp] theorem senderPa_arpReply : senderPa link.arpReply = link.ip := rfl

@[simp] theorem packet_withPacket (bytes : Nat → UInt8) : packet (link.withPacket bytes).frame = bytes := by
  funext i
  simp [packet, withPacket, ethSize]

/-! ## What a call does -/

/-- A frame that `eth_send` writes for a packet of the link: the packet, for the MAC address that has been looked up,
or a request for it. -/
inductive Sends (link : Link) : List UInt8 → List UInt8 → Prop
  | packet (memory : Nat → UInt8) (mac : MacAddr) (len : Nat)
      (hsrc : addrAt (packet memory) 12 = link.ip) (hfound : (link.resolve mac (addrAt (packet memory) 16)).1 ≠ 0) :
      Sends link (slice (packet memory) 0 len)
        (slice ({ link with frame := memory }.ipFrame (link.resolve mac (addrAt (packet memory) 16)).2) 0
          (len + ethSize))
  | request (memory : Nat → UInt8) (mac : MacAddr) (len : Nat)
      (hunknown : (link.resolve mac (addrAt (packet memory) 16)).1 = 0) :
      Sends link (slice (packet memory) 0 len)
        (slice ({ link with frame := memory }.arpRequest (addrAt (packet memory) 16)) 0 (ethArpSize + ethSize))

/-- What `eth_recv` does to a link where it returns no packet. -/
inductive Hears (link : Link) (received : List UInt8) : Link → Prop
  | quiet (memory : Nat → UInt8) : Hears link received { link with frame := memory }
  | replies (memory reply : Nat → UInt8) (hmemory : memory = put link.frame 0 received) (htype : type memory = frameArp)
      (hop : operation memory = opArpRequest) (htarget : targetPa memory = link.ip)
      (hreply : reply = { link with frame := memory }.arpReply) :
      Hears link received { link with frame := reply, written := slice reply 0 ethArpSize :: link.written }
  | learns (memory : Nat → UInt8) (hmemory : memory = put link.frame 0 received) (htype : type memory = frameArp)
      (hop : operation memory = opArpAnswer) :
      Hears link received
        { link with frame := memory, cache := (link.cache.arpUpdate (senderPa memory) (senderHa memory)).1 }
  | configures (memory : Nat → UInt8) (ip gateway : IpAddr) (hip : link.ip = ⟨0, 0, 0, 0⟩) :
      Hears link received { link with frame := memory, ip := ip, gateway := gateway, netmask := ip.classMask }

/-- What a call of a host does to its link. -/
inductive Move (link : Link) (call : HostCall) : Link → Prop
  | quiet (memory : Nat → UInt8) : Move link call { link with frame := memory }
  | sends (memory : Nat → UInt8) (p frame : List UInt8) (hframe : Sends link p frame) :
      Move link call { link with frame := memory, written := frame :: link.written }
  | hears {link' : Link} (received : List UInt8) (hcall : call = .receive received)
      (hears : Hears link received link') : Move link call link'

variable {call : HostCall} {memory : Nat → UInt8}

/-- What a link sends does not depend on its buffer before. -/
theorem Sends.of_memory {p frame : List UInt8} (h : Sends { link with frame := memory } p frame) :
    Sends link p frame := by
  cases h with
  | packet memory mac len hsrc hfound => exact .packet memory mac len hsrc hfound
  | request memory mac len hunknown => exact .request memory mac len hunknown

/-- `eth_send` writes one frame. -/
theorem ethSend_sends (hsrc : addrAt (packet link.frame) 12 = link.ip) (mac : MacAddr) (len : UInt16) :
    ∃ memory frame, Sends link (slice (packet link.frame) 0 len.toNat) frame
      ∧ (link.ethSend mac len).1 = { link with frame := memory, written := frame :: link.written } := by
  unfold ethSend
  by_cases hfound : (link.resolve mac (addrAt (packet link.frame) 16)).1 = 0
  · rw [if_neg (not_not.mpr hfound)]
    exact ⟨_, _, .request link.frame mac len.toNat hfound, rfl⟩
  · rw [if_pos hfound]
    exact ⟨_, _, .packet link.frame mac len.toNat hsrc hfound, rfl⟩

theorem onPacket_run {f : Netif → Net Int} {val : Int} {s : Packet} (h : link.onPacket mac f = some (link', val, s)) :
    f (link.netif mac) (Packet.ofBytes (packet link.frame)) = some (val, s) := by
  obtain ⟨⟨val', s'⟩, hf, heq⟩ := Option.map_eq_some_iff.mp h
  simp only [Prod.mk.injEq] at heq
  obtain ⟨-, rfl, rfl⟩ := heq
  exact hf

/-- A function of packets writes no frame, or one for the packet that it hands over. -/
theorem onPacket_sends {f : Netif → Net Int} {val : Int} {s : Packet}
    (h : link.onPacket mac f = some (link', val, s))
    (hemits : Emits (link.netif mac) (Packet.ofBytes (packet link.frame)) s) :
    (s.sent = [] ∧ ∃ memory, link' = { link with frame := memory }) ∨
      ∃ memory p frame, s.sent = [p] ∧ Sends link p frame
        ∧ link' = { link with frame := memory, written := frame :: link.written } := by
  obtain ⟨⟨val', s'⟩, hf, heq⟩ := Option.map_eq_some_iff.mp h
  simp only [Prod.mk.injEq] at heq
  obtain ⟨rfl, rfl, rfl⟩ := heq
  rcases hemits with hnone | ⟨dstAddr, proto, len, t, ht, hs⟩
  · rw [hnone]
    exact Or.inl ⟨rfl, _, rfl⟩
  · have hlen : UInt16.ofNat (slice s'.bytes 0 len.toNat).length = len := by
      rw [length_slice]
      exact UInt16.ofNat_toNat
    have hsent : s'.sent = [slice s'.bytes 0 len.toNat] := by
      rw [hs]
      change _ :: t.sent = _
      rw [ht]
      rfl
    have hsrc : addrAt (packet (link.withPacket s'.bytes).frame) 12 = link.ip := by
      rw [packet_withPacket, hs]
      rfl
    obtain ⟨memory, frame, hframe, hsend⟩ := ethSend_sends hsrc mac len
    rw [packet_withPacket] at hframe
    rw [hsent]
    simp only [List.foldr_cons, List.foldr_nil, hlen, hsend]
    exact Or.inr ⟨memory, _, frame, rfl, hframe.of_memory, rfl⟩

/-- A function of packets is a move, wherever it begins. -/
theorem onPacket_move {f : Netif → Net Int} {val : Int} {s : Packet}
    (h : ({ link with frame := memory } : Link).onPacket mac f = some (link', val, s))
    (hemits : Emits (({ link with frame := memory } : Link).netif mac) (Packet.ofBytes (packet memory)) s) :
    Move link call link' := by
  rcases onPacket_sends h hemits with ⟨-, memory, rfl⟩ | ⟨memory, p, frame, -, hframe, rfl⟩
  · exact .quiet memory
  · exact .sends memory p frame hframe.of_memory

/-- What `eth_recv` does, and what it leaves in the buffer of a packet that it returns. -/
theorem ethRecv_hears (link : Link) (received : List UInt8) :
    (link.ethRecv received).2 = 0 ∧ Hears link received (link.ethRecv received).1
      ∨ type (put link.frame 0 received) = frameIp
        ∧ link.ethRecv received = ({ link with frame := put link.frame 0 received },
          ((ipLen (packet (put link.frame 0 received))).toNat : Int)) := by
  unfold ethRecv devRead
  by_cases hlen : received.length ≤ link.framelen.toNat
  · rw [if_pos hlen]
    dsimp only
    by_cases hpos : received.length > 0
    · rw [if_pos hpos]
      split
      · split
        · rename_i htype
          refine Or.inl ⟨rfl, ?_⟩
          unfold recvArp
          split
          · split
            · rename_i hop
              exact .replies _ _ rfl htype hop.1 hop.2 rfl
            · split
              · rename_i hop
                exact .learns _ rfl htype hop
              · exact .quiet _
          · exact .quiet _
        · split
          · rename_i htype
            unfold recvIp
            dsimp only
            split
            · rename_i hany
              refine Or.inl ?_
              split
              · exact ⟨rfl, .configures _ _ _ (of_decide_eq_true hany)⟩
              · exact ⟨rfl, .quiet _⟩
            · exact Or.inr ⟨htype, rfl⟩
          · exact Or.inl ⟨rfl, .quiet _⟩
      · exact Or.inl ⟨rfl, .quiet _⟩
    · rw [if_neg hpos]
      exact Or.inl ⟨rfl, .quiet _⟩
  · rw [if_neg hlen]
    exact Or.inl ⟨rfl, .quiet link.frame⟩

/-- What a call does. -/
theorem exec_move {d : Option Datagram} (h : link.exec mac call = some (link', d)) : Move link call link' := by
  cases call with
  | udp dstAddr srcPort dstPort payload =>
      rw [exec] at h
      obtain ⟨⟨link₁, val, s⟩, hrun, heq⟩ := Option.bind_eq_some_iff.mp h
      obtain ⟨rfl, rfl⟩ := Prod.mk.inj (Option.some.inj heq)
      exact onPacket_move hrun (udpOut_emits (le_refl _) (onPacket_run hrun))
  | ip dstAddr proto payload =>
      rw [exec] at h
      obtain ⟨⟨link₁, val, s⟩, hrun, heq⟩ := Option.bind_eq_some_iff.mp h
      obtain ⟨rfl, rfl⟩ := Prod.mk.inj (Option.some.inj heq)
      exact onPacket_move hrun (ipOut_emits (by decide) (onPacket_run hrun))
  | receive received =>
      simp only [exec] at h
      rcases ethRecv_hears link received with ⟨hlen, hears⟩ | ⟨-, hsame⟩
      · rw [if_neg (by omega)] at h
        obtain ⟨rfl, rfl⟩ := Prod.mk.inj (Option.some.inj h)
        exact .hears received rfl hears
      · rw [hsame] at h
        split at h
        · obtain ⟨⟨link₁, val, s⟩, hrun, heq⟩ := Option.bind_eq_some_iff.mp h
          obtain ⟨rfl, rfl⟩ := Prod.mk.inj (Option.some.inj heq)
          exact onPacket_move hrun (ipIn_reception (le_refl _) (onPacket_run hrun)).emits
        · obtain ⟨rfl, rfl⟩ := Prod.mk.inj (Option.some.inj h)
          exact .quiet _

end Link

end UcxArinc
