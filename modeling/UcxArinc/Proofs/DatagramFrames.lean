import UcxArinc.Proofs.LinkFrames

set_option autoImplicit false

/-! # Frames with datagrams

Which frames carry a datagram, and what a call writes: a frame with the datagram that was given to `udp_out`, or with
the echo of a datagram that has been received, a frame with something else, or nothing. A frame may be padded
on its way: the lengths in the headers tell where the datagram ends. -/

namespace UcxArinc

open Cells OnesComplement Net EthFrame

/-! ## Packets -/

namespace Datagram

variable {d : Datagram} {memory memory' : Nat → UInt8} {p : List UInt8}

/-- A packet of `udp_out` for the datagram. -/
def IsPacket (d : Datagram) (p : List UInt8) : Prop :=
  ∃ (netif : Netif) (bytes : Nat → UInt8) (len : UInt16), netif.ip = d.srcAddr
    ∧ slice bytes 28 d.payload.length = d.payload ∧ len.toNat = 8 + d.payload.length
    ∧ (len + 20).toNat = 28 + d.payload.length
    ∧ p = headers netif d.dstAddr d.srcPort d.dstPort (len + 20) len (ipChksum netif d.dstAddr 17 (len + 20))
        (udpChksum netif d.dstAddr d.srcPort d.dstPort len bytes) ++ slice bytes 28 d.payload.length

theorem IsPacket.length (h : d.IsPacket p) : p.length = 28 + d.payload.length := by
  obtain ⟨netif, bytes, len, -, -, -, -, rfl⟩ := h
  exact length_datagram _

/-- The headers where the packet is. -/
theorem IsPacket.put_headers (h : d.IsPacket p) (hmemory : slice memory 0 p.length = p) :
    ∃ (netif : Netif) (bytes : Nat → UInt8) (len : UInt16), netif.ip = d.srcAddr ∧ len.toNat = 8 + d.payload.length
      ∧ (len + 20).toNat = 28 + d.payload.length
      ∧ put memory 0 (headers netif d.dstAddr d.srcPort d.dstPort (len + 20) len
        (ipChksum netif d.dstAddr 17 (len + 20)) (udpChksum netif d.dstAddr d.srcPort d.dstPort len bytes)) = memory
      ∧ slice memory 28 d.payload.length = d.payload := by
  have hlength := h.length
  obtain ⟨netif, bytes, len, hsrc, hpayload, hlen, htotal, rfl⟩ := h
  rw [hlength, slice_add] at hmemory
  obtain ⟨hfront, hback⟩ := List.append_inj hmemory (by rw [length_slice]; rfl)
  exact ⟨netif, bytes, len, hsrc, hlen, htotal, put_slice hfront, hback.trans hpayload⟩

/-- Where the packet is, the datagram is read. -/
theorem IsPacket.ofPacket (h : d.IsPacket p) (hmemory : slice memory 0 p.length = p) : ofPacket memory = d := by
  obtain ⟨netif, bytes, len, hsrc, hlen, -, hput, hpayload⟩ := h.put_headers hmemory
  have hfield : shortAt memory 24 = len := by
    rw [← hput]
    exact short_shortBytes len
  have hcount : 8 + d.payload.length - 8 = d.payload.length := by omega
  have hsrcAddr : addrAt memory 12 = d.srcAddr := by
    rw [← hput]
    exact hsrc
  have hdstAddr : addrAt memory 16 = d.dstAddr := by
    rw [← hput]
    rfl
  have hsrcPort : shortAt memory 20 = d.srcPort := by
    rw [← hput]
    exact short_shortBytes _
  have hdstPort : shortAt memory 22 = d.dstPort := by
    rw [← hput]
    exact short_shortBytes _
  rw [Datagram.ofPacket, hfield, hlen, hcount, hsrcAddr, hdstAddr, hsrcPort, hdstPort, hpayload]

theorem IsPacket.ipLen (h : d.IsPacket p) (hmemory : slice memory 0 p.length = p) :
    (ipLen memory).toNat = 28 + d.payload.length := by
  obtain ⟨netif, bytes, len, -, -, htotal, hput, -⟩ := h.put_headers hmemory
  rw [← htotal, ← hput]
  exact congrArg UInt16.toNat (short_shortBytes (len + 20))

theorem IsPacket.udpLen (h : d.IsPacket p) (hmemory : slice memory 0 p.length = p) :
    (udpLen memory).toNat = 8 + d.payload.length := by
  obtain ⟨netif, bytes, len, -, hlen, -, hput, -⟩ := h.put_headers hmemory
  rw [← hlen, ← hput]
  exact congrArg UInt16.toNat (short_shortBytes len)

theorem IsPacket.proto (h : d.IsPacket p) (hmemory : slice memory 0 p.length = p) : memory 9 = 17 := by
  obtain ⟨netif, bytes, len, -, -, -, hput, -⟩ := h.put_headers hmemory
  rw [← hput]
  rfl

/-- The checksum is not part of the datagram. -/
theorem ofPacket_congr (h : ∀ i, i ≠ 26 → i ≠ 27 → memory i = memory' i) : ofPacket memory = ofPacket memory' := by
  have haddr : ∀ i, i + 4 ≤ 26 → addrAt memory i = addrAt memory' i := by
    intro i hi
    simp only [addrAt, h i (by omega) (by omega), h (i + 1) (by omega) (by omega), h (i + 2) (by omega) (by omega),
      h (i + 3) (by omega) (by omega)]
  have hshort : ∀ i, i + 2 ≤ 26 → shortAt memory i = shortAt memory' i := by
    intro i hi
    simp only [shortAt, h i (by omega) (by omega), h (i + 1) (by omega) (by omega)]
  have hpayload : ∀ n, slice memory 28 n = slice memory' 28 n := fun n =>
    slice_congr fun i hi _ => h i (by omega) (by omega)
  rw [ofPacket, ofPacket, haddr 12 (by decide), haddr 16 (by decide), hshort 20 (by decide), hshort 22 (by decide),
    hshort 24 (by decide), hpayload]

/-- What the echo port makes of a datagram. -/
structure EchoOf (d d' : Datagram) : Prop where
  port : d.dstPort = 7
  dstAddr : d'.dstAddr = d.srcAddr
  srcPort : d'.srcPort = 7
  dstPort : d'.dstPort = d.srcPort
  payload : d'.payload = d.payload

/-- The length of the packet that `udp_out` makes. -/
theorem toNat_total {len : UInt16} {n : Nat} (hlen : len.toNat = 8 + n) (hfits : 28 + n < 65536) :
    (len + 20).toNat = 28 + n := by
  rw [UInt16.toNat_add, hlen]
  change (8 + n + 20) % 65536 = _
  omega

/-- What `udp_out` hands over. -/
theorem isPacket_udpSent (netif : Netif) (dstAddr : IpAddr) (srcPort dstPort : UInt16) {len : UInt16} {s : Packet}
    {payload : List UInt8} (hlen : len.toNat = 8 + payload.length) (hfits : 28 + payload.length < 65536)
    (hpayload : slice s.bytes 28 payload.length = payload) :
    ∃ p, (udpSent netif dstAddr srcPort dstPort len s).sent = p :: s.sent
      ∧ p = slice (udpSent netif dstAddr srcPort dstPort len s).bytes 0 (len + 20).toNat
      ∧ IsPacket ⟨netif.ip, dstAddr, srcPort, dstPort, payload⟩ p := by
  have htotal := toNat_total hlen hfits
  have hsent : (udpSent netif dstAddr srcPort dstPort len s).sent = _ := udpSent_sent htotal s
  exact ⟨_, rfl, rfl, netif, s.bytes, len, rfl, hpayload, hlen, htotal, (List.cons.inj hsent).1⟩

end Datagram

/-! ## Frames -/

namespace EthFrame

variable {frame header p : List UInt8} {d d' : Datagram} {memory : Nat → UInt8}

/-- A frame with a packet, as `eth_send` makes it. -/
def IpFrame (frame p : List UInt8) : Prop :=
  ∃ header, header.length = ethSize ∧ frame = header ++ p ∧ type (cells frame) = frameIp

/-- A frame with a datagram in it. -/
def Carries (frame : List UInt8) (d : Datagram) : Prop := ∃ p, IpFrame frame p ∧ d.IsPacket p

theorem IpFrame.unique {p' : List UInt8} (h : IpFrame frame p) (h' : IpFrame frame p') : p = p' := by
  obtain ⟨header, hheader, rfl, -⟩ := h
  obtain ⟨header', hheader', heq, -⟩ := h'
  exact (List.append_inj heq (hheader.trans hheader'.symm)).2

/-- The lengths in a frame are right, and where UDP is the protocol there is a datagram. -/
structure Intact (frame : List UInt8) : Prop where
  whole : ethSize ≤ frame.length
  packet : type (cells frame) = frameIp → ∃ p, IpFrame frame p ∧ 20 ≤ p.length ∧ (ipLen (cells p)).toNat = p.length
    ∧ (cells p 9 = 17 → ∃ d : Datagram, d.IsPacket p)

theorem slice_cells (p : List UInt8) : slice (cells p) 0 p.length = p := by
  refine List.ext_getElem (length_slice _ _ _) fun i hi hi' => ?_
  simp only [slice, List.getElem_map, List.getElem_range, Nat.zero_add]
  rw [cells, List.getD_eq_getElem?_getD, List.getElem?_eq_getElem hi', Option.getD_some]

theorem cells_append (h : header.length = ethSize) (i : Nat) : cells (header ++ p) (14 + i) = cells p i := by
  have hlength : header.length = 14 := h
  rw [cells, cells, List.getD_eq_getElem?_getD, List.getElem?_append_right (by omega), hlength, Nat.add_sub_cancel_left,
    List.getD_eq_getElem?_getD]

/-- The packet of a frame in a buffer that begins with the frame. -/
theorem IpFrame.packet_eq (h : IpFrame frame p) (hsame : SameUpTo (cells frame) memory frame.length) {i : Nat}
    (hi : i < p.length) : packet memory i = cells p i := by
  obtain ⟨header, hheader, rfl, -⟩ := h
  have hlength : header.length = 14 := hheader
  rw [packet, ← hsame (14 + i) (by rw [List.length_append]; omega), cells_append hheader]

theorem IpFrame.slice_packet (h : IpFrame frame p) (hsame : SameUpTo (cells frame) memory frame.length) :
    slice (packet memory) 0 p.length = p := by
  refine (slice_congr fun i _ hi => h.packet_eq hsame ?_).trans (slice_cells p)
  omega

theorem IpFrame.length (h : IpFrame frame p) : frame.length = ethSize + p.length := by
  obtain ⟨header, hheader, rfl, -⟩ := h
  rw [List.length_append, hheader]

theorem Carries.ofPacket (h : Carries frame d) : Datagram.ofPacket (packet (cells frame)) = d := by
  obtain ⟨p, hframe, hp⟩ := h
  exact hp.ofPacket (hframe.slice_packet fun _ _ => rfl)

theorem Carries.length (h : Carries frame d) : frame.length = ethSize + 28 + d.payload.length := by
  obtain ⟨p, hframe, hp⟩ := h
  rw [hframe.length, hp.length, Nat.add_assoc]

theorem Carries.type (h : Carries frame d) : type (cells frame) = frameIp := by
  obtain ⟨p, ⟨header, -, -, htype⟩, -⟩ := h
  exact htype

/-- A frame carries one datagram at most. -/
theorem Carries.unique (h : Carries frame d) (h' : Carries frame d') : d = d' := h.ofPacket.symm.trans h'.ofPacket

/-- A frame of another protocol carries none. -/
theorem not_carries_of_proto (hframe : IpFrame frame p) (hproto : cells p 9 ≠ 17) : ¬ Carries frame d := by
  rintro ⟨p', hframe', hp⟩
  obtain rfl := hframe.unique hframe'
  have hcells : ∀ i, i < p.length → packet (cells frame) i = cells p i := fun i hi =>
    hframe.packet_eq (fun _ _ => rfl) hi
  have hlength := hp.length
  rw [← hcells 9 (by omega)] at hproto
  exact hproto (hp.proto (hframe.slice_packet fun _ _ => rfl))

/-- A frame of ARP carries none. -/
theorem not_carries_of_arp (htype : type (cells frame) = frameArp) : ¬ Carries frame d := by
  intro h
  exact absurd (htype.symm.trans h.type) (by decide)

theorem intact_of_arp (hlen : ethSize ≤ frame.length) (htype : type (cells frame) = frameArp) : Intact frame :=
  ⟨hlen, fun hip => absurd (htype.symm.trans hip) (by decide)⟩

/-- A frame with a packet of `ip_out`. -/
theorem intact_of_ipSent {netif : Netif} {dstAddr : IpAddr} {proto : Int} {len : UInt16} {s : Packet}
    (hframe : IpFrame frame (slice (ipSent netif dstAddr proto len s).bytes 0 len.toNat)) (hlen : 20 ≤ len.toNat)
    (hproto : ipProto s.bytes proto = 17 → ∃ d : Datagram,
      d.IsPacket (slice (ipSent netif dstAddr proto len s).bytes 0 len.toNat)) : Intact frame := by
  have hcells : ∀ i, i < 20 → cells (slice (ipSent netif dstAddr proto len s).bytes 0 len.toNat) i
      = (ipSent netif dstAddr proto len s).bytes i := fun i hi => cells_slice (by omega)
  have hfield : ipLen (cells (slice (ipSent netif dstAddr proto len s).bytes 0 len.toNat)) = len := by
    rw [ipLen, hcells 2 (by decide), hcells 3 (by decide)]
    exact short_shortBytes len
  constructor
  · rw [hframe.length]
    exact Nat.le_add_right _ _
  · intro _
    refine ⟨_, hframe, by rw [length_slice]; exact hlen, by rw [hfield, length_slice], fun hudp => hproto ?_⟩
    rw [hcells 9 (by decide)] at hudp
    exact hudp

end EthFrame

/-! ## Calls -/

namespace Link

variable {link link' : Link} {mac : MacAddr} {frame p : List UInt8} {d : Option Datagram}

/-- Only what is received is handed over. -/
theorem exec_handed {call : HostCall} {d : Datagram} (h : link.exec mac call = some (link', some d)) :
    ∃ received, call = .receive received := by
  cases call with
  | receive received => exact ⟨received, rfl⟩
  | _ =>
      rw [exec] at h
      obtain ⟨_, -, heq⟩ := Option.bind_eq_some_iff.mp h
      cases heq

/-- What is sent for a packet: a frame with it for the MAC address that has been found, or a frame of ARP. -/
theorem Sends.frame_cases (h : Sends link p frame) :
    ∃ ip mac, (20 ≤ p.length → addrAt (cells p) 16 = ip)
      ∧ (IpFrame frame p ∧ (link.resolve mac ip).1 ≠ 0 ∧ dstMac (cells frame) = (link.resolve mac ip).2
        ∨ ethSize ≤ frame.length ∧ type (cells frame) = frameArp ∧ (link.resolve mac ip).1 = 0) := by
  have hdst : ∀ (memory : Nat → UInt8) (len : Nat), 20 ≤ (slice (EthFrame.packet memory) 0 len).length →
      addrAt (cells (slice (EthFrame.packet memory) 0 len)) 16 = addrAt (EthFrame.packet memory) 16 := by
    intro memory len hlen
    rw [length_slice] at hlen
    exact (sameUpTo_slice _ len).addrAt (by omega)
  cases h with
  | packet memory mac len hsrc hfound =>
      obtain ⟨f, hf⟩ : ∃ f, f = { link with frame := memory }.ipFrame
        (link.resolve mac (addrAt (EthFrame.packet memory) 16)).2 := ⟨_, rfl⟩
      have hpacket : EthFrame.packet f = EthFrame.packet memory := by rw [hf, packet_ipFrame]
      have hsame := sameUpTo_slice f (len + ethSize)
      have htype : type (cells (slice f 0 (len + ethSize))) = frameIp := by
        rw [hsame.type (Nat.le_add_left 14 len), hf, type_ipFrame]
      have hmac : dstMac (cells (slice f 0 (len + ethSize)))
          = (link.resolve mac (addrAt (EthFrame.packet memory) 16)).2 := by
        rw [hsame.dstMac (Nat.le_add_left 14 len), hf, dstMac_ipFrame]
      have hslice : slice f 0 (len + ethSize) = slice f 0 ethSize ++ slice (EthFrame.packet memory) 0 len := by
        rw [Nat.add_comm, slice_add, ← hpacket]
        refine congrArg _ (List.map_congr_left fun i _ => ?_)
        simp only [EthFrame.packet, ethSize, Nat.zero_add]
      rw [← hf]
      exact ⟨_, mac, hdst memory len, Or.inl ⟨⟨slice f 0 ethSize, length_slice _ _ _, hslice, htype⟩, hfound, hmac⟩⟩
  | request memory mac len hunknown =>
      refine ⟨_, mac, hdst memory len, Or.inr ⟨by rw [length_slice]; decide, ?_, hunknown⟩⟩
      rw [(sameUpTo_slice _ _).type (by decide), type_arpRequest]

theorem resolve_fst (link : Link) (mac mac' : MacAddr) (ip : IpAddr) :
    (link.resolve mac ip).1 = (link.resolve mac' ip).1 := by
  unfold resolve ArpCache.arpCheck
  split
  · rfl
  · split
    · rfl
    · split
      · rfl
      · dsimp only
        split <;> rfl

/-- What is sent for a datagram: a frame that carries it to the MAC address that has been found, or a frame of ARP where
none is known. -/
def SendsDatagram (link : Link) (frame : List UInt8) (d : Datagram) : Prop :=
  ∃ mac, Carries frame d ∧ (link.resolve mac d.dstAddr).1 ≠ 0 ∧ dstMac (cells frame) = (link.resolve mac d.dstAddr).2
    ∨ type (cells frame) = frameArp ∧ (link.resolve mac d.dstAddr).1 = 0

theorem Sends.datagram {netif : Netif} {dstAddr : IpAddr} {srcPort dstPort len : UInt16} {s : Packet}
    {payload : List UInt8} (h : Sends link p frame)
    (hone : (udpSent netif dstAddr srcPort dstPort len s).sent = p :: s.sent) (hsrc : netif.ip = link.ip)
    (hlen : len.toNat = 8 + payload.length) (hfits : 28 + payload.length < 65536)
    (hpayload : slice s.bytes 28 payload.length = payload) :
    Intact frame ∧ link.SendsDatagram frame ⟨link.ip, dstAddr, srcPort, dstPort, payload⟩ := by
  obtain ⟨p', hsent, hslice, hp⟩ := Datagram.isPacket_udpSent netif dstAddr srcPort dstPort hlen hfits hpayload
  rw [hsrc] at hp
  obtain rfl : p' = p := (List.cons.inj (hsent.symm.trans hone)).1
  have htotal := Datagram.toNat_total hlen hfits
  obtain ⟨ip, mac, hdst, hcases⟩ := h.frame_cases
  obtain rfl : dstAddr = ip := by
    rw [← hdst (by rw [hp.length]; omega)]
    exact (congrArg Datagram.dstAddr (hp.ofPacket (slice_cells p'))).symm
  rcases hcases with ⟨hframe, hfound, hmac⟩ | ⟨hwhole, harp, hunknown⟩
  · refine ⟨?_, mac, Or.inl ⟨⟨p', hframe, hp⟩, hfound, hmac⟩⟩
    rw [hslice] at hframe hp
    exact intact_of_ipSent hframe (by omega) fun _ => ⟨_, hp⟩
  · exact ⟨intact_of_arp hwhole harp, mac, Or.inr ⟨harp, hunknown⟩⟩

/-- What `udp_out` writes. -/
theorem exec_udp {dstAddr : IpAddr} {srcPort dstPort : UInt16} {payload : List UInt8}
    (hfits : 28 + payload.length < 65536)
    (h : link.exec mac (.udp dstAddr srcPort dstPort payload) = some (link', d)) :
    d = none ∧ ∃ frame, link'.written = frame :: link.written ∧ Intact frame
      ∧ link.SendsDatagram frame ⟨link.ip, dstAddr, srcPort, dstPort, payload⟩ := by
  rw [exec] at h
  obtain ⟨⟨link₁, val, s⟩, hrun, heq⟩ := Option.bind_eq_some_iff.mp h
  obtain ⟨rfl, rfl⟩ := Prod.mk.inj (Option.some.inj heq)
  have hlen : (UInt16.ofNat (8 + payload.length)).toNat = 8 + payload.length :=
    UInt16.toNat_ofNat_of_lt' (by change 8 + payload.length < 65536; omega)
  have hf := onPacket_run hrun
  rw [udpOut_run (by omega) (le_refl packetTurns), Option.some.injEq, Prod.mk.injEq] at hf
  obtain ⟨-, rfl⟩ := hf
  have hpayload : slice (packet (put link.frame (ethSize + 28) payload)) 28 payload.length = payload := by
    refine (List.map_congr_left fun i _ => ?_).trans (slice_put link.frame (ethSize + 28) payload)
    simp only [packet, ethSize, ← Nat.add_assoc]
  rcases onPacket_sends hrun (udpOut_emits (le_refl _) (onPacket_run hrun)) with
    ⟨hnone, -⟩ | ⟨memory, p, frame, hone, hsends, rfl⟩
  · cases hnone
  · exact ⟨rfl, frame, rfl, hsends.of_memory.datagram hone rfl hlen hfits hpayload⟩

/-- The frame of a packet with another protocol carries no datagram. -/
theorem Sends.other_cases {netif : Netif} {dstAddr : IpAddr} {proto : Int} {len : UInt16} {s : Packet}
    (h : Sends link p frame) (hone : (ipSent netif dstAddr proto len s).sent = p :: s.sent) (hlen : 20 ≤ len.toNat)
    (hproto : ipProto s.bytes proto ≠ 17) : Intact frame ∧ ∀ d', ¬ Carries frame d' := by
  obtain rfl : slice (ipSent netif dstAddr proto len s).bytes 0 len.toNat = p := (List.cons.inj hone).1
  obtain ⟨-, -, -, ⟨hframe, -, -⟩ | ⟨hwhole, harp, -⟩⟩ := h.frame_cases
  · refine ⟨intact_of_ipSent hframe hlen fun hudp => absurd hudp hproto, fun d' => not_carries_of_proto hframe ?_⟩
    rw [cells_slice (by omega)]
    exact hproto
  · exact ⟨intact_of_arp hwhole harp, fun d' => not_carries_of_arp harp⟩

/-- What `ip_out` writes for another protocol. -/
theorem exec_ip {dstAddr : IpAddr} {proto : UInt8} {payload : List UInt8} (hproto : proto ≠ 17)
    (hfits : 20 + payload.length < 65536) (h : link.exec mac (.ip dstAddr proto payload) = some (link', d)) :
    d = none ∧ ∃ frame, link'.written = frame :: link.written ∧ Intact frame ∧ ∀ d', ¬ Carries frame d' := by
  rw [exec] at h
  obtain ⟨⟨link₁, val, s⟩, hrun, heq⟩ := Option.bind_eq_some_iff.mp h
  obtain ⟨rfl, rfl⟩ := Prod.mk.inj (Option.some.inj heq)
  have hlen : (UInt16.ofNat (20 + payload.length)).toNat = 20 + payload.length :=
    UInt16.toNat_ofNat_of_lt' hfits
  have hbyte : ∀ bytes, ipProto bytes (proto.toNat : Int) = proto := by
    intro bytes
    have hlt := proto.toNat_lt
    have hmod : ((proto.toNat : Int) % 256).toNat = proto.toNat := by omega
    rw [ipProto, if_pos (by omega), hmod, UInt8.ofNat_toNat]
  have hf := onPacket_run hrun
  rw [ipOut_run (by decide : 10 < packetTurns), Option.some.injEq, Prod.mk.injEq] at hf
  obtain ⟨-, rfl⟩ := hf
  rcases onPacket_sends hrun (ipOut_emits (by decide) (onPacket_run hrun)) with
    ⟨hnone, -⟩ | ⟨memory, p, frame, hone, hsends, rfl⟩
  · cases hnone
  · exact ⟨rfl, frame, rfl, hsends.of_memory.other_cases hone (by omega) (by rw [hbyte]; exact hproto)⟩

/-- What comes of a frame that is received: nothing or an answer of ARP, or a packet that `ip_in` takes. -/
theorem exec_receive {received : List UInt8} (h : link.exec mac (.receive received) = some (link', d)) :
    (d = none ∧ (link'.written = link.written ∨
      ∃ frame, link'.written = frame :: link.written ∧ ethSize ≤ frame.length ∧ type (cells frame) = frameArp))
    ∨ type (put link.frame 0 received) = frameIp ∧ ∃ netif val s, netif.ip = link.ip ∧ netif.netmask = link.netmask
      ∧ Reception netif link.ip (ipLen (packet (put link.frame 0 received)))
        (Packet.ofBytes (packet (put link.frame 0 received))) val s
      ∧ d = (if val = -2 then some (Datagram.ofPacket s.bytes) else none)
      ∧ (s.sent = [] ∧ link'.written = link.written ∨
        ∃ p frame, s.sent = [p] ∧ Sends link p frame ∧ link'.written = frame :: link.written) := by
  simp only [exec] at h
  rcases ethRecv_hears link received with ⟨hlen, hears⟩ | ⟨htype, hsame⟩
  · rw [if_neg (by omega)] at h
    obtain ⟨rfl, rfl⟩ := Prod.mk.inj (Option.some.inj h)
    refine Or.inl ⟨rfl, ?_⟩
    generalize (link.ethRecv received).1 = link' at hears
    cases hears with
    | replies memory reply hmemory htype hop htarget hreply =>
        refine Or.inr ⟨_, rfl, by rw [length_slice]; decide, ?_⟩
        rw [(sameUpTo_slice _ _).type (by decide), hreply, type_arpReply]
    | _ => exact Or.inl rfl
  · rw [hsame] at h
    split at h
    · obtain ⟨⟨link₁, val, s⟩, hrun, heq⟩ := Option.bind_eq_some_iff.mp h
      obtain ⟨rfl, rfl⟩ := Prod.mk.inj (Option.some.inj heq)
      have hreception := ipIn_reception (le_refl _) (onPacket_run hrun)
      refine Or.inr ⟨htype, ({ link with frame := put link.frame 0 received } : Link).netif mac, val, s, rfl, rfl, ?_,
        rfl, ?_⟩
      · simpa only [Int.toNat_natCast, UInt16.ofNat_toNat] using hreception
      · rcases onPacket_sends hrun hreception.emits with ⟨hnone, memory, rfl⟩ | ⟨memory, p, frame, hone, hsends, rfl⟩
        · exact Or.inl ⟨hnone, rfl⟩
        · exact Or.inr ⟨p, frame, hone, hsends.of_memory, rfl⟩
    · obtain ⟨rfl, rfl⟩ := Prod.mk.inj (Option.some.inj h)
      exact Or.inl ⟨rfl, Or.inl rfl⟩

/-- What comes of a frame that is intact: the datagram in it is handed over, or its echo is sent, or no datagram. -/
inductive Serves (link : Link) (received : List UInt8) : Link → Option Datagram → Prop
  | quiet {link' : Link} (hwritten : link'.written = link.written) : Serves link received link' none
  | sends {link' : Link} (frame : List UInt8) (hwritten : link'.written = frame :: link.written)
      (hintact : Intact frame) (hnone : ∀ d, ¬ Carries frame d) : Serves link received link' none
  | echoes {link' : Link} {d d' : Datagram} (frame : List UInt8) (hwritten : link'.written = frame :: link.written)
      (hintact : Intact frame) (hcarries : Carries received d) (hecho : d.EchoOf d') (hsends : Carries frame d') :
      Serves link received link' none
  | hands {link' : Link} {d : Datagram} (hwritten : link'.written = link.written) (hcarries : Carries received d)
      (haddr : d.dstAddr = link.ip ∨ d.dstAddr.isBroadcast link.netmask ∨ d.dstAddr.isMulticast) :
      Serves link received link' (some d)

theorem exec_serves {padding : List UInt8} (hintact : Intact frame)
    (h : link.exec mac (.receive (frame ++ padding)) = some (link', d)) : Serves link frame link' d := by
  rcases exec_receive h with ⟨rfl, hsame | ⟨answer, hwritten, hwhole, harp⟩⟩ |
    ⟨htype, netif, val, s, hip, hnetmask, hreception, rfl, hsent⟩
  · exact .quiet hsame
  · exact .sends answer hwritten (intact_of_arp hwhole harp) fun d => not_carries_of_arp harp
  · obtain ⟨memory, hmemory⟩ : ∃ memory, memory = put link.frame 0 (frame ++ padding) := ⟨_, rfl⟩
    rw [← hmemory] at htype hreception
    have hsame : SameUpTo (cells frame) memory frame.length := fun i hi => by rw [hmemory, put_received hi]
    obtain ⟨p, hframe, hlen, hfield, hudp⟩ := hintact.packet ((hsame.type hintact.whole).trans htype)
    have hcells : ∀ i, i < 20 → packet memory i = cells p i := fun i hi => hframe.packet_eq hsame (by omega)
    have hslice := hframe.slice_packet hsame
    have hlen' : (ipLen (packet memory)).toNat = p.length := by
      rw [← hfield, ipLen, ipLen, hcells 2 (by decide), hcells 3 (by decide)]
    have hdatagram : packet memory 9 = 17 → ∃ d : Datagram, d.IsPacket p ∧ Datagram.ofPacket (packet memory) = d := by
      intro hproto
      obtain ⟨d, hd⟩ := hudp ((hcells 9 (by decide)).symm.trans hproto)
      exact ⟨d, hd, hd.ofPacket hslice⟩
    cases hreception with
    | quiet hnone hval =>
        rw [if_neg hval]
        rcases hsent with ⟨-, hwritten⟩ | ⟨p', answer, hone, -, -⟩
        · exact .quiet hwritten
        · exact absurd (hnone.symm.trans hone) (by simp [Packet.ofBytes])
    | @pinged _ t dstAddr hnone hproto hval =>
        rw [if_neg hval]
        rcases hsent with ⟨hempty, -⟩ | ⟨p', answer, hone, hsends, hwritten⟩
        · cases hempty
        · have hproto' : ipProto t.bytes (-1) ≠ 17 := by
            change t.bytes 9 ≠ 17
            rw [hproto]
            decide
          obtain ⟨hanswer, hcarries⟩ := hsends.other_cases (hone.trans (congrArg _ hnone.symm)) (by omega) hproto'
          exact .sends answer hwritten hanswer hcarries
    | @echoed _ t hnone hother hproto hport hval =>
        rw [if_neg hval]
        rcases hsent with ⟨hempty, -⟩ | ⟨p', answer, hone, hsends, hwritten⟩
        · cases hempty
        · obtain ⟨d, hd, hof⟩ := hdatagram hproto
          have hpayload : slice t.bytes 28 d.payload.length = d.payload := by
            obtain ⟨_, _, _, -, -, -, -, hpayload⟩ := hd.put_headers hslice
            exact (slice_congr fun i hi _ => hother i (by omega) (by omega)).trans hpayload
          have hcount : 28 + d.payload.length < 65536 := by
            rw [← hd.length, ← hlen']
            exact UInt16.toNat_lt _
          have hone' : _ = p' :: t.sent := hone.trans (congrArg _ hnone.symm)
          obtain ⟨hanswer, mac, ⟨hcarries, -, -⟩ | ⟨harp, -⟩⟩ :=
            hsends.datagram hone' hip (hd.udpLen hslice) hcount hpayload
          · refine .echoes answer hwritten hanswer ⟨p, hframe, hd⟩ ?_ hcarries
            rw [← hof]
            exact ⟨hport, rfl, rfl, rfl, rfl⟩
          · exact .sends answer hwritten hanswer fun d => not_carries_of_arp harp
    | handed hnone hother hproto haddr =>
        rw [if_pos rfl]
        obtain ⟨d, hd, hof⟩ := hdatagram hproto
        rw [Datagram.ofPacket_congr hother]
        change Serves link frame link' (some (Datagram.ofPacket (packet memory)))
        rcases hsent with ⟨-, hwritten⟩ | ⟨p', answer, hone, -, -⟩
        · refine .hands hwritten ⟨p, hframe, hof ▸ hd⟩ ?_
          rw [← hnetmask]
          exact haddr
        · exact absurd (hnone.symm.trans hone) (by simp [Packet.ofBytes])

/-- A frame for the interface that it has room for, with a packet in it: `eth_recv` returns the packet's length. -/
theorem ethRecv_packet {received : List UInt8} (hroom : received.length ≤ link.framelen.toNat)
    (hlen : 0 < received.length)
    (hmac : dstMac (put link.frame 0 received) = link.mac ∨ dstMac (put link.frame 0 received) = MacAddr.broadcast
      ∨ dstMac (put link.frame 0 received) = MacAddr.any)
    (htype : type (put link.frame 0 received) = frameIp) (hip : link.ip ≠ ⟨0, 0, 0, 0⟩) :
    link.ethRecv received = ({ link with frame := put link.frame 0 received },
      ((ipLen (packet (put link.frame 0 received))).toNat : Int)) := by
  have harp : ¬ type (put link.frame 0 received) = frameArp := by
    rw [htype]
    decide
  have hany : ¬ link.ip.isAny = true := fun h => hip (of_decide_eq_true h)
  unfold ethRecv devRead
  rw [if_pos hroom]
  dsimp only
  rw [if_pos hlen, if_pos hmac, if_neg harp, if_pos htype]
  unfold recvIp
  dsimp only
  rw [if_neg hany]

/-- A packet of `udp_out` comes to the callback of a host it is addressed to, with its datagram. -/
theorem ipIn_delivers (host : Netif) {own : IpAddr} {memory : Nat → UInt8} {d : Datagram} (hd : d.IsPacket p)
    (hslice : slice memory 0 p.length = p) (haddr : Addressed host own d.dstAddr) (hecho : d.dstPort ≠ 7)
    (hdiscard : d.dstPort ≠ 9) :
    ∃ s, ipIn host appCallbacks packetTurns own (ipLen memory) (Packet.ofBytes memory) = some (-2, s)
      ∧ Datagram.ofPacket s.bytes = d := by
  have hof := hd.ofPacket hslice
  obtain ⟨netif, bytes, len, -, -, hlen, htotal, hp⟩ := hd
  have hlt := (len + 20).toNat_lt
  have haccepted : Accepted d.dstAddr len p := by
    rw [hp]
    exact accepted_udp hlen (by omega) (len + 20)
  obtain ⟨s, hrun, hother⟩ := haccepted host appCallbacks own memory hslice haddr
  have hsame : Datagram.ofPacket s.bytes = d := (Datagram.ofPacket_congr hother).trans hof
  have hport : udpDstPort s.bytes = d.dstPort := congrArg Datagram.dstPort hsame
  refine ⟨s.read 24, ?_, hsame⟩
  rw [hrun packetTurns (le_refl _), udpDeliver_other (hport ▸ hecho) (hport ▸ hdiscard)]
  rfl

/-- A datagram whose frame is received by a host it is addressed to is handed over, unless it is for the ports that the
stack serves itself. -/
theorem exec_delivers {padding : List UInt8} {d : Datagram} (hcarries : Carries frame d)
    (hroom : (frame ++ padding).length ≤ link.framelen.toNat)
    (hmac : dstMac (cells frame) = link.mac ∨ dstMac (cells frame) = MacAddr.broadcast
      ∨ dstMac (cells frame) = MacAddr.any)
    (hip : link.ip ≠ ⟨0, 0, 0, 0⟩)
    (haddr : d.dstAddr = link.ip ∨ d.dstAddr.isBroadcast link.netmask ∨ d.dstAddr.isMulticast)
    (hecho : d.dstPort ≠ 7) (hdiscard : d.dstPort ≠ 9) :
    ∃ link', link.exec mac (.receive (frame ++ padding)) = some (link', some d) := by
  obtain ⟨p, hframe, hd⟩ := id hcarries
  obtain ⟨memory, hmemory⟩ : ∃ memory, memory = put link.frame 0 (frame ++ padding) := ⟨_, rfl⟩
  have hsame : SameUpTo (cells frame) memory frame.length := fun i hi => by rw [hmemory, put_received hi]
  have hslice := hframe.slice_packet hsame
  have hwhole : 14 ≤ frame.length := by
    rw [hframe.length]
    exact Nat.le_add_right 14 _
  have htype : type memory = frameIp := by
    rw [← hsame.type hwhole]
    exact hcarries.type
  have hrecv := ethRecv_packet hroom (by rw [List.length_append]; omega)
    (by rw [← hmemory, ← hsame.dstMac hwhole]; exact hmac) (hmemory ▸ htype) hip
  rw [← hmemory] at hrecv
  have hpos : ((ipLen (packet memory)).toNat : Int) > 0 := by
    rw [hd.ipLen hslice]
    omega
  obtain ⟨s, hrun, hof⟩ :=
    ipIn_delivers (({ link with frame := memory } : Link).netif mac) hd hslice haddr hecho hdiscard
  simp only [exec, hrecv, if_pos hpos, onPacket, Int.toNat_natCast, UInt16.ofNat_toNat, hrun, Option.map_some,
    Option.pure_def, Option.bind_eq_bind, Option.bind_some]
  rw [if_pos trivial, hof]
  exact ⟨_, rfl⟩

end Link

end UcxArinc
