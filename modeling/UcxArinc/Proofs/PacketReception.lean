import UcxArinc.Proofs.EmittedPackets

set_option autoImplicit false

/-! # Packets that are received

Of a received frame so many bytes are there, and the packet begins behind its first 14. Nothing in the stack
is told how many they are: how far it reads, writes and sends is what the headers say. -/

namespace UcxArinc

open Cells OnesComplement Net

variable {netif : Netif} {callbacks : Callbacks} {own : IpAddr} {n : Nat} {bytes : Nat → UInt8} {val : Int} {s : Packet}

/-- What `ip_in` does with the packet in a frame of `n` bytes ends, keeps to those bytes, sends no more than
    them, and says of no datagram that it answers itself that more has come. -/
def Robust (netif : Netif) (callbacks : Callbacks) (own : IpAddr) (n : Nat) (bytes : Nat → UInt8) : Prop :=
  ∃ val s, Ends (fun turns => ipIn netif callbacks turns own (ipLen bytes)) (Packet.ofBytes bytes) val s
    ∧ 14 + s.readEnd ≤ n ∧ 14 + s.writeEnd ≤ n ∧ (∀ packet ∈ s.sent, 14 + packet.length ≤ n)
    ∧ (bytes 9 = 17 → udpDstPort bytes = 7 ∨ udpDstPort bytes = 9 → val = -1 ∨ val + 34 ≤ n)

/-- How many bytes of a frame its headers ask for: as much of them as is looked at, and what they say of a
    message that is summed up, sent back or reported. A sum takes an even number of bytes. -/
def needed (netif : Netif) (own : IpAddr) (bytes : Nat → UInt8) : Nat :=
  if bytes 0 ≠ 0x45 then 15
  else if fragment bytes ≠ 0 then 22
  else if bytes 8 = 0 then 23
  else if ¬ Addressed netif own (packetDst bytes) ∨ short (bytes 10) (bytes 11) ≠ headerSum bytes then 34
  else if bytes 9 = 1 then
    if bytes 20 = 8 then max 38 (14 + (ipLen bytes).toNat) else 35
  else if bytes 9 = 17 then
    if udpField bytes ≠ 0 ∨ udpDstPort bytes = 7 then max 42 (34 + (udpLen bytes).toNat + (udpLen bytes).toNat % 2)
    else if udpDstPort bytes = 9 then max 42 (34 + (udpLen bytes).toNat)
    else 42
  else 34

/-- What the function comes to is all that counts. -/
theorem robust_iff (h : Ends (fun turns => ipIn netif callbacks turns own (ipLen bytes)) (Packet.ofBytes bytes) val s) :
    Robust netif callbacks own n bytes ↔ 14 + s.readEnd ≤ n ∧ 14 + s.writeEnd ≤ n
      ∧ (∀ packet ∈ s.sent, 14 + packet.length ≤ n)
      ∧ (bytes 9 = 17 → udpDstPort bytes = 7 ∨ udpDstPort bytes = 9 → val = -1 ∨ val + 34 ≤ n) := by
  constructor
  · rintro ⟨val', s', h', hrest⟩
    obtain ⟨rfl, rfl⟩ := h.unique h'
    exact hrest
  · intro hrest
    exact ⟨val, s, h, hrest⟩

/-- Where nothing is sent or reported, it is what is read. -/
theorem robust_iff_read
    (h : Ends (fun turns => ipIn netif callbacks turns own (ipLen bytes)) (Packet.ofBytes bytes) val s)
    (hsent : s.sent = []) (hwrite : s.writeEnd ≤ s.readEnd)
    (hval : bytes 9 = 17 → udpDstPort bytes = 7 ∨ udpDstPort bytes = 9 → val = -1) :
    Robust netif callbacks own n bytes ↔ 14 + s.readEnd ≤ n := by
  rw [robust_iff h, hsent]
  constructor
  · exact fun hall => hall.1
  · intro hread
    exact ⟨hread, by omega, fun _ hmem => absurd hmem List.not_mem_nil, fun hudp hport => Or.inl (hval hudp hport)⟩

theorem not_robust (h : ∀ turns, 32768 ≤ turns →
      ipIn netif callbacks turns own (ipLen bytes) (Packet.ofBytes bytes) = none) :
    ¬ Robust netif callbacks own n bytes := by
  rintro ⟨val, s, ⟨enough, hends⟩, -⟩
  have hnone := h (max enough 32768) (Nat.le_max_right _ _)
  have hsome := hends (max enough 32768) (Nat.le_max_left _ _)
  exact absurd (hnone.symm.trans hsome) (by simp)

/-! ## Datagrams -/

/-- The state in which `ip_in` turns to the protocol. -/
def dispatched (bytes : Nat → UInt8) : Packet := ⟨bytes, 20, 12, []⟩

section Datagrams

/-- The echo port: what comes back is what the header says. -/
theorem robust_echo (hin : ∀ turns, 32768 ≤ turns → ipIn netif callbacks turns own (ipLen bytes) (Packet.ofBytes bytes)
      = udpDeliver netif callbacks turns (udpLen bytes) s)
    (hport : udpDstPort s.bytes = 7) (hsent : s.sent = [])
    (hread : s.readEnd = 28 ∨ s.readEnd = max 28 (20 + (udpLen bytes).toNat + (udpLen bytes).toNat % 2))
    (hwrite : s.writeEnd ≤ 28) (hn : n < 65536) :
    Robust netif callbacks own n bytes ↔ max 42 (34 + (udpLen bytes).toNat + (udpLen bytes).toNat % 2) ≤ n := by
  rcases Nat.lt_or_ge 65527 (udpLen bytes).toNat with hlong | hshort
  · have hnone := not_robust (n := n) fun turns hturns => (hin turns hturns).trans (udpDeliver_endless hport hlong turns)
    exact iff_of_false hnone (by omega)
  · have hends : Ends (fun turns => ipIn netif callbacks turns own (ipLen bytes)) (Packet.ofBytes bytes)
        (udpLen bytes).toNat (udpSent netif (packetSrc s.bytes) 7 (udpSrcPort s.bytes) (udpLen bytes) (s.read 24)) :=
      ⟨32768, fun turns hturns => (hin turns hturns).trans (udpDeliver_echo hport hshort hturns)⟩
    have hreadEnd : (udpSent netif (packetSrc s.bytes) 7 (udpSrcPort s.bytes) (udpLen bytes) (s.read 24)).readEnd
        = max 28 (20 + (udpLen bytes).toNat + (udpLen bytes).toNat % 2) := by
      change max (max (max s.readEnd 24) (20 + (udpLen bytes).toNat + (udpLen bytes).toNat % 2)) 20 = _
      omega
    have hwriteEnd : (udpSent netif (packetSrc s.bytes) 7 (udpSrcPort s.bytes) (udpLen bytes) (s.read 24)).writeEnd
        = 28 := by
      change max (max s.writeEnd 28) 20 = 28
      omega
    have hlength : ∀ packet ∈ (udpSent netif (packetSrc s.bytes) 7 (udpSrcPort s.bytes) (udpLen bytes)
        (s.read 24)).sent, packet.length = (udpLen bytes + 20).toNat := by
      intro packet hmem
      have hold : (s.read 24).sent = [] := hsent
      change packet ∈ slice _ 0 (udpLen bytes + 20).toNat :: (s.read 24).sent at hmem
      rw [hold] at hmem
      rw [List.mem_singleton.mp hmem, length_slice]
    have hwrap : (udpLen bytes + 20).toNat ≤ (udpLen bytes).toNat + 20 := by
      rw [UInt16.toNat_add]
      exact Nat.mod_le _ _
    rw [robust_iff hends, hreadEnd, hwriteEnd]
    constructor
    · rintro ⟨hle, -⟩
      omega
    · intro hle
      refine ⟨by omega, by omega, fun packet hmem => ?_, fun _ _ => Or.inr (by omega)⟩
      rw [hlength packet hmem]
      omega

/-- The discard port: the header's length is only reported. -/
theorem robust_discard (hin : ∀ turns, 32768 ≤ turns → ipIn netif callbacks turns own (ipLen bytes)
      (Packet.ofBytes bytes) = udpDeliver netif callbacks turns (udpLen bytes) s)
    (hport : udpDstPort s.bytes = 9) (hport' : udpDstPort bytes = 9) (hudp : bytes 9 = 17) (hsent : s.sent = [])
    (hread : 28 ≤ s.readEnd) (hwrite : s.writeEnd ≤ 28) :
    Robust netif callbacks own n bytes ↔ max (14 + s.readEnd) (34 + (udpLen bytes).toNat) ≤ n := by
  have hends : Ends (fun turns => ipIn netif callbacks turns own (ipLen bytes)) (Packet.ofBytes bytes)
      (udpLen bytes).toNat (s.read 24) :=
    ⟨32768, fun turns hturns => (hin turns hturns).trans (udpDeliver_discard hport)⟩
  have hreadEnd : (s.read 24).readEnd = s.readEnd := Nat.max_eq_left (by omega)
  have hold : (s.read 24).sent = [] := hsent
  rw [robust_iff hends, hreadEnd, Packet.read_writeEnd, hold]
  constructor
  · rintro ⟨hle, -, -, hreport⟩
    have hlen := hreport hudp (Or.inr hport')
    omega
  · intro hle
    exact ⟨by omega, by omega, fun _ hmem => absurd hmem List.not_mem_nil, fun _ _ => Or.inr (by omega)⟩

/-- Any other port. -/
theorem robust_other (hin : ∀ turns, 32768 ≤ turns → ipIn netif callbacks turns own (ipLen bytes)
      (Packet.ofBytes bytes) = udpDeliver netif callbacks turns (udpLen bytes) s)
    (hport : udpDstPort s.bytes = udpDstPort bytes) (hecho : udpDstPort bytes ≠ 7) (hdiscard : udpDstPort bytes ≠ 9)
    (hsent : s.sent = []) (hread : 28 ≤ s.readEnd) (hwrite : s.writeEnd ≤ 28) :
    Robust netif callbacks own n bytes ↔ 14 + s.readEnd ≤ n := by
  have hends : Ends (fun turns => ipIn netif callbacks turns own (ipLen bytes)) (Packet.ofBytes bytes) _ (s.read 24) :=
    ⟨32768, fun turns hturns => (hin turns hturns).trans (udpDeliver_other (hport ▸ hecho) (hport ▸ hdiscard))⟩
  have hreadEnd : (s.read 24).readEnd = s.readEnd := Nat.max_eq_left (by omega)
  rw [robust_iff_read hends hsent (by rw [hreadEnd, Packet.read_writeEnd]; omega)
    fun _ hor => absurd hor (not_or.mpr ⟨hecho, hdiscard⟩), hreadEnd]

/-- What a datagram asks for. -/
theorem robust_udp (hin : ∀ turns, 32768 ≤ turns → ipIn netif callbacks turns own (ipLen bytes)
      (Packet.ofBytes bytes) = udpIn netif callbacks turns ((dispatched bytes).read 10))
    (hudp : bytes 9 = 17) (hn : n < 65536) :
    Robust netif callbacks own n bytes
      ↔ (if udpField bytes ≠ 0 ∨ udpDstPort bytes = 7 then
          max 42 (34 + (udpLen bytes).toNat + (udpLen bytes).toNat % 2)
        else if udpDstPort bytes = 9 then max 42 (34 + (udpLen bytes).toNat)
        else 42) ≤ n := by
  by_cases hfield : udpField bytes = 0
  · -- not tested: read up to the checksum field
    have hplain : ∀ turns, 32768 ≤ turns → ipIn netif callbacks turns own (ipLen bytes) (Packet.ofBytes bytes)
        = udpDeliver netif callbacks turns (udpLen bytes) (((dispatched bytes).read 10).read 28) :=
      fun turns hturns => (hin turns hturns).trans (udpIn_plain hfield)
    have hread : (((dispatched bytes).read 10).read 28).readEnd = 28 := rfl
    have hwrite : (((dispatched bytes).read 10).read 28).writeEnd ≤ 28 := Nat.le_of_ble_eq_true rfl
    by_cases hecho : udpDstPort bytes = 7
    · rw [if_pos (Or.inr hecho)]
      exact robust_echo hplain hecho rfl (Or.inl hread) hwrite hn
    · rw [if_neg (not_or.mpr ⟨not_not.mpr hfield, hecho⟩)]
      by_cases hdiscard : udpDstPort bytes = 9
      · rw [if_pos hdiscard, robust_discard hplain hdiscard hdiscard hudp rfl hread.ge hwrite, hread]
      · rw [if_neg hdiscard, robust_other hplain rfl hecho hdiscard rfl hread.ge hwrite, hread]
  · rw [if_pos (Or.inl hfield)]
    rcases Nat.lt_or_ge 65527 (udpLen bytes).toNat with hlong | hshort
    · have hnone := not_robust (n := n) fun turns hturns => (hin turns hturns).trans
        (udpIn_endless (s := (dispatched bytes).read 10) hfield hlong turns)
      exact iff_of_false hnone (by omega)
    · obtain ⟨s, hs⟩ : ∃ s, s = ((((dispatched bytes).read 10).read 28).write 26 [0, 0]).read
          (20 + (udpLen bytes).toNat + (udpLen bytes).toNat % 2) := ⟨_, rfl⟩
      have htested : ∀ turns, 32768 ≤ turns → ipIn netif callbacks turns own (ipLen bytes) (Packet.ofBytes bytes)
          = if udpField bytes = datagramSum bytes then udpDeliver netif callbacks turns (udpLen bytes) s
            else some (-1, s) := fun turns hturns => hs ▸ (hin turns hturns).trans (udpIn_tested hfield hshort hturns)
      have hread : s.readEnd = max 28 (20 + (udpLen bytes).toNat + (udpLen bytes).toNat % 2) := hs ▸ rfl
      have hwrite : s.writeEnd = 28 := hs ▸ rfl
      have hsent : s.sent = [] := hs ▸ rfl
      have hport : udpDstPort s.bytes = udpDstPort bytes := hs ▸ rfl
      by_cases hsum : udpField bytes = datagramSum bytes
      · have hdeliver := fun turns hturns => (htested turns hturns).trans (if_pos hsum)
        by_cases hecho : udpDstPort bytes = 7
        · exact robust_echo hdeliver (hport.trans hecho) hsent (Or.inr hread) hwrite.le hn
        · by_cases hdiscard : udpDstPort bytes = 9
          · rw [robust_discard hdeliver (hport.trans hdiscard) hdiscard hudp hsent (by omega) hwrite.le, hread]
            omega
          · rw [robust_other hdeliver hport hecho hdiscard hsent (by omega) hwrite.le, hread]
            omega
      · have hends : Ends (fun turns => ipIn netif callbacks turns own (ipLen bytes)) (Packet.ofBytes bytes) (-1) s :=
          ⟨32768, fun turns hturns => (htested turns hturns).trans (if_neg hsum)⟩
        rw [robust_iff_read hends hsent (by omega) fun _ _ => rfl, hread]
        omega

end Datagrams

/-! ## Echo requests -/

/-- What a message of ICMP asks for. -/
theorem robust_icmp (hin : ∀ turns, 32768 ≤ turns → ipIn netif callbacks turns own (ipLen bytes)
      (Packet.ofBytes bytes) = icmpEchoReply netif turns (ipLen bytes) ((dispatched bytes).read 10))
    (hicmp : bytes 9 = 1) :
    Robust netif callbacks own n bytes
      ↔ (if bytes 20 = 8 then max 38 (14 + (ipLen bytes).toNat) else 35) ≤ n := by
  have hproto : bytes 9 ≠ 17 := by
    rw [hicmp]
    decide
  by_cases htype : bytes 20 = 8
  · have hends : Ends (fun turns => ipIn netif callbacks turns own (ipLen bytes)) (Packet.ofBytes bytes) _
        (replySent netif (ipLen bytes) ((dispatched bytes).read 10)) :=
      ⟨32768, fun turns hturns => (hin turns hturns).trans (icmpEchoReply_run (by omega) netif _ _ htype)⟩
    have hreadEnd : (replySent netif (ipLen bytes) ((dispatched bytes).read 10)).readEnd = 24 := rfl
    have hwriteEnd : (replySent netif (ipLen bytes) ((dispatched bytes).read 10)).writeEnd = 24 := rfl
    have hlength : ∀ packet ∈ (replySent netif (ipLen bytes) ((dispatched bytes).read 10)).sent,
        packet.length = (ipLen bytes).toNat := by
      intro packet hmem
      rw [List.mem_singleton.mp hmem, length_slice]
    rw [robust_iff hends, hreadEnd, hwriteEnd, if_pos htype]
    constructor
    · rintro ⟨hle, -, hsent, -⟩
      have hlen := hsent _ List.mem_cons_self
      rw [length_slice] at hlen
      omega
    · intro hle
      refine ⟨by omega, by omega, fun packet hmem => ?_, fun h => absurd h hproto⟩
      rw [hlength packet hmem]
      omega
  · have hends : Ends (fun turns => ipIn netif callbacks turns own (ipLen bytes)) (Packet.ofBytes bytes) _
        (((dispatched bytes).read 10).read 21) := ⟨32768, fun turns hturns => (hin turns hturns).trans
          (icmpEchoReply_other turns netif (ipLen bytes) ((dispatched bytes).read 10) htype)⟩
    have hreadEnd : (((dispatched bytes).read 10).read 21).readEnd = 21 := rfl
    have hwriteEnd : (((dispatched bytes).read 10).read 21).writeEnd = 12 := rfl
    rw [robust_iff_read hends rfl (by omega) fun h => absurd h hproto, hreadEnd, if_neg htype]

/-! ## Every packet -/

/-- What a packet asks for that `ip_in` does not refuse. -/
theorem robust_dispatched (hin : ∀ turns, 32768 ≤ turns → ipIn netif callbacks turns own (ipLen bytes)
      (Packet.ofBytes bytes) = ipDispatch netif callbacks turns (ipLen bytes) (dispatched bytes)) (hn : n < 65536) :
    Robust netif callbacks own n bytes
      ↔ (if bytes 9 = 1 then
          if bytes 20 = 8 then max 38 (14 + (ipLen bytes).toNat) else 35
        else if bytes 9 = 17 then
          if udpField bytes ≠ 0 ∨ udpDstPort bytes = 7 then
            max 42 (34 + (udpLen bytes).toNat + (udpLen bytes).toNat % 2)
          else if udpDstPort bytes = 9 then max 42 (34 + (udpLen bytes).toNat)
          else 42
        else 34) ≤ n := by
  by_cases hicmp : bytes 9 = 1
  · rw [if_pos hicmp]
    have hproto : (dispatched bytes).bytes 9 = 1 := hicmp
    exact robust_icmp (fun turns hturns => (hin turns hturns).trans (ipDispatch_icmp hproto)) hicmp
  · rw [if_neg hicmp]
    by_cases hudp : bytes 9 = 17
    · rw [if_pos hudp]
      have hproto : (dispatched bytes).bytes 9 = 17 := hudp
      exact robust_udp (fun turns hturns => (hin turns hturns).trans (ipDispatch_udp hproto)) hudp hn
    · rw [if_neg hudp]
      have hends : Ends (fun turns => ipIn netif callbacks turns own (ipLen bytes)) (Packet.ofBytes bytes)
          ((callbacks.ip.map fun f => f bytes).getD (-1)) ((dispatched bytes).read 10) :=
        ⟨32768, fun turns hturns => (hin turns hturns).trans (ipDispatch_other hicmp hudp)⟩
      have hreadEnd : ((dispatched bytes).read 10).readEnd = 20 := rfl
      have hwriteEnd : ((dispatched bytes).read 10).writeEnd = 12 := rfl
      rw [robust_iff_read hends rfl (by omega) fun h => absurd h hudp, hreadEnd]

/-- Reception is robust for the frames that are as long as their headers ask for, and for no others. -/
theorem reception_robust_iff (netif : Netif) (callbacks : Callbacks) (own : IpAddr) (n : Nat)
    (hn : n ≤ netif.framelen.toNat) (bytes : Nat → UInt8) :
    Robust netif callbacks own n bytes ↔ needed netif own bytes ≤ n := by
  have hframe := netif.framelen.toNat_lt
  have hrefused : ∀ {s : Packet}, (∀ turns, 32768 ≤ turns →
      ipIn netif callbacks turns own (ipLen bytes) (Packet.ofBytes bytes) = some (-1, s)) → s.sent = [] →
      s.writeEnd ≤ s.readEnd → (Robust netif callbacks own n bytes ↔ 14 + s.readEnd ≤ n) :=
    fun h hsent hwrite => robust_iff_read ⟨32768, h⟩ hsent hwrite fun _ _ => rfl
  unfold needed
  by_cases hver : bytes 0 = 0x45
  · rw [if_neg (not_not.mpr hver)]
    by_cases hwhole : fragment bytes = 0
    · rw [if_neg (not_not.mpr hwhole)]
      by_cases httl : bytes 8 = 0
      · rw [if_pos httl]
        have hrun : ∀ turns, 32768 ≤ turns → ipIn netif callbacks turns own (ipLen bytes) (Packet.ofBytes bytes)
            = some (-1, (Packet.ofBytes bytes).read 9) := fun _ _ => ipIn_ttl hver hwhole httl
        exact hrefused hrun rfl (Nat.zero_le _)
      · rw [if_neg httl]
        by_cases haddr : Addressed netif own (packetDst bytes)
        · have hrun : ∀ turns, 32768 ≤ turns → ipIn netif callbacks turns own (ipLen bytes) (Packet.ofBytes bytes)
              = if short (bytes 10) (bytes 11) = headerSum bytes
                then ipDispatch netif callbacks turns (ipLen bytes) (dispatched bytes)
                else some (-1, ⟨put bytes 10 [0, 0], 20, 12, []⟩) := fun turns hturns =>
            ipIn_addressed hver hwhole httl haddr (Nat.lt_of_lt_of_le (by norm_num) hturns)
          by_cases hsum : short (bytes 10) (bytes 11) = headerSum bytes
          · rw [if_neg (not_or.mpr ⟨not_not.mpr haddr, not_not.mpr hsum⟩)]
            exact robust_dispatched (fun turns hturns => (hrun turns hturns).trans (if_pos hsum)) (by omega)
          · rw [if_pos (Or.inr hsum)]
            have hends := fun turns hturns => (hrun turns hturns).trans (if_neg hsum)
            exact hrefused hends rfl (by norm_num)
        · rw [if_pos (Or.inl haddr)]
          have hrun : ∀ turns, 32768 ≤ turns → ipIn netif callbacks turns own (ipLen bytes) (Packet.ofBytes bytes)
              = some (-1, (Packet.ofBytes bytes).read 20) := fun _ _ => ipIn_address hver hwhole httl haddr
          exact hrefused hrun rfl (Nat.zero_le _)
    · rw [if_pos hwhole]
      exact hrefused (fun _ _ => ipIn_fragment hver hwhole) rfl (Nat.zero_le _)
  · rw [if_pos hver]
    exact hrefused (fun _ _ => ipIn_version hver) rfl (Nat.zero_le _)

theorem reception_robust_iff_echoRequest :
    60 ≤ netif1.framelen.toNat ∧ (Robust netif1 ⟨none, none⟩ netif1.ip 60 echoRequest
      ↔ needed netif1 netif1.ip echoRequest ≤ 60) := by
  have hn : 60 ≤ netif1.framelen.toNat := by decide
  exact ⟨hn, reception_robust_iff netif1 ⟨none, none⟩ netif1.ip 60 hn echoRequest⟩

/-- A datagram of 8 bytes whose header says 65528. -/
def longDatagram (i : Nat) : UInt8 :=
  ([0x45, 0, 0, 28, 0, 0, 0, 0, 64, 17, 0x66, 0xcf, 10, 0, 0, 2, 10, 0, 0, 1, 4, 0xd2, 0, 7, 0xff, 0xf8, 0, 1] : List
    UInt8)[i]?.getD 0

/-- Its checksum is never done with, since no 16 bit counter reaches the end. -/
theorem longDatagram_not_robust :
    60 ≤ netif1.framelen.toNat ∧ ¬ Robust netif1 ⟨none, none⟩ netif1.ip 60 longDatagram := by
  refine ⟨by decide, not_robust fun turns hturns => ?_⟩
  have haddr : Addressed netif1 netif1.ip (packetDst longDatagram) := by decide
  have hsum : short (longDatagram 10) (longDatagram 11) = headerSum longDatagram := by decide
  have hin : ipIn netif1 ⟨none, none⟩ turns netif1.ip (ipLen longDatagram) (Packet.ofBytes longDatagram)
      = ipDispatch netif1 ⟨none, none⟩ turns (ipLen longDatagram) (dispatched longDatagram) :=
    (ipIn_addressed rfl (by decide) (by decide) haddr (Nat.lt_of_lt_of_le (by norm_num) hturns)).trans (if_pos hsum)
  rw [hin, ipDispatch_udp rfl]
  exact udpIn_endless (by decide) (by decide) turns

end UcxArinc
