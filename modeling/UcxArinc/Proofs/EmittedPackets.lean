import UcxArinc.Proofs.PacketHeaders

set_option autoImplicit false

/-! # Packets that are sent

Checksums verify because a sum and its complement are all ones. An echo reply takes 8 from the first byte of
the message and adds as much to its checksum, with the carry taken round, so that the sum stays the same up to
a carry. -/

namespace UcxArinc

open Cells OnesComplement Net

variable {netif : Netif} {bytes : Nat → UInt8} {len : UInt16} {s s' : Packet} {val : Int}

/-- With turns enough for its loops a function ends, and so. -/
def Net.Ends (f : Nat → Net Int) (s : Packet) (val : Int) (s' : Packet) : Prop :=
  ∃ enough, ∀ turns, enough ≤ turns → f turns s = some (val, s')

/-- It ends in one way only. -/
theorem Net.Ends.unique {f : Nat → Net Int} {val' : Int} {t : Packet} (h : Ends f s val s') (h' : Ends f s val' t) :
    val = val' ∧ s' = t := by
  obtain ⟨m, hm⟩ := h
  obtain ⟨n, hn⟩ := h'
  have heq := (hm (max m n) (Nat.le_max_left m n)).symm.trans (hn (max m n) (Nat.le_max_right m n))
  rwa [Option.some.injEq, Prod.mk.injEq] at heq

/-- The checksum in a message verifies: the words, with the checksum among them, sum to all ones. -/
def Verifies (ws : List Nat) : Prop := OnesComplement.sum 0xffff ws = 0xffff

instance (ws : List Nat) : Decidable (Verifies ws) := inferInstanceAs (Decidable (_ = _))

theorem verifies_iff {ws : List Nat} (h : ∀ w ∈ ws, w ≤ 65535) : Verifies ws ↔ 0 < ws.sum ∧ 65535 ∣ ws.sum :=
  sum_eq_iff (by norm_num) h

/-- A checksum put in for a 0. -/
theorem verifies_of_sum {ws : List Nat} {sum : Nat} (h : ∀ w ∈ ws, w ≤ 65535) (hlt : sum < 2 ^ 32)
    (hsum : ws.sum = sum + (fold sum).toNat) : Verifies ws := by
  rw [Verifies, sum_eq (by norm_num) h, hsum, fold_toNat hlt]
  exact residue_complement (by norm_num) _

/-- A field is one word. -/
theorem words_shortBytes (v : UInt16) (rest : List UInt8) : words (shortBytes v ++ rest) = v.toNat :: words rest := by
  rw [shortBytes, List.cons_append, List.cons_append, List.nil_append, words_cons_cons, shortBytes_toNat]

/-! ## IP headers -/

theorem length_ipHeader (netif : Netif) (dstAddr : IpAddr) (proto : UInt8) (len chksum : UInt16) :
    (ipHeader netif dstAddr proto len chksum).length = 20 := rfl

theorem sum_ipHeader (netif : Netif) (dstAddr : IpAddr) (proto : UInt8) (len chksum : UInt16) :
    (words (ipHeader netif dstAddr proto len chksum)).sum
      = (words (ipHeader netif dstAddr proto len 0)).sum + chksum.toNat := by
  simp only [ipHeader, IpAddr.bytes, List.append_assoc, List.cons_append, List.nil_append, words_cons_cons,
    words_shortBytes, words_nil, List.sum_cons, List.sum_nil, UInt16.toNat_zero]
  omega

theorem ipHeader_verifies (netif : Netif) (dstAddr : IpAddr) (proto : UInt8) (len : UInt16) :
    Verifies (words (ipHeader netif dstAddr proto len (ipChksum netif dstAddr proto len))) := by
  have hle := sum_words_le (ipHeader netif dstAddr proto len 0)
  rw [length_ipHeader] at hle
  exact verifies_of_sum (words_le _) (by omega) (sum_ipHeader netif dstAddr proto len _)

/-- What is handed over has a new header in front of the old bytes. -/
theorem ipSent_sent {dstAddr : IpAddr} {proto : Int} (hlen : 20 ≤ len.toNat) (s : Packet) :
    (ipSent netif dstAddr proto len s).sent
      = (ipHeader netif dstAddr (ipProto s.bytes proto) len (ipChksum netif dstAddr (ipProto s.bytes proto) len)
          ++ slice s.bytes 20 (len.toNat - 20)) :: s.sent := by
  have hcount : len.toNat = 20 + (len.toNat - 20) := by omega
  unfold ipSent
  simp only [List.cons.injEq, and_true]
  rw [hcount, slice_add, Nat.zero_add]
  refine congrArg₂ _ (slice_put _ 0 _) ?_
  rw [slice_put_of_ge (by rfl), Nat.add_sub_cancel_left]

/-! ## Datagrams -/

/-- The addresses, the header and the payload, which the checksum is over. -/
def udpMessage (netif : Netif) (dstAddr : IpAddr) (srcPort dstPort len chksum : UInt16) (payload : List UInt8) :
    List UInt8 :=
  netif.ip.bytes ++ dstAddr.bytes ++ (udpHeader srcPort dstPort len chksum ++ payload)

section Datagrams

variable {dstAddr : IpAddr} {srcPort dstPort chksum : UInt16} {payload : List UInt8} {n : Nat}

theorem slice_udpBytes (n : Nat) :
    slice (udpBytes netif dstAddr srcPort dstPort len chksum bytes) 20 (8 + n)
      = udpHeader srcPort dstPort len chksum ++ slice bytes 28 n := by
  rw [slice_add]
  refine congrArg₂ _ rfl ?_
  exact slice_put_of_ge (by rfl)

theorem slice_udpMessage (n : Nat) :
    slice (udpBytes netif dstAddr srcPort dstPort len chksum bytes) 12 (8 + n + 8)
      = udpMessage netif dstAddr srcPort dstPort len chksum (slice bytes 28 n) := by
  have hcount : 8 + n + 8 = 8 + (8 + n) := by omega
  rw [hcount, slice_add, slice_udpBytes]
  rfl

theorem sum_udpMessage :
    (words (udpMessage netif dstAddr srcPort dstPort len chksum payload)).sum
      = (words (udpMessage netif dstAddr srcPort dstPort len 0 payload)).sum + chksum.toNat := by
  simp only [udpMessage, udpHeader, IpAddr.bytes, List.append_assoc, List.cons_append, List.nil_append, words_cons_cons,
    words_shortBytes, List.sum_cons, UInt16.toNat_zero]
  omega

theorem udpChksum_eq (hlen : len.toNat = 8 + n) :
    udpChksum netif dstAddr srcPort dstPort len bytes
      = fold (17 + (8 + n) + (words (udpMessage netif dstAddr srcPort dstPort len 0 (slice bytes 28 n))).sum) := by
  rw [udpChksum, udpSum, hlen, slice_udpMessage]

/-- The checksum that is put in verifies with the pseudo header. -/
theorem udpMessage_verifies (hlen : len.toNat = 8 + n) :
    Verifies (17 :: (8 + n) :: words (udpMessage netif dstAddr srcPort dstPort len
      (udpChksum netif dstAddr srcPort dstPort len bytes) (slice bytes 28 n))) := by
  have hlt := len.toNat_lt
  have hle := sum_words_le (udpMessage netif dstAddr srcPort dstPort len 0 (slice bytes 28 n))
  have hlength : (udpMessage netif dstAddr srcPort dstPort len 0 (slice bytes 28 n)).length = 16 + n := by
    rw [← slice_udpMessage, length_slice]
    omega
  rw [hlength] at hle
  have hwords : ∀ w ∈ 17 :: (8 + n) :: words (udpMessage netif dstAddr srcPort dstPort len
      (udpChksum netif dstAddr srcPort dstPort len bytes) (slice bytes 28 n)), w ≤ 65535 := by
    intro w hw
    rcases List.mem_cons.mp hw with rfl | hw
    · norm_num
    · rcases List.mem_cons.mp hw with rfl | hw
      · omega
      · exact words_le _ w hw
  have hlt' : 17 + (8 + n) + (words (udpMessage netif dstAddr srcPort dstPort len 0 (slice bytes 28 n))).sum
      < 2 ^ 32 := by
    omega
  refine verifies_of_sum hwords hlt' ?_
  rw [← udpChksum_eq hlen, List.sum_cons, List.sum_cons, sum_udpMessage]
  simp only [Nat.add_assoc]

end Datagrams

/-! ## Echo replies -/

theorem replyChksum_toNat (chksum : UInt16) :
    (replyChksum chksum).toNat
      = if chksum.toNat ≤ 0xf7ff then chksum.toNat + 0x800 else chksum.toNat + 0x800 - 65535 := by
  have hlt := chksum.toNat_lt
  have hcompare : chksum > 0xffff - 0x800 ↔ ¬ chksum.toNat ≤ 0xf7ff := by
    rw [gt_iff_lt, UInt16.lt_iff_toNat_lt, Nat.not_le]
    rfl
  unfold replyChksum
  by_cases hsmall : chksum.toNat ≤ 0xf7ff
  · rw [if_neg (fun hbig => hcompare.mp hbig hsmall), if_pos hsmall, UInt16.toNat_add]
    exact Nat.mod_eq_of_lt (by change chksum.toNat + 0x800 < 65536; omega)
  · rw [if_pos (hcompare.mpr hsmall), if_neg hsmall, UInt16.toNat_add]
    change (chksum.toNat + 0x801) % 65536 = _
    omega

/-- The message of a reply. -/
def replyMessage (bytes : Nat → UInt8) (len : Nat) : List UInt8 :=
  [0, bytes 21] ++ shortBytes (replyChksum (short (bytes 22) (bytes 23))) ++ slice bytes 24 (len - 24)

/-- The message of a request, with its first bytes shown. -/
theorem slice_message {n : Nat} (hlen : 24 ≤ n) (bytes : Nat → UInt8) :
    slice bytes 20 (n - 20) = [bytes 20, bytes 21, bytes 22, bytes 23] ++ slice bytes 24 (n - 24) := by
  have hcount : n - 20 = 4 + (n - 24) := by omega
  rw [hcount, slice_add]
  rfl

/-- The adjusted checksum verifies exactly if the old one did. -/
theorem replyMessage_verifies {n : Nat} (hlen : 24 ≤ n) (htype : bytes 20 = 8) :
    Verifies (words (replyMessage bytes n)) ↔ Verifies (words (slice bytes 20 (n - 20))) := by
  rw [verifies_iff (words_le _), verifies_iff (words_le _), slice_message hlen, htype, replyMessage]
  have hreply := replyChksum_toNat (short (bytes 22) (bytes 23))
  rw [short_toNat] at hreply
  simp only [List.cons_append, List.nil_append, words_cons_cons, words_shortBytes, List.sum_cons, hreply]
  have h0 : (0 : UInt8).toNat = 0 := rfl
  have h8 : (8 : UInt8).toNat = 8 := rfl
  rw [h0, h8]
  have h22 := (bytes 22).toNat_lt
  have h23 := (bytes 23).toNat_lt
  split <;> omega

/-- The packet of a reply, in front of the frame's other bytes. -/
theorem replySent_sent (hlen : 24 ≤ len.toNat) (s : Packet) :
    (replySent netif len s).sent
      = (ipHeader netif (packetSrc s.bytes) (s.bytes 9) len (ipChksum netif (packetSrc s.bytes) (s.bytes 9) len)
          ++ replyMessage s.bytes len.toNat) :: s.sent := by
  have hproto : ipProto (replyBuilt s).bytes (-1) = s.bytes 9 := rfl
  have hmessage : slice (replyBuilt s).bytes 20 (len.toNat - 20) = replyMessage s.bytes len.toNat := by
    rw [slice_message hlen, replyMessage]
    refine congrArg₂ _ rfl ?_
    unfold replyBuilt
    rw [slice_put_of_ge (by rfl), slice_put_of_ge (by simp)]
  unfold replySent
  rw [ipSent_sent (by omega), hproto, hmessage]
  rfl

/-- The reply to an echo request whose checksum verifies: the protocol, the code, the identifier, the sequence
    number and the payload are the request's, the addresses change places, and both checksums verify. -/
theorem echoReply_correct (netif : Netif) (bytes : Nat → UInt8) (len : UInt16) (hlen : 28 ≤ len.toNat)
    (htype : bytes 20 = 8) (hverifies : Verifies (words (slice bytes 20 (len.toNat - 20)))) :
    ∃ val s packet chksum icmpChksum,
      Ends (fun turns => icmpEchoReply netif turns len) (Packet.ofBytes bytes) val s ∧ s.sent = [packet]
        ∧ packet = ipHeader netif (packetSrc bytes) (bytes 9) len chksum
            ++ ([0, bytes 21] ++ shortBytes icmpChksum ++ slice bytes 24 (len.toNat - 24))
        ∧ packet.length = len.toNat
        ∧ Verifies (words (packet.take 20)) ∧ Verifies (words (packet.drop 20)) := by
  have hrun : ∀ turns, 11 ≤ turns → icmpEchoReply netif turns len (Packet.ofBytes bytes) = _ := fun turns hturns =>
    icmpEchoReply_run (by omega) netif len (Packet.ofBytes bytes) htype
  have hreply := (replyMessage_verifies (by omega) htype).mpr hverifies
  refine ⟨_, _, _, ipChksum netif (packetSrc bytes) (bytes 9) len, replyChksum (short (bytes 22) (bytes 23)),
    ⟨11, hrun⟩, replySent_sent (by omega) _, rfl, ?_, ?_, ?_⟩
  · rw [List.length_append, length_ipHeader, replyMessage, List.length_append, length_slice]
    change 20 + (4 + (len.toNat - 24)) = len.toNat
    omega
  · rw [List.take_left' (length_ipHeader _ _ _ _ _)]
    exact ipHeader_verifies netif _ _ len
  · rw [List.drop_left' (length_ipHeader _ _ _ _ _)]
    exact hreply

/-- An echo request of 29 bytes, with one byte of payload; its checksum is just above the threshold. -/
def echoRequest (i : Nat) : UInt8 :=
  ([0x45, 0, 0, 29, 0, 0, 0, 0, 64, 1, 0, 0, 10, 0, 0, 2, 10, 0, 0, 1, 8, 0, 0xf8, 0, 0, 0, 0xfe, 0xfe, 1] : List
    UInt8)[i]?.getD 0

/-- An interface with an address. -/
def netif1 : Netif := ⟨⟨10, 0, 0, 1⟩, ⟨255, 255, 255, 0⟩, 594, fun packet => packet.length⟩

theorem echoReply_correct_oddLength :
    28 ≤ (29 : UInt16).toNat ∧ echoRequest 20 = 8 ∧ Verifies (words (slice echoRequest 20 ((29 : UInt16).toNat - 20)))
      ∧ ∃ val s packet chksum icmpChksum,
        Ends (fun turns => icmpEchoReply netif1 turns 29) (Packet.ofBytes echoRequest) val s ∧ s.sent = [packet]
          ∧ packet = ipHeader netif1 (packetSrc echoRequest) (echoRequest 9) 29 chksum
              ++ ([0, echoRequest 21] ++ shortBytes icmpChksum ++ slice echoRequest 24 ((29 : UInt16).toNat - 24))
          ∧ packet.length = (29 : UInt16).toNat
          ∧ Verifies (words (packet.take 20)) ∧ Verifies (words (packet.drop 20)) := by
  have hlen : 28 ≤ (29 : UInt16).toNat := by decide
  have htype : echoRequest 20 = 8 := rfl
  have hverifies : Verifies (words (slice echoRequest 20 ((29 : UInt16).toNat - 20))) := by decide
  exact ⟨hlen, htype, hverifies, echoReply_correct netif1 echoRequest 29 hlen htype hverifies⟩

/-! ## Every packet -/

/-- A call of one of the builders. -/
inductive Emission
  | udp (dstAddr : IpAddr) (srcPort dstPort : UInt16) (payload : Nat)
  | echoRequest (dstAddr : IpAddr)
  | echoReply (len : UInt16)

/-- The host of an address takes the packet as a datagram: it comes to the port switch, with this length, and
    with all of the packet but the checksum. -/
def Accepted (dstAddr : IpAddr) (datalen : UInt16) (packet : List UInt8) : Prop :=
  ∀ (host : Netif) (callbacks : Callbacks) (own : IpAddr) (memory : Nat → UInt8),
    slice memory 0 packet.length = packet → Addressed host own dstAddr →
      ∃ s, (∀ turns, 32768 ≤ turns → ipIn host callbacks turns own (ipLen memory) (Packet.ofBytes memory)
          = udpDeliver host callbacks turns datalen s)
        ∧ ∀ i, i ≠ 26 → i ≠ 27 → s.bytes i = memory i

namespace Emission

def build (netif : Netif) : Emission → Nat → Net Int
  | udp dstAddr srcPort dstPort payload, turns =>
    udpOut netif turns dstAddr srcPort dstPort (UInt16.ofNat (8 + payload))
  | echoRequest dstAddr, turns => icmpEchoRequest netif turns dstAddr
  | echoReply len, turns => icmpEchoReply netif turns len

/-- The packet fits the frame; a reply has a request. -/
def Fits (netif : Netif) (bytes : Nat → UInt8) : Emission → Prop
  | udp _ _ _ payload => 14 + (28 + payload) ≤ netif.framelen.toNat
  | echoRequest _ => 14 + 44 ≤ netif.framelen.toNat
  | echoReply len => 28 ≤ len.toNat ∧ 14 + len.toNat ≤ netif.framelen.toNat ∧ bytes 20 = 8

/-- The packet that is meant, with checksums that verify. -/
def Right (netif : Netif) (bytes : Nat → UInt8) : Emission → List UInt8 → Prop
  | udp dstAddr srcPort dstPort payload, packet => ∃ chksum udpChksum,
    packet = ipHeader netif dstAddr 17 (UInt16.ofNat (28 + payload)) chksum
        ++ udpHeader srcPort dstPort (UInt16.ofNat (8 + payload)) udpChksum ++ slice bytes 28 payload
      ∧ packet.length = 28 + payload ∧ Verifies (words (packet.take 20))
      ∧ (udpChksum = 0 ∨ Verifies (17 :: (8 + payload) :: words (packet.drop 12)))
      ∧ Accepted dstAddr (UInt16.ofNat (8 + payload)) packet
  | echoRequest dstAddr, packet => ∃ chksum icmpChksum,
    packet = ipHeader netif dstAddr 1 44 chksum
        ++ ([8, 0] ++ shortBytes icmpChksum ++ shortBytes 0x9669 ++ shortBytes 1 ++ List.replicate 16 0x55)
      ∧ Verifies (words (packet.take 20)) ∧ Verifies (words (packet.drop 20))
  | echoReply len, packet => ∃ chksum icmpChksum,
    packet = ipHeader netif (packetSrc bytes) (bytes 9) len chksum
        ++ ([0, bytes 21] ++ shortBytes icmpChksum ++ slice bytes 24 (len.toNat - 24))
      ∧ packet.length = len.toNat ∧ Verifies (words (packet.take 20)) ∧ Verifies (words (packet.drop 20))

/-- The builder ends, hands over that packet, and has written nothing behind it. -/
def Valid (netif : Netif) (bytes : Nat → UInt8) (e : Emission) : Prop :=
  ∃ val s packet, Ends (e.build netif) (Packet.ofBytes bytes) val s ∧ s.sent = [packet]
    ∧ s.writeEnd ≤ packet.length ∧ e.Right netif bytes packet

end Emission

section Acceptance

variable {dstAddr : IpAddr} {srcPort dstPort : UInt16} {n : Nat} {memory : Nat → UInt8}

/-- The two headers of a datagram. -/
def headers (netif : Netif) (dstAddr : IpAddr) (srcPort dstPort total len chksum udpChksum : UInt16) : List UInt8 :=
  ipHeader netif dstAddr 17 total chksum ++ udpHeader srcPort dstPort len udpChksum

/-- A received header verifies as it was built. -/
theorem headerSum_headers {total chksum old : UInt16}
    (h : put memory 0 (headers netif dstAddr srcPort dstPort total len chksum old) = memory) :
    headerSum memory = ipChksum netif dstAddr 17 total := by
  have hslice : slice (put memory 10 [0, 0]) 0 20 = ipHeader netif dstAddr 17 total 0 := by
    rw [← h]
    rfl
  rw [headerSum, hslice, ipChksum]

/-- And so does a received datagram. -/
theorem datagramSum_headers {total chksum old : UInt16} (hlen : len.toNat = 8 + n)
    (h : put memory 0 (headers netif dstAddr srcPort dstPort total len chksum old) = memory)
    (hpayload : slice memory 28 n = slice bytes 28 n) :
    datagramSum memory = udpChksum netif dstAddr srcPort dstPort len bytes := by
  have hfield : udpLen memory = len := by
    rw [← h]
    exact short_shortBytes len
  have hcount : 8 + n + 8 = 16 + n := by omega
  have hfront : slice (put memory 26 [0, 0]) 12 16
      = netif.ip.bytes ++ dstAddr.bytes ++ udpHeader srcPort dstPort len 0 := by
    rw [← h]
    rfl
  have hback : slice (put memory 26 [0, 0]) (12 + 16) n = slice bytes 28 n := by
    rw [slice_put_of_ge (by rfl)]
    exact hpayload
  rw [datagramSum, hfield, udpSum, udpChksum_eq hlen, hlen, hcount, slice_add, hfront, hback, udpMessage,
    List.append_assoc _ (udpHeader _ _ _ _)]

/-- Any host of the address takes a packet of `udp_out`. -/
theorem accepted_udp (hlen : len.toNat = 8 + n) (hn : 8 + n ≤ 65527) (total : UInt16) :
    Accepted dstAddr len (headers netif dstAddr srcPort dstPort total len (ipChksum netif dstAddr 17 total)
      (udpChksum netif dstAddr srcPort dstPort len bytes) ++ slice bytes 28 n) := by
  intro host callbacks own memory hmemory haddr
  have hlength : (headers netif dstAddr srcPort dstPort total len (ipChksum netif dstAddr 17 total)
      (udpChksum netif dstAddr srcPort dstPort len bytes)).length = 28 := rfl
  rw [List.length_append, hlength, length_slice, slice_add] at hmemory
  obtain ⟨hfront, hback⟩ := List.append_inj hmemory (by rw [length_slice, hlength])
  have hput : put memory 0 (headers netif dstAddr srcPort dstPort total len (ipChksum netif dstAddr 17 total)
      (udpChksum netif dstAddr srcPort dstPort len bytes)) = memory := put_slice hfront
  have hver : (Packet.ofBytes memory).bytes 0 = 0x45 := by
    change memory 0 = 0x45
    rw [← hput]
    rfl
  have hwhole : fragment (Packet.ofBytes memory).bytes = 0 := by
    change fragment memory = 0
    rw [← hput]
    change short 0 0 &&& (0x2000 ||| 0x1fff) = 0
    decide
  have httl : (Packet.ofBytes memory).bytes 8 ≠ 0 := by
    change memory 8 ≠ 0
    rw [← hput]
    change (64 : UInt8) ≠ 0
    decide
  have hdst : packetDst (Packet.ofBytes memory).bytes = dstAddr := by
    change packetDst memory = dstAddr
    rw [← hput]
    rfl
  have hproto : memory 9 = 17 := by
    rw [← hput]
    rfl
  have hchksum : short (memory 10) (memory 11) = headerSum memory := by
    rw [headerSum_headers hput, ← hput]
    exact short_shortBytes _
  have hfield : udpField memory = udpChksum netif dstAddr srcPort dstPort len bytes := by
    rw [← hput]
    exact short_shortBytes _
  have hudp : udpLen memory = len := by
    rw [← hput]
    exact short_shortBytes len
  obtain ⟨s, hs⟩ : ∃ s : Packet, s = (⟨memory, max 0 20, max 0 12, []⟩ : Packet).read 10 := ⟨_, rfl⟩
  have hbytes : s.bytes = memory := hs ▸ rfl
  have hin : ∀ turns, 32768 ≤ turns →
      ipIn host callbacks turns own (ipLen memory) (Packet.ofBytes memory) = udpIn host callbacks turns s := by
    intro turns hturns
    refine (ipIn_addressed hver hwhole httl (hdst ▸ haddr) (by omega)).trans ((if_pos hchksum).trans ?_)
    rw [hs]
    exact ipDispatch_udp hproto
  rw [← hbytes] at hfield hudp
  by_cases hzero : udpChksum netif dstAddr srcPort dstPort len bytes = 0
  · refine ⟨s.read 28, fun turns hturns => ?_, fun i _ _ => congrFun hbytes i⟩
    rw [hin turns hturns, udpIn_plain (hfield.trans hzero), hudp]
  · refine ⟨((s.read 28).write 26 [0, 0]).read (20 + len.toNat + len.toNat % 2), fun turns hturns => ?_, ?_⟩
    · have hsum : udpField s.bytes = datagramSum s.bytes := by
        rw [hfield, hbytes, datagramSum_headers hlen hput hback]
      have hlong : (udpLen s.bytes).toNat ≤ 65527 := by
        rw [hudp]
        omega
      rw [hin turns hturns, udpIn_tested (fun h => hzero (hfield.symm.trans h)) hlong hturns, if_pos hsum, hudp]
    · intro i h26 h27
      change put s.bytes 26 [0, 0] i = memory i
      rw [hbytes]
      rcases Nat.lt_or_ge i 26 with hi | hi
      · exact put_of_lt hi
      · have hge : 26 + [(0 : UInt8), 0].length ≤ i := by
          simp only [List.length_cons, List.length_nil]
          omega
        exact put_of_ge hge

end Acceptance

/-! ## Which packets are right -/

/-- What `udp_out` hands over. -/
theorem udpSent_sent {dstAddr : IpAddr} {srcPort dstPort : UInt16} {n : Nat}
    (htotal : (len + 20).toNat = 28 + n) (s : Packet) :
    (udpSent netif dstAddr srcPort dstPort len s).sent
      = (headers netif dstAddr srcPort dstPort (len + 20) len (ipChksum netif dstAddr 17 (len + 20))
          (udpChksum netif dstAddr srcPort dstPort len s.bytes) ++ slice s.bytes 28 n) :: s.sent := by
  have hproto : ∀ b : Nat → UInt8, ipProto b 17 = 17 := fun b => rfl
  have hcount : 28 + n - 20 = 8 + n := by omega
  unfold udpSent
  rw [ipSent_sent (by omega), hproto, htotal, hcount]
  have hbuilt : slice (udpBuilt netif dstAddr srcPort dstPort len s).bytes 20 (8 + n)
      = udpHeader srcPort dstPort len (udpChksum netif dstAddr srcPort dstPort len s.bytes) ++ slice s.bytes 28 n :=
    slice_udpBytes n
  rw [hbuilt, headers, List.append_assoc]
  rfl

theorem length_datagram {dstAddr : IpAddr} {srcPort dstPort total chksum old : UInt16} (n : Nat) :
    (headers netif dstAddr srcPort dstPort total len chksum old ++ slice bytes 28 n).length = 28 + n := by
  rw [List.length_append, length_slice]
  rfl

/-- Every packet of `udp_out` is right. -/
theorem udp_valid {dstAddr : IpAddr} {srcPort dstPort : UInt16} {n : Nat}
    (hfits : (Emission.udp dstAddr srcPort dstPort n).Fits netif bytes) :
    (Emission.udp dstAddr srcPort dstPort n).Valid netif bytes := by
  have hframe := netif.framelen.toNat_lt
  have hn : 14 + (28 + n) ≤ netif.framelen.toNat := hfits
  have hlen : (UInt16.ofNat (8 + n)).toNat = 8 + n := UInt16.toNat_ofNat_of_lt' (by change 8 + n < 65536; omega)
  have htotal : UInt16.ofNat (8 + n) + 20 = UInt16.ofNat (28 + n) := by
    rw [← UInt16.toNat_inj, UInt16.toNat_add, hlen, UInt16.toNat_ofNat']
    change (8 + n + 20) % 65536 = (28 + n) % 65536
    omega
  have htotal' : (UInt16.ofNat (8 + n) + 20).toNat = 28 + n := by
    rw [htotal]
    exact UInt16.toNat_ofNat_of_lt' (by change 28 + n < 65536; omega)
  have hrun : ∀ turns, 32768 ≤ turns → (Emission.udp dstAddr srcPort dstPort n).build netif turns (Packet.ofBytes bytes)
      = _ := fun turns hturns => udpOut_run (by omega) hturns netif dstAddr srcPort dstPort (Packet.ofBytes bytes)
  have hsent : (udpSent netif dstAddr srcPort dstPort (UInt16.ofNat (8 + n)) (Packet.ofBytes bytes)).sent = _ :=
    udpSent_sent htotal' (Packet.ofBytes bytes)
  rw [htotal] at hsent
  refine ⟨_, _, _, ⟨32768, hrun⟩, hsent, ?_, ipChksum netif dstAddr 17 (UInt16.ofNat (28 + n)),
    udpChksum netif dstAddr srcPort dstPort (UInt16.ofNat (8 + n)) bytes, rfl, length_datagram n, ?_, Or.inr ?_, ?_⟩
  · have hend : (udpSent netif dstAddr srcPort dstPort (UInt16.ofNat (8 + n)) (Packet.ofBytes bytes)).writeEnd = 28 := rfl
    rw [hend, length_datagram]
    exact Nat.le_add_right 28 n
  · exact ipHeader_verifies netif dstAddr 17 (UInt16.ofNat (28 + n))
  · exact udpMessage_verifies hlen
  · exact accepted_udp hlen (by omega) _

/-- The payload of an echo request is written 784 bytes behind its packet's start. -/
theorem echoRequest_invalid (netif : Netif) (bytes : Nat → UInt8) (dstAddr : IpAddr) :
    ¬ (Emission.echoRequest dstAddr).Valid netif bytes := by
  rintro ⟨val, s, packet, hends, hsent, hwrite, chksum, icmpChksum, hpacket, -, -⟩
  obtain ⟨enough, henough⟩ := hends
  obtain ⟨val', s', hrun, hend⟩ := icmpEchoRequest_run (by omega : 12 < enough + 13) netif dstAddr
    (Packet.ofBytes bytes)
  have heq := (henough (enough + 13) (by omega)).symm.trans hrun
  rw [Option.some.injEq, Prod.mk.injEq] at heq
  rw [← heq.2] at hend
  have hlength : packet.length = 44 := by
    rw [hpacket]
    rfl
  omega

/-- A reply is right if the request's checksum verifies: the adjusted one verifies with it. -/
theorem echoReply_valid_iff (hfits : (Emission.echoReply len).Fits netif bytes) :
    (Emission.echoReply len).Valid netif bytes ↔ Verifies (words (slice bytes 20 (len.toNat - 20))) := by
  obtain ⟨hlen, -, htype⟩ := hfits
  have hrun : Ends ((Emission.echoReply len).build netif) (Packet.ofBytes bytes) _ _ :=
    ⟨11, fun turns hturns => icmpEchoReply_run (by omega) netif len (Packet.ofBytes bytes) htype⟩
  have hsent : (replySent netif len (Packet.ofBytes bytes)).sent = _ := replySent_sent (by omega) (Packet.ofBytes bytes)
  rw [← replyMessage_verifies (by omega) htype]
  constructor
  · rintro ⟨val, s, packet, hends, hpacket, -, -, -, -, -, -, hverifies⟩
    obtain ⟨-, rfl⟩ := hrun.unique hends
    rw [hsent, List.cons.injEq] at hpacket
    rw [← hpacket.1, List.drop_left' (length_ipHeader _ _ _ _ _)] at hverifies
    exact hverifies
  · intro hverifies
    have hlength : (replyMessage bytes len.toNat).length = len.toNat - 20 := by
      rw [replyMessage, List.length_append, length_slice]
      change 4 + (len.toNat - 24) = len.toNat - 20
      omega
    refine ⟨_, _, _, hrun, hsent, ?_, ipChksum netif (packetSrc bytes) (bytes 9) len,
      replyChksum (short (bytes 22) (bytes 23)), rfl, ?_, ?_, ?_⟩
    · have hend : (replySent netif len (Packet.ofBytes bytes)).writeEnd = 24 := rfl
      rw [hend, List.length_append, length_ipHeader]
      change 24 ≤ 20 + (replyMessage bytes len.toNat).length
      omega
    · rw [List.length_append, length_ipHeader]
      change 20 + (replyMessage bytes len.toNat).length = len.toNat
      omega
    · rw [List.take_left' (length_ipHeader _ _ _ _ _)]
      exact ipHeader_verifies netif _ _ len
    · rw [List.drop_left' (length_ipHeader _ _ _ _ _)]
      exact hverifies

/-- Whose packets are right. -/
def Emission.Sound (bytes : Nat → UInt8) : Emission → Prop
  | udp _ _ _ _ => True
  | echoRequest _ => False
  | echoReply len => Verifies (words (slice bytes 20 (len.toNat - 20)))

/-- `udp_out` always sends what it should, `icmp_echo_reply` for a request whose checksum verifies, and
    `icmp_echo_request` never. -/
theorem emitted_valid_iff (netif : Netif) (bytes : Nat → UInt8) (e : Emission) (hfits : e.Fits netif bytes) :
    e.Valid netif bytes ↔ e.Sound bytes := by
  cases e with
  | udp dstAddr srcPort dstPort payload => exact iff_of_true (udp_valid hfits) trivial
  | echoRequest dstAddr => exact iff_of_false (echoRequest_invalid netif bytes dstAddr) not_false
  | echoReply len => exact echoReply_valid_iff hfits

theorem emitted_valid_iff_datagram :
    (Emission.udp ⟨10, 0, 0, 2⟩ 30168 9 3).Fits netif1 echoRequest
      ∧ ((Emission.udp ⟨10, 0, 0, 2⟩ 30168 9 3).Valid netif1 echoRequest
        ↔ (Emission.udp ⟨10, 0, 0, 2⟩ 30168 9 3).Sound echoRequest) := by
  have hfits : (Emission.udp ⟨10, 0, 0, 2⟩ 30168 9 3).Fits netif1 echoRequest := by
    change 14 + (28 + 3) ≤ (594 : UInt16).toNat
    decide
  exact ⟨hfits, emitted_valid_iff netif1 echoRequest _ hfits⟩

/-- An echo request fits the frame, but is not right. -/
theorem emitted_not_valid :
    (Emission.echoRequest ⟨10, 0, 0, 2⟩).Fits netif1 (fun _ => 0)
      ∧ ¬ (Emission.echoRequest ⟨10, 0, 0, 2⟩).Valid netif1 (fun _ => 0) := by
  refine ⟨?_, echoRequest_invalid netif1 _ _⟩
  change 14 + 44 ≤ (594 : UInt16).toNat
  decide

end UcxArinc
