import UcxArinc.Library.Transition
import UcxArinc.Proofs.ArpCaches
import UcxArinc.Proofs.LinkFrames

set_option autoImplicit false

/-! # Addresses that are resolved

Whoever asks for an address gets an answer from a host that has it, whatever frames are lost, repeated, padded or
come late: no host gives up an address, and nobody answers for another. So what a cache has learned is
true for ever, and a packet is sent to a host that has its destination address. -/

namespace UcxArinc

open Cells EthFrame

/-! ## The cache -/

namespace ArpCache

variable {cache : ArpCache} {ip : IpAddr} {mac : MacAddr}

/-- An update changes an entry to what it was given. -/
theorem arpUpdate_entries (cache : ArpCache) (ip : IpAddr) (mac : MacAddr) (i : Nat) :
    (cache.arpUpdate ip mac).1.entries i = ⟨ip, mac⟩ ∨ (cache.arpUpdate ip mac).1.entries i = cache.entries i := by
  unfold arpUpdate
  rcases findEntry_spec cache ip arpCacheSize 0 with ⟨k, -, hlt, hfind, hip⟩ | ⟨hfind, -⟩
  · rw [hfind, if_pos (by omega)]
    by_cases hik : i = k
    · exact Or.inl (by simp [hik, hip])
    · exact Or.inr (if_neg hik)
  · rw [hfind, if_neg (by omega)]
    by_cases hik : i = cache.index
    · exact Or.inl (if_pos hik)
    · exact Or.inr (if_neg hik)

/-- What is found is in an entry. -/
theorem arpCheck_entry (h : (cache.arpCheck ip mac).1 ≠ 0) :
    ∃ i, cache.entries i = ⟨ip, (cache.arpCheck ip mac).2⟩ := by
  unfold arpCheck at h ⊢
  rcases findEntry_spec cache ip arpCacheSize 0 with ⟨k, -, hlt, hfind, hip⟩ | ⟨hfind, -⟩
  · rw [hfind, if_pos (by omega)]
    exact ⟨k, by rw [← hip]⟩
  · rw [hfind, if_neg (by omega)] at h
    exact absurd rfl h

end ArpCache

/-! ## Moves of a link -/

theorem IpAddr.ne_zero {ip : IpAddr} {b : Bool} (h : ¬ (ip.isAny || b) = true) : ip ≠ ⟨0, 0, 0, 0⟩ := by
  intro hzero
  rw [Bool.or_eq_true] at h
  exact h (Or.inl (decide_eq_true hzero))

namespace Link

variable {link link' : Link} {mac : MacAddr} {ip : IpAddr} {call : HostCall}

theorem ip_eq_zero (h : ip.b0 ||| ip.b1 ||| ip.b2 ||| ip.b3 = 0) : ip = ⟨0, 0, 0, 0⟩ := by
  simp only [UInt8.or_eq_zero_iff] at h
  obtain ⟨⟨⟨h0, h1⟩, h2⟩, h3⟩ := h
  cases ip
  rw [IpAddr.mk.injEq]
  exact ⟨h0, h1, h2, h3⟩

/-- The MAC address that a packet is sent to. -/
theorem resolve_spec (hip : link.ip ≠ ⟨0, 0, 0, 0⟩) (hfound : (link.resolve mac ip).1 ≠ 0) :
    if ip.isAny || ip.isBroadcast link.netmask then (link.resolve mac ip).2 = MacAddr.broadcast
    else if ip.isMulticast then (link.resolve mac ip).2 = MacAddr.ofMulticast ip
    else ∃ i, link.cache.entries i = ⟨ip, (link.resolve mac ip).2⟩ := by
  unfold resolve at hfound ⊢
  by_cases hall : (ip.isAny || ip.isBroadcast link.netmask) = true
  · rw [if_pos hall, if_pos hall]
  · rw [if_neg hall] at hfound ⊢
    rw [if_neg hall]
    by_cases hmany : ip.isMulticast = true
    · rw [if_pos hmany, if_pos hmany]
    · have hzero : ¬ link.ip.b0 ||| link.ip.b1 ||| link.ip.b2 ||| link.ip.b3 = 0 := fun h => hip (ip_eq_zero h)
      rw [if_neg hmany, if_neg hzero] at hfound ⊢
      rw [if_neg hmany]
      exact ArpCache.arpCheck_entry hfound

/-- The address of one host is looked up. -/
theorem resolve_single (hip : ¬ (ip.isAny || ip.isBroadcast link.netmask) = true) (hmany : ¬ ip.isMulticast = true)
    (hlink : link.ip ≠ ⟨0, 0, 0, 0⟩) : link.resolve mac ip = link.cache.arpCheck ip mac := by
  unfold resolve
  rw [if_neg hip, if_neg hmany, if_neg fun hzero => hlink (ip_eq_zero hzero)]

theorem Move.mac_eq (h : Move link call link') : link'.mac = link.mac := by
  cases h with
  | hears received hcall hears => cases hears <;> rfl
  | _ => rfl

/-- An address that a link has it keeps. -/
theorem Move.addr_eq (h : Move link call link') (hip : link.ip ≠ ⟨0, 0, 0, 0⟩) :
    link'.ip = link.ip ∧ link'.netmask = link.netmask := by
  cases h with
  | hears received hcall hears =>
      cases hears with
      | configures memory ip gateway hany => exact absurd hany hip
      | _ => exact ⟨rfl, rfl⟩
  | _ => exact ⟨rfl, rfl⟩

end Link

/-! ## The network -/

namespace Network

variable {ι : Type} {net net' : Network ι} {ip : IpAddr} {mac : MacAddr} {host : ι}

/-- A host with the MAC address has the IP address. -/
def Owns (net : Network ι) (ip : IpAddr) (mac : MacAddr) : Prop :=
  ∃ host, (net.links host).ip = ip ∧ (net.links host).mac = mac

/-- Where a host sends a packet to. -/
def Directed (net : Network ι) (host : ι) (ip : IpAddr) (mac : MacAddr) : Prop :=
  if ip.isAny || ip.isBroadcast (net.links host).netmask then mac = MacAddr.broadcast
  else if ip.isMulticast then mac = MacAddr.ofMulticast ip
  else net.Owns ip mac

/-- An address that is not that of all, or of a group. -/
def Single (net : Network ι) (host : ι) (ip : IpAddr) : Prop :=
  ¬ (ip.isAny || ip.isBroadcast (net.links host).netmask) = true ∧ ¬ ip.isMulticast = true

/-- Nothing has been sent or learned yet. -/
structure Fresh (net : Network ι) : Prop where
  medium : net.medium = []
  caches : ∀ host, (net.links host).cache = ArpCache.initial

/-- The addresses in a frame are true: an ARP message names a host that has the address of its sender, and a packet
comes from a host with its source address and goes where its destination is. -/
structure Truthful (net : Network ι) (frame : List UInt8) : Prop where
  whole : ethSize ≤ frame.length
  sender : type (cells frame) = frameArp → ethArpSize ≤ frame.length ∧
    (senderPa (cells frame) ≠ ⟨0, 0, 0, 0⟩ → net.Owns (senderPa (cells frame)) (senderHa (cells frame)))
  packet : type (cells frame) = frameIp → ethSize + 20 ≤ frame.length →
    addrAt (packet (cells frame)) 12 ≠ ⟨0, 0, 0, 0⟩ →
      ∃ host, (net.links host).ip = addrAt (packet (cells frame)) 12 ∧ (net.links host).mac = srcMac (cells frame)
        ∧ net.Directed host (addrAt (packet (cells frame)) 16) (dstMac (cells frame))

/-- What the hosts know and what they have sent is true. -/
structure Resolved (net : Network ι) : Prop where
  caches : ∀ host i, ((net.links host).cache.entries i).ip ≠ ⟨0, 0, 0, 0⟩ →
    net.Owns ((net.links host).cache.entries i).ip ((net.links host).cache.entries i).mac
  frames : ∀ frame ∈ net.medium, net.Truthful frame

theorem Fresh.resolved (h : net.Fresh) : net.Resolved := by
  constructor
  · intro host i hip
    rw [h.caches host] at hip
    exact absurd rfl hip
  · intro frame hframe
    rw [h.medium] at hframe
    cases hframe

/-! ## What stays true -/

/-- No host changes its MAC address, or the address it has. -/
structure Keeps (net net' : Network ι) : Prop where
  mac : ∀ host, (net'.links host).mac = (net.links host).mac
  addr : ∀ host, (net.links host).ip ≠ ⟨0, 0, 0, 0⟩ →
    (net'.links host).ip = (net.links host).ip ∧ (net'.links host).netmask = (net.links host).netmask

theorem Keeps.refl (net : Network ι) : Keeps net net := ⟨fun _ => rfl, fun _ _ => ⟨rfl, rfl⟩⟩

theorem Keeps.trans {net'' : Network ι} (h : Keeps net net') (h' : Keeps net' net'') : Keeps net net'' := by
  refine ⟨fun host => (h'.mac host).trans (h.mac host), fun host hip => ?_⟩
  obtain ⟨haddr, hmask⟩ := h.addr host hip
  obtain ⟨haddr', hmask'⟩ := h'.addr host (haddr ▸ hip)
  exact ⟨haddr'.trans haddr, hmask'.trans hmask⟩

theorem Owns.keeps (hkeeps : Keeps net net') (hip : ip ≠ ⟨0, 0, 0, 0⟩) (h : net.Owns ip mac) : net'.Owns ip mac := by
  obtain ⟨host, rfl, rfl⟩ := h
  exact ⟨host, (hkeeps.addr host hip).1, hkeeps.mac host⟩

theorem Directed.keeps (hkeeps : Keeps net net') (hhost : (net.links host).ip ≠ ⟨0, 0, 0, 0⟩)
    (h : net.Directed host ip mac) : net'.Directed host ip mac := by
  unfold Directed at h ⊢
  rw [(hkeeps.addr host hhost).2]
  by_cases hall : (ip.isAny || ip.isBroadcast (net.links host).netmask) = true
  · rw [if_pos hall] at h ⊢
    exact h
  · rw [if_neg hall] at h ⊢
    by_cases hmany : ip.isMulticast = true
    · rw [if_pos hmany] at h ⊢
      exact h
    · rw [if_neg hmany] at h ⊢
      exact h.keeps hkeeps (IpAddr.ne_zero hall)

theorem Truthful.keeps {frame : List UInt8} (hkeeps : Keeps net net') (h : net.Truthful frame) :
    net'.Truthful frame := by
  refine ⟨h.whole, fun harp => ⟨(h.sender harp).1, fun hip => ((h.sender harp).2 hip).keeps hkeeps hip⟩, ?_⟩
  intro hip hlen hsrc
  obtain ⟨host, haddr, hmac, hdst⟩ := h.packet hip hlen hsrc
  rw [← haddr] at hsrc ⊢
  exact ⟨host, (hkeeps.addr host hsrc).1, (hkeeps.mac host).trans hmac, hdst.keeps hkeeps hsrc⟩

/-! ## What a step does -/

section Steps

variable {e : NetEvent ι} {frame : List UInt8} {memory : Nat → UInt8}

theorem owns_linkAt (net : Network ι) (e : NetEvent ι) : net.Owns (net.linkAt e).ip (net.linkAt e).mac :=
  ⟨e.host, rfl, rfl⟩

/-- A host that knows true addresses sends packets where they go. -/
theorem directed_resolve (hres : net.Resolved) {mac : MacAddr} {ip : IpAddr} (hhost : (net.linkAt e).ip ≠ ⟨0, 0, 0, 0⟩)
    (hfound : ((net.linkAt e).resolve mac ip).1 ≠ 0) :
    net.Directed e.host ip ((net.linkAt e).resolve mac ip).2 := by
  have hspec := Link.resolve_spec hhost hfound
  change if (ip.isAny || ip.isBroadcast (net.links e.host).netmask) = true then _ else _ at hspec
  unfold Directed
  by_cases hall : (ip.isAny || ip.isBroadcast (net.links e.host).netmask) = true
  · rw [if_pos hall] at hspec ⊢
    exact hspec
  · rw [if_neg hall] at hspec ⊢
    by_cases hmany : ip.isMulticast = true
    · rw [if_pos hmany] at hspec ⊢
      exact hspec
    · rw [if_neg hmany] at hspec ⊢
      obtain ⟨i, hi⟩ := hspec
      have hentry : (net.links e.host).cache.entries i = ⟨ip, ((net.linkAt e).resolve mac ip).2⟩ := hi
      have howner := hres.caches e.host i
      rw [hentry] at howner
      exact howner (IpAddr.ne_zero hall)

/-- An ARP message of a host is true. -/
theorem truthful_of_arp {f : Nat → UInt8} {n : Nat} (hn : ethArpSize ≤ n) (htype : type f = frameArp)
    (hpa : senderPa f = (net.linkAt e).ip) (hha : senderHa f = (net.linkAt e).mac) : net.Truthful (slice f 0 n) := by
  have hsame := sameUpTo_slice f n
  have hn' : 42 ≤ n := hn
  refine ⟨by rw [length_slice]; exact Nat.le_trans (by decide) hn, fun _ => ⟨by rw [length_slice]; exact hn, ?_⟩, ?_⟩
  · intro _
    have hpa' : senderPa (cells (slice f 0 n)) = senderPa f := hsame.addrAt (by omega)
    have hha' : senderHa (cells (slice f 0 n)) = senderHa f := hsame.macAt (by omega)
    rw [hpa', hha', hpa, hha]
    exact owns_linkAt net e
  · intro hip
    rw [hsame.type (by omega), htype] at hip
    exact absurd hip (by decide)

/-- Where the addresses a host knows are true, so are those in what it sends. -/
theorem sends_truthful (hres : net.Resolved) {p : List UInt8} (h : (net.linkAt e).Sends p frame) :
    net.Truthful frame := by
  cases h with
  | packet memory mac len hsrc hfound =>
      obtain ⟨f, hf⟩ : ∃ f, f = { net.linkAt e with frame := memory }.ipFrame
        ((net.linkAt e).resolve mac (addrAt (packet memory) 16)).2 := ⟨_, rfl⟩
      rw [← hf]
      have hpacket : packet f = packet memory := by rw [hf, Link.packet_ipFrame]
      have hsame := sameUpTo_slice f (len + ethSize)
      have hsize : ethSize = 14 := rfl
      refine ⟨by simp, fun harp => ?_, fun _ hlen hip => ?_⟩
      · rw [hsame.type (by omega), hf, Link.type_ipFrame] at harp
        exact absurd harp (by decide)
      · rw [length_slice, hsize] at hlen
        have hfrom : addrAt (packet (cells (slice f 0 (len + ethSize)))) 12 = (net.linkAt e).ip := by
          refine (hsame.addrAt (i := 26) (by omega)).trans ?_
          change addrAt (packet f) 12 = _
          rw [hpacket]
          exact hsrc
        have hto : addrAt (packet (cells (slice f 0 (len + ethSize)))) 16 = addrAt (packet memory) 16 := by
          refine (hsame.addrAt (i := 30) (by omega)).trans ?_
          change addrAt (packet f) 16 = _
          rw [hpacket]
        have hsrcMac : srcMac (cells (slice f 0 (len + ethSize))) = (net.linkAt e).mac := by
          refine (hsame.macAt (i := 6) (by omega)).trans ?_
          rw [hf]
          rfl
        have hdstMac : dstMac (cells (slice f 0 (len + ethSize)))
            = ((net.linkAt e).resolve mac (addrAt (packet memory) 16)).2 := by
          rw [hsame.dstMac (by omega), hf, Link.dstMac_ipFrame]
        rw [hfrom] at hip
        rw [hfrom, hto, hsrcMac, hdstMac]
        exact ⟨e.host, rfl, rfl, directed_resolve hres hip hfound⟩
  | request memory mac len hunknown =>
      exact truthful_of_arp (by decide) Link.type_arpRequest Link.senderPa_arpRequest Link.senderHa_arpRequest

/-- What is received has been written, and padded. -/
theorem call_receive {action : NetAction} {received : List UInt8} (h : net.call action = some (.receive received)) :
    ∃ f ∈ net.medium, ∃ padding, received = f ++ padding := by
  cases action with
  | receive k padding =>
      obtain ⟨f, hk, heq⟩ := Option.map_eq_some_iff.mp h
      exact ⟨f, List.mem_of_getElem? hk, padding, (HostCall.receive.inj heq).symm⟩
  | _ => cases h

/-- An answer that is received names a host that has the address. -/
theorem answer_owns (hres : net.Resolved) {received : List UInt8} (hcall : net.call e.action = some (.receive received))
    (hmemory : memory = put (net.linkAt e).frame 0 received) (htype : type memory = frameArp)
    (hip : senderPa memory ≠ ⟨0, 0, 0, 0⟩) : net.Owns (senderPa memory) (senderHa memory) := by
  obtain ⟨f, hf, padding, rfl⟩ := call_receive hcall
  have hsame : SameUpTo (cells f) memory f.length := fun i hi => by rw [hmemory, put_received hi]
  have htrue := hres.frames f hf
  have htype' : type (cells f) = frameArp := (hsame.type htrue.whole).trans htype
  obtain ⟨hlen, howns⟩ := htrue.sender htype'
  have hlen' : 42 ≤ f.length := hlen
  have hpa : senderPa (cells f) = senderPa memory := hsame.addrAt (by omega)
  have hha : senderHa (cells f) = senderHa memory := hsame.macAt (by omega)
  rw [hpa, hha] at howns
  exact howns hip

/-- The entries of a host that has made a move are true. -/
theorem move_entries (hres : net.Resolved) {call : HostCall} {link : Link} (hcall : net.call e.action = some call)
    (hmove : Link.Move (net.linkAt e) call link) (i : Nat) (hip : (link.cache.entries i).ip ≠ ⟨0, 0, 0, 0⟩) :
    net.Owns (link.cache.entries i).ip (link.cache.entries i).mac := by
  cases hmove with
  | hears received hreceive hears =>
      cases hears with
      | learns memory hmemory htype hop =>
          rcases ArpCache.arpUpdate_entries (net.linkAt e).cache (senderPa memory) (senderHa memory) i with hnew | hold
          · rw [hnew] at hip ⊢
            exact answer_owns hres (hreceive ▸ hcall) hmemory htype hip
          · rw [hold] at hip ⊢
            exact hres.caches e.host i hip
      | _ => exact hres.caches e.host i hip
  | _ => exact hres.caches e.host i hip

/-- What a host that has made a move has written is true. -/
theorem move_written (hres : net.Resolved) {call : HostCall} {link : Link}
    (hmove : Link.Move (net.linkAt e) call link) (h : frame ∈ link.written) : net.Truthful frame := by
  cases hmove with
  | sends memory p sent hsent =>
      obtain rfl := List.mem_singleton.mp h
      exact sends_truthful hres hsent
  | hears received hreceive hears =>
      cases hears with
      | replies memory reply hmemory htype hop htarget hreply =>
          obtain rfl := List.mem_singleton.mp h
          rw [hreply]
          exact truthful_of_arp (by decide) Link.type_arpReply Link.senderPa_arpReply Link.senderHa_arpReply
      | _ => cases h
  | _ => cases h

end Steps

/-! ## Runs -/

variable [DecidableEq ι] {e : NetEvent ι} {es : List (NetEvent ι)}

/-- A step is a move of one link; what it has written is added to the medium. -/
theorem step_move (h : net.step e = some net') :
    ∃ call, net.call e.action = some call ∧ Link.Move (net.linkAt e) call (net'.links e.host)
      ∧ (∀ host, host ≠ e.host → net'.links host = net.links host)
      ∧ net'.medium = net.medium ++ (net'.links e.host).written.reverse := by
  obtain ⟨⟨link, d⟩, hout, heq⟩ := Option.map_eq_some_iff.mp h
  obtain ⟨call, hcall, hexec⟩ := Option.bind_eq_some_iff.mp hout
  have hself : net'.links e.host = link := by
    rw [← heq]
    exact Function.update_self ..
  refine ⟨call, hcall, ?_, fun host hhost => ?_, ?_⟩
  · rw [hself]
    exact Link.exec_move hexec
  · rw [← heq]
    exact Function.update_of_ne hhost ..
  · rw [hself, ← heq]

theorem step_keeps (h : net.step e = some net') : Keeps net net' := by
  obtain ⟨call, -, hmove, hothers, -⟩ := step_move h
  constructor
  · intro host
    by_cases hhost : host = e.host
    · rw [hhost]
      exact hmove.mac_eq
    · rw [hothers host hhost]
  · intro host hip
    by_cases hhost : host = e.host
    · rw [hhost] at hip ⊢
      exact hmove.addr_eq hip
    · rw [hothers host hhost]
      exact ⟨rfl, rfl⟩

theorem step_resolved (hres : net.Resolved) (h : net.step e = some net') : net'.Resolved := by
  have hkeeps := step_keeps h
  obtain ⟨call, hcall, hmove, hothers, hmedium⟩ := step_move h
  constructor
  · intro host i hip
    by_cases hhost : host = e.host
    · rw [hhost] at hip ⊢
      exact (move_entries hres hcall hmove i hip).keeps hkeeps hip
    · rw [hothers host hhost] at hip ⊢
      exact (hres.caches host i hip).keeps hkeeps hip
  · intro frame hframe
    rw [hmedium] at hframe
    rcases List.mem_append.mp hframe with hold | hnew
    · exact (hres.frames frame hold).keeps hkeeps
    · exact (move_written hres hmove (List.mem_reverse.mp hnew)).keeps hkeeps

/-- Nothing that has been written is taken back, and no host gives up its address. -/
theorem run_keeps {ok : Network ι → NetEvent ι → Prop} (h : Transition.GuardedRun step ok net es net') :
    Keeps net net' ∧ net.medium <+: net'.medium := by
  refine h.invariant (I := fun net' => Keeps net net' ∧ net.medium <+: net'.medium) ?_
    ⟨Keeps.refl net, List.prefix_rfl⟩
  rintro s e s' ⟨hkeeps, hprefix⟩ - hstep
  obtain ⟨call, -, -, -, hmedium⟩ := step_move hstep
  exact ⟨hkeeps.trans (step_keeps hstep), hprefix.trans (hmedium ▸ List.prefix_append _ _)⟩

theorem run_resolved {ok : Network ι → NetEvent ι → Prop} (hres : net.Resolved)
    (h : Transition.GuardedRun step ok net es net') : net'.Resolved :=
  h.invariant (fun _ _ _ hres _ h => step_resolved hres h) hres

/-- Whatever happens to the frames, a MAC address that a host finds for an address is that of a host with the address,
and a packet of a host that has an address carries that host's addresses and goes to a host with its
destination, or to all, or to a group. -/
theorem addresses_resolved (hfresh : net.Fresh) (hrun : Transition.GuardedRun step Fits net es net') :
    (∀ host ip mac, ip ≠ ⟨0, 0, 0, 0⟩ → ((net'.links host).cache.arpCheck ip mac).1 ≠ 0 →
      net'.Owns ip ((net'.links host).cache.arpCheck ip mac).2)
    ∧ ∀ frame ∈ net'.medium, type (cells frame) = frameIp → ethSize + 20 ≤ frame.length →
      addrAt (packet (cells frame)) 12 ≠ ⟨0, 0, 0, 0⟩ →
        ∃ host, (net'.links host).ip = addrAt (packet (cells frame)) 12 ∧ (net'.links host).mac = srcMac (cells frame)
          ∧ net'.Directed host (addrAt (packet (cells frame)) 16) (dstMac (cells frame)) := by
  have hres := run_resolved hfresh.resolved hrun
  refine ⟨fun host ip mac hip hfound => ?_, fun frame hframe => (hres.frames frame hframe).packet⟩
  obtain ⟨i, hi⟩ := ArpCache.arpCheck_entry hfound
  have howner := hres.caches host i
  rw [hi] at howner
  exact howner hip

/-- A host of a small network, by the last byte of its addresses. -/
def hostLink (n : UInt8) : Link where
  mac := ⟨2, 0, 0, 0, 0, n⟩
  ip := ⟨10, 0, 0, n⟩
  netmask := ⟨255, 255, 255, 0⟩
  gateway := ⟨10, 0, 0, 254⟩
  framelen := 594
  cache := ArpCache.initial
  frame := fun _ => 0
  written := []

def twoHosts : Network Bool := ⟨fun first => if first then hostLink 1 else hostLink 2, []⟩

theorem twoHosts_fresh : twoHosts.Fresh := ⟨rfl, fun first => by cases first <;> rfl⟩

/-- An event with a buffer of zeros. -/
def eventAt (first : Bool) (action : NetAction) : NetEvent Bool := ⟨first, fun _ => 0, MacAddr.any, action⟩

def sending : NetEvent Bool := eventAt true (.udp ⟨10, 0, 0, 2⟩ 30168 4000 [1, 2, 3])

/-- A datagram, lost because its destination is not known yet, the request in its place, and the answer. -/
def resolution : List (NetEvent Bool) := [sending, eventAt false (.receive 0 []), eventAt true (.receive 1 [0])]

/-- The datagram once more. -/
def exchange : List (NetEvent Bool) := resolution ++ [sending]

theorem addresses_resolved_exchange : ∃ net', twoHosts.Fresh ∧ Transition.GuardedRun step Fits twoHosts exchange net'
    ∧ net'.medium.map (fun frame => (type (cells frame), dstMac (cells frame)))
      = [(frameArp, MacAddr.broadcast), (frameArp, ⟨2, 0, 0, 0, 0, 1⟩), (frameIp, ⟨2, 0, 0, 0, 0, 2⟩)]
    ∧ (∀ host ip mac, ip ≠ ⟨0, 0, 0, 0⟩ → ((net'.links host).cache.arpCheck ip mac).1 ≠ 0 →
      net'.Owns ip ((net'.links host).cache.arpCheck ip mac).2)
    ∧ ∀ frame ∈ net'.medium, type (cells frame) = frameIp → ethSize + 20 ≤ frame.length →
      addrAt (packet (cells frame)) 12 ≠ ⟨0, 0, 0, 0⟩ →
        ∃ host, (net'.links host).ip = addrAt (packet (cells frame)) 12 ∧ (net'.links host).mac = srcMac (cells frame)
          ∧ net'.Directed host (addrAt (packet (cells frame)) 16) (dstMac (cells frame)) := by
  have hsends : (Transition.checkedRun step Fits twoHosts exchange).map
      (fun net => net.medium.map fun frame => (type (cells frame), dstMac (cells frame)))
      = some [(frameArp, MacAddr.broadcast), (frameArp, ⟨2, 0, 0, 0, 0, 1⟩), (frameIp, ⟨2, 0, 0, 0, 0, 2⟩)] := by
    decide +kernel
  obtain ⟨net', hchecked, hmedium⟩ := Option.map_eq_some_iff.mp hsends
  have hrun := Transition.guardedRun_of_checked hchecked
  exact ⟨net', twoHosts_fresh, hrun, hmedium, addresses_resolved twoHosts_fresh hrun⟩

end Network

end UcxArinc
