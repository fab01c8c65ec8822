import UcxArinc.Library.DatagramService
import UcxArinc.Proofs.ArpResolution
import UcxArinc.Proofs.DatagramFrames

set_option autoImplicit false

/-! # Datagrams between hosts

Hosts on a medium are a datagram service: what is in flight are the datagrams in the frames that have been written. An
application is called with datagrams in flight only, and these go back to what has been given to `udp_out`. And once
an address is known, a datagram for it is on its way to a host that has the address, and comes to its application
whenever its frame does. -/

namespace UcxArinc

open Cells EthFrame

/-- `ip_out` is not given what `udp_out` is for. -/
def NetAction.LeavesUdp : NetAction → Prop
  | ip _ proto _ => proto ≠ 17
  | _ => True

instance : DecidablePred NetAction.LeavesUdp
  | .udp _ _ _ _ | .receive _ _ => isTrue trivial
  | .ip _ proto _ => inferInstanceAs (Decidable (proto ≠ 17))

namespace Network

variable {ι : Type} {net net' : Network ι} {e : NetEvent ι} {d : Datagram} {frame : List UInt8} {link : Link}

/-- The packets of an event fit, and UDP is left to `udp_out`. -/
def Plain (net : Network ι) (e : NetEvent ι) : Prop := net.Fits e ∧ e.action.LeavesUdp

instance (net : Network ι) (e : NetEvent ι) : Decidable (net.Plain e) := inferInstanceAs (Decidable (_ ∧ _))

/-! ## What is in flight -/

/-- The datagrams in the frames that have been written. -/
def flight (net : Network ι) : Set Datagram := {d | ∃ frame ∈ net.medium, Carries frame d}

theorem flight_of_none (hmedium : net'.medium = net.medium ++ [frame]) (hnone : ∀ d, ¬ Carries frame d) :
    net'.flight = net.flight := by
  ext d
  simp only [flight, hmedium, Set.mem_ofPred_eq, List.mem_append, List.mem_singleton]
  constructor
  · rintro ⟨f, hf | rfl, hcarries⟩
    · exact ⟨f, hf, hcarries⟩
    · exact absurd hcarries (hnone d)
  · rintro ⟨f, hf, hcarries⟩
    exact ⟨f, Or.inl hf, hcarries⟩

theorem flight_of_carries (hmedium : net'.medium = net.medium ++ [frame]) (h : Carries frame d) :
    net'.flight = insert d net.flight := by
  ext d'
  simp only [flight, hmedium, Set.mem_ofPred_eq, List.mem_append, List.mem_singleton, Set.mem_insert_iff]
  constructor
  · rintro ⟨f, hf | rfl, hcarries⟩
    · exact Or.inr ⟨f, hf, hcarries⟩
    · exact Or.inl (hcarries.unique h)
  · rintro (rfl | ⟨f, hf, hcarries⟩)
    · exact ⟨frame, Or.inr rfl, h⟩
    · exact ⟨f, Or.inl hf, hcarries⟩

/-- What an event is to those who send and receive datagrams. -/
def label (net : Network ι) (e : NetEvent ι) : DatagramService.Event Datagram :=
  match e.action, (net.outcome e).bind Prod.snd with
  | .udp dstAddr srcPort dstPort payload, _ => .sent ⟨(net.links e.host).ip, dstAddr, srcPort, dstPort, payload⟩
  | _, some d => .handed d
  | _, none => .other

/-- All frames on the medium are intact. -/
def Whole (net : Network ι) : Prop := ∀ frame ∈ net.medium, Intact frame

theorem Whole.append (h : net.Whole) (hmedium : net'.medium = net.medium ++ [frame]) (hframe : Intact frame) :
    net'.Whole := by
  intro f hf
  rw [hmedium, List.mem_append, List.mem_singleton] at hf
  rcases hf with hf | rfl
  · exact h f hf
  · exact hframe

/-- A datagram that the application of a host is called with is in a frame on the medium, and addressed to the host. -/
theorem handed_carries (hwhole : net.Whole) (hout : net.outcome e = some (link, some d)) :
    (∃ frame ∈ net.medium, Carries frame d) ∧ (d.dstAddr = (net.links e.host).ip
      ∨ d.dstAddr.isBroadcast (net.links e.host).netmask ∨ d.dstAddr.isMulticast) := by
  obtain ⟨call, hcall, hexec⟩ := Option.bind_eq_some_iff.mp hout
  obtain ⟨received, rfl⟩ := Link.exec_handed hexec
  obtain ⟨frame, hframe, padding, rfl⟩ := call_receive hcall
  cases Link.exec_serves (hwhole frame hframe) hexec with
  | hands hwritten hcarries haddr => exact ⟨⟨frame, hframe, hcarries⟩, haddr⟩

variable [DecidableEq ι] {es : List (NetEvent ι)}

/-- What comes of a step: its host has written nothing, or one frame. -/
theorem step_outcome (h : net.step e = some net') :
    ∃ call link d, net.call e.action = some call ∧ (net.linkAt e).exec e.mac call = some (link, d)
      ∧ net.outcome e = some (link, d) ∧ (link.written = (net.linkAt e).written → net'.medium = net.medium)
      ∧ ∀ frame, link.written = frame :: (net.linkAt e).written → net'.medium = net.medium ++ [frame] := by
  obtain ⟨⟨link, d⟩, hout, rfl⟩ := Option.map_eq_some_iff.mp h
  obtain ⟨call, hcall, hexec⟩ := Option.bind_eq_some_iff.mp hout
  refine ⟨call, link, d, hcall, hexec, hout, fun hnone => ?_, fun frame hone => ?_⟩
  · change net.medium ++ link.written.reverse = _
    rw [hnone]
    exact List.append_nil _
  · change net.medium ++ link.written.reverse = _
    rw [hone]
    rfl

/-- Each step is one of the datagram service. -/
theorem step_serves (hwhole : net.Whole) (hok : net.Plain e) (h : net.step e = some net') :
    net'.Whole ∧ DatagramService.Step Datagram.EchoOf net.flight (net.label e) net'.flight := by
  obtain ⟨call, link, d, hcall, hexec, hout, hnone, hone⟩ := step_outcome h
  have hframelen := (net.links e.host).framelen.toNat_lt
  obtain ⟨hfits, hudp⟩ := hok
  unfold Fits at hfits
  unfold label
  rw [hout, Option.bind_some]
  cases haction : e.action with
  | udp dstAddr srcPort dstPort payload =>
      rw [haction] at hcall hfits
      cases hcall
      have hroom : 14 + 28 + payload.length ≤ (net.links e.host).framelen.toNat := hfits
      obtain ⟨-, frame, hwritten, hintact, mac, ⟨hcarries, -, -⟩ | ⟨harp, -⟩⟩ := Link.exec_udp (by omega) hexec
      · have hmedium := hone frame hwritten
        refine ⟨hwhole.append hmedium hintact, ?_⟩
        rw [flight_of_carries hmedium hcarries]
        exact .sent _ _
      · have hmedium := hone frame hwritten
        refine ⟨hwhole.append hmedium hintact, ?_⟩
        rw [flight_of_none hmedium fun d => not_carries_of_arp harp]
        exact .lost _ _
  | ip dstAddr proto payload =>
      rw [haction] at hcall hfits hudp
      cases hcall
      have hroom : 14 + 20 + payload.length ≤ (net.links e.host).framelen.toNat := hfits
      obtain ⟨rfl, frame, hwritten, hintact, hcarries⟩ := Link.exec_ip hudp (by omega) hexec
      have hmedium := hone frame hwritten
      refine ⟨hwhole.append hmedium hintact, ?_⟩
      rw [flight_of_none hmedium hcarries]
      exact .idle _
  | receive k padding =>
      rw [haction] at hcall
      obtain ⟨frame, hk, rfl⟩ := Option.map_eq_some_iff.mp hcall
      have hmem := List.mem_of_getElem? hk
      have hsame : net'.medium = net.medium → net'.flight = net.flight := fun hmedium => by
        rw [flight, flight, hmedium]
      cases Link.exec_serves (hwhole frame hmem) hexec with
      | quiet hwritten =>
          have hmedium := hnone hwritten
          refine ⟨fun f hf => hwhole f (hmedium ▸ hf), ?_⟩
          rw [hsame hmedium]
          exact .idle _
      | sends answer hwritten hintact hcarries =>
          have hmedium := hone answer hwritten
          refine ⟨hwhole.append hmedium hintact, ?_⟩
          rw [flight_of_none hmedium hcarries]
          exact .idle _
      | echoes answer hwritten hintact hcarries hecho hsends =>
          have hmedium := hone answer hwritten
          refine ⟨hwhole.append hmedium hintact, ?_⟩
          rw [flight_of_carries hmedium hsends]
          exact .answered ⟨frame, hmem, hcarries⟩ hecho
      | hands hwritten hcarries haddr =>
          have hmedium := hnone hwritten
          refine ⟨fun f hf => hwhole f (hmedium ▸ hf), ?_⟩
          rw [hsame hmedium]
          exact .handed ⟨frame, hmem, hcarries⟩

/-- A run is a run of the datagram service. -/
theorem run_serves (hfresh : net.Fresh) (hrun : Transition.GuardedRun step Plain net es net') :
    net'.Whole ∧ DatagramService.Run Datagram.EchoOf ∅ (LabelledRun.labels step label net es) net'.flight := by
  have hempty : net.flight = ∅ := by
    ext d
    simp [flight, hfresh.medium]
  have hwhole : net.Whole := by
    intro frame hframe
    rw [hfresh.medium] at hframe
    cases hframe
  rw [← hempty]
  exact LabelledRun.run_of_guarded hrun (fun _ _ _ hwhole hok h => step_serves hwhole hok h) hwhole

/-- Whatever happens to the frames, a datagram that an application is called with is one that has been given to
`udp_out`, or its echo, or the echo of that, and so on; it is addressed to the host, and its source address, if there
is one, is that of a host. -/
theorem datagrams_unforged (hfresh : net.Fresh) (hrun : Transition.GuardedRun step Plain net es net')
    (hout : net'.outcome e = some (link, some d)) :
    (∃ d₀, .sent d₀ ∈ LabelledRun.labels step label net es ∧ DatagramService.Origin Datagram.EchoOf d₀ d)
    ∧ (d.dstAddr = (net'.links e.host).ip ∨ d.dstAddr.isBroadcast (net'.links e.host).netmask
      ∨ d.dstAddr.isMulticast)
    ∧ (d.srcAddr ≠ ⟨0, 0, 0, 0⟩ → ∃ host, (net'.links host).ip = d.srcAddr) := by
  obtain ⟨hwhole, hserves⟩ := run_serves hfresh hrun
  obtain ⟨⟨frame, hframe, hcarries⟩, haddr⟩ := handed_carries hwhole hout
  obtain ⟨d₀, hd₀ | hsent, horigin⟩ := hserves.origin ⟨frame, hframe, hcarries⟩
  · cases hd₀
  · refine ⟨⟨d₀, hsent, horigin⟩, haddr, fun hsrc => ?_⟩
    have hof : addrAt (packet (cells frame)) 12 = d.srcAddr := congrArg Datagram.srcAddr hcarries.ofPacket
    have htrue := (run_resolved hfresh.resolved hrun).frames frame hframe
    obtain ⟨host, hip, -⟩ := htrue.packet hcarries.type (by rw [hcarries.length]; omega) (by rw [hof]; exact hsrc)
    exact ⟨host, hip.trans hof⟩

/-- A datagram to the echo port, lost because its destination is not known yet, then sent and received, but not
answered, because its source is not known; received a second time, and answered. -/
def echoExchange : List (NetEvent Bool) :=
  [eventAt true (.udp ⟨10, 0, 0, 2⟩ 4000 7 [1, 2, 3]), eventAt false (.receive 0 []), eventAt true (.receive 1 [0]),
    eventAt true (.udp ⟨10, 0, 0, 2⟩ 4000 7 [1, 2, 3]), eventAt false (.receive 2 []), eventAt true (.receive 3 []),
    eventAt false (.receive 4 [0, 0]), eventAt false (.receive 2 [0])]

/-- The echo. -/
def echo : Datagram := ⟨⟨10, 0, 0, 2⟩, ⟨10, 0, 0, 1⟩, 7, 4000, [1, 2, 3]⟩

theorem datagrams_unforged_echo : ∃ net' link, twoHosts.Fresh
    ∧ Transition.GuardedRun step Plain twoHosts echoExchange net'
    ∧ net'.outcome (eventAt true (.receive 5 [])) = some (link, some echo)
    ∧ (∃ d₀, .sent d₀ ∈ LabelledRun.labels step label twoHosts echoExchange
      ∧ DatagramService.Origin Datagram.EchoOf d₀ echo)
    ∧ (echo.dstAddr = (net'.links true).ip ∨ echo.dstAddr.isBroadcast (net'.links true).netmask
      ∨ echo.dstAddr.isMulticast)
    ∧ (echo.srcAddr ≠ ⟨0, 0, 0, 0⟩ → ∃ host, (net'.links host).ip = echo.srcAddr) := by
  have hcalled : ((Transition.checkedRun step Plain twoHosts echoExchange).bind fun net =>
      (net.outcome (eventAt true (.receive 5 []))).map Prod.snd) = some (some echo) := by
    decide +kernel
  obtain ⟨net', hchecked, hlast⟩ := Option.bind_eq_some_iff.mp hcalled
  obtain ⟨⟨link, d⟩, hout, rfl⟩ := Option.map_eq_some_iff.mp hlast
  have hrun := Transition.guardedRun_of_checked hchecked
  exact ⟨net', link, twoHosts_fresh, hrun, hout, datagrams_unforged twoHosts_fresh hrun hout⟩

/-! ## Arrival -/

/-- Once a host knows the MAC address for a destination, a datagram to it is on its way to a host that has the
destination's address, and comes to the application of that host, as it was sent, whenever its frame does,
whatever has happened in between. -/
theorem datagram_arrives {u u' : Network ι} {dstAddr : IpAddr} {srcPort dstPort : UInt16} {payload : List UInt8}
    (hfresh : net.Fresh) (hbefore : Transition.GuardedRun step Fits net es u)
    (haction : e.action = .udp dstAddr srcPort dstPort payload) (hfits : u.Fits e) (hstep : u.step e = some u')
    (hsender : (u.links e.host).ip ≠ ⟨0, 0, 0, 0⟩) (hsingle : u.Single e.host dstAddr)
    (hknown : ((u.links e.host).cache.arpCheck dstAddr e.mac).1 ≠ 0) (hecho : dstPort ≠ 7) (hdiscard : dstPort ≠ 9) :
    ∃ receiver, (u'.links receiver).ip = dstAddr ∧
      ∀ es' w memory mac padding, Transition.GuardedRun step Fits u' es' w →
        ethSize + 28 + payload.length + padding.length ≤ (w.links receiver).framelen.toNat →
          ∃ link, w.outcome ⟨receiver, memory, mac, .receive u.medium.length padding⟩
            = some (link, some ⟨(u.links e.host).ip, dstAddr, srcPort, dstPort, payload⟩) := by
  have hres := run_resolved hfresh.resolved hbefore
  obtain ⟨call, link, d, hcall, hexec, -, -, hone⟩ := step_outcome hstep
  have hframelen := (u.links e.host).framelen.toNat_lt
  unfold Fits at hfits
  rw [haction] at hcall hfits
  cases hcall
  have hroom : 14 + 28 + payload.length ≤ (u.links e.host).framelen.toNat := hfits
  obtain ⟨-, frame, hwritten, -, mac, hsends⟩ := Link.exec_udp (by omega) hexec
  have hmedium := hone frame hwritten
  have hfound : ((u.linkAt e).resolve mac dstAddr).1 ≠ 0 := by
    have hlook : (u.linkAt e).resolve e.mac dstAddr = _ := Link.resolve_single hsingle.1 hsingle.2 hsender
    rw [Link.resolve_fst _ _ e.mac, hlook]
    exact hknown
  rcases hsends with ⟨hcarries, -, hmac⟩ | ⟨-, hunknown⟩
  · have hdirected := directed_resolve hres hsender hfound
    unfold Directed at hdirected
    rw [if_neg hsingle.1, if_neg hsingle.2, ← hmac] at hdirected
    have hdst := IpAddr.ne_zero hsingle.1
    obtain ⟨receiver, hip, hreceiver⟩ := hdirected.keeps (step_keeps hstep) hdst
    refine ⟨receiver, hip, fun es' w memory mac padding hrun hroom => ?_⟩
    obtain ⟨hkeeps, rest, hrest⟩ := run_keeps hrun
    have hframe : w.medium[u.medium.length]? = some frame := by
      rw [← hrest, hmedium, List.append_assoc, List.getElem?_append_right (Nat.le_refl _), Nat.sub_self]
      rfl
    have hip' : (w.links receiver).ip = dstAddr := (hkeeps.addr receiver (hip ▸ hdst)).1.trans hip
    have hmac' : (w.links receiver).mac = dstMac (cells frame) := (hkeeps.mac receiver).trans hreceiver
    have hfits' : (frame ++ padding).length ≤ (w.links receiver).framelen.toNat := by
      rw [List.length_append, hcarries.length]
      exact hroom
    have hcall : w.call (.receive u.medium.length padding) = some (.receive (frame ++ padding)) := by
      rw [call, hframe]
      rfl
    simp only [outcome, hcall, Option.bind_some]
    refine Link.exec_delivers hcarries ?_ ?_ ?_ ?_ hecho hdiscard
    · exact hfits'
    · exact Or.inl hmac'.symm
    · exact fun hzero => hdst (hip'.symm.trans hzero)
    · exact Or.inl hip'.symm
  · exact absurd hunknown hfound

theorem datagram_arrives_exchange : ∃ u u', twoHosts.Fresh ∧ Transition.GuardedRun step Fits twoHosts resolution u
    ∧ u.Fits sending ∧ u.step sending = some u' ∧ (u.links true).ip ≠ ⟨0, 0, 0, 0⟩ ∧ u.Single true ⟨10, 0, 0, 2⟩
    ∧ ((u.links true).cache.arpCheck ⟨10, 0, 0, 2⟩ MacAddr.any).1 ≠ 0
    ∧ ∃ receiver, (u'.links receiver).ip = ⟨10, 0, 0, 2⟩ ∧
      ∀ es' w memory mac padding, Transition.GuardedRun step Fits u' es' w →
        ethSize + 28 + 3 + padding.length ≤ (w.links receiver).framelen.toNat →
          ∃ link, w.outcome ⟨receiver, memory, mac, .receive u.medium.length padding⟩
            = some (link, some ⟨(u.links true).ip, ⟨10, 0, 0, 2⟩, 30168, 4000, [1, 2, 3]⟩) := by
  have hfacts : ((Transition.checkedRun step Fits twoHosts resolution).bind fun u => (u.step sending).map fun _ =>
      (decide (u.Fits sending), (u.links true).ip, (u.links true).netmask,
        ((u.links true).cache.arpCheck ⟨10, 0, 0, 2⟩ MacAddr.any).1))
      = some (true, ⟨10, 0, 0, 1⟩, ⟨255, 255, 255, 0⟩, 1) := by
    decide +kernel
  obtain ⟨u, hchecked, hlast⟩ := Option.bind_eq_some_iff.mp hfacts
  obtain ⟨u', hstep, heq⟩ := Option.map_eq_some_iff.mp hlast
  simp only [Prod.mk.injEq, decide_eq_true_eq] at heq
  obtain ⟨hfits, hip, hnetmask, hfound⟩ := heq
  have hbefore := Transition.guardedRun_of_checked hchecked
  have hsender : (u.links true).ip ≠ ⟨0, 0, 0, 0⟩ := by
    rw [hip]
    decide
  have hsingle : u.Single true ⟨10, 0, 0, 2⟩ := by
    rw [Single, hnetmask]
    decide
  have hknown : ((u.links true).cache.arpCheck ⟨10, 0, 0, 2⟩ MacAddr.any).1 ≠ 0 := by
    rw [hfound]
    decide
  exact ⟨u, u', twoHosts_fresh, hbefore, hfits, hstep, hsender, hsingle, hknown,
    datagram_arrives (e := sending) twoHosts_fresh hbefore rfl hfits hstep hsender hsingle hknown (by decide)
      (by decide)⟩

end Network

end UcxArinc
