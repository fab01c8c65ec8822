import UcxArinc.Implementation.Ethernet
import Mathlib.Logic.Function.Basic

set_option autoImplicit false

/-! # Hosts on a medium

What the loop of an application on the network does (`app/spi_enc28j60_inet.c`): it takes a frame from
`net_recv` and gives the packet in it to `ip_in`, and it sends with `udp_out` and `ip_out`. The medium keeps
every frame that a host has written. It may lose frames, repeat them and change their order, and it may pad
them; whoever listens gets them all. What an application sends when it is called back is an event of its own. -/

namespace UcxArinc

open Cells

namespace Link

open EthFrame

/-- A packet written into the buffer, behind the header of the frame. -/
def withPacket (link : Link) (bytes : Nat → UInt8) : Link :=
  { link with frame := fun i => if i < ethSize then link.frame i else bytes (i - ethSize) }

/-- The interface as the functions of packets see it. -/
def netif (link : Link) (mac : MacAddr) : Netif where
  ip := link.ip
  netmask := link.netmask
  framelen := link.framelen
  netSend packet := ({ link with frame := put link.frame ethSize packet }.ethSend mac (UInt16.ofNat packet.length)).2

/-- A function of packets, on the packet in the buffer: what it hands to `net_send` goes to `eth_send`. None hands
    over more than one packet, and none reads the buffer after that. -/
def onPacket (link : Link) (mac : MacAddr) (f : Netif → Net Int) : Option (Link × Int × Packet) :=
  (f (link.netif mac) (Packet.ofBytes (packet link.frame))).map fun (val, s) =>
    (s.sent.foldr (fun packet link => (link.ethSend mac (UInt16.ofNat packet.length)).1) (link.withPacket s.bytes),
      val, s)

end Link

/-- A datagram, as an application sees it. -/
structure Datagram where
  srcAddr : IpAddr
  dstAddr : IpAddr
  srcPort : UInt16
  dstPort : UInt16
  payload : List UInt8
  deriving DecidableEq, Repr

/-- The datagram in a packet. -/
def Datagram.ofPacket (bytes : Nat → UInt8) : Datagram where
  srcAddr := EthFrame.addrAt bytes 12
  dstAddr := EthFrame.addrAt bytes 16
  srcPort := EthFrame.shortAt bytes 20
  dstPort := EthFrame.shortAt bytes 22
  payload := slice bytes 28 ((EthFrame.shortAt bytes 24).toNat - 8)

/-- What a host does. -/
inductive HostCall
  /-- `udp_out`, with a payload behind the headers. -/
  | udp (dstAddr : IpAddr) (srcPort dstPort : UInt16) (payload : List UInt8)
  /-- `ip_out`, with a payload behind the header. -/
  | ip (dstAddr : IpAddr) (proto : UInt8) (payload : List UInt8)
  /-- `net_recv`, and `ip_in` if there is a packet. -/
  | receive (received : List UInt8)
  deriving DecidableEq, Repr

namespace Link

/-- Turns enough for all loops over a packet that end. -/
def packetTurns : Nat := 32768

/-- The callback of the application: nothing else that `ip_in` calls returns -2. -/
def appCallbacks : Callbacks := ⟨none, some fun _ => -2⟩

/-- A call, with what it leaves at the link and the datagram that the application is called back with. -/
def exec (link : Link) (mac : MacAddr) : HostCall → Option (Link × Option Datagram)
  | .udp dstAddr srcPort dstPort payload => do
    let link := { link with frame := put link.frame (EthFrame.ethSize + 28) payload }
    let (link, _) ← link.onPacket mac fun netif =>
      Net.udpOut netif packetTurns dstAddr srcPort dstPort (UInt16.ofNat (8 + payload.length))
    pure (link, none)
  | .ip dstAddr proto payload => do
    let link := { link with frame := put link.frame (EthFrame.ethSize + 20) payload }
    let (link, _) ← link.onPacket mac fun netif =>
      Net.ipOut netif packetTurns dstAddr proto.toNat (UInt16.ofNat (20 + payload.length))
    pure (link, none)
  | .receive received =>
    let (link, len) := link.ethRecv received
    if len > 0 then do
      let (link, val, s) ← link.onPacket mac fun netif =>
        Net.ipIn netif appCallbacks packetTurns link.ip (UInt16.ofNat len.toNat)
      pure (link, if val = -2 then some (Datagram.ofPacket s.bytes) else none)
    else some (link, none)

end Link

/-- The hosts, and the frames that have been written, in order. -/
structure Network (ι : Type) where
  links : ι → Link
  medium : List (List UInt8)

/-- What can happen: a host sends, or it receives a frame with some padding. -/
inductive NetAction
  | udp (dstAddr : IpAddr) (srcPort dstPort : UInt16) (payload : List UInt8)
  | ip (dstAddr : IpAddr) (proto : UInt8) (payload : List UInt8)
  | receive (frame : Nat) (padding : List UInt8)
  deriving DecidableEq, Repr

/-- What the packet of an action needs in a frame. -/
def NetAction.size : NetAction → Nat
  | udp _ _ _ payload => EthFrame.ethSize + 28 + payload.length
  | ip _ _ payload => EthFrame.ethSize + 20 + payload.length
  | receive _ _ => 0

/-- An action of a host, with what its buffer holds before, and an address that nothing has been assigned to. -/
structure NetEvent (ι : Type) where
  host : ι
  memory : Nat → UInt8
  mac : MacAddr
  action : NetAction

namespace Network

variable {ι : Type}

/-- The call of an action. -/
def call (net : Network ι) : NetAction → Option HostCall
  | .udp dstAddr srcPort dstPort payload => some (.udp dstAddr srcPort dstPort payload)
  | .ip dstAddr proto payload => some (.ip dstAddr proto payload)
  | .receive frame padding => net.medium[frame]?.map fun f => .receive (f ++ padding)

/-- The link of a host with its buffer, and nothing written yet. -/
def linkAt (net : Network ι) (e : NetEvent ι) : Link := { net.links e.host with frame := e.memory, written := [] }

/-- What comes of an event at its host. -/
def outcome (net : Network ι) (e : NetEvent ι) : Option (Link × Option Datagram) :=
  (net.call e.action).bind fun call => (net.linkAt e).exec e.mac call

/-- The packet of an action fits the buffer of its host. -/
def Fits (net : Network ι) (e : NetEvent ι) : Prop := e.action.size ≤ (net.links e.host).framelen.toNat

instance (net : Network ι) (e : NetEvent ι) : Decidable (net.Fits e) := inferInstanceAs (Decidable (_ ≤ _))

variable [DecidableEq ι]

def step (net : Network ι) (e : NetEvent ι) : Option (Network ι) :=
  (net.outcome e).map fun (link, _) =>
    ⟨Function.update net.links e.host link, net.medium ++ link.written.reverse⟩

end Network

end UcxArinc
