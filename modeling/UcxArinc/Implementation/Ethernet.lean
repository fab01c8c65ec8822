import UcxArinc.Implementation.ArpCache

set_option autoImplicit false

/-! # The Ethernet interface

`arp_request` and `arp_reply` of `net/inet/arp.c`, the tests of addresses in `net/inet/utils.c`, and
`net/inet/eth_netif.c`. A frame begins where the buffer of the interface does, and the packet in it 14 bytes
behind. The cache is a global of the host, and a host has one interface. -/

namespace UcxArinc

open Cells

namespace MacAddr

def bytes (mac : MacAddr) : List UInt8 := [mac.b0, mac.b1, mac.b2, mac.b3, mac.b4, mac.b5]

def broadcast : MacAddr := ⟨0xff, 0xff, 0xff, 0xff, 0xff, 0xff⟩

def any : MacAddr := ⟨0, 0, 0, 0, 0, 0⟩

/-- `IP multicast address to MAC address`. -/
def ofMulticast (ip : IpAddr) : MacAddr := ⟨0x01, 0, 0x5e, ip.b1 &&& 0x7f, ip.b2, ip.b3⟩

end MacAddr

namespace IpAddr

/-- `ip_addr_isany`. -/
def isAny (addr : IpAddr) : Bool := addr = ⟨0, 0, 0, 0⟩

/-- The switch over the first byte of the address that an interface takes. -/
def classMask (addr : IpAddr) : IpAddr :=
  if 1 ≤ addr.b0 ∧ addr.b0 ≤ 127 then ⟨255, 0, 0, 0⟩
  else if 128 ≤ addr.b0 ∧ addr.b0 ≤ 191 then ⟨255, 255, 0, 0⟩
  else if 192 ≤ addr.b0 ∧ addr.b0 ≤ 223 then ⟨255, 255, 255, 0⟩
  else ⟨0, 0, 0, 0⟩

end IpAddr

/-! ## Frames -/

namespace EthFrame

/-- The fields of a frame. -/
def macAt (frame : Nat → UInt8) (i : Nat) : MacAddr :=
  ⟨frame i, frame (i + 1), frame (i + 2), frame (i + 3), frame (i + 4), frame (i + 5)⟩

def addrAt (frame : Nat → UInt8) (i : Nat) : IpAddr := ⟨frame i, frame (i + 1), frame (i + 2), frame (i + 3)⟩

def shortAt (frame : Nat → UInt8) (i : Nat) : UInt16 := short (frame i) (frame (i + 1))

/-- `frame_s->ethernet`. -/
def dstMac (frame : Nat → UInt8) : MacAddr := macAt frame 0
def srcMac (frame : Nat → UInt8) : MacAddr := macAt frame 6
def type (frame : Nat → UInt8) : UInt16 := shortAt frame 12

/-- `frame_s->payload.arp`. -/
def operation (frame : Nat → UInt8) : UInt16 := shortAt frame 20
def senderHa (frame : Nat → UInt8) : MacAddr := macAt frame 22
def senderPa (frame : Nat → UInt8) : IpAddr := addrAt frame 28
def targetPa (frame : Nat → UInt8) : IpAddr := addrAt frame 38

/-- The packet in a frame. -/
def packet (frame : Nat → UInt8) (i : Nat) : UInt8 := frame (14 + i)

/-- `FRAME_ARP` and `FRAME_IP`. -/
def frameArp : UInt16 := 0x0806
def frameIp : UInt16 := 0x0800

/-- `HARDW_ETH10` and `IP_HLEN_PLEN`. -/
def hardwEth10 : UInt16 := 1
def ipHlenPlen : UInt16 := 0x0604

/-- `OP_ARP_REQUEST` and `OP_ARP_ANSWER`. -/
def opArpRequest : UInt16 := 1
def opArpAnswer : UInt16 := 2

/-- `sizeof(struct eth_s)` and `sizeof(struct eth_arp_s)`. -/
def ethSize : Nat := 14
def ethArpSize : Nat := 42

/-- The tests of the header of an ARP message for Ethernet and IP. -/
def isEthArp (frame : Nat → UInt8) : Bool :=
  shortAt frame 14 = hardwEth10 ∧ shortAt frame 16 = frameIp ∧ shortAt frame 18 = ipHlenPlen

/-- What `arp_request` and `arp_reply` assign alike. -/
def putArpHeader (frame : Nat → UInt8) (operation : UInt16) : Nat → UInt8 :=
  let frame := put frame 12 (shortBytes frameArp)
  let frame := put frame 14 (shortBytes hardwEth10)
  let frame := put frame 16 (shortBytes frameIp)
  let frame := put frame 18 (shortBytes ipHlenPlen)
  put frame 20 (shortBytes operation)

end EthFrame

/-! ## The interface -/

/-- `struct netif_config_s`, with the cache, the buffer, and what `dev_write` was given, last first. -/
structure Link where
  mac : MacAddr
  ip : IpAddr
  netmask : IpAddr
  gateway : IpAddr
  framelen : UInt16
  cache : ArpCache
  frame : Nat → UInt8
  written : List (List UInt8)

namespace Link

open EthFrame

/-- `arp_reply`: the frame it makes of a request. -/
def arpReply (link : Link) : Nat → UInt8 :=
  let mac := srcMac link.frame
  let frame := put link.frame 6 link.mac.bytes
  let frame := put frame 0 mac.bytes
  let frame := putArpHeader frame opArpAnswer
  let ip := senderPa frame
  let frame := put frame 22 link.mac.bytes
  let frame := put frame 28 link.ip.bytes
  let frame := put frame 32 mac.bytes
  put frame 38 ip.bytes

/-- `arp_request`. -/
def arpRequest (link : Link) (ip : IpAddr) : Nat → UInt8 :=
  let frame := put link.frame 6 link.mac.bytes
  let frame := put frame 0 MacAddr.broadcast.bytes
  let frame := putArpHeader frame opArpRequest
  let frame := put frame 22 link.mac.bytes
  let frame := put frame 28 link.ip.bytes
  let frame := put frame 32 MacAddr.any.bytes
  put frame 38 ip.bytes

/-- `dev_write(netif->netdev, frame, size)`. -/
def devWrite (link : Link) (size : Nat) : Link :=
  { link with written := slice link.frame 0 size :: link.written }

/-- `dev_read(netif->netdev, frame, netif->framelen)`, for what the device has received: what does not fit the
    buffer is dropped. -/
def devRead (link : Link) (received : List UInt8) : Link × Nat :=
  if received.length ≤ link.framelen.toNat then
    ({ link with frame := put link.frame 0 received }, received.length)
  else (link, 0)

/-- The MAC address that `eth_send` looks up for an IP address: `arp_r`, and `mac`, which nothing is assigned to
    where the interface has no address itself. -/
def resolve (link : Link) (mac : MacAddr) (ip : IpAddr) : Int × MacAddr :=
  if ip.isAny || ip.isBroadcast link.netmask then (1, MacAddr.broadcast)
  else if ip.isMulticast then (1, MacAddr.ofMulticast ip)
  else if link.ip.b0 ||| link.ip.b1 ||| link.ip.b2 ||| link.ip.b3 = 0 then (1, mac)
  else link.cache.arpCheck ip mac

/-- The frame that `eth_send` makes of the packet in the buffer, for a MAC address. -/
def ipFrame (link : Link) (mac : MacAddr) : Nat → UInt8 :=
  let frame := put link.frame 6 link.mac.bytes
  let frame := put frame 0 mac.bytes
  put frame 12 (shortBytes frameIp)

/-- `eth_send`. -/
def ethSend (link : Link) (mac : MacAddr) (len : UInt16) : Link × Int :=
  let ip := addrAt (packet link.frame) 16
  let resolved := link.resolve mac ip
  if resolved.1 ≠ 0 then
    ({ link with frame := link.ipFrame resolved.2 }.devWrite (len.toNat + ethSize), len.toNat + ethSize)
  else
    ({ link with frame := link.arpRequest ip }.devWrite (ethArpSize + ethSize), 0)

/-- The case `FRAME_ARP` of `eth_recv`. -/
def recvArp (link : Link) : Link :=
  if isEthArp link.frame then
    if operation link.frame = opArpRequest ∧ targetPa link.frame = link.ip then
      { link with frame := link.arpReply }.devWrite ethArpSize
    else if operation link.frame = opArpAnswer then
      { link with cache := (link.cache.arpUpdate (senderPa link.frame) (senderHa link.frame)).1 }
    else link
  else link

/-- The case `FRAME_IP` of `eth_recv`: a ping of a certain size gives an interface without an address one. -/
def recvIp (link : Link) : Link × Int :=
  let len := ipLen (packet link.frame)
  if link.ip.isAny then
    if packet link.frame 9 = 1 ∧ len = 113 + 28 then
      let ip := addrAt (packet link.frame) 16
      ({ link with ip := ip, gateway := addrAt (packet link.frame) 12, netmask := ip.classMask }, 0)
    else (link, 0)
  else (link, len.toNat)

/-- `eth_recv`, for what the device has received. -/
def ethRecv (link : Link) (received : List UInt8) : Link × Int :=
  let (link, llLen) := link.devRead received
  if llLen > 0 then
    if dstMac link.frame = link.mac ∨ dstMac link.frame = MacAddr.broadcast
        ∨ dstMac link.frame = MacAddr.any then
      if type link.frame = frameArp then (link.recvArp, 0)
      else if type link.frame = frameIp then link.recvIp
      else (link, 0)
    else (link, 0)
  else (link, 0)

end Link

end UcxArinc
