import Mathlib.Algebra.Group.Nat.Defs
import Mathlib.Algebra.Group.Int.Defs
import Mathlib.Data.Int.Notation
import UcxArinc.Library.Cells

set_option autoImplicit false

/-! # Packets of the network stack

`net/inet/ip.c`, `icmp.c`, `udp.c`, and the checksum and the address tests of `utils.c`. A packet is where its
pointer points; offsets are counted from there. A 16 bit field is what `ntohs` makes of it. The state says
how far the packet has been read and written, and what `net_send` was given. What `net_send` and the
callbacks do to the frame is not modelled: nothing reads it after them. -/

namespace UcxArinc

open Cells

/-- `uint8_t addr[4]`. -/
structure IpAddr where
  b0 : UInt8
  b1 : UInt8
  b2 : UInt8
  b3 : UInt8
  deriving DecidableEq, Repr

namespace IpAddr

def bytes (addr : IpAddr) : List UInt8 := [addr.b0, addr.b1, addr.b2, addr.b3]

/-- The loops over the bytes of an address and a mask. -/
def map (f : UInt8 → UInt8 → UInt8) (addr mask : IpAddr) : IpAddr :=
  ⟨f addr.b0 mask.b0, f addr.b1 mask.b1, f addr.b2 mask.b2, f addr.b3 mask.b3⟩

/-- `ip_addr_isbroadcast`. -/
def isBroadcast (addr mask : IpAddr) : Bool :=
  let ad := map (fun a m => a &&& ~~~m) addr mask
  let msk := map (fun _ m => ~~~m &&& 0xff) mask mask
  ad = msk || ad = ⟨0, 0, 0, 0⟩ || ad = ⟨0xff, 0xff, 0xff, 0xff⟩

/-- `ip_addr_ismulticast`. -/
def isMulticast (addr : IpAddr) : Bool :=
  map (fun a m => a &&& m) addr ⟨0xf0, 0, 0, 0⟩ = ⟨0xe0, 0, 0, 0⟩

end IpAddr

/-- `struct netif_config_s`. -/
structure Netif where
  ip : IpAddr
  netmask : IpAddr
  framelen : UInt16
  /-- What `net_send` returns for a packet. -/
  netSend : List UInt8 → Int

/-- What `ip_set_callback` and `udp_set_callback` have set, by what it returns for a packet. -/
structure Callbacks where
  ip : Option ((Nat → UInt8) → Int)
  udp : Option ((Nat → UInt8) → Int)

/-! ## Bytes -/

/-- The value of a 16 bit field. -/
def short (hi lo : UInt8) : UInt16 := UInt16.ofNat (256 * hi.toNat + lo.toNat)

/-- The bytes of a 16 bit field. -/
def shortBytes (v : UInt16) : List UInt8 := [UInt8.ofNat (v.toNat / 256), UInt8.ofNat v.toNat]

@[ext]
structure Packet where
  bytes : Nat → UInt8
  /-- All that has been read lies before this offset. -/
  readEnd : Nat
  /-- All that has been written lies before this offset. -/
  writeEnd : Nat
  /-- What `net_send` was given, last first. -/
  sent : List (List UInt8)

namespace Packet

/-- A packet as it has been received, or before it is built. -/
def ofBytes (bytes : Nat → UInt8) : Packet := ⟨bytes, 0, 0, []⟩

def read (s : Packet) (last : Nat) : Packet := { s with readEnd := max s.readEnd last }

def write (s : Packet) (offset : Nat) (src : List UInt8) : Packet :=
  { s with bytes := put s.bytes offset src, writeEnd := max s.writeEnd (offset + src.length) }

end Packet

/-- What runs on a packet, and may not end. -/
abbrev Net := StateT Packet Option

namespace Net

def getByte (offset : Nat) : Net UInt8 := fun s => some (s.bytes offset, s.read (offset + 1))

def getShort (offset : Nat) : Net UInt16 := fun s =>
  some (short (s.bytes offset) (s.bytes (offset + 1)), s.read (offset + 2))

def getAddr (offset : Nat) : Net IpAddr := fun s =>
  some (⟨s.bytes offset, s.bytes (offset + 1), s.bytes (offset + 2), s.bytes (offset + 3)⟩, s.read (offset + 4))

/-- `memcpy` to an offset, `memset`, and what is assigned to a field. -/
def setBytes (offset : Nat) (src : List UInt8) : Net Unit := fun s => some ((), s.write offset src)

def setByte (offset : Nat) (v : UInt8) : Net Unit := setBytes offset [v]

def setShort (offset : Nat) (v : UInt16) : Net Unit := setBytes offset (shortBytes v)

def setAddr (offset : Nat) (addr : IpAddr) : Net Unit := setBytes offset addr.bytes

/-- `netif->net_send(netif, packet, len)`. -/
def send (netif : Netif) (len : UInt16) : Net Int := fun s =>
  some (netif.netSend (slice s.bytes 0 len.toNat), { s with sent := slice s.bytes 0 len.toNat :: s.sent })

/-- `callback(netif, packet)`, or `-1` without one. -/
def call (callback : Option ((Nat → UInt8) → Int)) : Net Int := fun s =>
  some ((callback.map fun f => f s.bytes).getD (-1), s)

/-! ## Checksums -/

/-- The loops of `checksum` and `udpchksum`, with so many turns at most. The counter `i` has 32 or 16 bits. -/
def sumLoop (width limit : Nat) : Nat → Nat → Nat → Nat → Net (Nat × Nat)
  | 0, _, _, _ => fun _ => none
  | turns + 1, i, ptr, sum =>
    if i < limit then do
      let val ← getShort ptr
      sumLoop width limit turns ((i + 2) % 2 ^ width) (ptr + 2) ((sum + val.toNat) % 2 ^ 32)
    else pure (ptr, sum)

/-- `if (len & 1)`. -/
def addLast (len ptr sum : Nat) : Net Nat :=
  if len % 2 = 1 then do
    let val ← getShort ptr
    pure ((sum + (val &&& 0xff00).toNat) % 2 ^ 32)
  else pure sum

/-- How both end. -/
def fold (sum : Nat) : UInt16 :=
  let sum := ((sum >>> 16) + (sum &&& 0xffff)) % 2 ^ 32
  let sum := (sum + (sum >>> 16)) % 2 ^ 32
  UInt16.ofNat (2 ^ 32 - 1 - sum)

/-- `checksum`. -/
def checksum (turns buf len : Nat) : Net UInt16 := do
  let (ptr, sum) ← sumLoop 32 ((len + (2 ^ 32 - 1)) % 2 ^ 32) turns 0 buf 0
  let sum ← addLast len ptr sum
  pure (fold sum)

/-- `udpchksum`. -/
def udpchksum (turns : Nat) (len : UInt16) : Net UInt16 := do
  let (ptr, sum) ← sumLoop 16 (len.toNat + 8 - 1) turns 0 (20 - 8) (17 + len.toNat)
  let sum ← addLast len.toNat ptr sum
  pure (fold sum)

/-! ## Packets out -/

/-- `ip_out`. -/
def ipOut (netif : Netif) (turns : Nat) (dstAddr : IpAddr) (proto : Int) (len : UInt16) : Net Int := do
  setByte 0 0x45
  setByte 1 0
  setShort 2 len
  setShort 4 0
  setShort 6 0
  setByte 8 64
  (if proto > -1 then setByte 9 (UInt8.ofNat (proto % 256).toNat) else pure ())
  setAddr 12 netif.ip
  setAddr 16 dstAddr
  setShort 10 0
  let sum ← checksum turns 0 20
  setShort 10 sum
  send netif len

/-- `udp_out`. -/
def udpOut (netif : Netif) (turns : Nat) (dstAddr : IpAddr) (srcPort dstPort len : UInt16) : Net Int := do
  setShort 20 srcPort
  setShort 22 dstPort
  setShort 24 len
  setShort 26 0
  setAddr 12 netif.ip
  setAddr 16 dstAddr
  let chksum ← udpchksum turns len
  setShort 26 chksum
  ipOut netif turns dstAddr 17 (len + 20)

/-- `icmp_echo_request`. `icmp` points to `struct ip_icmp_s`, which has 28 bytes. -/
def icmpEchoRequest (netif : Netif) (turns : Nat) (dstAddr : IpAddr) : Net Int := do
  setByte 20 8
  setByte 21 0
  setShort 22 0
  setShort 24 0x9669
  setShort 26 1
  -- memset(icmp + sizeof(struct ip_icmp_s), 0x55, 16)
  setBytes (28 * 28) (List.replicate 16 0x55)
  let chksum ← checksum turns 20 (8 + 16)
  setShort 22 chksum
  let val ← ipOut netif turns dstAddr 1 (28 + 16)
  pure (val % 2 ^ 16)

/-- `icmp_echo_reply`. -/
def icmpEchoReply (netif : Netif) (turns : Nat) (len : UInt16) : Net Int := do
  let type ← getByte 20
  if type = 8 then do
    setByte 20 0
    let chksum ← getShort 22
    -- ICMP_ECHO << 8 is 0x800
    let chksum := if chksum > 0xffff - 0x800 then chksum + (0x800 + 1) else chksum + 0x800
    setShort 22 chksum
    let dstAddr ← getAddr 12
    let val ← ipOut netif turns dstAddr (-1) len
    pure (val % 2 ^ 16)
  else if type = 0 then pure 0
  else pure (-1)

/-! ## Packets in -/

/-- The checksum test of `udp_in`: whether the datagram is refused. -/
def udpRefused (turns : Nat) (chksum datalen : UInt16) : Net Bool :=
  if chksum ≠ 0 then do
    setShort 26 0
    let sum ← udpchksum turns datalen
    pure (chksum ≠ sum)
  else pure false

/-- The rest of `udp_in`, for a datagram that is not refused. -/
def udpDeliver (netif : Netif) (callbacks : Callbacks) (turns : Nat) (datalen : UInt16) : Net Int := do
  let srcPort ← getShort 20
  let dstPort ← getShort 22
  if dstPort = 7 then do
    let dstAddr ← getAddr 12
    let _ ← udpOut netif turns dstAddr dstPort srcPort datalen
    pure datalen.toNat
  else if dstPort = 9 then pure datalen.toNat
  else call callbacks.udp

/-- `udp_in`. -/
def udpIn (netif : Netif) (callbacks : Callbacks) (turns : Nat) : Net Int := do
  let chksum ← getShort 26
  let datalen ← getShort 24
  let refused ← udpRefused turns chksum datalen
  if refused then pure (-1) else udpDeliver netif callbacks turns datalen

/-- The protocol switch of `ip_in`. -/
def ipDispatch (netif : Netif) (callbacks : Callbacks) (turns : Nat) (len : UInt16) : Net Int := do
  let proto ← getByte 9
  if proto = 1 then icmpEchoReply netif turns len
  else if proto = 17 then udpIn netif callbacks turns
  else call callbacks.ip

/-- `ip_in`. -/
def ipIn (netif : Netif) (callbacks : Callbacks) (turns : Nat) (dstAddr : IpAddr) (len : UInt16) : Net Int := do
  let ver ← getByte 0
  if ver ≠ 0x45 then pure (-1)
  else do
    let flagsOff ← getShort 6
    if flagsOff &&& (0x2000 ||| 0x1fff) ≠ 0 then pure (-1)
    else do
      let ttl ← getByte 8
      if ttl = 0 then pure (-1)
      else do
        let addr ← getAddr 16
        if addr ≠ dstAddr ∧ ¬ addr.isBroadcast netif.netmask ∧ ¬ addr.isMulticast then pure (-1)
        else do
          let chksum ← getShort 10
          setShort 10 0
          let sum ← checksum turns 0 20
          if chksum ≠ sum then pure (-1)
          else do
            setShort 10 chksum
            ipDispatch netif callbacks turns len

end Net

/-- What `net_recv` returns for a frame with an IP packet: the length its header gives. -/
def ipLen (bytes : Nat → UInt8) : UInt16 := short (bytes 2) (bytes 3)

end UcxArinc
