import UcxArinc.Implementation.Inet

set_option autoImplicit false

/-! # The ARP cache

`arp_update` and `arp_check` of `net/inet/arp.c`. `memcmp` and `memcpy` of an address are those of its four
or six bytes. -/

namespace UcxArinc

/-- `uint8_t mac[6]`. -/
structure MacAddr where
  b0 : UInt8
  b1 : UInt8
  b2 : UInt8
  b3 : UInt8
  b4 : UInt8
  b5 : UInt8
  deriving DecidableEq, Repr

/-- `struct arp_entry_s`. -/
structure ArpEntry where
  ip : IpAddr
  mac : MacAddr
  deriving DecidableEq, Repr

/-- `ARP_CACHE_SIZE`. -/
def arpCacheSize : Nat := 16

/-- `arp_cache` and `arp_index`. -/
structure ArpCache where
  entries : Nat → ArpEntry
  index : Nat

namespace ArpCache

/-- Before the first call. -/
def initial : ArpCache := ⟨fun _ => ⟨⟨0, 0, 0, 0⟩, ⟨0, 0, 0, 0, 0, 0⟩⟩, 0⟩

/-- The loop that looks for an address, with the turns left and `i`. -/
def findEntry (cache : ArpCache) (ip : IpAddr) : Nat → Nat → Nat
  | 0, i => i
  | turns + 1, i => if ip = (cache.entries i).ip then i else cache.findEntry ip turns (i + 1)

/-- `arp_update`. -/
def arpUpdate (cache : ArpCache) (ip : IpAddr) (mac : MacAddr) : ArpCache × Int :=
  let i := cache.findEntry ip arpCacheSize 0
  if i < arpCacheSize then
    ({ cache with entries := fun k => if k = i then ⟨(cache.entries i).ip, mac⟩ else cache.entries k }, 1)
  else
    ({ entries := fun k => if k = cache.index then ⟨ip, mac⟩ else cache.entries k
       index := (cache.index + 1) &&& (arpCacheSize - 1) }, 0)

/-- `arp_check`, with what it leaves in `mac`. -/
def arpCheck (cache : ArpCache) (ip : IpAddr) (mac : MacAddr) : Int × MacAddr :=
  let i := cache.findEntry ip arpCacheSize 0
  if i < arpCacheSize then (1, (cache.entries i).mac) else (0, mac)

/-- A call. -/
inductive Call
  | update (ip : IpAddr) (mac : MacAddr)
  | check (ip : IpAddr) (mac : MacAddr)
  deriving DecidableEq, Repr

/-- One call, and what it returns. -/
def step (cache : ArpCache) : Call → ArpCache × Int
  | .update ip mac => cache.arpUpdate ip mac
  | .check ip mac => (cache, (cache.arpCheck ip mac).1)

/-- Calls one after the other, each with what it returns. -/
def run (cache : ArpCache) : List Call → ArpCache × List (Call × Int)
  | [] => (cache, [])
  | call :: calls =>
    let rest := (cache.step call).1.run calls
    (rest.1, (call, (cache.step call).2) :: rest.2)

end ArpCache

end UcxArinc
