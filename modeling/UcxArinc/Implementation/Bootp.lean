import UcxArinc.Implementation.Inet

set_option autoImplicit false

/-! # BOOTP replies

`bootp_handle_reply` of `net/inet/bootp.c`. The frame is what is in memory from `frame` on, whatever has been
received of it; offsets count from there. -/

namespace UcxArinc

namespace Bootp

/-! ## Offsets in `struct eth_ip_udp_bootp_s` -/

/-- `bootp`, behind the headers of Ethernet, IP and UDP. -/
def bootp : Nat := 14 + 20 + 8

def bpOp : Nat := bootp
def bpHtype : Nat := bootp + 1
def bpXid : Nat := bootp + 4
def bpYiaddr : Nat := bootp + 16
def bpVend : Nat := bootp + 236

/-- Behind the 64 bytes of `bp_vend`. -/
def bpVendEnd : Nat := bpVend + 64

/-- `replycookie`. -/
def replycookie : List UInt8 := [0x63, 0x82, 0x53, 0x63]

/-- The addresses of `struct netif_config_s`. -/
structure Addrs where
  ip : IpAddr
  netmask : IpAddr
  gateway : IpAddr
  deriving DecidableEq, Repr

/-- What the walk over the options has done. -/
structure Walk where
  addrs : Addrs
  /-- The bytes it has read. -/
  read : List Nat
  /-- Where it has found an option, and where it has gone on from there. -/
  options : List (Nat × Nat)

/-- Four bytes of the frame. -/
def addrAt (frame : Nat → UInt8) (offset : Nat) : IpAddr :=
  ⟨frame offset, frame (offset + 1), frame (offset + 2), frame (offset + 3)⟩

/-- The `switch` of the walk. -/
def applyOption (frame : Nat → UInt8) (ptr : Nat) (s : Walk) : Walk :=
  if frame ptr = 1 then
    { s with
      addrs := { s.addrs with netmask := addrAt frame (ptr + 2) }
      read := s.read ++ [ptr + 2, ptr + 3, ptr + 4, ptr + 5] }
  else if frame ptr = 3 then
    { s with
      addrs := { s.addrs with gateway := addrAt frame (ptr + 2) }
      read := s.read ++ [ptr + 2, ptr + 3, ptr + 4, ptr + 5] }
  else s

/-- `ptr + ptr[1] + 2`. -/
def nextOption (frame : Nat → UInt8) (ptr : Nat) : Nat := ptr + (frame (ptr + 1)).toNat + 2

/-- `while (*ptr != TAG_END)`, with so many turns at most. -/
def walk (frame : Nat → UInt8) : Nat → Nat → Walk → Option Walk
  | 0, _, _ => none
  | turns + 1, ptr, s =>
    let s := { s with read := s.read ++ [ptr] }
    if frame ptr = 255 then some s
    else
      let s := applyOption frame ptr s
      walk frame turns (nextOption frame ptr)
        { s with read := s.read ++ [ptr + 1], options := s.options ++ [(ptr, nextOption frame ptr)] }

/-- The checks before the address is taken. -/
def accepts (tempXid : List UInt8) (frame : Nat → UInt8) : Bool :=
  frame bpOp = 2 && frame bpHtype = 1 &&
    (List.range 4).all fun i => tempXid[i]? = some (frame (bpXid + i)) && replycookie[i]? = some (frame (bpVend + i))

/-- `bootp_handle_reply`, with so many options at most. -/
def bootpHandleReply (turns : Nat) (tempXid : List UInt8) (frame : Nat → UInt8) (addrs : Addrs) :
    Option (Nat × Walk) :=
  if accepts tempXid frame then
    (walk frame turns (bpVend + 4) ⟨{ addrs with ip := addrAt frame bpYiaddr }, [], []⟩).map fun s => (1, s)
  else some (0, ⟨addrs, [], []⟩)

end Bootp

end UcxArinc
