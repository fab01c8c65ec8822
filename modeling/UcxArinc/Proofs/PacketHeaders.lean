import Mathlib.Tactic.IntervalCases
import UcxArinc.Implementation.Inet
import UcxArinc.Library.OnesComplement

set_option autoImplicit false

/-! # What the functions of the network stack do to a packet

For each function: what it returns, how far it reads and writes, and the bytes it leaves. The checksums are
ones' complement sums; the loop of `udpchksum` ends unless the length is too long for its counter. -/

namespace UcxArinc

open Cells OnesComplement

/-! ## Bytes -/

variable {s : Packet} {bytes : Nat → UInt8} {offset count i : Nat} {src : List UInt8}

theorem short_toNat (hi lo : UInt8) : (short hi lo).toNat = 256 * hi.toNat + lo.toNat := by
  have hhi := hi.toNat_lt
  have hlo := lo.toNat_lt
  rw [short, UInt16.toNat_ofNat']
  exact Nat.mod_eq_of_lt (by omega)

theorem shortBytes_toNat (v : UInt16) :
    256 * (UInt8.ofNat (v.toNat / 256)).toNat + (UInt8.ofNat v.toNat).toNat = v.toNat := by
  have hv := v.toNat_lt
  rw [UInt8.toNat_ofNat', UInt8.toNat_ofNat']
  omega

/-- A field is read as it was written. -/
theorem short_shortBytes (v : UInt16) : short (UInt8.ofNat (v.toNat / 256)) (UInt8.ofNat v.toNat) = v := by
  rw [← UInt16.toNat_inj, short_toNat, shortBytes_toNat]

theorem shortBytes_short (hi lo : UInt8) : shortBytes (short hi lo) = [hi, lo] := by
  have hhi := hi.toNat_lt
  have hlo := lo.toNat_lt
  have hdiv : (256 * hi.toNat + lo.toNat) / 256 = hi.toNat := by omega
  have hmod : (256 * hi.toNat + lo.toNat) % 256 = lo.toNat := by omega
  rw [shortBytes, short_toNat, hdiv, UInt8.ofNat_toNat, List.cons.injEq, List.cons.injEq]
  refine ⟨rfl, ?_, rfl⟩
  rw [← UInt8.toNat_inj, UInt8.toNat_ofNat']
  exact hmod

namespace Packet

@[simp] theorem read_bytes (s : Packet) (last : Nat) : (s.read last).bytes = s.bytes := rfl
@[simp] theorem read_readEnd (s : Packet) (last : Nat) : (s.read last).readEnd = max s.readEnd last := rfl
@[simp] theorem read_writeEnd (s : Packet) (last : Nat) : (s.read last).writeEnd = s.writeEnd := rfl
@[simp] theorem read_sent (s : Packet) (last : Nat) : (s.read last).sent = s.sent := rfl
@[simp] theorem write_bytes (s : Packet) (offset : Nat) (src : List UInt8) :
    (s.write offset src).bytes = put s.bytes offset src := rfl
@[simp] theorem write_readEnd (s : Packet) (offset : Nat) (src : List UInt8) :
    (s.write offset src).readEnd = s.readEnd := rfl
@[simp] theorem write_writeEnd (s : Packet) (offset : Nat) (src : List UInt8) :
    (s.write offset src).writeEnd = max s.writeEnd (offset + src.length) := rfl
@[simp] theorem write_sent (s : Packet) (offset : Nat) (src : List UInt8) :
    (s.write offset src).sent = s.sent := rfl

@[simp] theorem read_read (s : Packet) (a b : Nat) : (s.read a).read b = s.read (max a b) := by
  simp [read, Nat.max_assoc]

end Packet

namespace Net

/-! ## Steps -/

variable {α β : Type} {x : Net α} {a : α} {s' : Packet}

/-- A step that is known to end. -/
theorem bind_eq (h : x s = some (a, s')) (f : α → Net β) : (x >>= f) s = f a s' := by
  change ((x s).bind fun r => f r.1 r.2) = _
  rw [h]
  rfl

/-- A step that never ends. -/
theorem bind_none (h : x s = none) (f : α → Net β) : (x >>= f) s = none := by
  change ((x s).bind fun r => f r.1 r.2) = _
  rw [h]
  rfl

@[simp] theorem pure_eq (a : α) : (pure a : Net α) s = some (a, s) := rfl

@[simp] theorem getByte_bind (f : UInt8 → Net β) :
    (getByte offset >>= f) s = f (s.bytes offset) (s.read (offset + 1)) := rfl

@[simp] theorem getShort_bind (f : UInt16 → Net β) :
    (getShort offset >>= f) s = f (short (s.bytes offset) (s.bytes (offset + 1))) (s.read (offset + 2)) := rfl

@[simp] theorem getAddr_bind (f : IpAddr → Net β) :
    (getAddr offset >>= f) s = f ⟨s.bytes offset, s.bytes (offset + 1), s.bytes (offset + 2), s.bytes (offset + 3)⟩
      (s.read (offset + 4)) := rfl

@[simp] theorem setBytes_bind (f : Unit → Net β) : (setBytes offset src >>= f) s = f () (s.write offset src) := rfl

@[simp] theorem setByte_bind (v : UInt8) (f : Unit → Net β) :
    (setByte offset v >>= f) s = f () (s.write offset [v]) := rfl

@[simp] theorem setShort_bind (v : UInt16) (f : Unit → Net β) :
    (setShort offset v >>= f) s = f () (s.write offset (shortBytes v)) := rfl

@[simp] theorem setAddr_bind (addr : IpAddr) (f : Unit → Net β) :
    (setAddr offset addr >>= f) s = f () (s.write offset addr.bytes) := rfl

/-! ## Checksums -/

/-- The loop sums `k + 1` words, if its counter does not overflow before the limit. -/
theorem sumLoop_run {width limit turns ptr sum k : Nat} (hgo : i + 2 * k < limit) (hstop : limit ≤ i + 2 * (k + 1))
    (hwidth : i + 2 * (k + 1) < 2 ^ width) (hturns : k + 1 < turns) (s : Packet) :
    sumLoop width limit turns i ptr sum s
      = some ((ptr + 2 * (k + 1), (sum + (words (slice s.bytes ptr (2 * (k + 1)))).sum) % 2 ^ 32),
          s.read (ptr + 2 * (k + 1))) := by
  induction k generalizing i ptr sum turns s with
  | zero =>
      obtain ⟨n, rfl⟩ : ∃ n, turns = n + 2 := ⟨turns - 2, by omega⟩
      have hnext : (i + 2) % 2 ^ width = i + 2 := Nat.mod_eq_of_lt (by omega)
      rw [sumLoop, if_pos (by omega), getShort_bind, hnext, sumLoop, if_neg (by omega), pure_eq, short_toNat]
      simp [slice, List.range_succ, words]
  | succ k ih =>
      obtain ⟨n, rfl⟩ : ∃ n, turns = n + 1 := ⟨turns - 1, by omega⟩
      have hnext : (i + 2) % 2 ^ width = i + 2 := Nat.mod_eq_of_lt (by omega)
      have hslice : slice s.bytes ptr (2 * (k + 1 + 1))
          = s.bytes ptr :: s.bytes (ptr + 1) :: slice s.bytes (ptr + 2) (2 * (k + 1)) := by
        rw [Nat.mul_add 2 (k + 1) 1, slice_succ, slice_succ]
      have hmax : max (ptr + 2) (ptr + 2 + 2 * (k + 1)) = ptr + 2 * (k + 1 + 1) := by omega
      rw [sumLoop, if_pos (by omega), getShort_bind, hnext,
        ih (by omega) (by omega) (by omega) (by omega) (s.read (ptr + 2)), Packet.read_read, hmax,
        Packet.read_bytes, hslice, words_cons_cons, List.sum_cons, short_toNat, Nat.mod_add_mod]
      have hptr : ptr + 2 + 2 * (k + 1) = ptr + 2 * (k + 1 + 1) := by omega
      rw [hptr, Nat.add_assoc sum]

/-- With a limit that its counter cannot reach the loop never ends. -/
theorem sumLoop_endless {limit : Nat} (hlimit : 65535 ≤ limit) (turns : Nat) {ptr sum : Nat} (heven : i % 2 = 0)
    (hi : i < 2 ^ 16) (s : Packet) : sumLoop 16 limit turns i ptr sum s = none := by
  induction turns generalizing i ptr sum s with
  | zero => rfl
  | succ turns ih =>
      rw [sumLoop, if_pos (by omega), getShort_bind]
      exact ih (by omega) (Nat.mod_lt _ (by norm_num)) _

/-- Two foldings take all carries of a sum round. -/
theorem fold_residue {sum t : Nat} (h : sum < 2 ^ 32) (ht : t = sum / 65536 + sum % 65536) :
    (t + t / 65536) % 65536 = residue 65535 sum := by
  rcases Nat.eq_zero_or_pos sum with rfl | hpos
  · rw [ht]
    rfl
  · rw [residue_of_pos hpos]
    have hsum : sum = 65535 * (sum / 65536) + t := by omega
    rcases Nat.lt_or_ge t 65536 with hlt | hge
    · rcases Nat.eq_zero_or_pos (t - 65535) with hsmall | hbig
      · have hmod : (sum - 1) % 65535 = t - 1 := by omega
        omega
      · omega
    · have hmod : (sum - 1) % 65535 = t - 65535 - 1 := by omega
      omega

/-- The complement of the sum with its carries taken round. -/
theorem fold_toNat {sum : Nat} (h : sum < 2 ^ 32) : (fold sum).toNat = 65535 - residue 65535 sum := by
  have hshift : ∀ n, n >>> 16 = n / 65536 := fun n => Nat.shiftRight_eq_div_pow n 16
  have hmask : ∀ n, n &&& 0xffff = n % 65536 := fun n => Nat.and_two_pow_sub_one_eq_mod n 16
  obtain ⟨t, ht⟩ : ∃ t, t = sum / 65536 + sum % 65536 := ⟨_, rfl⟩
  have hlt : t < 131072 := by omega
  rw [fold, UInt16.toNat_ofNat', hshift, hmask, hshift, ← ht, Nat.mod_eq_of_lt (by omega : t < 2 ^ 32),
    Nat.mod_eq_of_lt (by omega : t + t / 65536 < 2 ^ 32), ← fold_residue h ht]
  omega

/-- `& 0xff00` keeps the first byte of a field. -/
theorem and_ff00 (hi lo : UInt8) : (short hi lo &&& 0xff00).toNat = 256 * hi.toNat := by
  have hhi : hi.toNat < 2 ^ 8 := hi.toNat_lt
  have hlo : lo.toNat < 2 ^ 8 := lo.toNat_lt
  have hmask : (0xff00 : UInt16).toNat = 2 ^ 8 * (2 ^ 8 - 1) := rfl
  rw [UInt16.toNat_and, short_toNat, hmask]
  refine Nat.eq_of_testBit_eq fun j => ?_
  have hsum := Nat.testBit_two_pow_mul_add hi.toNat hlo j
  rw [Nat.testBit_and, hsum, Nat.testBit_two_pow_mul, Nat.testBit_two_pow_sub_one, Nat.testBit_two_pow_mul (i := 8)]
  rcases Nat.lt_or_ge j 8 with hj | hj
  · simp [Nat.not_le.mpr hj]
  · rcases Nat.lt_or_ge (j - 8) 8 with hk | hk
    · simp [hj, hk]
    · have hzero : hi.toNat.testBit (j - 8) = false :=
        Nat.testBit_lt_two_pow (Nat.lt_of_lt_of_le hhi (Nat.pow_le_pow_right (by norm_num) hk))
      simp [hzero, Nat.not_lt.mpr hj]

theorem addLast_even {len : Nat} (h : len % 2 = 0) (ptr sum : Nat) (s : Packet) :
    addLast len ptr sum s = some (sum, s) := by
  rw [addLast, if_neg (by omega)]
  rfl

/-- Of an odd length the last byte counts as the first of two; both are read. -/
theorem addLast_odd {len : Nat} (h : len % 2 = 1) (ptr sum : Nat) (s : Packet) :
    addLast len ptr sum s = some ((sum + 256 * (s.bytes ptr).toNat) % 2 ^ 32, s.read (ptr + 2)) := by
  rw [addLast, if_pos h, getShort_bind, and_ff00]
  rfl

/-- `checksum` of an even number of bytes. -/
theorem checksum_run {turns buf len k : Nat} (hlen : len = 2 * (k + 1)) (hk : k < 2 ^ 15) (hturns : k + 1 < turns)
    (s : Packet) :
    checksum turns buf len s = some (fold (words (slice s.bytes buf len)).sum, s.read (buf + len)) := by
  have hlimit : (len + (2 ^ 32 - 1)) % 2 ^ 32 = 2 * k + 1 := by omega
  have hloop : sumLoop 32 (2 * k + 1) turns 0 buf 0 s = _ :=
    sumLoop_run (by omega) (by omega) (by omega) hturns s
  have hsum := sum_words_le (slice s.bytes buf len)
  rw [length_slice] at hsum
  rw [← hlen, Nat.zero_add, Nat.mod_eq_of_lt (by omega)] at hloop
  rw [checksum, hlimit, bind_eq hloop]
  exact bind_eq (addLast_even (by omega) _ _ _) _

/-- `udpchksum` of a length that its counter can reach. An odd length makes it read a byte more. -/
theorem udpchksum_run {turns : Nat} {len : UInt16} (hlen : len.toNat ≤ 65527) (hturns : 32768 ≤ turns) (s : Packet) :
    udpchksum turns len s
      = some (fold (17 + len.toNat + (words (slice s.bytes 12 (len.toNat + 8))).sum),
          s.read (20 + len.toNat + len.toNat % 2)) := by
  obtain ⟨k, hk⟩ : ∃ k, k = len.toNat / 2 + 3 := ⟨_, rfl⟩
  have hloop : sumLoop 16 (len.toNat + 8 - 1) turns 0 12 (17 + len.toNat) s = _ :=
    sumLoop_run (by omega) (by omega) (by omega : 0 + 2 * (k + 1) < _) (by omega) s
  have hsum := sum_words_le (slice s.bytes 12 (len.toNat + 8))
  rw [length_slice] at hsum
  have hbound : 17 + len.toNat + (words (slice s.bytes 12 (len.toNat + 8))).sum < 2 ^ 32 := by omega
  rw [udpchksum, bind_eq hloop]
  rcases Nat.mod_two_eq_zero_or_one len.toNat with heven | hodd
  · have hcount : 2 * (k + 1) = len.toNat + 8 := by omega
    have hlast : 12 + (len.toNat + 8) = 20 + len.toNat + len.toNat % 2 := by omega
    rw [hcount, hlast, Nat.mod_eq_of_lt hbound]
    exact bind_eq (addLast_even heven _ _ _) _
  · have hcount : len.toNat + 8 = 2 * (k + 1) + 1 := by omega
    have hsplit : slice s.bytes 12 (len.toNat + 8)
        = slice s.bytes 12 (2 * (k + 1)) ++ [s.bytes (12 + 2 * (k + 1))] := by
      rw [hcount, slice_add, slice_succ]
      rfl
    have hwords : (words (slice s.bytes 12 (len.toNat + 8))).sum
        = (words (slice s.bytes 12 (2 * (k + 1)))).sum + 256 * (s.bytes (12 + 2 * (k + 1))).toNat := by
      rw [hsplit, words_append (by rw [length_slice]; omega), List.sum_append, words, List.sum_singleton]
    have hmax : max (12 + 2 * (k + 1)) (12 + 2 * (k + 1) + 2) = 20 + len.toNat + len.toNat % 2 := by omega
    refine (bind_eq (addLast_odd hodd _ _ _) _).trans ?_
    rw [Packet.read_read, hmax, Packet.read_bytes, Nat.mod_add_mod, Nat.add_assoc (17 + _), ← hwords,
      Nat.mod_eq_of_lt hbound]
    rfl

theorem udpchksum_endless {len : UInt16} (hlen : 65528 ≤ len.toNat) (turns : Nat) (s : Packet) :
    udpchksum turns len s = none :=
  bind_none (sumLoop_endless (by omega) turns rfl (by norm_num) s) _

/-! ## Headers -/

/-- The IP header that `ip_out` builds. -/
def ipHeader (netif : Netif) (dstAddr : IpAddr) (proto : UInt8) (len chksum : UInt16) : List UInt8 :=
  [0x45, 0] ++ shortBytes len ++ [0, 0, 0, 0, 64, proto] ++ shortBytes chksum ++ netif.ip.bytes ++ dstAddr.bytes

/-- The checksum of that header. -/
def ipChksum (netif : Netif) (dstAddr : IpAddr) (proto : UInt8) (len : UInt16) : UInt16 :=
  fold (words (ipHeader netif dstAddr proto len 0)).sum

/-- The protocol that a header gets: the old one where none is given. -/
def ipProto (bytes : Nat → UInt8) (proto : Int) : UInt8 :=
  if proto > -1 then UInt8.ofNat (proto % 256).toNat else bytes 9

/-- What `ip_out` leaves: a new header, and a packet handed over. -/
def ipSent (netif : Netif) (dstAddr : IpAddr) (proto : Int) (len : UInt16) (s : Packet) : Packet :=
  let header := ipHeader netif dstAddr (ipProto s.bytes proto) len (ipChksum netif dstAddr (ipProto s.bytes proto) len)
  ⟨put s.bytes 0 header, max s.readEnd 20, max s.writeEnd 20, slice (put s.bytes 0 header) 0 len.toNat :: s.sent⟩

theorem put_chksum (bytes : Nat → UInt8) (netif : Netif) (dstAddr : IpAddr) (proto : UInt8) (len old chksum : UInt16) :
    put (put bytes 0 (ipHeader netif dstAddr proto len old)) 10 (shortBytes chksum)
      = put bytes 0 (ipHeader netif dstAddr proto len chksum) := by
  funext i
  rcases Nat.lt_or_ge i 20 with hi | hi
  · interval_cases i <;> rfl
  · rw [put_of_ge (by simpa [shortBytes] using (by omega : 10 + 2 ≤ i)), put_of_ge hi, put_of_ge hi]

/-- The end of `ip_out`, with everything but the checksum in the header. -/
theorem ipOut_end {turns : Nat} (hturns : 10 < turns) {netif : Netif} {dstAddr : IpAddr} {proto : Int} {len : UInt16}
    (hbytes : s'.bytes = put s.bytes 0 (ipHeader netif dstAddr (ipProto s.bytes proto) len 0))
    (hread : s'.readEnd = s.readEnd) (hwrite : s'.writeEnd = max s.writeEnd 20) (hsent : s'.sent = s.sent) :
    (checksum turns 0 20 >>= fun sum => do
      setShort 10 sum
      send netif len) s'
      = some (netif.netSend (slice (ipSent netif dstAddr proto len s).bytes 0 len.toNat),
          ipSent netif dstAddr proto len s) := by
  have hheader : slice s'.bytes 0 20 = ipHeader netif dstAddr (ipProto s.bytes proto) len 0 := by
    rw [hbytes]
    exact slice_put _ _ _
  have hput := put_chksum s.bytes netif dstAddr (ipProto s.bytes proto) len 0
    (ipChksum netif dstAddr (ipProto s.bytes proto) len)
  rw [bind_eq (checksum_run (k := 9) rfl (by norm_num) hturns s'), setShort_bind, hheader]
  change some (netif.netSend (slice (put s'.bytes 10 (shortBytes _)) 0 _), Packet.mk (put s'.bytes 10 (shortBytes _))
    (max s'.readEnd (0 + 20)) (max s'.writeEnd (10 + 2)) (slice (put s'.bytes 10 (shortBytes _)) 0 _ :: s'.sent)) = _
  have hend : max (max s.writeEnd 20) (10 + 2) = max s.writeEnd 20 := by omega
  rw [hbytes, hread, hwrite, hsent, hend]
  unfold ipChksum at hput
  rw [hput]
  rfl

theorem ipOut_run {turns : Nat} (hturns : 10 < turns) (netif : Netif) (dstAddr : IpAddr) (proto : Int) (len : UInt16)
    (s : Packet) :
    ipOut netif turns dstAddr proto len s
      = some (netif.netSend (slice (ipSent netif dstAddr proto len s).bytes 0 len.toNat),
          ipSent netif dstAddr proto len s) := by
  have hbehind : ∀ {bytes : Nat → UInt8} {i o : Nat} {src : List UInt8}, 20 ≤ i → o + src.length ≤ 20 →
      put bytes o src i = bytes i := fun hi ho => put_of_ge (Nat.le_trans ho hi)
  unfold ipOut
  by_cases hproto : proto > -1
  · simp only [if_pos hproto, setByte_bind, setShort_bind, setAddr_bind]
    refine ipOut_end hturns ?_ rfl ?_ rfl
    · funext i
      rw [ipProto, if_pos hproto]
      rcases Nat.lt_or_ge i 20 with hi | hi
      · interval_cases i <;> rfl
      · simp [hbehind hi, shortBytes, IpAddr.bytes, ipHeader]
    · simp [shortBytes, IpAddr.bytes]
  · simp only [if_neg hproto, pure_bind, setByte_bind, setShort_bind, setAddr_bind]
    refine ipOut_end hturns ?_ rfl ?_ rfl
    · funext i
      rw [ipProto, if_neg hproto]
      rcases Nat.lt_or_ge i 20 with hi | hi
      · interval_cases i <;> rfl
      · simp [hbehind hi, shortBytes, IpAddr.bytes, ipHeader]
    · simp [shortBytes, IpAddr.bytes]

/-- The header that `udp_out` builds. -/
def udpHeader (srcPort dstPort len chksum : UInt16) : List UInt8 :=
  shortBytes srcPort ++ shortBytes dstPort ++ shortBytes len ++ shortBytes chksum

/-- What `udpchksum` computes: the two addresses, in front of the header, stand for a pseudo header. -/
def udpSum (bytes : Nat → UInt8) (len : UInt16) : UInt16 :=
  fold (17 + len.toNat + (words (slice bytes 12 (len.toNat + 8))).sum)

/-- The addresses and the header, with some checksum. -/
def udpBytes (netif : Netif) (dstAddr : IpAddr) (srcPort dstPort len chksum : UInt16) (bytes : Nat → UInt8) :
    Nat → UInt8 :=
  put bytes 12 (netif.ip.bytes ++ dstAddr.bytes ++ udpHeader srcPort dstPort len chksum)

/-- The checksum that `udp_out` puts in. -/
def udpChksum (netif : Netif) (dstAddr : IpAddr) (srcPort dstPort len : UInt16) (bytes : Nat → UInt8) : UInt16 :=
  udpSum (udpBytes netif dstAddr srcPort dstPort len 0 bytes) len

/-- What `udp_out` hands to `ip_out`. -/
def udpBuilt (netif : Netif) (dstAddr : IpAddr) (srcPort dstPort len : UInt16) (s : Packet) : Packet :=
  ⟨udpBytes netif dstAddr srcPort dstPort len (udpChksum netif dstAddr srcPort dstPort len s.bytes) s.bytes,
    max s.readEnd (20 + len.toNat + len.toNat % 2), max s.writeEnd 28, s.sent⟩

/-- What `udp_out` leaves. -/
def udpSent (netif : Netif) (dstAddr : IpAddr) (srcPort dstPort len : UInt16) (s : Packet) : Packet :=
  ipSent netif dstAddr 17 (len + 20) (udpBuilt netif dstAddr srcPort dstPort len s)

theorem udpOut_run {turns : Nat} {len : UInt16} (hlen : len.toNat ≤ 65527) (hturns : 32768 ≤ turns) (netif : Netif)
    (dstAddr : IpAddr) (srcPort dstPort : UInt16) (s : Packet) :
    udpOut netif turns dstAddr srcPort dstPort len s
      = some (netif.netSend (slice (udpSent netif dstAddr srcPort dstPort len s).bytes 0 (len + 20).toNat),
          udpSent netif dstAddr srcPort dstPort len s) := by
  obtain ⟨s', hs'⟩ : ∃ s', s' = ((((((s.write 20 (shortBytes srcPort)).write 22 (shortBytes dstPort)).write 24
      (shortBytes len)).write 26 (shortBytes 0)).write 12 netif.ip.bytes).write 16 dstAddr.bytes) := ⟨_, rfl⟩
  have hbehind : ∀ {bytes : Nat → UInt8} {i o : Nat} {src : List UInt8}, 28 ≤ i → o + src.length ≤ 28 →
      put bytes o src i = bytes i := fun hi ho => put_of_ge (Nat.le_trans ho hi)
  have hfront : ∀ {bytes : Nat → UInt8} {i o : Nat} {src : List UInt8}, i < 12 → 12 ≤ o →
      put bytes o src i = bytes i := fun hi ho => put_of_lt (Nat.lt_of_lt_of_le hi ho)
  have hbytes : s'.bytes = udpBytes netif dstAddr srcPort dstPort len 0 s.bytes := by
    funext i
    rw [hs', udpBytes]
    rcases Nat.lt_or_ge i 12 with hi | hi
    · simp [hfront hi]
    · rcases Nat.lt_or_ge i 28 with hi' | hi'
      · interval_cases i <;> rfl
      · simp [hbehind hi', shortBytes, IpAddr.bytes, udpHeader]
  have hput : ∀ chksum, put (udpBytes netif dstAddr srcPort dstPort len 0 s.bytes) 26 (shortBytes chksum)
      = udpBytes netif dstAddr srcPort dstPort len chksum s.bytes := by
    intro chksum
    funext i
    unfold udpBytes
    rcases Nat.lt_or_ge i 12 with hi | hi
    · simp [hfront hi]
    · rcases Nat.lt_or_ge i 28 with hi' | hi'
      · interval_cases i <;> rfl
      · simp [hbehind hi', shortBytes, IpAddr.bytes, udpHeader]
  have hbuilt : (s'.read (20 + len.toNat + len.toNat % 2)).write 26 (shortBytes (udpSum s'.bytes len))
      = udpBuilt netif dstAddr srcPort dstPort len s := by
    have hread : s'.readEnd = s.readEnd := by rw [hs']; rfl
    have hsent : s'.sent = s.sent := by rw [hs']; rfl
    have hwrite : max s'.writeEnd 28 = max s.writeEnd 28 := by
      rw [hs']
      simp [shortBytes, IpAddr.bytes]
    unfold udpBuilt udpChksum Packet.write Packet.read
    simp only [hbytes, hput, hread, hsent]
    rw [← hwrite]
    rfl
  unfold udpOut
  simp only [setShort_bind, setAddr_bind]
  rw [← hs', bind_eq (udpchksum_run hlen hturns s'), setShort_bind]
  refine (ipOut_run (by omega) netif dstAddr 17 (len + 20) _).trans ?_
  have hsum : fold (17 + len.toNat + (words (slice s'.bytes 12 (len.toNat + 8))).sum) = udpSum s'.bytes len := rfl
  rw [hsum, hbuilt]
  rfl

theorem udpOut_endless {len : UInt16} (hlen : 65528 ≤ len.toNat) (netif : Netif) (turns : Nat) (dstAddr : IpAddr)
    (srcPort dstPort : UInt16) (s : Packet) : udpOut netif turns dstAddr srcPort dstPort len s = none := by
  unfold udpOut
  simp only [setShort_bind, setAddr_bind]
  exact bind_none (udpchksum_endless hlen turns _) _

/-- The checksum of an echo reply. -/
def replyChksum (chksum : UInt16) : UInt16 :=
  if chksum > 0xffff - 0x800 then chksum + (0x800 + 1) else chksum + 0x800

/-- What `icmp_echo_reply` hands to `ip_out`. -/
def replyBuilt (s : Packet) : Packet :=
  ⟨put (put s.bytes 20 [0]) 22 (shortBytes (replyChksum (short (s.bytes 22) (s.bytes 23)))), max s.readEnd 24,
    max s.writeEnd 24, s.sent⟩

/-- The source address of a packet. -/
def packetSrc (bytes : Nat → UInt8) : IpAddr := ⟨bytes 12, bytes 13, bytes 14, bytes 15⟩

/-- What `icmp_echo_reply` leaves. -/
def replySent (netif : Netif) (len : UInt16) (s : Packet) : Packet :=
  ipSent netif (packetSrc s.bytes) (-1) len (replyBuilt s)

theorem icmpEchoReply_run {turns : Nat} (hturns : 10 < turns) (netif : Netif) (len : UInt16) (s : Packet)
    (htype : s.bytes 20 = 8) :
    icmpEchoReply netif turns len s
      = some (netif.netSend (slice (replySent netif len s).bytes 0 len.toNat) % 2 ^ 16, replySent netif len s) := by
  have hbuilt : ((((s.read (20 + 1)).write 20 [0]).read (22 + 2)).write 22
      (shortBytes (replyChksum (short (s.bytes 22) (s.bytes 23))))).read (12 + 4) = replyBuilt s := by
    exact Packet.ext rfl (by simp [replyBuilt]) (by simp [replyBuilt, shortBytes]) rfl
  unfold icmpEchoReply
  rw [getByte_bind, if_pos htype]
  simp only [setByte_bind, getShort_bind, setShort_bind, getAddr_bind]
  refine (bind_eq (ipOut_run hturns netif _ (-1) len _) _).trans ?_
  change some (netif.netSend (slice (ipSent netif (packetSrc s.bytes) (-1) len _).bytes 0 len.toNat) % 2 ^ 16, ipSent netif
    (packetSrc s.bytes) (-1) len (((((s.read (20 + 1)).write 20 [0]).read (22 + 2)).write 22
      (shortBytes (replyChksum (short (s.bytes 22) (s.bytes 23))))).read (12 + 4))) = _
  rw [hbuilt]
  rfl

theorem icmpEchoReply_other (turns : Nat) (netif : Netif) (len : UInt16) (s : Packet) (htype : s.bytes 20 ≠ 8) :
    icmpEchoReply netif turns len s = some (if s.bytes 20 = 0 then 0 else -1, s.read 21) := by
  rw [icmpEchoReply, getByte_bind, if_neg htype]
  by_cases hreply : s.bytes 20 = 0
  · rw [if_pos hreply, if_pos hreply]
    rfl
  · rw [if_neg hreply, if_neg hreply]
    rfl

/-- `icmp_echo_request` writes far behind its packet, which has 44 bytes. -/
theorem icmpEchoRequest_run {turns : Nat} (hturns : 12 < turns) (netif : Netif) (dstAddr : IpAddr) (s : Packet) :
    ∃ val s', icmpEchoRequest netif turns dstAddr s = some (val, s') ∧ 800 ≤ s'.writeEnd := by
  unfold icmpEchoRequest
  simp only [setByte_bind, setShort_bind, setBytes_bind]
  rw [bind_eq (checksum_run (k := 11) rfl (by norm_num) hturns _), setShort_bind,
    bind_eq (ipOut_run (by omega) netif dstAddr 1 (28 + 16) _)]
  exact ⟨_, _, rfl, by simp [ipSent, shortBytes]⟩

/-! ## Packets in -/

/-- The destination address of a packet. -/
def packetDst (bytes : Nat → UInt8) : IpAddr := ⟨bytes 16, bytes 17, bytes 18, bytes 19⟩

/-- The test of the destination address in `ip_in`. -/
def Addressed (netif : Netif) (own addr : IpAddr) : Prop :=
  addr = own ∨ addr.isBroadcast netif.netmask ∨ addr.isMulticast

instance (netif : Netif) (own addr : IpAddr) : Decidable (Addressed netif own addr) :=
  inferInstanceAs (Decidable (_ ∨ _))

/-- The bits of a packet that is a fragment. -/
def fragment (bytes : Nat → UInt8) : UInt16 := short (bytes 6) (bytes 7) &&& (0x2000 ||| 0x1fff)

/-- The checksum that a header should have. -/
def headerSum (bytes : Nat → UInt8) : UInt16 := fold (words (slice (put bytes 10 [0, 0]) 0 20)).sum

variable {netif : Netif} {callbacks : Callbacks} {turns : Nat} {own : IpAddr} {len : UInt16}

theorem not_addressed {addr : IpAddr} :
    (addr ≠ own ∧ ¬ addr.isBroadcast netif.netmask ∧ ¬ addr.isMulticast) ↔ ¬ Addressed netif own addr := by
  unfold Addressed
  tauto

theorem ipIn_version (h : s.bytes 0 ≠ 0x45) : ipIn netif callbacks turns own len s = some (-1, s.read 1) := by
  rw [ipIn, getByte_bind, if_pos h]
  rfl

theorem ipIn_fragment (hver : s.bytes 0 = 0x45) (h : fragment s.bytes ≠ 0) :
    ipIn netif callbacks turns own len s = some (-1, s.read 8) := by
  have hread : (s.read 1).read 8 = s.read 8 := Packet.read_read s 1 8
  rw [ipIn, getByte_bind, if_neg (not_not.mpr hver), getShort_bind]
  change (if fragment s.bytes ≠ 0 then _ else _ : Net Int) ((s.read 1).read 8) = _
  rw [if_pos h, hread]
  rfl

theorem ipIn_ttl (hver : s.bytes 0 = 0x45) (hwhole : fragment s.bytes = 0) (h : s.bytes 8 = 0) :
    ipIn netif callbacks turns own len s = some (-1, s.read 9) := by
  have hread : ((s.read 1).read 8).read 9 = s.read 9 := by rw [Packet.read_read, Packet.read_read]; rfl
  rw [ipIn, getByte_bind, if_neg (not_not.mpr hver), getShort_bind]
  change (if fragment s.bytes ≠ 0 then _ else _ : Net Int) ((s.read 1).read 8) = _
  rw [if_neg (not_not.mpr hwhole), getByte_bind]
  change (if s.bytes 8 = 0 then _ else _ : Net Int) (((s.read 1).read 8).read 9) = _
  rw [if_pos h, hread]
  rfl

/-- Up to the destination address. -/
theorem ipIn_alive (hver : s.bytes 0 = 0x45) (hwhole : fragment s.bytes = 0) (httl : s.bytes 8 ≠ 0) :
    ipIn netif callbacks turns own len s
      = (if ¬ Addressed netif own (packetDst s.bytes) then pure (-1)
        else do
          let chksum ← getShort 10
          setShort 10 0
          let sum ← checksum turns 0 20
          if chksum ≠ sum then pure (-1)
          else do
            setShort 10 chksum
            ipDispatch netif callbacks turns len : Net Int) (s.read 20) := by
  have hread : (((s.read 1).read 8).read 9).read 20 = s.read 20 := by simp only [Packet.read_read]; rfl
  rw [ipIn, getByte_bind, if_neg (not_not.mpr hver), getShort_bind]
  change (if fragment s.bytes ≠ 0 then _ else _ : Net Int) ((s.read 1).read 8) = _
  rw [if_neg (not_not.mpr hwhole), getByte_bind]
  change (if s.bytes 8 = 0 then _ else _ : Net Int) (((s.read 1).read 8).read 9) = _
  rw [if_neg httl, getAddr_bind]
  change (if packetDst s.bytes ≠ own ∧ ¬ (packetDst s.bytes).isBroadcast netif.netmask ∧ ¬ (packetDst s.bytes).isMulticast
    then _ else _ : Net Int) ((((s.read 1).read 8).read 9).read 20) = _
  simp only [not_addressed, hread]

theorem ipIn_address (hver : s.bytes 0 = 0x45) (hwhole : fragment s.bytes = 0) (httl : s.bytes 8 ≠ 0)
    (h : ¬ Addressed netif own (packetDst s.bytes)) :
    ipIn netif callbacks turns own len s = some (-1, s.read 20) := by
  rw [ipIn_alive hver hwhole httl, if_pos h]
  rfl

theorem put_put_short (bytes : Nat → UInt8) :
    put (put bytes 10 [0, 0]) 10 (shortBytes (short (bytes 10) (bytes 11))) = bytes := by
  funext i
  rw [shortBytes_short]
  rcases Nat.lt_or_ge i 10 with hi | hi
  · rw [put_of_lt hi, put_of_lt hi]
  · rcases Nat.lt_or_ge i 12 with hi' | hi'
    · interval_cases i <;> rfl
    · rw [put_of_ge hi', put_of_ge hi']

/-- Up to the protocol: the header is left as it was. -/
theorem ipIn_addressed (hver : s.bytes 0 = 0x45) (hwhole : fragment s.bytes = 0) (httl : s.bytes 8 ≠ 0)
    (haddr : Addressed netif own (packetDst s.bytes)) (hturns : 10 < turns) :
    ipIn netif callbacks turns own len s
      = if short (s.bytes 10) (s.bytes 11) = headerSum s.bytes
        then ipDispatch netif callbacks turns len ⟨s.bytes, max s.readEnd 20, max s.writeEnd 12, s.sent⟩
        else some (-1, ⟨put s.bytes 10 [0, 0], max s.readEnd 20, max s.writeEnd 12, s.sent⟩) := by
  rw [ipIn_alive hver hwhole httl, if_neg (not_not.mpr haddr), getShort_bind, setShort_bind,
    bind_eq (checksum_run (k := 9) rfl (by norm_num) hturns _)]
  have hzero : shortBytes 0 = [0, 0] := rfl
  change (if short (s.bytes 10) (s.bytes 11) ≠ headerSum s.bytes then _ else _ : Net Int)
    ((((s.read 20).read 12).write 10 (shortBytes 0)).read 20) = _
  have hstate : (((s.read 20).read 12).write 10 (shortBytes 0)).read 20
      = ⟨put s.bytes 10 [0, 0], max s.readEnd 20, max s.writeEnd 12, s.sent⟩ := by
    exact Packet.ext rfl (by simp) (by simp [hzero]) rfl
  rw [hstate]
  by_cases hsum : short (s.bytes 10) (s.bytes 11) = headerSum s.bytes
  · rw [if_neg (not_not.mpr hsum), if_pos hsum, setShort_bind]
    exact congrArg _ (Packet.ext (put_put_short s.bytes) rfl (by simp [shortBytes]) rfl)
  · rw [if_pos hsum, if_neg hsum]
    rfl

/-! ### Datagrams in -/

/-- The fields of a datagram's header. -/
def udpSrcPort (bytes : Nat → UInt8) : UInt16 := short (bytes 20) (bytes 21)
def udpDstPort (bytes : Nat → UInt8) : UInt16 := short (bytes 22) (bytes 23)
def udpLen (bytes : Nat → UInt8) : UInt16 := short (bytes 24) (bytes 25)
def udpField (bytes : Nat → UInt8) : UInt16 := short (bytes 26) (bytes 27)

/-- The checksum that a datagram should have. -/
def datagramSum (bytes : Nat → UInt8) : UInt16 := udpSum (put bytes 26 [0, 0]) (udpLen bytes)

/-- Without a checksum a datagram is not tested. -/
theorem udpIn_plain (h : udpField s.bytes = 0) :
    udpIn netif callbacks turns s = udpDeliver netif callbacks turns (udpLen s.bytes) (s.read 28) := by
  have hread : (s.read 28).read 26 = s.read 28 := Packet.read_read s 28 26
  rw [udpIn, getShort_bind, getShort_bind]
  change (udpRefused turns (udpField s.bytes) (udpLen s.bytes) >>= _) ((s.read 28).read 26) = _
  rw [h, hread]
  rfl

/-- With one, it is tested with the field set to 0, and so it stays. -/
theorem udpIn_tested (h : udpField s.bytes ≠ 0) (hlen : (udpLen s.bytes).toNat ≤ 65527) (hturns : 32768 ≤ turns) :
    udpIn netif callbacks turns s
      = if udpField s.bytes = datagramSum s.bytes
        then udpDeliver netif callbacks turns (udpLen s.bytes)
          (((s.read 28).write 26 [0, 0]).read (20 + (udpLen s.bytes).toNat + (udpLen s.bytes).toNat % 2))
        else some (-1, ((s.read 28).write 26 [0, 0]).read (20 + (udpLen s.bytes).toNat + (udpLen s.bytes).toNat % 2)) := by
  have hread : (s.read 28).read 26 = s.read 28 := Packet.read_read s 28 26
  have hrefused : udpRefused turns (udpField s.bytes) (udpLen s.bytes) (s.read 28)
      = some (decide (udpField s.bytes ≠ datagramSum s.bytes),
          ((s.read 28).write 26 [0, 0]).read (20 + (udpLen s.bytes).toNat + (udpLen s.bytes).toNat % 2)) := by
    rw [udpRefused, if_pos h, setShort_bind, bind_eq (udpchksum_run hlen hturns _)]
    rfl
  rw [udpIn, getShort_bind, getShort_bind]
  change (udpRefused turns (udpField s.bytes) (udpLen s.bytes) >>= _) ((s.read 28).read 26) = _
  rw [hread, bind_eq hrefused]
  by_cases hsum : udpField s.bytes = datagramSum s.bytes
  · rw [if_pos hsum, if_neg (by simpa using hsum)]
    rfl
  · rw [if_neg hsum, if_pos (by simpa using hsum)]
    rfl

theorem udpIn_endless (h : udpField s.bytes ≠ 0) (hlen : 65528 ≤ (udpLen s.bytes).toNat) (turns : Nat) :
    udpIn netif callbacks turns s = none := by
  rw [udpIn, getShort_bind, getShort_bind]
  change (udpRefused turns (udpField s.bytes) (udpLen s.bytes) >>= _) ((s.read 28).read 26) = _
  refine bind_none ?_ _
  rw [udpRefused, if_pos h, setShort_bind]
  exact bind_none (udpchksum_endless hlen turns _) _

/-- The port switch. -/
theorem udpDeliver_eq (datalen : UInt16) :
    udpDeliver netif callbacks turns datalen s
      = (if udpDstPort s.bytes = 7 then do
          let addr ← getAddr 12
          let _ ← udpOut netif turns addr (udpDstPort s.bytes) (udpSrcPort s.bytes) datalen
          pure datalen.toNat
        else if udpDstPort s.bytes = 9 then pure datalen.toNat
        else call callbacks.udp : Net Int) (s.read 24) := by
  have hread : (s.read 22).read 24 = s.read 24 := Packet.read_read s 22 24
  rw [udpDeliver, getShort_bind, getShort_bind]
  change (if udpDstPort s.bytes = 7 then _ else _ : Net Int) ((s.read 22).read 24) = _
  rw [hread]
  rfl

/-- To the echo port. -/
theorem udpDeliver_echo {datalen : UInt16} (hport : udpDstPort s.bytes = 7) (hlen : datalen.toNat ≤ 65527)
    (hturns : 32768 ≤ turns) :
    udpDeliver netif callbacks turns datalen s
      = some ((datalen.toNat : Int), udpSent netif (packetSrc s.bytes) 7 (udpSrcPort s.bytes) datalen (s.read 24)) := by
  have hread : (s.read 24).read 16 = s.read 24 := Packet.read_read s 24 16
  rw [udpDeliver_eq, if_pos hport, getAddr_bind, hread, hport]
  exact bind_eq (udpOut_run hlen hturns netif _ _ _ _) _

theorem udpDeliver_endless {datalen : UInt16} (hport : udpDstPort s.bytes = 7) (hlen : 65528 ≤ datalen.toNat)
    (turns : Nat) : udpDeliver netif callbacks turns datalen s = none := by
  rw [udpDeliver_eq, if_pos hport, getAddr_bind]
  exact bind_none (udpOut_endless hlen netif turns _ _ _ _) _

/-- To the discard port. -/
theorem udpDeliver_discard {datalen : UInt16} (hport : udpDstPort s.bytes = 9) :
    udpDeliver netif callbacks turns datalen s = some ((datalen.toNat : Int), s.read 24) := by
  rw [udpDeliver_eq, hport]
  rfl

/-- To any other port: what is returned is the callback's affair. -/
theorem udpDeliver_other {datalen : UInt16} (hecho : udpDstPort s.bytes ≠ 7) (hdiscard : udpDstPort s.bytes ≠ 9) :
    udpDeliver netif callbacks turns datalen s
      = some ((callbacks.udp.map fun f => f s.bytes).getD (-1), s.read 24) := by
  rw [udpDeliver_eq, if_neg hecho, if_neg hdiscard]
  rfl

/-! ### Protocols -/

theorem ipDispatch_icmp (h : s.bytes 9 = 1) :
    ipDispatch netif callbacks turns len s = icmpEchoReply netif turns len (s.read 10) := by
  rw [ipDispatch, getByte_bind, h]
  rfl

theorem ipDispatch_other (hicmp : s.bytes 9 ≠ 1) (hudp : s.bytes 9 ≠ 17) :
    ipDispatch netif callbacks turns len s
      = some ((callbacks.ip.map fun f => f s.bytes).getD (-1), s.read 10) := by
  rw [ipDispatch, getByte_bind, if_neg hicmp, if_neg hudp]
  rfl

theorem ipDispatch_udp (h : s.bytes 9 = 17) :
    ipDispatch netif callbacks turns len s = udpIn netif callbacks turns (s.read 10) := by
  rw [ipDispatch, getByte_bind, h]
  rfl

end Net

end UcxArinc
