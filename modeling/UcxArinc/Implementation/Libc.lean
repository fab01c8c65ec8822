import Mathlib.Algebra.Group.Nat.Defs
import Mathlib.Algebra.Group.Int.Defs
import UcxArinc.Library.Cells

set_option autoImplicit false

/-! # Numbers and strings

The conversions of `lib/libc.c`: `ucx_itoa`, `ucx_atoi`, `ucx_strtol`, and `ucx_sprintf`. Memory is a function of
the address. `int` has 32 bits, signed arithmetic wraps around, and a loop carries a number of turns where the
source has no bound. -/

namespace UcxArinc

namespace Libc

open Cells

/-- The values of `long` are those of 32 or of 64 bits. -/
inductive LongWidth
  | ilp32
  | lp64
  deriving DecidableEq, Repr

namespace LongWidth

def bits : LongWidth → Nat
  | ilp32 => 32
  | lp64 => 64

/-- Conversion to `long`. -/
def wrap (w : LongWidth) (x : Int) : Int := x.bmod (2 ^ w.bits)

/-- `sizeof(size_t)`. -/
def sizeofSize (w : LongWidth) : Int := w.bits / 8

end LongWidth

/-! ## `ucx_itoa` -/

/-- `do { *q++ = ...(i % base); } while (i /= base);`, where `digit` makes the character of the remainder. -/
def digitLoop (digit : Int → Int) (base : Int) : Nat → Int → Nat → (Nat → UInt8) → Option (Nat × (Nat → UInt8))
  | 0, _, _, _ => none
  | turns + 1, i, q, mem =>
    let mem := Function.update mem q (UInt8.ofInt (digit (i.tmod base)))
    if i.tdiv base ≠ 0 then digitLoop digit base turns (i.tdiv base) (q + 1) mem else some (q + 1, mem)

/-- `for (*q = 0; p <= --q; p++)`, which exchanges characters; `f` is done to each on its way. -/
def swapLoop (f : UInt8 → UInt8) : Nat → Nat → Nat → (Nat → UInt8) → Option (Nat → UInt8)
  | 0, _, _, _ => none
  | turns + 1, p, q, mem =>
    if p < q then
      let q := q - 1
      let c := f (mem p)
      let mem := Function.update mem p (f (mem q))
      let mem := Function.update mem q c
      swapLoop f turns (p + 1) q mem
    else some mem

/-- `(*p > '9') ? *p + 39 : *p`. -/
def letter (c : UInt8) : UInt8 := if c > 57 then c + 39 else c

/-- `ucx_itoa`. A division by zero has no outcome. -/
def ucxItoa (i : Int32) (s : Nat) (base : Int) (mem : Nat → UInt8) : Option (Nat → UInt8) :=
  if base = 0 then none
  else if base = 16 then do
    let r ← digitLoop (fun rem => 48 + rem) base 33 i.toUInt32.toNat s mem
    let r := if i ≥ 0 ∧ i < 16 then (r.1 + 1, Function.update r.2 r.1 48) else r
    swapLoop letter (r.1 + 1) s r.1 (Function.update r.2 r.1 0)
  else if i ≥ 0 then do
    let r ← digitLoop (fun rem => 48 + rem) base 33 i.toInt s mem
    swapLoop id (r.1 + 1) s r.1 (Function.update r.2 r.1 0)
  else do
    let mem := Function.update mem s 45
    let r ← digitLoop (fun rem => 48 - rem) base 33 i.toInt (s + 1) mem
    swapLoop id (r.1 + 1) (s + 1) r.1 (Function.update r.2 r.1 0)

/-! ## `ucx_atoi` -/

/-- `while (*s >= '0' && *s <= '9')`. -/
def atoiDigits (mem : Nat → UInt8) : Nat → Nat → Int32 → Option Int32
  | 0, _, _ => none
  | turns + 1, s, n =>
    if 48 ≤ mem s ∧ mem s ≤ 57 then
      atoiDigits mem turns (s + 1) (n * 10 + Int32.ofInt (mem s).toNat - 48)
    else some n

/-- `ucx_atoi`, with so many characters at most. -/
def ucxAtoi (mem : Nat → UInt8) : Nat → Nat → Option Int32
  | 0, _ => none
  | turns + 1, s =>
    if mem s = 32 ∨ mem s = 9 then ucxAtoi mem turns (s + 1)
    else if mem s = 45 then (atoiDigits mem turns (s + 1) 0).map fun n => -n
    else if mem s = 43 then atoiDigits mem turns (s + 1) 0
    else atoiDigits mem turns s 0

/-! ## `ucx_strtol` -/

/-- The value of a digit; the other characters end the loop. -/
def digitValue (c : UInt8) : Option UInt32 :=
  if 48 ≤ c ∧ c ≤ 57 then some (c.toUInt32 - 48)
  else if 65 ≤ c ∧ c ≤ 90 then some (c.toUInt32 - 65 + 10)
  else if 97 ≤ c ∧ c ≤ 122 then some (c.toUInt32 - 97 + 10)
  else none

/-- `for (i = 0; i <= 8; ++i)`, with the turns that are left: the value, and `s` behind the loop. -/
def strtolLoop (mem : Nat → UInt8) (base : UInt32) : Nat → Nat → UInt32 → UInt32 × Nat
  | 0, s, value => (value, s)
  | turns + 1, s, value =>
    match digitValue (mem s) with
    | none => (value, s + 1)
    | some ch => strtolLoop mem base turns (s + 1) (value * base + ch)

/-- `ucx_strtol`, with what it stores in `*end`. -/
def ucxStrtol (mem : Nat → UInt8) (s : Nat) (base : Int32) : Int32 × Nat :=
  let neg := mem s = 45
  let s := if neg then s + 1 else s
  let hex := mem s = 48 ∧ mem (s + 1) = 120
  let base := if hex then 16 else base
  let s := if hex then s + 2 else s
  let r := strtolLoop mem base.toUInt32 9 s 0
  let value := if neg then (-r.1.toInt32).toUInt32 else r.1
  (value.toInt32, r.2 - 1)

/-! ## `ucx_sprintf` -/

/-- What `va_arg` takes: a number, or a string, which may be null. -/
inductive Arg
  | num (x : Int)
  | str (s : Option (List UInt8))
  deriving DecidableEq, Repr

/-- `divide`, with what is left in `*n`. -/
def divide (w : LongWidth) (n : Int) (base : Nat) : Nat × Int :=
  let u := (n % 2 ^ 32).toNat
  (u % base, w.wrap (u / base : Nat))

/-- `digits[i]` -/
def digits (i : Nat) : UInt8 := if i < 10 then UInt8.ofNat (48 + i) else UInt8.ofNat (87 + i)

/-- `while (num != 0) tmp[i++] = digits[divide(&num, base)];` -/
def tmpDigits (w : LongWidth) (base : Nat) : Nat → Int → List UInt8 → Option (List UInt8)
  | 0, _, _ => none
  | turns + 1, num, tmp =>
    if num ≠ 0 then tmpDigits w base turns (divide w num base).2 (tmp ++ [digits (divide w num base).1])
    else some tmp

/-- What is in `tmp` of a number. -/
def tmpNumber (w : LongWidth) (base : Nat) (num : Int) : Option (List UInt8) :=
  if num = 0 then some [48] else tmpDigits w base 33 num []

/-- What is printed of a number. -/
def printNumber (w : LongWidth) (num : Int) (base : Nat) (sign : Bool) (width : Int) (pad : UInt8) :
    Option (List UInt8) := do
  let negative := sign = true ∧ num < 0
  let num := if negative then w.wrap (-num) else num
  let width := if negative then width - 1 else width
  let tmp ← tmpNumber w base num
  let width := width - tmp.length
  some ((if negative then [45] else []) ++ List.replicate width.toNat pad ++ tmp.reverse)

/-- What is printed of a string. -/
def printString (s : Option (List UInt8)) (width : Int) (pad : UInt8) : List UInt8 :=
  let str := s.getD [60, 78, 85, 76, 76, 62]
  let shown := if width < 0 then str else str.take width.toNat
  shown ++ List.replicate (width - shown.length).toNat pad

/-- `toint`, with the characters behind the number. -/
def toint : List UInt8 → Int → Int × List UInt8
  | [], i => (i, [])
  | c :: cs, i => if 48 ≤ c ∧ c ≤ 57 then toint cs (i * 10 + c.toNat - 48) else (i, c :: cs)

/-- `*fmt`; behind the last character there is a 0. -/
def current (fmt : List UInt8) : UInt8 := fmt.headD 0

/-- `fmt++`; behind the 0 nothing may be read. -/
def next : List UInt8 → Option (List UInt8)
  | [] => none
  | _ :: cs => some cs

/-- The `switch` of `ucx_vsprintf`: what is printed, the characters behind, and the arguments behind. -/
def printArg (w : LongWidth) (fmt : List UInt8) (args : List Arg) (width : Int) (pad : UInt8) :
    Option (List UInt8 × List UInt8 × List Arg) := do
  let c := current fmt
  if c = 99 then
    match args with
    | .num x :: args => some ([UInt8.ofInt x], ← next fmt, args)
    | _ => none
  else if c = 115 then
    match args with
    | .str s :: args => some (printString s width pad, ← next fmt, args)
    | _ => none
  else if c = 108 then do
    let fmt ← next fmt
    match args with
    | .num x :: args => some (← printNumber w (w.wrap x) 10 false width pad, ← next fmt, args)
    | _ => none
  else if c = 88 ∨ c = 120 then
    match args with
    | .num x :: args => some (← printNumber w (w.wrap x) 16 false width pad, ← next fmt, args)
    | _ => none
  else if c = 100 ∨ c = 117 then
    match args with
    | .num x :: args => some (← printNumber w (x.bmod (2 ^ 32)) 10 (c = 100) width pad, ← next fmt, args)
    | _ => none
  else if c = 112 then
    match args with
    | .num x :: args => some (← printNumber w (w.wrap x) 16 false w.sizeofSize pad, ← next fmt, args)
    | _ => none
  else some ([], ← next fmt, args)

/-- `for (p = buf; *fmt; fmt++)`: what is printed. -/
def ucxVsprintf (w : LongWidth) : Nat → List UInt8 → List Arg → Option (List UInt8)
  | 0, _, _ => none
  | turns + 1, fmt, args =>
    match fmt with
    | [] => some []
    | c :: fmt =>
      if c ≠ 37 then (ucxVsprintf w turns fmt args).map fun printed => c :: printed
      else do
        let flag := current fmt = 48
        let pad := if flag then 48 else 32
        let fmt := if flag then fmt.tail else fmt
        let number := 48 ≤ current fmt ∧ current fmt ≤ 57
        let width := if number then (toint fmt 0).1 else -1
        let fmt := if number then (toint fmt 0).2 else fmt
        let r ← printArg w fmt args width pad
        (ucxVsprintf w turns r.2.1 r.2.2).map fun printed => r.1 ++ printed

/-- `ucx_sprintf`. -/
def ucxSprintf (w : LongWidth) (out : Nat) (fmt : List UInt8) (args : List Arg) (mem : Nat → UInt8) :
    Option (Nat → UInt8) :=
  (ucxVsprintf w (fmt.length + 1) fmt args).map fun printed => put mem out (printed ++ [0])

end Libc

end UcxArinc
