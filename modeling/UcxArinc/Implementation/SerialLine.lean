import UcxArinc.Library.Cells
import Mathlib.Logic.Function.Basic

set_option autoImplicit false

/-! # Frames on a serial line

`tty_write` and `tty_read` of `net/inet/ser_netif.c`. A frame that is written is the list of its `len` bytes.
The input is what `_getchar` will return: `_kbhit` says whether there is any, and `_getchar` does not return
without. -/

namespace UcxArinc

open Cells

/-- `MIN_FRAMELEN`. -/
def minFramelen : Nat := 594

namespace SerialLine

/-- What is put for a byte of a frame. -/
def putByte (data : UInt8) : List UInt8 := if data = 0x7e ∨ data = 0x7d then [0x7d, data ^^^ 0x20] else [data]

/-- The loop of `tty_write`, for what is left of the frame, with `i`. -/
def writeLoop : Nat → List UInt8 → List UInt8
  | _, [] => []
  | i, data :: frame => if i < minFramelen then putByte data ++ writeLoop (i + 1) frame else []

/-- `tty_write`: what it puts, and what it returns. -/
def ttyWrite (frame : List UInt8) : List UInt8 × Nat := (0x7e :: (writeLoop 0 frame ++ [0x7e]), frame.length)

/-- `while (_kbhit() && data != 0x7e) data = _getchar();`: the input that is left. -/
def skip : UInt8 → List UInt8 → List UInt8
  | _, [] => []
  | data, next :: input => if data ≠ 0x7e then skip next input else next :: input

/-- The loop of `tty_read`, with the turns left, `i` and the frame: what it returns, the frame and the input
that is left. -/
def readLoop : Nat → Nat → (Nat → UInt8) → List UInt8 → Option (Nat × (Nat → UInt8) × List UInt8)
  | 0, i, frame, input => some (i, frame, input)
  | _ + 1, _, _, [] => none
  | turns + 1, i, frame, data :: input =>
    if data = 0x7e then some (i, frame, input)
    else if data = 0x7d then
      match input with
      | [] => none
      | data :: input => readLoop turns (i + 1) (Function.update frame i (data ^^^ 0x20)) input
    else readLoop turns (i + 1) (Function.update frame i data) input

/-- `tty_read`. -/
def ttyRead (frame : Nat → UInt8) (input : List UInt8) : Option (Nat × (Nat → UInt8) × List UInt8) :=
  match input with
  | [] => some (0, frame, [])
  | data :: input => readLoop minFramelen 0 frame (if data ≠ 0x7e then skip data input else input)

/-- What is put for frames written one after the other. -/
def writeFrames (frames : List (List UInt8)) : List UInt8 := frames.flatMap fun frame => (ttyWrite frame).1

/-- Frames read one after the other into a buffer, and the input that is left. -/
def readFrames : Nat → (Nat → UInt8) → List UInt8 → Option (List (List UInt8) × List UInt8)
  | 0, _, input => some ([], input)
  | count + 1, frame, input => do
    let (len, frame, input) ← ttyRead frame input
    let (frames, input) ← readFrames count frame input
    some (slice frame 0 len :: frames, input)

end SerialLine

end UcxArinc
