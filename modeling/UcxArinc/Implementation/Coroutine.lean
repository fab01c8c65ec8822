import Mathlib.Tactic.Common

set_option autoImplicit false

/-! # Coroutine groups

`kernel/coroutine.c`. A group is the list of its control blocks, in the order they were added. Memory for
new ones is taken as available, and coroutines leave the group they run in as it is. -/

namespace UcxArinc

/-- `struct ccb_s`; a coroutine is the address of its function. -/
structure Ccb where
  corotine : Nat
  priority : UInt8
  pcounter : UInt8
  deriving DecidableEq, Repr

/-- `ucx_cr_add`. -/
def ucxCrAdd (crlist : List Ccb) (corotine : Nat) (priority : UInt8) : List Ccb :=
  crlist ++ [⟨corotine, priority, priority⟩]

/-- `cr_trysched`: the block after it, and whether its coroutine was run. -/
def crTrysched (cr : Ccb) : Ccb × Bool :=
  let pcounter := cr.pcounter - 1
  if pcounter = 0 then ({ cr with pcounter := cr.priority }, true)
  else ({ cr with pcounter := pcounter }, false)

/-- `ucx_cr_schedule`, the `list_foreach` over `cr_trysched`: the group after it, and the places in the list
    of the coroutines that were run. -/
def ucxCrSchedule : List Ccb → List Ccb × List Nat
  | [] => ([], [])
  | cr :: rest =>
    match crTrysched cr with
    | (cr, true) => (cr :: rest, [0])
    | (cr, false) =>
      let (rest, ran) := ucxCrSchedule rest
      (cr :: rest, ran.map (· + 1))

/-- A number of calls of `ucx_cr_schedule` in a row. -/
def scheduleCalls : Nat → List Ccb → List Ccb × List Nat
  | 0, crlist => (crlist, [])
  | calls + 1, crlist =>
    let (crlist, ran) := ucxCrSchedule crlist
    let (crlist, later) := scheduleCalls calls crlist
    (crlist, ran ++ later)

/-- What the owner of a group does. -/
inductive GroupCall
  | add (corotine : Nat) (priority : UInt8)
  | schedule
  deriving DecidableEq, Repr

/-- The group after some calls. -/
def groupAfter (calls : List GroupCall) : List Ccb :=
  calls.foldl (fun crlist call =>
    match call with
    | .add corotine priority => ucxCrAdd crlist corotine priority
    | .schedule => (ucxCrSchedule crlist).1) []

end UcxArinc
