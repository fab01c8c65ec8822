import UcxArinc.Proofs.Stores

set_option autoImplicit false

/-! # The stacks of the processes

The stacks of a partition are taken one behind the other from its data region. `ucx_process_spawn` keeps the low
16 bits of a size only, while the services test the size they were given; and near the last address the sums of the
tests wrap. Where neither happens every process has the stack it asked for. -/

namespace UcxArinc

namespace Pcb

variable {A : Permit} {s s' : Pcb} {p : Nat}

/-! ## Stacks stay where they are -/

/-- Nothing but a creation writes the stack fields of a record. -/
theorem Change.stack {x y : Process} (h : Change A s s' p x y) (hp : p < s.nextProc) :
    y.stack = x.stack ∧ y.stackSz = x.stackSz := by
  cases h with
  | touch h => exact ⟨h.stack, h.stackSz⟩
  | sleep k timer hcalls hf hA hsleeps => exact ⟨hf.stack, hf.stackSz⟩
  | start delayed hlinked hstate hf hA => exact ⟨hf.stack, hf.stackSz⟩
  | schedule hctl h hA =>
      obtain ⟨st, rfl, -⟩ := h
      exact ⟨rfl, rfl⟩
  | release hctl hlinked hA =>
      unfold checkAndReleasePeriodicWaitingProcesses
      split_ifs
      all_goals exact ⟨rfl, rfl⟩
  | timeOuts hctl hlinked hA =>
      unfold checkTimeouts
      split_ifs
      all_goals exact ⟨rfl, rfl⟩
  | spawn hnew hrun hmode hy hA => exact absurd hnew (Nat.ne_of_lt hp)
  | toNormal hrun hmode hlinked h hA =>
      obtain ⟨release, deadline, rfl⟩ := h
      exact ⟨rfl, rfl⟩
  | _ => exact ⟨rfl, rfl⟩

theorem moves_stack (hm : Moves A s s') (hp : p < s.nextProc) : p < s'.nextProc
    ∧ (s'.proc p).stack = (s.proc p).stack ∧ (s'.proc p).stackSz = (s.proc p).stackSz := by
  induction hm with
  | refl => exact ⟨hp, rfl, rfl⟩
  | tail _ hm ih =>
      obtain ⟨hallocated, hstack, hsize⟩ := ih
      obtain ⟨hstack', hsize'⟩ := (hm.change p).stack hallocated
      exact ⟨hallocated.trans_le hm.nextProc_le, hstack'.trans hstack, hsize'.trans hsize⟩

/-! ## Creation -/

/-- `CREATE_PROCESS` passes its checks. -/
structure AcceptsProcess (s : Pcb) (attributes : ProcessAttribute) : Prop where
  number : s.nbrProcesses < maxNumberOfProcesses
  room : s.conf.addr (s.nextStackAddr + attributes.stackSize) ≤ s.conf.addr (s.conf.dataBase + s.conf.dataSize)
  name : ∀ n ∈ s.processes, (s.proc n.data).attributes.name ≠ attributes.name
  stackSize : attributes.stackSize ≤ s.conf.dataSize
  basePriority : minPriorityValue ≤ attributes.basePriority ∧ attributes.basePriority ≤ maxPriorityValue
  period : -1 ≤ attributes.period ∧ (0 ≤ attributes.period → Int.tmod attributes.period s.status.period = 0)
  timeCapacity : -1 ≤ attributes.timeCapacity
    ∧ (0 ≤ attributes.period → 0 ≤ attributes.timeCapacity → attributes.timeCapacity ≤ attributes.period)
  mode : s.status.operatingMode ≠ .normal

/-- `CREATE_ERROR_HANDLER` passes its checks. -/
structure AcceptsErrorHandler (s : Pcb) (stackSize : Nat) : Prop where
  first : s.errorHandlerProcess = none
  room : s.conf.addr (s.nextStackAddr + stackSize) ≤ s.conf.addr (s.conf.dataBase + s.conf.dataSize)
  stackSize : stackSize ≠ 0
  mode : s.status.operatingMode ≠ .normal

/-- A process has been created in the next cell, with the low 16 bits of the size. -/
structure CreatedWith (s : Pcb) (stackSize : Nat) (o : Outcome) : Prop where
  returns : o.2.map Result.returnCode = some .noError
  nextProc : o.1.nextProc = s.nextProc + 1
  stack : (o.1.proc s.nextProc).stack = s.nextStackAddr
  stackSz : (o.1.proc s.nextProc).stackSz = stackSize % 2 ^ 16
  nextStackAddr : o.1.nextStackAddr = s.conf.roundUp (s.conf.addr (s.nextStackAddr + stackSize % 2 ^ 16))

theorem createProcess_outcome (attributes : ProcessAttribute) :
    (∃ rc, rc ≠ .noError ∧ s.createProcess attributes = s.ret rc)
      ∨ AcceptsProcess s attributes ∧ CreatedWith s attributes.stackSize (s.createProcess attributes) := by
  have hret : ∀ rc, rc ≠ .noError → (∃ rc', rc' ≠ .noError ∧ s.ret rc = s.ret rc')
      ∨ AcceptsProcess s attributes ∧ CreatedWith s attributes.stackSize (s.ret rc) :=
    fun rc hrc => Or.inl ⟨rc, hrc, rfl⟩
  let P : Outcome → Prop := fun o => (∃ rc, rc ≠ .noError ∧ o = s.ret rc)
    ∨ AcceptsProcess s attributes ∧ CreatedWith s attributes.stackSize o
  show P (s.createProcess attributes)
  unfold createProcess
  refine refused_elim (hret _ nofun) fun hnumber => refused_elim (hret _ nofun) fun hroom => ?_
  refine refused_elim (hret _ nofun) fun hname => refused_elim (hret _ nofun) fun hsize => ?_
  refine refused_elim (hret _ nofun) fun hpriority => refused_elim (hret _ nofun) fun hperiod => ?_
  refine refused_elim (hret _ nofun) fun hmultiple => refused_elim (hret _ nofun) fun hcapacity => ?_
  refine refused_elim (hret _ nofun) fun hdeadline => refused_elim (hret _ nofun) fun hmode => ?_
  refine Or.inr ⟨⟨not_le.mp hnumber, not_lt.mp hroom, fun n hn heq => hname ?_, not_lt.mp hsize, ?_,
    ⟨not_lt.mp hperiod, fun hnonneg => ?_⟩, ⟨not_lt.mp hcapacity, fun hp ht => ?_⟩, hmode⟩, ?_⟩
  · exact List.any_eq_true.mpr ⟨n, hn, decide_eq_true heq⟩
  · rw [not_or, not_lt, not_lt] at hpriority
    exact hpriority
  · exact not_not.mp fun hne => hmultiple ⟨hnonneg, hne⟩
  · exact not_lt.mp fun hlt => hdeadline ⟨hp, ht, hlt⟩
  · dsimp only [ucxProcessSpawn, listPushback, modProc]
    refine ⟨rfl, rfl, ?_, ?_, rfl⟩
    all_goals
      dsimp only
      rw [Function.update_self, Function.update_self]

theorem createErrorHandler_outcome (stackSize : Nat) :
    (∃ rc, rc ≠ .noError ∧ s.createErrorHandler stackSize = s.ret rc)
      ∨ AcceptsErrorHandler s stackSize ∧ CreatedWith s stackSize (s.createErrorHandler stackSize) := by
  have hret : ∀ rc, rc ≠ .noError → (∃ rc', rc' ≠ .noError ∧ s.ret rc = s.ret rc')
      ∨ AcceptsErrorHandler s stackSize ∧ CreatedWith s stackSize (s.ret rc) :=
    fun rc hrc => Or.inl ⟨rc, hrc, rfl⟩
  let P : Outcome → Prop := fun o => (∃ rc, rc ≠ .noError ∧ o = s.ret rc)
    ∨ AcceptsErrorHandler s stackSize ∧ CreatedWith s stackSize o
  show P (s.createErrorHandler stackSize)
  unfold createErrorHandler
  refine refused_elim (hret _ nofun) fun hfirst => refused_elim (hret _ nofun) fun hroom => ?_
  refine refused_elim (hret _ nofun) fun hsize => refused_elim (hret _ nofun) fun hmode => ?_
  refine Or.inr ⟨⟨?_, not_lt.mp hroom, hsize, hmode⟩, ?_⟩
  · exact Option.isNone_iff_eq_none.mp (by simpa using hfirst)
  · dsimp only [listPushback, modProc]
    refine ⟨rfl, rfl, ?_, ?_, rfl⟩
    all_goals
      dsimp only
      rw [Function.update_self]

/-! ## The processes created -/

/-- The stack size of the process that a call has created. -/
def stackRequest (s : Pcb) : Action → Option Nat
  | .call (.createProcess attributes) =>
    if (s.createProcess attributes).2.map Result.returnCode = some .noError then some attributes.stackSize else none
  | .call (.createErrorHandler stackSize) =>
    if (s.createErrorHandler stackSize).2.map Result.returnCode = some .noError then some stackSize else none
  | _ => none

/-- The partition goes back to its initialisation, and frees its processes. -/
def restarts (s : Pcb) : Action → Bool
  | .call (.setPartitionMode operatingMode) =>
    match OperatingMode.ofInt? operatingMode with
    | some .coldStart => true
    | some .warmStart => decide (s.status.operatingMode ≠ .coldStart)
    | _ => false
  | _ => false

/-- A step enters the cell and the stack size of the process it has created. -/
def recordCreation (created : List (Nat × Nat)) (s : Pcb) (e : Action) : List (Nat × Nat) :=
  if s.restarts e then [] else created ++ (s.stackRequest e).toList.map fun stackSize => (s.nextProc, stackSize)

/-- The processes created since the last restart. -/
def createdProcesses (s : Pcb) (es : List Action) : List (Nat × Nat) :=
  Transition.record Pcb.step recordCreation [] s es

/-- The size fits 16 bits, and the end of the stack, rounded up, is an address. -/
def StackFits (s : Pcb) (stackSize : Nat) : Prop :=
  stackSize < 2 ^ 16 ∧ s.nextStackAddr + stackSize + 15 < s.conf.addressSpace

/-- The stack of a process about to be created fits. -/
def RequestsFit (s : Pcb) : Action → Prop
  | .call (.createProcess attributes) => AcceptsProcess s attributes → StackFits s attributes.stackSize
  | .call (.createErrorHandler stackSize) => AcceptsErrorHandler s stackSize → StackFits s stackSize
  | _ => True

/-- Address `a` lies in the stack of process `p`. -/
def InStack (s : Pcb) (p a : Nat) : Prop := (s.proc p).stack ≤ a ∧ a < (s.proc p).stack + (s.proc p).stackSz

/-- The stacks are as large as requested, lie in the data region behind the stacks of the partition OS and of the
    main process, and do not overlap. -/
structure StacksApart (created : List (Nat × Nat)) (s : Pcb) : Prop where
  exact : ∀ x ∈ created, (s.proc x.1).stackSz = x.2
  inside : ∀ x ∈ created, s.conf.dataBase + partitionOsAndMainProcessStackSize ≤ (s.proc x.1).stack
    ∧ (s.proc x.1).stack + (s.proc x.1).stackSz ≤ s.conf.dataBase + s.conf.dataSize
  disjoint : created.Pairwise fun x y => ∀ a, InStack s x.1 a → ¬ InStack s y.1 a

/-! ## The layout -/

/-- The stacks lie one behind the other, and the next one begins behind them all. -/
structure LaidOut (created : List (Nat × Nat)) (s : Pcb) : Prop where
  next : s.conf.dataBase + partitionOsAndMainProcessStackSize ≤ s.nextStackAddr
  cells : ∀ x ∈ created, x.1 < s.nextProc
  exact : ∀ x ∈ created, (s.proc x.1).stackSz = x.2
  inside : ∀ x ∈ created, s.conf.dataBase + partitionOsAndMainProcessStackSize ≤ (s.proc x.1).stack
    ∧ (s.proc x.1).stack + x.2 ≤ s.conf.dataBase + s.conf.dataSize
  below : ∀ x ∈ created, (s.proc x.1).stack + x.2 ≤ s.nextStackAddr
  ordered : created.Pairwise fun x y => (s.proc x.1).stack + x.2 ≤ (s.proc y.1).stack

theorem LaidOut.stacksApart {created : List (Nat × Nat)} (h : LaidOut created s) : StacksApart created s := by
  refine ⟨h.exact, fun x hx => ?_, ?_⟩
  · rw [h.exact x hx]
    exact h.inside x hx
  · refine List.Pairwise.imp_of_mem (fun {x y} hx _ hxy a hin hin' => ?_) h.ordered
    have hend := hin.2
    rw [h.exact x hx] at hend
    exact absurd (hxy.trans hin'.1) (not_le.mpr hend)

/-- The stacks are where they were, and no process is new. -/
theorem LaidOut.same {created : List (Nat × Nat)} (h : LaidOut created s) (hm : Moves A s s')
    (hnext : s'.nextStackAddr = s.nextStackAddr) : LaidOut created s' := by
  have hconf := moves_conf hm
  have hstack : ∀ x ∈ created, _ := fun x hx => moves_stack hm (h.cells x hx)
  refine ⟨?_, fun x hx => (hstack x hx).1, fun x hx => ?_, fun x hx => ?_, fun x hx => ?_, ?_⟩
  · rw [hconf, hnext]
    exact h.next
  · rw [(hstack x hx).2.2]
    exact h.exact x hx
  · rw [hconf, (hstack x hx).2.1]
    exact h.inside x hx
  · rw [hnext, (hstack x hx).2.1]
    exact h.below x hx
  · refine List.Pairwise.imp_of_mem (fun {x y} hx hy hxy => ?_) h.ordered
    rw [(hstack x hx).2.1, (hstack y hy).2.1]
    exact hxy

/-- A new process has its stack behind the others. -/
theorem LaidOut.create {created : List (Nat × Nat)} {stackSize : Nat} {o : Outcome} (h : LaidOut created s)
    (hm : Moves A s o.1) (hcreated : CreatedWith s stackSize o) (hfits : StackFits s stackSize)
    (hroom : s.conf.addr (s.nextStackAddr + stackSize) ≤ s.conf.addr (s.conf.dataBase + s.conf.dataSize)) :
    LaidOut (created ++ [(s.nextProc, stackSize)]) o.1 := by
  have hconf := moves_conf hm
  have hstack : ∀ x ∈ created, _ := fun x hx => moves_stack hm (h.cells x hx)
  have hnext := h.next
  obtain ⟨hsize, haddr⟩ := hfits
  have hmod : stackSize % 2 ^ 16 = stackSize := Nat.mod_eq_of_lt hsize
  -- the sums do not wrap
  have hend : s.conf.addr (s.nextStackAddr + stackSize) = s.nextStackAddr + stackSize := Nat.mod_eq_of_lt (by omega)
  have hregion : s.conf.addr (s.conf.dataBase + s.conf.dataSize) ≤ s.conf.dataBase + s.conf.dataSize :=
    Nat.mod_le _ _
  have hround : s.nextStackAddr + stackSize ≤ o.1.nextStackAddr := by
    rw [hcreated.nextStackAddr, hmod, hend]
    show _ ≤ (s.nextStackAddr + stackSize + 15) % s.conf.addressSpace / 16 * 16
    rw [Nat.mod_eq_of_lt haddr]
    omega
  rw [hend] at hroom
  have hstackSz := hcreated.stackSz
  rw [hmod] at hstackSz
  refine ⟨?_, fun x hx => ?_, fun x hx => ?_, fun x hx => ?_, fun x hx => ?_, ?_⟩
  · rw [hconf]
    omega
  · rcases List.mem_append.mp hx with hx | hx
    · exact (hstack x hx).1
    · rw [List.mem_singleton.mp hx, hcreated.nextProc]
      exact Nat.lt_succ_self _
  · rcases List.mem_append.mp hx with hx | hx
    · rw [(hstack x hx).2.2]
      exact h.exact x hx
    · rw [List.mem_singleton.mp hx]
      exact hstackSz
  · rw [hconf]
    rcases List.mem_append.mp hx with hx | hx
    · rw [(hstack x hx).2.1]
      exact h.inside x hx
    · rw [List.mem_singleton.mp hx]
      dsimp only
      rw [hcreated.stack]
      exact ⟨hnext, hroom.trans hregion⟩
  · rcases List.mem_append.mp hx with hx | hx
    · have hbelow := h.below x hx
      rw [(hstack x hx).2.1]
      omega
    · rw [List.mem_singleton.mp hx]
      dsimp only
      rw [hcreated.stack]
      exact hround
  · refine List.pairwise_append.mpr ⟨?_, List.pairwise_singleton _ _, fun x hx y hy => ?_⟩
    · refine List.Pairwise.imp_of_mem (fun {x y} hx hy hxy => ?_) h.ordered
      rw [(hstack x hx).2.1, (hstack y hy).2.1]
      exact hxy
    · rw [List.mem_singleton.mp hy, (hstack x hx).2.1]
      dsimp only
      rw [hcreated.stack]
      exact h.below x hx

/-- A restart takes the stacks from the start again. -/
theorem setPartitionMode_nextStackAddr (operatingMode : Int) :
    (s.restarts (.call (.setPartitionMode operatingMode)) = true →
      (s.setPartitionMode operatingMode).1.nextStackAddr
        = s.conf.addr (s.conf.dataBase + partitionOsAndMainProcessStackSize))
      ∧ (s.restarts (.call (.setPartitionMode operatingMode)) = false →
        (s.setPartitionMode operatingMode).1.nextStackAddr = s.nextStackAddr) := by
  unfold setPartitionMode restarts
  dsimp only
  cases hmode : OperatingMode.ofInt? operatingMode with
  | none => exact ⟨nofun, fun _ => rfl⟩
  | some mode =>
      cases mode with
      | idle => exact ⟨nofun, fun _ => rfl⟩
      | coldStart => exact ⟨fun _ => rfl, nofun⟩
      | warmStart =>
          simp only [reduceCtorEq, false_and, if_false, true_and]
          rw [decide_eq_true_eq, decide_eq_false_iff_not]
          by_cases hcold : s.status.operatingMode = .coldStart
          · rw [if_pos hcold]
            exact ⟨fun h => absurd hcold h, fun _ => rfl⟩
          · rw [if_neg hcold]
            exact ⟨fun _ => rfl, fun h => absurd hcold h⟩
      | normal =>
          refine ⟨nofun, fun _ => ?_⟩
          simp only [reduceCtorEq, false_and, if_false, true_and]
          split
          · rfl
          · unfold startProcesses
            rw [forEachProcess_eq]
            dsimp only
            split <;> rfl

theorem LaidOut.step {created : List (Nat × Nat)} (h : LaidOut created s) (hsound : Sound s)
    (hregion : s.conf.dataBase + partitionOsAndMainProcessStackSize < s.conf.addressSpace) {e : Action}
    (hfit : RequestsFit s e) (hstep : s.step e = some s') : LaidOut (recordCreation created s e) s' := by
  have hmoves := step_moves hsound.running (permits_all s e) hstep
  have hsame : s.restarts e = false → s.stackRequest e = none → s'.nextStackAddr = s.nextStackAddr →
      LaidOut (recordCreation created s e) s' := by
    intro hrestarts hrequest hnext
    rw [recordCreation, hrestarts, hrequest, Option.toList_none, List.map_nil, List.append_nil]
    exact h.same hmoves hnext
  have hstores := congrArg (fun x : Stores => x.allocation.2.2) (step_stores hstep)
  cases e with
  | call service =>
      obtain ⟨-, rfl⟩ := call_eq_some hstep
      cases service with
      | createProcess attributes =>
          rcases createProcess_outcome (s := s) attributes with ⟨rc, hrc, hret⟩ | ⟨haccepts, hcreated⟩
          · refine hsame rfl (if_neg fun hreturns => hrc ?_) (congrArg (fun o => o.1.nextStackAddr) hret)
            rw [hret] at hreturns
            exact Option.some.inj hreturns
          · have hrequest : s.stackRequest (.call (.createProcess attributes)) = some attributes.stackSize :=
              if_pos hcreated.returns
            rw [recordCreation, hrequest]
            exact h.create hmoves hcreated (hfit haccepts) haccepts.room
      | createErrorHandler stackSize =>
          rcases createErrorHandler_outcome (s := s) stackSize with ⟨rc, hrc, hret⟩ | ⟨haccepts, hcreated⟩
          · refine hsame rfl (if_neg fun hreturns => hrc ?_) (congrArg (fun o => o.1.nextStackAddr) hret)
            rw [hret] at hreturns
            exact Option.some.inj hreturns
          · have hrequest : s.stackRequest (.call (.createErrorHandler stackSize)) = some stackSize :=
              if_pos hcreated.returns
            rw [recordCreation, hrequest]
            exact h.create hmoves hcreated (hfit haccepts) haccepts.room
      | setPartitionMode operatingMode =>
          obtain ⟨hrestarted, hkept⟩ := setPartitionMode_nextStackAddr (s := s) operatingMode
          cases hrestarts : s.restarts (.call (.setPartitionMode operatingMode)) with
          | false => exact hsame hrestarts rfl (hkept hrestarts)
          | true =>
              have hnext : (s.exec (.setPartitionMode operatingMode)).1.nextStackAddr = _ := hrestarted hrestarts
              rw [recordCreation, hrestarts, if_pos rfl]
              refine ⟨?_, nofun, nofun, nofun, nofun, List.Pairwise.nil⟩
              rw [moves_conf hmoves, hnext]
              exact (Nat.mod_eq_of_lt hregion).ge
      | _ => exact hsame rfl rfl hstores
  | _ => exact hsame rfl rfl hstores

/-- In every run in which no process is created with more than 65535 bytes of stack, or so near the last address that
    a sum wraps, the processes created since the last restart have the stacks they asked for, each its own. -/
theorem stacks_apart (period identifier : Int) (conf : PartitionConf) (maxErrors : Nat) (krnl : Krnl)
    (memory : Nat → Process) (lastTick : Nat)
    (hregion : conf.dataBase + partitionOsAndMainProcessStackSize < conf.addressSpace) {es : List Action}
    (hrun : Transition.GuardedRun Pcb.step RequestsFit
      (partitionInit period identifier conf maxErrors krnl memory lastTick).startPartitionOs es s) :
    StacksApart (createdProcesses
      (partitionInit period identifier conf maxErrors krnl memory lastTick).startPartitionOs es) s := by
  have hinit : LaidOut [] (partitionInit period identifier conf maxErrors krnl memory lastTick) :=
    ⟨(Nat.mod_eq_of_lt hregion).ge, nofun, nofun, nofun, nofun, List.Pairwise.nil⟩
  have hmoves : Moves .all (partitionInit period identifier conf maxErrors krnl memory lastTick)
      (partitionInit period identifier conf maxErrors krnl memory lastTick).startPartitionOs :=
    startPartitionOs_moves _
  have hnext := congrArg (fun x : Stores => x.allocation.2.2) (startPartitionOs_stores
    (partitionInit period identifier conf maxErrors krnl memory lastTick))
  have hkept := hrun.record_invariant (f := recordCreation) (b := [])
    (I := fun s created => Sound s ∧ s.conf = conf ∧ LaidOut created s)
    (fun s e s' created h hfit hstep => ⟨h.1.step hstep,
      (moves_conf (step_moves h.1.running (permits_all s e) hstep)).trans h.2.1,
      h.2.2.step h.1 (h.2.1 ▸ hregion) hfit hstep⟩)
    ⟨sound_startPartitionOs period identifier conf maxErrors krnl memory lastTick, moves_conf hmoves,
      hinit.same hmoves hnext⟩
  exact hkept.2.2.stacksApart

instance (s : Pcb) (stackSize : Nat) : Decidable (StackFits s stackSize) :=
  inferInstanceAs (Decidable (_ ∧ _))

/-- The stack size a call asks for. -/
def stackSizeOf : Action → Option Nat
  | .call (.createProcess attributes) => some attributes.stackSize
  | .call (.createErrorHandler stackSize) => some stackSize
  | _ => none

theorem requestsFit_of_sizes {e : Action}
    (h : ((stackSizeOf e).all fun stackSize => decide (StackFits s stackSize)) = true) : RequestsFit s e := by
  cases e with
  | call service =>
      cases service with
      | createProcess | createErrorHandler => exact fun _ => of_decide_eq_true h
      | _ => trivial
  | _ => trivial

/-- A process and the error handler; a restart, and a larger process. -/
def createAndRestart : List Action :=
  [.loop, .call (.createProcess (aperiodicProcess "A".toList 50)), .call (.createErrorHandler 500),
    .call (.setPartitionMode 2), .call (.setPartitionMode 1), .loop,
    .call (.createProcess { aperiodicProcess "B".toList 50 with stackSize := 30000 }),
    .call (.createErrorHandler 30000)]

theorem stacks_apart_restarted :
    ∃ s, Transition.run Pcb.step (defaultPartition 1) createAndRestart = some s
      ∧ createdProcesses (defaultPartition 1) createAndRestart = [(2, 30000), (3, 30000)]
      ∧ StacksApart (createdProcesses (defaultPartition 1) createAndRestart) s := by
  have hrun : (Transition.checkedRun Pcb.step (fun s e => ((stackSizeOf e).all fun stackSize =>
      decide (StackFits s stackSize)) = true) (defaultPartition 1) createAndRestart).isSome = true := by decide
  have hcreated : createdProcesses (defaultPartition 1) createAndRestart = [(2, 30000), (3, 30000)] := by decide
  obtain ⟨s, hs⟩ := Option.isSome_iff_exists.mp hrun
  have hguarded := (Transition.guardedRun_of_checked hs).mono fun s e h => requestsFit_of_sizes h
  exact ⟨s, hguarded.run_eq, hcreated,
    stacks_apart 50 1 defaultPartitionConf 10 defaultKrnl (fun _ => zeroProcess) 0 (by decide) hguarded⟩

/-- A data region of 1 MiB. -/
def largeRegion : Pcb :=
  (partitionInit 50 1 { defaultPartitionConf with dataSize := 1048576 } 10 defaultKrnl (fun _ => zeroProcess)
    0).startPartitionOs

/-- A process that asks for 66560 bytes. -/
def createLarge : List Action :=
  [.loop, .call (.createProcess { aperiodicProcess "A".toList 50 with stackSize := 66560 })]

/-- It is accepted, and gets 1024. -/
theorem large_stack_truncated :
    ∃ s, Transition.run Pcb.step largeRegion createLarge = some s
      ∧ createdProcesses largeRegion createLarge = [(0, 66560)]
      ∧ (s.proc 0).stackSz = 1024 ∧ ¬ StacksApart (createdProcesses largeRegion createLarge) s := by
  have hrun : ((Transition.run Pcb.step largeRegion createLarge).map fun s => (s.proc 0).stackSz) = some 1024 := by
    decide
  have hcreated : createdProcesses largeRegion createLarge = [(0, 66560)] := by decide
  obtain ⟨s, hs, hsize⟩ := Option.map_eq_some_iff.mp hrun
  refine ⟨s, hs, hcreated, hsize, fun h => ?_⟩
  rw [hcreated] at h
  have hexact := h.exact (0, 66560) List.mem_cons_self
  rw [hsize] at hexact
  cases hexact

end Pcb

end UcxArinc
