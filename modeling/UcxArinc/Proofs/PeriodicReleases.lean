import UcxArinc.Proofs.ModuleRuns

set_option autoImplicit false

/-! # The release points of a periodic process

`release_point_time` of a periodic process is its first release point plus its period times the number of its
`PERIODIC_WAIT` calls since, in 64 bits: while the process executes, it is the release point of the period it is
in. `REPLENISH` takes it for the next one. -/

namespace UcxArinc

namespace Pcb

variable {A : Permit} {s s' : Pcb} {p : Nat}

/-! ## What leaves a release point alone -/

/-- A record keeps its attributes, or is that of a new process. -/
theorem Change.attributes {x y : Process} (h : Change A s s' p x y) :
    y.attributes = x.attributes ∨ (p = s.nextProc ∧ A.create y.attributes.period) := by
  cases h with
  | touch h => exact Or.inl h.attributes
  | sleep k timer hcalls hf => exact Or.inl hf.attributes
  | start delayed hlinked hstate hf => exact Or.inl hf.attributes
  | schedule hctl h =>
      obtain ⟨st, rfl, -⟩ := h
      exact Or.inl rfl
  | release x =>
      left
      unfold checkAndReleasePeriodicWaitingProcesses
      split
      · split <;> rfl
      · rfl
  | timeOuts x =>
      left
      unfold checkTimeouts
      split <;> rfl
  | toNormal hrun hmode hlinked h =>
      obtain ⟨release, deadline, rfl⟩ := h
      exact Or.inl rfl
  | spawn hp hrun hmode hy hA => exact Or.inr ⟨hp, hA⟩
  | _ => exact Or.inl rfl

/-- Attributes are for life. -/
theorem attributes_kept {e : Action} (hsound : Sound s) (hstep : s.step e = some s') (hp : p < s.nextProc) :
    (s'.proc p).attributes = (s.proc p).attributes := by
  refine (Moves.keep (I := fun t => p < t.nextProc ∧ (t.proc p).attributes = (s.proc p).attributes) ?_
    (step_moves hsound.running (permits_all s e) hstep) hsound ⟨hp, rfl⟩).2.2
  rintro t t' - ⟨hp, hsame⟩ hm
  refine ⟨lt_of_lt_of_le hp hm.nextProc_le, ?_⟩
  rw [(hm.change p).attributes.resolve_right fun hnew => absurd hnew.1 hp.ne, hsame]

/-- Everything but what gives process `p` a release point: starting it, its `PERIODIC_WAIT`, the way to
    `NORMAL` mode. -/
def keepsRelease (p : Nat) : Permit :=
  { Permit.all with
    sleep := fun _ p' k _ => p' = p → k ≠ .periodicWait
    start := fun p' _ => p' ≠ p
    mode := fun mode => mode ≠ .normal }

/-- Without these the release point stays, but that of an aperiodic process whose initial delay is over. -/
theorem Change.keepsRelease {x y : Process} (h : Change (keepsRelease p) s s' p x y) (hp : p < s.nextProc) :
    y.releasePointTime = x.releasePointTime
      ∨ x.attributes.period = infiniteTimeValue ∧ y.releasePointTime = 0 := by
  cases h with
  | touch h => exact Or.inl h.releasePointTime
  | sleep k timer hcalls hf hA => exact Or.inl (hf.releasePointTime (hA rfl))
  | start delayed hlinked hstate hf hA => exact absurd rfl hA
  | schedule hctl h =>
      obtain ⟨st, rfl, -⟩ := h
      exact Or.inl rfl
  | release x =>
      unfold checkAndReleasePeriodicWaitingProcesses
      split
      · split
        · next hdelayed => exact Or.inr ⟨hdelayed.2, rfl⟩
        · exact Or.inl rfl
      · exact Or.inl rfl
  | timeOuts x =>
      unfold checkTimeouts
      split <;> exact Or.inl rfl
  | toNormal hrun hmode hlinked h hA => exact absurd rfl hA
  | spawn hnew => exact absurd hnew hp.ne
  | _ => exact Or.inl rfl

/-- What an action needs to keep the release point of process `p`. -/
theorem permits_keepsRelease {e : Action}
    (hstart : (s.proc p).processState ≠ .dormant
      ∨ (∀ id, e ≠ .call (.start id)) ∧ ∀ id delayTime, e ≠ .call (.delayedStart id delayTime))
    (hmode : ∀ m, e = .call (.setPartitionMode m) → OperatingMode.ofInt? m ≠ some .normal)
    (hwait : e = .call .periodicWait → ∀ c, s.processCurrent = some c → c.data ≠ p) :
    Permits (keepsRelease p) s e := by
  refine ⟨fun _ _ _ _ _ => trivial, fun service hservice => ?_, fun _ _ _ _ => ⟨fun _ => trivial, fun _ => trivial⟩,
    fun _ _ _ _ _ _ => ⟨trivial, fun _ _ => trivial⟩,
    fun _ _ => ⟨trivial, fun _ => ⟨fun _ _ _ => trivial, fun _ _ _ => trivial, fun _ _ => trivial⟩⟩⟩
  subst hservice
  cases service with
  | setPriority _ _ => exact fun _ _ _ => ⟨trivial, trivial⟩
  | suspendSelf _ => exact fun _ _ c _ _ _ _ => Context.noConfusion
  | timedWait _ => exact ⟨fun _ c _ _ _ _ => Context.noConfusion, fun _ _ _ => trivial⟩
  | periodicWait => exact fun c hc _ _ hp => absurd hp (hwait rfl c hc)
  | start id =>
      rintro node - hdormant rfl
      rcases hstart with hstate | ⟨hnot, -⟩
      · exact hstate hdormant
      · exact hnot id rfl
  | delayedStart id delayTime =>
      rintro node - hdormant rfl
      rcases hstart with hstate | ⟨-, hnot⟩
      · exact hstate hdormant
      · exact hnot id delayTime rfl
  | setPartitionMode m => exact fun mode hm hnormal => hmode m rfl (hnormal ▸ hm)
  | suspend _ => exact fun _ _ _ _ _ => trivial
  | resume _ => exact fun _ _ => trivial
  | stop _ => exact fun _ _ _ => trivial
  | stopSelf => exact fun _ _ _ _ => trivial
  | lockPreemption | acquireMutex _ _ => exact ⟨fun _ _ _ _ _ _ => trivial, fun _ _ _ => trivial⟩
  | readBlackboard | sendBuffer | receiveBuffer | waitSemaphore | waitEvent =>
      exact fun _ _ _ _ _ _ _ _ _ _ => trivial
  | aperiodicWaitEvent _ => exact fun _ _ _ _ _ _ _ _ => trivial
  | sendQueuingMessage | receiveQueuingMessage => exact fun _ _ _ _ _ _ _ _ _ _ _ _ _ => trivial
  | createSamplingPort _ _ _ _ | createQueuingPort _ _ _ _ _ => exact fun _ _ => trivial
  | raiseApplicationError _ _ _ => exact fun _ _ => ⟨fun _ _ => trivial, fun _ _ => trivial⟩
  | _ => trivial

/-! ## The schedule of a process -/

/-- Process `p` has been started, and not stopped since. -/
def IsStarted (s : Pcb) (p : Nat) : Prop := p < s.nextProc ∧ (s.proc p).processState ≠ .dormant

instance : Decidable (IsStarted s p) := inferInstanceAs (Decidable (_ ∧ _))

/-- The step from `s` to `s'` sets the first release point of process `p`: it starts the process, or the
    partition gets to `NORMAL` mode. -/
def SetsRelease (s s' : Pcb) (p : Nat) : Prop :=
  (¬ IsStarted s p ∧ IsStarted s' p) ∨ (s.status.operatingMode ≠ .normal ∧ s'.status.operatingMode = .normal)

instance : Decidable (SetsRelease s s' p) := inferInstanceAs (Decidable (_ ∨ _))

/-- Process `p` ends its period: its `PERIODIC_WAIT` is accepted. -/
def endsPeriod (s : Pcb) (p : Nat) : Action → Bool
  | .call .periodicWait => decide (s.processCurrent.map Node.data = some p) && s.periodicWait.2.isNone
  | _ => false

/-- What an observer of a process has on record: its first release point, and the number of its accepted
    `PERIODIC_WAIT` calls since. -/
structure Progress where
  first : Int
  waits : Nat

def recordProgress (p : Nat) (r : Progress) (s : Pcb) (e : Action) : Progress :=
  match s.step e with
  | none => r
  | some s' =>
    if SetsRelease s s' p then ⟨(s'.proc p).releasePointTime, 0⟩
    else if s.endsPeriod p e then ⟨r.first, r.waits + 1⟩
    else r

/-- The release point of the period that is on record. -/
def Progress.release (r : Progress) (period : Int) : Int := r.first + r.waits * period

/-- A periodic process that has been started is at the release point of its period, as 64 bits hold it. -/
def OnSchedule (p : Nat) (s : Pcb) (r : Progress) : Prop :=
  IsStarted s p → (s.proc p).attributes.period ≠ infiniteTimeValue →
    i64 (s.proc p).releasePointTime = i64 (r.release (s.proc p).attributes.period)

/-- Adding after a sum in 64 bits. -/
theorem i64_add {a b : Int} (h : i64 a = i64 b) (c : Int) : i64 (i64 (a + c)) = i64 (b + c) := by
  unfold i64 at h ⊢
  rw [Int.bmod_bmod, ← Int.bmod_add_bmod, h, Int.bmod_add_bmod]

/-- `PERIODIC_WAIT` is refused and changes nothing, or moves the release point on by one period. -/
theorem periodicWait_spec {c : Node} (hc : s.processCurrent = some c) :
    (s.periodicWait.2.isNone = false ∧ s.periodicWait.1 = s)
      ∨ (s.periodicWait.2.isNone = true ∧ (s.periodicWait.1.proc c.data).releasePointTime
        = i64 ((s.proc c.data).releasePointTime + (s.proc c.data).attributes.period)) := by
  unfold periodicWait withCurrent
  rw [hc]
  dsimp only
  split_ifs
  all_goals first
    | exact Or.inl ⟨rfl, rfl⟩
    | right
      obtain ⟨k, hk⟩ := yield_proc _ c.data .periodicWait c.data
      refine ⟨rfl, ?_⟩
      rw [hk, modProc_proc_self]
      rfl

/-- The other steps leave the release point of a started periodic process alone. -/
theorem releasePointTime_kept {e : Action} (hsound : Sound s) (hstep : s.step e = some s') (hstarted : IsStarted s p)
    (hperiodic : (s.proc p).attributes.period ≠ infiniteTimeValue) (hnot : ¬ SetsRelease s s' p)
    (hends : ¬ s.endsPeriod p e = true) : (s'.proc p).releasePointTime = (s.proc p).releasePointTime := by
  by_cases hmode : ∃ m, e = .call (.setPartitionMode m) ∧ OperatingMode.ofInt? m = some .normal
  · -- already in `NORMAL` mode
    obtain ⟨m, rfl, hm⟩ := hmode
    obtain ⟨-, rfl⟩ := call_eq_some hstep
    change ¬ SetsRelease s (s.setPartitionMode m).1 p at hnot
    show ((s.setPartitionMode m).1.proc p).releasePointTime = _
    unfold setPartitionMode at hnot ⊢
    rw [hm] at hnot ⊢
    by_cases hnormal : s.status.operatingMode = .normal
    · dsimp only
      rw [if_pos ⟨rfl, hnormal⟩]
      rfl
    · refine absurd (Or.inr ⟨hnormal, ?_⟩) hnot
      dsimp only
      rw [if_neg fun hboth => hnormal hboth.2, if_neg fun hboth => OperatingMode.noConfusion hboth.1]
      show (startProcesses _).status.operatingMode = .normal
      unfold startProcesses
      rw [forEachProcess_eq]
      dsimp only
      split <;> rfl
  · by_cases hwait : e = .call .periodicWait ∧ s.processCurrent.map Node.data = some p
    · -- refused
      obtain ⟨rfl, hcurrent⟩ := hwait
      obtain ⟨c, hc, rfl⟩ := Option.map_eq_some_iff.mp hcurrent
      obtain ⟨-, rfl⟩ := call_eq_some hstep
      rcases periodicWait_spec hc with ⟨-, hsame⟩ | ⟨haccepted, -⟩
      · show (s.periodicWait.1.proc c.data).releasePointTime = _
        rw [hsame]
      · refine absurd ?_ hends
        rw [endsPeriod, decide_eq_true hcurrent, haccepted]
        rfl
    · have hpermits : Permits (keepsRelease p) s e := by
        refine permits_keepsRelease (Or.inl hstarted.2) (fun m he hm => hmode ⟨m, he, hm⟩) fun he c hc hp => ?_
        exact hwait ⟨he, by rw [hc, ← hp]; rfl⟩
      refine (Moves.keep (I := fun t => p < t.nextProc ∧ (t.proc p).attributes = (s.proc p).attributes
        ∧ (t.proc p).releasePointTime = (s.proc p).releasePointTime) ?_
        (step_moves hsound.running hpermits hstep) hsound ⟨hstarted.1, rfl, rfl⟩).2.2.2
      rintro t t' - ⟨hp, hattributes, hrelease⟩ hm
      refine ⟨lt_of_lt_of_le hp hm.nextProc_le, ?_, ?_⟩
      · rw [(hm.change p).attributes.resolve_right fun hnew => absurd hnew.1 hp.ne, hattributes]
      · rw [(hm.change p).keepsRelease hp |>.resolve_right fun hnot => hperiodic (hattributes ▸ hnot.1), hrelease]

/-- A step keeps the process on schedule. -/
theorem OnSchedule.step {e : Action} {r : Progress} (h : OnSchedule p s r) (hsound : Sound s)
    (hstep : s.step e = some s') : OnSchedule p s' (recordProgress p r s e) := by
  intro hstarted hperiodic
  unfold recordProgress
  rw [hstep]
  dsimp only
  by_cases hsets : SetsRelease s s' p
  · rw [if_pos hsets]
    simp [Progress.release]
  · rw [if_neg hsets]
    have hbefore : IsStarted s p := by
      by_contra hnot
      exact hsets (Or.inl ⟨hnot, hstarted⟩)
    rw [attributes_kept hsound hstep hbefore.1] at hperiodic ⊢
    have hrelease := h hbefore hperiodic
    by_cases hends : s.endsPeriod p e = true
    · rw [if_pos hends]
      -- one more period
      cases e with
      | call service =>
          cases service with
          | periodicWait =>
              obtain ⟨hcurrent, haccepted⟩ := Bool.and_eq_true_iff.mp hends
              obtain ⟨c, hc, rfl⟩ := Option.map_eq_some_iff.mp (of_decide_eq_true hcurrent)
              obtain ⟨-, rfl⟩ := call_eq_some hstep
              rcases periodicWait_spec hc with ⟨hrefused, -⟩ | ⟨-, hmoved⟩
              · rw [hrefused] at haccepted
                cases haccepted
              · show i64 (s.periodicWait.1.proc c.data).releasePointTime = _
                rw [hmoved, i64_add hrelease, Progress.release, Progress.release, Nat.cast_succ, Int.add_mul,
                  Int.one_mul, Int.add_assoc]
          | _ => cases hends
      | _ => cases hends
    · rw [if_neg hends, releasePointTime_kept hsound hstep hbefore hperiodic hsets hends]
      exact hrelease

/-! ## Over whole runs -/

/-- After every run each process is on schedule. -/
theorem onSchedule_of_run (period identifier : Int) (conf : PartitionConf) (maxErrors : Nat) (krnl : Krnl)
    (memory : Nat → Process) (lastTick : Nat) (p : Nat) {es : List Action}
    (hrun : Transition.run Pcb.step
      (partitionInit period identifier conf maxErrors krnl memory lastTick).startPartitionOs es = some s) :
    OnSchedule p s (Transition.record Pcb.step (recordProgress p) ⟨0, 0⟩
      (partitionInit period identifier conf maxErrors krnl memory lastTick).startPartitionOs es) := by
  have hsound := (queues_of_run period identifier conf maxErrors krnl memory lastTick (Transition.run_nil step _)).1
  refine (Transition.run_record_invariant (I := fun s r => Sound s ∧ OnSchedule p s r) hrun ?_ ⟨hsound, ?_⟩).2
  · rintro s e s' r ⟨hsound, h⟩ hstep
    exact ⟨(Moves.keep (I := fun _ => True) (fun _ _ _ _ _ => trivial)
      (step_moves hsound.running (permits_all s e) hstep) hsound trivial).1, h.step hsound hstep⟩
  · -- at the start there is no process
    rintro ⟨hlt, -⟩
    rw [nextProc_startPartitionOs] at hlt
    exact absurd hlt (Nat.not_lt_zero p)

/-! ## Replenishing -/

/-- `REPLENISH` as it is meant, for a process whose next release point is `next`. -/
structure ReplenishesUpTo (s : Pcb) (c : Node) (budgetTime next : Int) : Prop where
  succeeds : ((s.replenish budgetTime).2.map Result.returnCode = some .noError
      ∧ (s.replenish budgetTime).1
        = s.modProc c.data fun x => { x with deadlineTime := s.krnl.uptime + budgetTime })
    ↔ s.krnl.uptime + budgetTime ≤ next
  refuses : next < s.krnl.uptime + budgetTime → s.replenish budgetTime = s.ret .invalidMode

/-- What `REPLENISH` does for a periodic process. -/
theorem replenish_eq {c : Node} {budgetTime : Int} (hc : s.processCurrent = some c)
    (hnormal : s.status.operatingMode = .normal) (hperiodic : (s.proc c.data).attributes.period ≠ infiniteTimeValue)
    (hcapacity : (s.proc c.data).attributes.timeCapacity ≠ infiniteTimeValue) (hbudget : 0 ≤ budgetTime) :
    s.replenish budgetTime = if s.timeOutInvalid budgetTime then s.ret .invalidParam
      else if (s.proc c.data).releasePointTime < s.fromNow budgetTime then s.ret .invalidMode
      else (s.modProc c.data fun x => { x with deadlineTime := s.fromNow budgetTime }).ret .noError := by
  have hfinite : budgetTime ≠ infiniteTimeValue := by
    intro heq
    rw [heq] at hbudget
    exact absurd hbudget (by decide)
  unfold replenish withCurrent
  rw [hc]
  simp only [hnormal, hperiodic, hcapacity, hfinite, ne_eq, not_true_eq_false, and_false, if_false, not_false_eq_true,
    true_and, false_or, and_self]

/-- A periodic process with a finite time capacity executes in `NORMAL` mode, `waits` periods after its first
    release point: its `release_point_time` is the release point of this period. `REPLENISH` lets its deadline
    reach exactly up to its next release point if and only if the new deadline is no overflow, and does not lie
    between the two. -/
theorem replenish_up_to_next_release (period identifier : Int) (conf : PartitionConf) (maxErrors : Nat) (krnl : Krnl)
    (memory : Nat → Process) (lastTick : Nat) {es : List Action}
    (hrun : Transition.run Pcb.step
      (partitionInit period identifier conf maxErrors krnl memory lastTick).startPartitionOs es = some s)
    (hctl : s.ctl = .process) {c : Node} (hc : s.processCurrent = some c)
    (hperiodic : (s.proc c.data).attributes.period ≠ infiniteTimeValue)
    (hcapacity : (s.proc c.data).attributes.timeCapacity ≠ infiniteTimeValue) {budgetTime : Int}
    (hbudget : 0 ≤ budgetTime) {r : Progress}
    (hr : r = Transition.record Pcb.step (recordProgress c.data) ⟨0, 0⟩
      (partitionInit period identifier conf maxErrors krnl memory lastTick).startPartitionOs es) :
    i64 (s.proc c.data).releasePointTime = i64 (r.first + r.waits * (s.proc c.data).attributes.period)
    ∧ (ReplenishesUpTo s c budgetTime (r.first + (r.waits + 1) * (s.proc c.data).attributes.period)
      ↔ s.timeOutInvalid budgetTime = false
        ∧ (s.krnl.uptime + budgetTime ≤ (s.proc c.data).releasePointTime
          ↔ s.krnl.uptime + budgetTime ≤ r.first + (r.waits + 1) * (s.proc c.data).attributes.period)) := by
  obtain ⟨hsound, hqueues⟩ := queues_of_run period identifier conf maxErrors krnl memory lastTick hrun
  obtain ⟨hnormal, hstate⟩ := hsound.process hctl
  have hlt := hqueues.allocated c.data (Or.inr (Or.inl ⟨c, hc, rfl⟩))
  have hrelease := onSchedule_of_run period identifier conf maxErrors krnl memory lastTick c.data hrun
    ⟨hlt, (hstate c hc).2⟩ hperiodic
  rw [← hr, Progress.release] at hrelease
  refine ⟨hrelease, ?_⟩
  have heq := replenish_eq hc hnormal hperiodic hcapacity hbudget
  unfold fromNow at heq
  generalize r.first + (r.waits + 1) * (s.proc c.data).attributes.period = next
  generalize (s.proc c.data).releasePointTime = point at heq
  -- the result tells the three branches apart
  have hcode : ∀ rc, (s.ret rc).2.map Result.returnCode = some .noError → rc = .noError := by
    rintro rc h
    exact Option.some.inj h
  by_cases hinvalid : s.timeOutInvalid budgetTime = true
  · rw [if_pos hinvalid] at heq
    constructor
    · rintro ⟨hsucceeds, hrefuses⟩
      exfalso
      by_cases hle : s.krnl.uptime + budgetTime ≤ next
      · have h := (hsucceeds.mpr hle).1
        rw [heq] at h
        cases hcode _ h
      · have h := hrefuses (not_le.mp hle)
        rw [heq] at h
        cases h
    · rintro ⟨hfalse, -⟩
      rw [hinvalid] at hfalse
      cases hfalse
  · rw [if_neg hinvalid] at heq
    rw [Bool.eq_false_iff]
    by_cases hlate : point < s.krnl.uptime + budgetTime
    · rw [if_pos hlate] at heq
      have hrefused : ¬ ((s.replenish budgetTime).2.map Result.returnCode = some .noError
          ∧ (s.replenish budgetTime).1
            = s.modProc c.data fun x => { x with deadlineTime := s.krnl.uptime + budgetTime }) := by
        rintro ⟨h, -⟩
        rw [heq] at h
        cases hcode _ h
      constructor
      · rintro ⟨hsucceeds, -⟩
        refine ⟨hinvalid, ?_⟩
        exact ⟨fun hle => absurd hle (not_le.mpr hlate), fun hle => absurd (hsucceeds.mpr hle) hrefused⟩
      · rintro ⟨-, hsame⟩
        have hafter : ¬ s.krnl.uptime + budgetTime ≤ next := by
          rw [← hsame]
          exact not_le.mpr hlate
        exact ⟨⟨fun h => absurd h hrefused, fun hle => absurd hle hafter⟩, fun _ => heq⟩
    · rw [if_neg hlate] at heq
      have haccepted : (s.replenish budgetTime).2.map Result.returnCode = some .noError
          ∧ (s.replenish budgetTime).1
            = s.modProc c.data fun x => { x with deadlineTime := s.krnl.uptime + budgetTime } := by
        rw [heq]
        exact ⟨rfl, rfl⟩
      have hbefore := not_lt.mp hlate
      constructor
      · rintro ⟨hsucceeds, -⟩
        exact ⟨hinvalid, fun _ => hsucceeds.mp haccepted, fun _ => hbefore⟩
      · rintro ⟨-, hsame⟩
        have hle := hsame.mp hbefore
        exact ⟨⟨fun _ => hle, fun _ => haccepted⟩, fun hafter => absurd hle (not_le.mpr hafter)⟩

/-- A process of the partition's period, with 20 ms to do its work. -/
def periodicProcess (name : Name) (basePriority : Int) : ProcessAttribute :=
  { aperiodicProcess name basePriority with
    period := 50
    timeCapacity := 20 }

/-- It is released at 0, and executes at 10. -/
def inFirstPeriod : List Action :=
  [.loop, .call (.createProcess (periodicProcess "A".toList 50)), .call (.start 1), .call (.setPartitionMode 3),
    clockAt 10 1, .loop]

/-- The state, and what is on record of the process. -/
theorem inFirstPeriod_eq : ∃ s, Transition.run step (defaultPartition 1) inFirstPeriod = some s
    ∧ s.ctl = .process ∧ s.processCurrent = some ⟨0, 0⟩ ∧ s.krnl.uptime = 10
    ∧ (s.proc 0).attributes.period = 50 ∧ (s.proc 0).attributes.timeCapacity = 20
    ∧ (s.proc 0).releasePointTime = 0 := by
  have hrun : ((Transition.run step (defaultPartition 1) inFirstPeriod).map fun s =>
      (s.processCurrent, s.krnl.uptime, (s.proc 0).attributes.period, (s.proc 0).attributes.timeCapacity,
        (s.proc 0).releasePointTime)) = some (some ⟨0, 0⟩, 10, 50, 20, 0) := by decide
  have hctl : ((Transition.run step (defaultPartition 1) inFirstPeriod).map Pcb.ctl) = some .process := by decide
  obtain ⟨s, hs, hfields⟩ := Option.map_eq_some_iff.mp hrun
  rw [hs] at hctl
  simp only [Prod.mk.injEq] at hfields
  obtain ⟨hcurrent, huptime, hperiod, hcapacity, hrelease⟩ := hfields
  exact ⟨s, hs, Option.some.inj hctl, hcurrent, huptime, hperiod, hcapacity, hrelease⟩

theorem recordProgress_inFirstPeriod :
    Transition.record step (recordProgress 0) ⟨0, 0⟩ (defaultPartition 1) inFirstPeriod = ⟨0, 0⟩ := by
  have h : (Transition.record step (recordProgress 0) ⟨0, 0⟩ (defaultPartition 1) inFirstPeriod).first = 0
      ∧ (Transition.record step (recordProgress 0) ⟨0, 0⟩ (defaultPartition 1) inFirstPeriod).waits = 0 := by decide
  generalize Transition.record step (recordProgress 0) ⟨0, 0⟩ (defaultPartition 1) inFirstPeriod = r at h
  cases r
  simp only at h
  rw [h.1, h.2]

/-- A deadline of 55 lies after the next release point. -/
theorem replenish_up_to_next_release_default : ∃ s,
    Transition.run step (defaultPartition 1) inFirstPeriod = some s ∧ ReplenishesUpTo s ⟨0, 0⟩ 45 50 := by
  obtain ⟨s, hs, hctl, hcurrent, huptime, hperiod, hcapacity, hrelease⟩ := inFirstPeriod_eq
  refine ⟨s, hs, ?_⟩
  have h := replenish_up_to_next_release 50 1 defaultPartitionConf 10 defaultKrnl (fun _ => zeroProcess) 0 hs hctl
    hcurrent (by rw [hperiod]; decide) (by rw [hcapacity]; decide) (by decide : (0 : Int) ≤ 45)
    recordProgress_inFirstPeriod.symm
  rw [hperiod, hrelease, huptime] at h
  refine h.2.mpr ⟨?_, by decide⟩
  unfold timeOutInvalid
  rw [huptime]
  decide

/-- A deadline of 15 does not, and is refused. -/
theorem replenish_compares_current_release : ¬ ∀ (es : List Action) (s : Pcb) (c : Node) (budgetTime : Int)
    (r : Progress), Transition.run step (defaultPartition 1) es = some s → s.ctl = .process →
      s.processCurrent = some c → (s.proc c.data).attributes.period ≠ infiniteTimeValue →
      (s.proc c.data).attributes.timeCapacity ≠ infiniteTimeValue → 0 ≤ budgetTime →
      r = Transition.record step (recordProgress c.data) ⟨0, 0⟩ (defaultPartition 1) es →
      ReplenishesUpTo s c budgetTime (r.first + (r.waits + 1) * (s.proc c.data).attributes.period) := by
  intro hall
  obtain ⟨s, hs, hctl, hcurrent, huptime, hperiod, hcapacity, -⟩ := inFirstPeriod_eq
  have h := hall inFirstPeriod s ⟨0, 0⟩ 5 ⟨0, 0⟩ hs hctl hcurrent (by rw [hperiod]; decide)
    (by rw [hcapacity]; decide) (by decide) recordProgress_inFirstPeriod.symm
  rw [hperiod] at h
  have hreturns := (h.succeeds.mpr (by rw [huptime]; decide)).1
  have hrefused : ((Transition.run step (defaultPartition 1) inFirstPeriod).map fun s =>
      (s.replenish 5).2.map Result.returnCode) = some (some .invalidMode) := by decide
  rw [hs, Option.map_some, hreturns] at hrefused
  cases hrefused

end Pcb

end UcxArinc
