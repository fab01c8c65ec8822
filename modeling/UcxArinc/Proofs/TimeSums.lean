import UcxArinc.Proofs.InitialProcesses
import UcxArinc.Proofs.PeriodicReleases

set_option autoImplicit false

/-! # Sums of times

Each service checks the sum of the uptime and the times it is given, in 64 unsigned bits, before it stores it in
64 signed bits. That is the sum it stores, but for three: `START` and `DELAYED_START` of a periodic process in
`NORMAL` mode count from the first release point, and the way to `NORMAL` mode checks nothing, though the uptime
has grown since the process was started; there the first release point is passed as a pointer too. -/

namespace UcxArinc

namespace Pcb

variable {s s' : Pcb} {p : Nat}

/-! ## Times -/

/-- A time that is no overflow. -/
def IsTime (t : Int) : Prop := t = infiniteTimeValue ∨ (0 ≤ t ∧ t ≤ maxSystemTime)

instance (t : Int) : Decidable (IsTime t) := inferInstanceAs (Decidable (_ ∨ _))

/-- A value of `SYSTEM_TIME_TYPE`. -/
def Is64 (t : Int) : Prop := -2 ^ 63 ≤ t ∧ t < 2 ^ 63

instance (t : Int) : Decidable (Is64 t) := inferInstanceAs (Decidable (_ ∧ _))

/-- A time is what 64 bits hold of it. -/
theorem i64_of_isTime {t : Int} (h : IsTime t) : i64 t = t := by
  unfold IsTime infiniteTimeValue maxSystemTime at h
  exact Int.bmod_eq_of_le (by omega) (by omega)

/-- The sums a service stores in a record; a field without one is left alone. -/
structure TimeSums where
  timeCounter : Option Int := none
  releasePointTime : Option Int := none
  deadlineTime : Option Int := none

/-- A field meets `P` with its sum, or has none and is the old one. -/
def Follows (P : Int → Int → Prop) (old new : Int) : Option Int → Prop
  | none => new = old
  | some t => P t new

namespace TimeSums

/-- `y` is `x` with the sums stored, as `P` says. -/
structure Stored (P : Int → Int → Prop) (sums : TimeSums) (x y : Process) : Prop where
  timeCounter : Follows P x.timeCounter y.timeCounter sums.timeCounter
  releasePointTime : Follows P x.releasePointTime y.releasePointTime sums.releasePointTime
  deadlineTime : Follows P x.deadlineTime y.deadlineTime sums.deadlineTime

/-- Each sum is stored, and is a time. -/
abbrev Exact : TimeSums → Process → Process → Prop := Stored fun t new => new = t ∧ IsTime t

/-- Each sum is stored, in 64 bits or as it is. -/
abbrev Computed : TimeSums → Process → Process → Prop := Stored fun t new => new = t ∨ new = i64 t

theorem Exact.inRange_of_some {P : Int → Prop} {old new : Int} {sum : Option Int}
    (h : Follows (fun t new => new = t ∧ P t) old new sum) : ∀ t ∈ sum, P t := by
  rintro t rfl
  exact h.2

/-- Each sum is a time. -/
structure InRange (sums : TimeSums) : Prop where
  timeCounter : ∀ t ∈ sums.timeCounter, IsTime t
  releasePointTime : ∀ t ∈ sums.releasePointTime, IsTime t
  deadlineTime : ∀ t ∈ sums.deadlineTime, IsTime t

theorem inRange_empty : InRange {} :=
  ⟨fun _ ht => (nomatch ht), fun _ ht => (nomatch ht), fun _ ht => (nomatch ht)⟩

/-- What is computed in 64 bits is exact if it is in range. -/
theorem Computed.exact_iff {sums : TimeSums} {x y : Process} (h : sums.Computed x y) :
    sums.Exact x y ↔ sums.InRange := by
  have key : ∀ {old new : Int} {sum : Option Int}, Follows (fun t new => new = t ∨ new = i64 t) old new sum →
      (Follows (fun t new => new = t ∧ IsTime t) old new sum ↔ ∀ t ∈ sum, IsTime t) := by
    intro old new sum hcomputed
    cases sum with
    | none => exact ⟨fun _ _ ht => (nomatch ht), fun _ => hcomputed⟩
    | some t =>
        constructor
        · rintro ⟨-, ht⟩ t' ht'
          rw [← Option.some.inj ht']
          exact ht
        · intro hall
          have ht := hall t rfl
          rcases hcomputed with hnew | hnew
          · exact ⟨hnew, ht⟩
          · exact ⟨by rw [hnew, i64_of_isTime ht], ht⟩
  constructor
  · rintro ⟨hcounter, hrelease, hdeadline⟩
    exact ⟨(key h.timeCounter).mp hcounter, (key h.releasePointTime).mp hrelease, (key h.deadlineTime).mp hdeadline⟩
  · rintro ⟨hcounter, hrelease, hdeadline⟩
    exact ⟨(key h.timeCounter).mpr hcounter, (key h.releasePointTime).mpr hrelease,
      (key h.deadlineTime).mpr hdeadline⟩

theorem Exact.inRange {sums : TimeSums} {x y : Process} (h : sums.Exact x y) : sums.InRange :=
  ⟨inRange_of_some h.timeCounter, inRange_of_some h.releasePointTime, inRange_of_some h.deadlineTime⟩

/-- Where nothing is stored. -/
theorem Computed.refl (x : Process) : Computed {} x x := ⟨rfl, rfl, rfl⟩

/-- A new context is no time. -/
theorem Computed.yield {sums : TimeSums} {x : Process} (h : sums.Computed x (s.proc p)) (c : Nat) (k : Context) :
    sums.Computed x ((s.yieldToPartition c k).1.proc p) := by
  obtain ⟨k', hk⟩ := yield_proc s c k p
  rw [hk]
  exact ⟨h.timeCounter, h.releasePointTime, h.deadlineTime⟩

end TimeSums

/-! ## The sums -/

/-- The calls that store times. -/
inductive TimeCall
  | start (processId : Int)
  | delayedStart (processId delayTime : Int)
  | periodicWait
  | replenish (budgetTime : Int)
  | timedWait (delayTime : Int)
  | suspendSelf (timeOut : Int)
  | toNormal

def TimeCall.service : TimeCall → Service
  | .start processId => .start processId
  | .delayedStart processId delayTime => .delayedStart processId delayTime
  | .periodicWait => .periodicWait
  | .replenish budgetTime => .replenish budgetTime
  | .timedWait delayTime => .timedWait delayTime
  | .suspendSelf timeOut => .suspendSelf timeOut
  | .toNormal => .setPartitionMode 3

/-- The deadline of a process released at `base`. -/
def deadlineFrom (base : Int) (x : Process) : Int :=
  if x.attributes.timeCapacity = infiniteTimeValue then infiniteTimeValue else base + x.attributes.timeCapacity

/-- A process is started, `delayTime` after it might. -/
def startSums (s : Pcb) (delayTime : Int) (x : Process) : TimeSums :=
  if s.status.operatingMode ≠ .normal then {}
  else if x.attributes.period = infiniteTimeValue then
    { timeCounter := if delayTime = 0 then none else some (s.krnl.uptime + delayTime)
      deadlineTime := some (deadlineFrom (s.krnl.uptime + delayTime) x) }
  else
    { releasePointTime := some (s.arincTimeFindFirstReleasePoint + delayTime)
      deadlineTime := some (deadlineFrom (s.arincTimeFindFirstReleasePoint + delayTime) x) }

/-- A process waits for a time. -/
def waitSums (s : Pcb) (timeOut : Int) : TimeSums :=
  { timeCounter := if timeOut = 0 ∨ timeOut = infiniteTimeValue then none else some (s.krnl.uptime + timeOut) }

/-- Where the deadline of a process counts from on the way to `NORMAL` mode. -/
def normalBase (s : Pcb) (x : Process) : Int :=
  if x.processState = .waiting then
    if x.attributes.period = infiniteTimeValue then
      if x.savedInitDelay ≠ 0 then s.krnl.uptime + x.savedInitDelay
      else if x.isSuspended then x.releasePointTime
      else s.krnl.uptime
    else s.arincTimeFindFirstReleasePoint + x.savedInitDelay
  else x.releasePointTime

/-- What the way to `NORMAL` mode stores for a process. -/
def normalSums (s : Pcb) (x : Process) : TimeSums :=
  if x.processState = .dormant then {}
  else
    { releasePointTime :=
        if x.processState = .waiting ∧ (x.attributes.period ≠ infiniteTimeValue ∨ x.savedInitDelay ≠ 0) then
          some (s.normalBase x)
        else none
      deadlineTime := some (deadlineFrom (s.normalBase x) x) }

/-- The call is about process `p`. -/
def TimeCall.Concerns (s : Pcb) (p : Nat) : TimeCall → Prop
  | .start processId | .delayedStart processId _ => (s.isProcessIdExisted processId).map Node.data = some p
  | .toNormal => ∃ n ∈ s.processes, n.data = p
  | _ => s.processCurrent.map Node.data = some p

instance (s : Pcb) (p : Nat) (c : TimeCall) : Decidable (c.Concerns s p) := by
  unfold TimeCall.Concerns
  cases c <;> infer_instance

/-- The sums that a call stores for a process it is about. -/
def TimeCall.sumsOf (s : Pcb) (x : Process) : TimeCall → TimeSums
  | .start _ => s.startSums 0 x
  | .delayedStart _ delayTime => s.startSums delayTime x
  | .periodicWait =>
    { releasePointTime := some (x.releasePointTime + x.attributes.period)
      deadlineTime := some (deadlineFrom (x.releasePointTime + x.attributes.period) x) }
  | .replenish budgetTime =>
    { deadlineTime := some (if x.attributes.timeCapacity = infiniteTimeValue ∨ budgetTime = infiniteTimeValue
        then infiniteTimeValue else s.krnl.uptime + budgetTime) }
  | .timedWait delayTime => s.waitSums delayTime
  | .suspendSelf timeOut => s.waitSums timeOut
  | .toNormal => s.normalSums x

/-- The sums that a call is to store for process `p`, if it is not refused. -/
def TimeCall.sums (s : Pcb) (p : Nat) (c : TimeCall) : TimeSums :=
  if c.Concerns s p then c.sumsOf s (s.proc p) else {}

/-- The call is not refused. -/
def Accepted (o : Outcome) : Prop := o.2.all fun r => decide (r.returnCode = .noError)

instance (o : Outcome) : Decidable (Accepted o) := inferInstanceAs (Decidable (_ = _))

/-- What the call stores is exact: each field of each process is as it was, or is its sum, and that is a time. -/
def StoresExactly (s : Pcb) (c : TimeCall) : Prop :=
  Accepted (s.exec c.service) → ∀ p, (c.sums s p).Exact (s.proc p) ((s.exec c.service).1.proc p)

/-! ## When they are exact -/

/-- `base` is a time, and so is the deadline of a process that counts from it. -/
def FitsFrom (base : Int) (x : Process) : Prop := IsTime base ∧ IsTime (deadlineFrom base x)

instance (base : Int) (x : Process) : Decidable (FitsFrom base x) := inferInstanceAs (Decidable (_ ∧ _))

/-- What the way to `NORMAL` mode stores for a process is in range, and counts from the first release point if that is
    what the process is told. -/
def FitsNormal (s : Pcb) (x : Process) : Prop :=
  FitsFrom (s.normalBase x) x ∧ (x.processState = .waiting → x.attributes.period ≠ infiniteTimeValue →
    s.conf.throughPointer s.arincTimeFindFirstReleasePoint = i64 s.arincTimeFindFirstReleasePoint)

instance (s : Pcb) (x : Process) : Decidable (s.FitsNormal x) := inferInstanceAs (Decidable (_ ∧ _))

/-- The process is one that a start in `NORMAL` mode releases with the periods of its partition. -/
structure StartsPeriodic (s : Pcb) (x : Process) : Prop where
  normal : s.status.operatingMode = .normal
  dormant : x.processState = .dormant
  periodic : x.attributes.period ≠ infiniteTimeValue

instance (s : Pcb) (x : Process) : Decidable (StartsPeriodic s x) :=
  decidable_of_iff (s.status.operatingMode = .normal ∧ x.processState = .dormant
    ∧ x.attributes.period ≠ infiniteTimeValue) ⟨fun h => ⟨h.1, h.2.1, h.2.2⟩, fun h => ⟨h.1, h.2, h.3⟩⟩

/-- The checks of `DELAYED_START` of a periodic process. -/
structure AdmitsDelay (s : Pcb) (x : Process) (delayTime : Int) : Prop where
  valid : ¬ s.timeOutInvalid delayTime = true
  finite : delayTime ≠ infiniteTimeValue
  inPeriod : delayTime < x.attributes.period
  capacity : ¬ (x.attributes.timeCapacity < infiniteTimeValue ∨ (0 ≤ x.attributes.timeCapacity
    ∧ timeOverflow (s.krnl.uptime + x.attributes.timeCapacity.toNat + delayTime.toNat) = true))

instance (s : Pcb) (x : Process) (delayTime : Int) : Decidable (AdmitsDelay s x delayTime) :=
  decidable_of_iff (¬ s.timeOutInvalid delayTime = true ∧ delayTime ≠ infiniteTimeValue
    ∧ delayTime < x.attributes.period ∧ ¬ (x.attributes.timeCapacity < infiniteTimeValue
      ∨ (0 ≤ x.attributes.timeCapacity
        ∧ timeOverflow (s.krnl.uptime + x.attributes.timeCapacity.toNat + delayTime.toNat) = true)))
    ⟨fun h => ⟨h.1, h.2.1, h.2.2.1, h.2.2.2⟩, fun h => ⟨h.1, h.2, h.3, h.4⟩⟩

/-- What an action needs for the times it stores to be exact: a periodic process that is started in `NORMAL` mode
    has its first deadline in range, and so has each started process when the partition gets to `NORMAL` mode. -/
def TimesFit (s : Pcb) : Action → Prop
  | .call (.start processId) => ∀ node ∈ s.isProcessIdExisted processId, StartsPeriodic s (s.proc node.data) →
      ¬ s.timeOutInvalid (s.proc node.data).attributes.timeCapacity = true →
        FitsFrom s.arincTimeFindFirstReleasePoint (s.proc node.data)
  | .call (.delayedStart processId delayTime) => ∀ node ∈ s.isProcessIdExisted processId,
      StartsPeriodic s (s.proc node.data) → AdmitsDelay s (s.proc node.data) delayTime →
        FitsFrom (s.arincTimeFindFirstReleasePoint + delayTime) (s.proc node.data)
  | .call (.setPartitionMode mode) => OperatingMode.ofInt? mode = some .normal → s.status.operatingMode ≠ .normal →
      ∀ n ∈ s.processes, (s.proc n.data).processState ≠ .dormant → s.FitsNormal (s.proc n.data)
  | _ => True

instance (s : Pcb) (e : Action) : Decidable (TimesFit s e) := by
  unfold TimesFit
  split <;> infer_instance

/-- A record as the steps that fit leave it: its attributes have passed the checks, and its release point leaves
    room for a deadline. -/
structure RecordValid (x : Process) : Prop where
  period : IsTime x.attributes.period
  capacity : x.attributes.period ≠ infiniteTimeValue → infiniteTimeValue ≤ x.attributes.timeCapacity
  release : IsTime x.releasePointTime
  deadline : x.attributes.period ≠ infiniteTimeValue → IsTime (deadlineFrom x.releasePointTime x)

structure TimesValid (s : Pcb) : Prop where
  timeCapacity : ∀ p, Is64 (s.proc p).attributes.timeCapacity
  record : ∀ p, p < s.nextProc → RecordValid (s.proc p)

/-- What `time_overflow` lets through. -/
theorem timeOverflow_eq_false {time : Nat} (h : ¬ timeOverflow time = true) : time % 2 ^ 64 < 2 ^ 63 := by
  unfold timeOverflow maxSystemTime at h
  have h := not_lt.mp fun hlt => h (decide_eq_true hlt)
  omega

/-- What the checks of a `TIME_OUT` let through. -/
theorem timeOutInvalid_eq_false {t : Int} (h : ¬ s.timeOutInvalid t = true) :
    -1 ≤ t ∧ (0 ≤ t → (s.krnl.uptime + t.toNat) % 2 ^ 64 < 2 ^ 63) := by
  unfold timeOutInvalid at h
  simp only [Bool.or_eq_true, Bool.and_eq_true, decide_eq_true_eq, not_or, not_and] at h
  exact ⟨not_lt.mp h.1, fun ht => timeOverflow_eq_false (h.2 ht)⟩

theorem isTime_iff (t : Int) : IsTime t ↔ t = -1 ∨ (0 ≤ t ∧ t < 2 ^ 63) := by
  unfold IsTime infiniteTimeValue maxSystemTime
  omega

/-- A checked time can be waited for. -/
theorem isTime_fromNow {t : Int} (huptime : s.krnl.uptime ≤ maxUptime) (ht : Is64 t)
    (hvalid : ¬ s.timeOutInvalid t = true) (hfinite : t ≠ infiniteTimeValue) :
    0 ≤ t ∧ IsTime (s.krnl.uptime + t) := by
  obtain ⟨hle, hsum⟩ := timeOutInvalid_eq_false hvalid
  unfold maxUptime at huptime
  unfold infiniteTimeValue at hfinite
  have hnonneg : 0 ≤ t := by omega
  have hsum := hsum hnonneg
  have hlt := ht.2
  rw [isTime_iff]
  omega

/-- The same for the time capacity of a process. -/
theorem isTime_deadlineFrom {x : Process} (huptime : s.krnl.uptime ≤ maxUptime)
    (hcapacity : Is64 x.attributes.timeCapacity) (hvalid : ¬ s.timeOutInvalid x.attributes.timeCapacity = true) :
    IsTime (deadlineFrom s.krnl.uptime x) := by
  unfold deadlineFrom
  split
  · exact Or.inl rfl
  · next hfinite => exact (isTime_fromNow huptime hcapacity hvalid hfinite).2

/-- And for an aperiodic process with a delay. -/
theorem isTime_deadlineFrom_delay {x : Process} {delayTime : Int} (huptime : s.krnl.uptime ≤ maxUptime)
    (hcapacity : Is64 x.attributes.timeCapacity) (hnonneg : 0 ≤ delayTime)
    (hvalid : ¬ (x.attributes.timeCapacity < infiniteTimeValue ∨ (0 ≤ x.attributes.timeCapacity
      ∧ timeOverflow (s.krnl.uptime + x.attributes.timeCapacity.toNat + delayTime.toNat) = true)))
    (hsum : IsTime (s.krnl.uptime + delayTime)) : IsTime (deadlineFrom (s.krnl.uptime + delayTime) x) := by
  unfold deadlineFrom
  split
  · exact Or.inl rfl
  · next hfinite =>
      obtain ⟨hle, hoverflow⟩ := not_or.mp hvalid
      unfold infiniteTimeValue at hle hfinite
      have hcapacityNonneg : 0 ≤ x.attributes.timeCapacity := by omega
      have hlt := timeOverflow_eq_false fun h => hoverflow ⟨hcapacityNonneg, h⟩
      have hcapacityLt := hcapacity.2
      unfold maxUptime at huptime
      rw [isTime_iff] at hsum ⊢
      omega

/-- `PERIODIC_WAIT` checks all it stores: the release point it counts from leaves room for the deadline, so the sum
    of the three does not reach `2 ^ 64`. -/
theorem RecordValid.fitsFrom {x : Process} (h : RecordValid x) (hperiodic : x.attributes.period ≠ infiniteTimeValue)
    (hvalid : ¬ timeOverflow (u64 (x.attributes.period + x.releasePointTime
      + if x.attributes.timeCapacity = infiniteTimeValue then 0 else x.attributes.timeCapacity)) = true) :
    FitsFrom (x.releasePointTime + x.attributes.period) x := by
  have hsum := timeOverflow_eq_false hvalid
  have hperiod := h.period
  have hcapacity := h.capacity hperiodic
  have hrelease := h.release
  have hdeadline := h.deadline hperiodic
  unfold u64 at hsum
  unfold FitsFrom deadlineFrom
  unfold deadlineFrom at hdeadline
  rw [isTime_iff] at hperiod hrelease
  by_cases hfinite : x.attributes.timeCapacity = infiniteTimeValue
  · rw [if_pos hfinite] at hsum ⊢
    unfold infiniteTimeValue at hperiodic
    refine ⟨?_, Or.inl rfl⟩
    rw [isTime_iff]
    omega
  · rw [if_neg hfinite] at hsum hdeadline ⊢
    unfold infiniteTimeValue at hperiodic hcapacity hfinite
    rw [isTime_iff] at hdeadline
    rw [isTime_iff, isTime_iff]
    omega

/-! ## What the calls store -/

/-- A call is refused, and then changes no record and needs nothing, or stores its sums. -/
inductive Computes (s : Pcb) (c : TimeCall) (o : Outcome) : Prop
  | refused (hrefused : ¬ Accepted o) (hproc : o.1.proc = s.proc) (hfits : TimesFit s (.call c.service))
  | stored (haccepted : Accepted o)
      (hexact : (∀ p, (c.sums s p).Exact (s.proc p) (o.1.proc p)) ↔ TimesFit s (.call c.service))

/-- A call that computes its sums in 64 bits. -/
theorem Computes.ofSums {c : TimeCall} {o : Outcome} (haccepted : Accepted o)
    (hstored : ∀ p, (c.sums s p).Computed (s.proc p) (o.1.proc p))
    (hfits : (∀ p, (c.sums s p).InRange) ↔ TimesFit s (.call c.service)) : Computes s c o :=
  .stored haccepted ((forall_congr' fun p => (hstored p).exact_iff).trans hfits)

/-- A refusal before the rest. -/
theorem Computes.ite {c : TimeCall} {b : Prop} [Decidable b] {rc : ReturnCode} {o : Outcome} (hrc : rc ≠ .noError)
    (hfits : b → TimesFit s (.call c.service)) (h : ¬ b → Computes s c o) :
    Computes s c (if b then s.ret rc else o) := by
  by_cases hb : b
  · rw [if_pos hb]
    refine .refused ?_ rfl (hfits hb)
    unfold Accepted ret
    simpa using hrc
  · rw [if_neg hb]
    exact h hb

/-- The sums of a call about one process. -/
theorem TimeCall.inRange_iff {c : TimeCall} (hconcerns : ∀ q, c.Concerns s q ↔ q = p) :
    (∀ q, (c.sums s q).InRange) ↔ (c.sumsOf s (s.proc p)).InRange := by
  constructor
  · intro hall
    have h := hall p
    rw [sums, if_pos ((hconcerns p).mpr rfl)] at h
    exact h
  · intro h q
    rw [sums]
    by_cases hq : q = p
    · rw [if_pos ((hconcerns q).mpr hq), hq]
      exact h
    · rw [if_neg fun hc => hq ((hconcerns q).mp hc)]
      exact TimeSums.inRange_empty

/-- A call about one process, whose sums the checks keep in range. -/
theorem Computes.checked {c : TimeCall} {o : Outcome} (haccepted : Accepted o)
    (hconcerns : ∀ q, c.Concerns s q ↔ q = p)
    (hstored : ∀ q, (c.sums s q).Computed (s.proc q) (o.1.proc q))
    (hrange : (c.sumsOf s (s.proc p)).InRange) (hfits : TimesFit s (.call c.service)) : Computes s c o := by
  refine .ofSums haccepted hstored ?_
  rw [TimeCall.inRange_iff hconcerns]
  exact ⟨fun _ => hfits, fun _ => hrange⟩

/-- One record is written. -/
theorem TimeCall.written {c : TimeCall} {f : Process → Process} (t : Pcb) (ht : t.proc = (s.modProc p f).proc)
    (hconcerns : ∀ q, c.Concerns s q ↔ q = p)
    (hp : (c.sumsOf s (s.proc p)).Computed (s.proc p) (f (s.proc p))) (q : Nat) :
    (c.sums s q).Computed (s.proc q) (t.proc q) := by
  rw [ht, sums]
  by_cases hq : q = p
  · rw [if_pos ((hconcerns q).mpr hq), hq, modProc_proc_self]
    exact hp
  · rw [if_neg fun h => hq ((hconcerns q).mp h), modProc_proc_of_ne hq]
    exact .refl _

/-- One record is written twice. -/
theorem TimeCall.written_twice {c : TimeCall} {f g : Process → Process} (hconcerns : ∀ q, c.Concerns s q ↔ q = p)
    (hp : (c.sumsOf s (s.proc p)).Computed (s.proc p) (g (f (s.proc p)))) (q : Nat) :
    (c.sums s q).Computed (s.proc q) (((s.modProc p f).modProc p g).proc q) :=
  written (f := fun x => g (f x)) _ (congrArg Pcb.proc (modProc_modProc s p f g)) hconcerns hp q

/-- A call of the current process. -/
theorem Computes.withCurrent {c : TimeCall} {f : Node → Outcome}
    (hconcerns : ∀ q, c.Concerns s q ↔ s.processCurrent.map Node.data = some q)
    (hfits : TimesFit s (.call c.service))
    (h : ∀ node, s.processCurrent = some node → (∀ q, c.Concerns s q ↔ q = node.data) → Computes s c (f node)) :
    Computes s c (s.withCurrent f) := by
  unfold Pcb.withCurrent
  split
  · next hnone =>
      -- nobody calls
      have hnobody : ∀ q, c.sums s q = {} := by
        intro q
        rw [TimeCall.sums, if_neg fun hq => by rw [hconcerns, hnone] at hq; cases hq]
      refine .ofSums rfl (fun q => ?_) ⟨fun _ => hfits, fun _ q => ?_⟩
      · rw [hnobody]
        exact .refl _
      · rw [hnobody]
        exact TimeSums.inRange_empty
  · next node hnode =>
      refine h node hnode fun q => ?_
      rw [hconcerns, hnode]
      exact ⟨fun h => (Option.some.inj h).symm, fun h => congrArg some h.symm⟩

/-- A time counter that is set. -/
theorem waitSums_of_finite {timeOut : Int} (hzero : timeOut ≠ 0) (hfinite : timeOut ≠ infiniteTimeValue) :
    s.waitSums timeOut = { timeCounter := some (s.krnl.uptime + timeOut) } := by
  unfold waitSums
  rw [if_neg (not_or.mpr ⟨hzero, hfinite⟩)]

/-- Waiting for a checked time. -/
theorem inRange_waitSums {timeOut : Int} (huptime : s.krnl.uptime ≤ maxUptime) (htime : Is64 timeOut)
    (hvalid : ¬ s.timeOutInvalid timeOut = true) : (s.waitSums timeOut).InRange := by
  unfold waitSums
  split
  · exact TimeSums.inRange_empty
  · next hnot =>
      refine ⟨fun t ht => ?_, fun _ ht => (nomatch ht), fun _ ht => (nomatch ht)⟩
      rw [← Option.some.inj ht]
      exact (isTime_fromNow huptime htime hvalid fun h => hnot (Or.inr h)).2

theorem timedWait_computes (huptime : s.krnl.uptime ≤ maxUptime) {delayTime : Int} (htime : Is64 delayTime) :
    Computes s (.timedWait delayTime) (s.timedWait delayTime) := by
  refine .withCurrent (fun _ => Iff.rfl) trivial fun node hnode hconcerns => ?_
  refine .ite (by decide) (fun _ => trivial) fun _ => .ite (by decide) (fun _ => trivial) fun hvalid => ?_
  refine .ite (by decide) (fun _ => trivial) fun hfinite => ?_
  have hrange := inRange_waitSums huptime htime hvalid
  by_cases hzero : delayTime = 0
  · -- only its place in the list changes
    rw [if_pos hzero]
    refine .checked rfl hconcerns (fun q => ?_) hrange trivial
    refine .yield (TimeCall.written (f := fun x => { x with processState := .ready }) _ rfl hconcerns ?_ q) _ _
    rw [TimeCall.sumsOf, waitSums, if_pos (Or.inl hzero)]
    exact ⟨rfl, rfl, rfl⟩
  · rw [if_neg hzero]
    refine .checked rfl hconcerns (fun q => .yield (TimeCall.written _ rfl hconcerns ?_ q) _ _) hrange trivial
    rw [TimeCall.sumsOf, waitSums_of_finite hzero hfinite]
    exact ⟨Or.inl rfl, rfl, rfl⟩

theorem suspendSelf_computes (huptime : s.krnl.uptime ≤ maxUptime) {timeOut : Int} (htime : Is64 timeOut) :
    Computes s (.suspendSelf timeOut) (s.suspendSelf timeOut) := by
  refine .withCurrent (fun _ => Iff.rfl) trivial fun node hnode hconcerns => ?_
  refine .ite (by decide) (fun _ => trivial) fun _ => .ite (by decide) (fun _ => trivial) fun hvalid => ?_
  refine .ite (by decide) (fun _ => trivial) fun _ => ?_
  have hrange := inRange_waitSums huptime htime hvalid
  by_cases hzero : timeOut = 0
  · rw [if_pos hzero]
    refine .checked rfl hconcerns (TimeCall.written (f := id) s (Function.update_eq_self _ _).symm hconcerns ?_)
      hrange trivial
    rw [TimeCall.sumsOf, waitSums, if_pos (Or.inl hzero)]
    exact .refl _
  · rw [if_neg hzero]
    refine .checked rfl hconcerns (fun q => .yield (TimeCall.written _ rfl hconcerns ?_ q) _ _) hrange trivial
    rw [TimeCall.sumsOf]
    by_cases hfinite : timeOut = infiniteTimeValue
    · rw [waitSums, if_pos (Or.inr hfinite)]
      exact ⟨if_neg (not_not.mpr hfinite), rfl, rfl⟩
    · rw [waitSums_of_finite hzero hfinite]
      exact ⟨Or.inl (if_pos hfinite), rfl, rfl⟩

/-- `update_process_deadline`, from a base that is itself a sum in 64 bits. -/
theorem updateProcessDeadline_computed {base sum : Int} (hbase : base = sum ∨ base = i64 sum) (x : Process) :
    (updateProcessDeadline base x).deadlineTime = deadlineFrom sum x
      ∨ (updateProcessDeadline base x).deadlineTime = i64 (deadlineFrom sum x) := by
  unfold updateProcessDeadline deadlineFrom
  dsimp only
  split
  · exact Or.inl rfl
  · right
    rcases hbase with rfl | rfl
    · rfl
    · exact Int.bmod_add_bmod

/-- A release point and a deadline that fit. -/
theorem inRange_release {base : Int} {x : Process} (h : FitsFrom base x) :
    TimeSums.InRange { releasePointTime := some base, deadlineTime := some (deadlineFrom base x) } :=
  ⟨fun _ ht => (nomatch ht), fun _ ht => Option.some.inj ht ▸ h.1, fun _ ht => Option.some.inj ht ▸ h.2⟩

theorem periodicWait_computes (hvalid : TimesValid s)
    (hcurrent : ∀ c, s.processCurrent = some c → c.data < s.nextProc) : Computes s .periodicWait s.periodicWait := by
  refine .withCurrent (fun _ => Iff.rfl) trivial fun node hnode hconcerns => ?_
  dsimp only
  refine .ite (by decide) (fun _ => trivial) fun _ => .ite (by decide) (fun _ => trivial) fun hperiodic => ?_
  refine .ite (by decide) (fun _ => trivial) fun hoverflow => ?_
  have hlt := hcurrent node hnode
  refine .checked rfl hconcerns (fun q => .yield (TimeCall.written _ rfl hconcerns ?_ q) _ _) ?_ trivial
  · exact ⟨rfl, Or.inr rfl, updateProcessDeadline_computed (Or.inr rfl) _⟩
  · exact inRange_release ((hvalid.record _ hlt).fitsFrom hperiodic hoverflow)

theorem replenish_computes (huptime : s.krnl.uptime ≤ maxUptime) {budgetTime : Int} (htime : Is64 budgetTime) :
    Computes s (.replenish budgetTime) (s.replenish budgetTime) := by
  refine .withCurrent (fun _ => Iff.rfl) trivial fun node hnode hconcerns => ?_
  dsimp only
  refine .ite (by decide) (fun _ => trivial) fun _ => .ite (by decide) (fun _ => trivial) fun hvalid => ?_
  refine .ite (by decide) (fun _ => trivial) fun hmode => ?_
  refine .checked rfl hconcerns (TimeCall.written _ rfl hconcerns ⟨rfl, rfl, Or.inl ?_⟩) ?_ trivial
  · dsimp only
    by_cases hcapacity : (s.proc node.data).attributes.timeCapacity = infiniteTimeValue
    · rw [if_pos hcapacity, if_pos (Or.inl hcapacity)]
    · rw [if_neg hcapacity]
      by_cases hbudget : budgetTime = infiniteTimeValue
      · have haperiodic : (s.proc node.data).attributes.period = infiniteTimeValue := by
          by_contra hperiodic
          exact hmode ⟨hperiodic, Or.inl hbudget⟩
        rw [if_pos ⟨haperiodic, hbudget⟩, if_pos (Or.inr hbudget)]
      · rw [if_neg fun h => hbudget h.2, if_neg (not_or.mpr ⟨hcapacity, hbudget⟩)]
        rfl
  · refine ⟨fun _ ht => (nomatch ht), fun _ ht => (nomatch ht), fun t ht => ?_⟩
    rw [← Option.some.inj ht]
    split
    · exact Or.inl rfl
    · next hfinite => exact (isTime_fromNow huptime htime hvalid fun h => hfinite (Or.inr h)).2

/-- A call that finds the process it is about. -/
theorem Computes.withProcess {c : TimeCall} {processId : Int} {f : Node → Outcome}
    (hconcerns : ∀ q, c.Concerns s q ↔ (s.isProcessIdExisted processId).map Node.data = some q)
    (hfits : s.isProcessIdExisted processId = none → TimesFit s (.call c.service))
    (h : ∀ node, s.isProcessIdExisted processId = some node → (∀ q, c.Concerns s q ↔ q = node.data) →
      Computes s c (f node)) : Computes s c (s.withProcess processId f) := by
  unfold Pcb.withProcess
  split
  · next hnone =>
      refine .refused ?_ rfl (hfits hnone)
      unfold Accepted ret
      simp
  · next node hnode =>
      refine h node hnode fun q => ?_
      rw [hconcerns, hnode]
      exact ⟨fun h => (Option.some.inj h).symm, fun h => congrArg some h.symm⟩

/-- The caller yields, if there is one. -/
theorem TimeSums.Computed.withCurrent_yield {sums : TimeSums} {x : Process} (h : sums.Computed x (s.proc p))
    (k : Context) : sums.Computed x ((s.withCurrent fun current => s.yieldToPartition current.data k).1.proc p) := by
  unfold Pcb.withCurrent
  split
  · exact h
  · exact h.yield _ _

theorem accepted_withCurrent_yield (k : Context) :
    Accepted (s.withCurrent fun current => s.yieldToPartition current.data k) := by
  unfold Pcb.withCurrent
  split <;> rfl

theorem timesFit_start {processId : Int} {node : Node} (hnode : s.isProcessIdExisted processId = some node) :
    TimesFit s (.call (.start processId)) ↔ (StartsPeriodic s (s.proc node.data) →
      ¬ s.timeOutInvalid (s.proc node.data).attributes.timeCapacity = true →
        FitsFrom s.arincTimeFindFirstReleasePoint (s.proc node.data)) := by
  constructor
  · intro h
    exact h node hnode
  · intro h node' hnode'
    obtain rfl := Option.some.inj (hnode.symm.trans hnode')
    exact h

theorem timesFit_delayedStart {processId delayTime : Int} {node : Node}
    (hnode : s.isProcessIdExisted processId = some node) :
    TimesFit s (.call (.delayedStart processId delayTime)) ↔ (StartsPeriodic s (s.proc node.data) →
      AdmitsDelay s (s.proc node.data) delayTime →
        FitsFrom (s.arincTimeFindFirstReleasePoint + delayTime) (s.proc node.data)) := by
  constructor
  · intro h
    exact h node hnode
  · intro h node' hnode'
    obtain rfl := Option.some.inj (hnode.symm.trans hnode')
    exact h

/-- Before `NORMAL` mode a start stores no time. -/
theorem startSums_before {x : Process} (hmode : s.status.operatingMode ≠ .normal) (delayTime : Int) :
    s.startSums delayTime x = {} := by
  unfold startSums
  rw [if_pos hmode]

/-- In `NORMAL` mode an aperiodic process is released at once, or after its delay. -/
theorem startSums_aperiodic {x : Process} (hmode : s.status.operatingMode = .normal)
    (hperiod : x.attributes.period = infiniteTimeValue) (delayTime : Int) : s.startSums delayTime x =
      { timeCounter := if delayTime = 0 then none else some (s.krnl.uptime + delayTime)
        deadlineTime := some (deadlineFrom (s.krnl.uptime + delayTime) x) } := by
  unfold startSums
  rw [if_neg (not_not.mpr hmode), if_pos hperiod]

/-- A periodic process is released with the periods of its partition. -/
theorem startSums_periodic {x : Process} (hmode : s.status.operatingMode = .normal)
    (hperiod : x.attributes.period ≠ infiniteTimeValue) (delayTime : Int) : s.startSums delayTime x =
      { releasePointTime := some (s.arincTimeFindFirstReleasePoint + delayTime)
        deadlineTime := some (deadlineFrom (s.arincTimeFindFirstReleasePoint + delayTime) x) } := by
  unfold startSums
  rw [if_neg (not_not.mpr hmode), if_neg hperiod]

theorem start_computes (hvalid : TimesValid s) (huptime : s.krnl.uptime ≤ maxUptime) (processId : Int) :
    Computes s (.start processId) (s.start processId) := by
  refine .withProcess (fun _ => Iff.rfl) (fun hnone node hnode => ?_) fun node hnode hconcerns => ?_
  · rw [hnone] at hnode
    cases hnode
  dsimp only
  refine .ite (by decide) (fun hstate => ?_) fun hstate => ?_
  · exact (timesFit_start hnode).mpr fun hstarts => absurd hstarts.dormant hstate
  refine .ite (by decide) (fun hinvalid => ?_) fun hcapacity => ?_
  · exact (timesFit_start hnode).mpr fun _ hvalid => absurd hinvalid hvalid
  split
  · next hmode =>
      -- it starts with the partition
      change s.status.operatingMode ≠ .normal at hmode
      refine .checked rfl hconcerns (fun q => ?_) ?_ ?_
      · dsimp only [ret]
        refine TimeCall.written_twice hconcerns ?_ q
        rw [TimeCall.sumsOf, startSums_before hmode]
        exact ⟨rfl, rfl, rfl⟩
      · rw [TimeCall.sumsOf, startSums_before hmode]
        exact TimeSums.inRange_empty
      · exact (timesFit_start hnode).mpr fun hstarts => absurd hstarts.normal hmode
  · next hmode =>
      have hmode : s.status.operatingMode = .normal := not_not.mp hmode
      rw [modProc_proc_self]
      split
      · next hperiod =>
          change (s.proc node.data).attributes.period = _ at hperiod
          refine .checked (accepted_withCurrent_yield _) hconcerns
            (fun q => .withCurrent_yield (TimeCall.written_twice hconcerns ?_ q) _) ?_ ?_
          · rw [TimeCall.sumsOf, startSums_aperiodic hmode hperiod, Int.add_zero]
            exact ⟨rfl, rfl, updateProcessDeadline_computed (Or.inl rfl) _⟩
          · rw [TimeCall.sumsOf, startSums_aperiodic hmode hperiod, Int.add_zero]
            refine ⟨fun _ ht => (nomatch ht), fun _ ht => (nomatch ht), fun _ ht => ?_⟩
            rw [← Option.some.inj ht]
            exact isTime_deadlineFrom huptime (hvalid.timeCapacity _) hcapacity
          · exact (timesFit_start hnode).mpr fun hstarts => absurd hperiod hstarts.periodic
      · next hperiod =>
          change ¬ (s.proc node.data).attributes.period = _ at hperiod
          refine .ofSums rfl (fun q => ?_) ?_
          · dsimp only [ret]
            refine TimeCall.written_twice hconcerns ?_ q
            rw [TimeCall.sumsOf, startSums_periodic hmode hperiod, Int.add_zero]
            exact ⟨rfl, Or.inl rfl, updateProcessDeadline_computed (Or.inl rfl) _⟩
          · rw [TimeCall.inRange_iff hconcerns, TimeCall.sumsOf, startSums_periodic hmode hperiod, Int.add_zero]
            constructor
            · intro hrange
              exact (timesFit_start hnode).mpr fun _ _ => ⟨hrange.releasePointTime _ rfl, hrange.deadlineTime _ rfl⟩
            · intro hfits
              exact inRange_release ((timesFit_start hnode).mp hfits ⟨hmode, not_not.mp hstate, hperiod⟩ hcapacity)

theorem delayedStart_computes (hvalid : TimesValid s) (huptime : s.krnl.uptime ≤ maxUptime) (processId : Int)
    {delayTime : Int} (htime : Is64 delayTime) :
    Computes s (.delayedStart processId delayTime) (s.delayedStart processId delayTime) := by
  refine .withProcess (fun _ => Iff.rfl) (fun hnone node hnode => ?_) fun node hnode hconcerns => ?_
  · rw [hnone] at hnode
    cases hnode
  dsimp only
  refine .ite (by decide) (fun hstate => ?_) fun hstate => ?_
  · exact (timesFit_delayedStart hnode).mpr fun hstarts => absurd hstarts.dormant hstate
  refine .ite (by decide) (fun hinvalid => ?_) fun hdelay => ?_
  · exact (timesFit_delayedStart hnode).mpr fun _ hadmits => absurd hinvalid hadmits.valid
  refine .ite (by decide) (fun hinfinite => ?_) fun hfinite => ?_
  · exact (timesFit_delayedStart hnode).mpr fun _ hadmits => absurd hinfinite hadmits.finite
  refine .ite (by decide) (fun hlong => ?_) fun hshort => ?_
  · exact (timesFit_delayedStart hnode).mpr fun _ hadmits => absurd hadmits.inPeriod (not_lt.mpr hlong.2)
  refine .ite (by decide) (fun hinvalid => ?_) fun hcapacity => ?_
  · exact (timesFit_delayedStart hnode).mpr fun _ hadmits => absurd hinvalid hadmits.capacity
  obtain ⟨hnonneg, hsum⟩ := isTime_fromNow huptime htime hdelay hfinite
  split
  · next hmode =>
      change s.status.operatingMode ≠ .normal at hmode
      refine .checked rfl hconcerns (fun q => ?_) ?_ ?_
      · dsimp only [ret]
        refine TimeCall.written_twice hconcerns ?_ q
        rw [TimeCall.sumsOf, startSums_before hmode]
        exact ⟨rfl, rfl, rfl⟩
      · rw [TimeCall.sumsOf, startSums_before hmode]
        exact TimeSums.inRange_empty
      · exact (timesFit_delayedStart hnode).mpr fun hstarts => absurd hstarts.normal hmode
  · next hmode =>
      have hmode : s.status.operatingMode = .normal := not_not.mp hmode
      rw [modProc_proc_self]
      split
      · next hperiod =>
          change (s.proc node.data).attributes.period = _ at hperiod
          refine .checked (accepted_withCurrent_yield _) hconcerns
            (fun q => .withCurrent_yield (TimeCall.written_twice hconcerns ?_ q) _) ?_ ?_
          · rw [TimeCall.sumsOf, startSums_aperiodic hmode hperiod]
            by_cases hzero : delayTime = 0
            · rw [if_pos hzero, hzero, Int.add_zero, if_pos rfl]
              exact ⟨rfl, rfl, updateProcessDeadline_computed (Or.inl rfl) _⟩
            · rw [if_neg hzero, if_neg hzero]
              exact ⟨Or.inl rfl, rfl, updateProcessDeadline_computed (Or.inl rfl) _⟩
          · rw [TimeCall.sumsOf, startSums_aperiodic hmode hperiod]
            refine ⟨fun t ht => ?_, fun _ ht => (nomatch ht), fun t ht => ?_⟩
            · dsimp only at ht
              split at ht
              · cases ht
              · rw [← Option.some.inj ht]
                exact hsum
            · rw [← Option.some.inj ht]
              exact isTime_deadlineFrom_delay huptime (hvalid.timeCapacity _) hnonneg hcapacity hsum
          · exact (timesFit_delayedStart hnode).mpr fun hstarts => absurd hperiod hstarts.periodic
      · next hperiod =>
          change ¬ (s.proc node.data).attributes.period = _ at hperiod
          refine .ofSums rfl (fun q => ?_) ?_
          · dsimp only [ret]
            refine TimeCall.written_twice hconcerns ?_ q
            rw [TimeCall.sumsOf, startSums_periodic hmode hperiod]
            exact ⟨rfl, Or.inr rfl, updateProcessDeadline_computed (Or.inr rfl) _⟩
          · rw [TimeCall.inRange_iff hconcerns, TimeCall.sumsOf, startSums_periodic hmode hperiod]
            constructor
            · intro hrange
              exact (timesFit_delayedStart hnode).mpr fun _ _ =>
                ⟨hrange.releasePointTime _ rfl, hrange.deadlineTime _ rfl⟩
            · intro hfits
              exact inRange_release ((timesFit_delayedStart hnode).mp hfits ⟨hmode, not_not.mp hstate, hperiod⟩
                ⟨hdelay, hfinite, not_le.mp fun h => hshort ⟨hperiod, h⟩, hcapacity⟩)

/-- What `start_process` stores, if it is told the first release point. -/
theorem startProcess_computed {x : Process} {point : Int}
    (hpoint : x.processState = .waiting → x.attributes.period ≠ infiniteTimeValue →
      point = i64 s.arincTimeFindFirstReleasePoint) :
    (s.normalSums x).Computed x (startProcess s.krnl.uptime point x) := by
  unfold normalSums normalBase startProcess
  by_cases hdormant : x.processState = .dormant
  · simp only [hdormant, if_true, reduceCtorEq, false_and, if_false, ne_eq, not_true_eq_false]
    exact .refl x
  by_cases hwaiting : x.processState = .waiting
  swap
  · -- it goes on from the release point it has
    simp only [hdormant, hwaiting, if_false, false_and, ne_eq, not_false_eq_true, if_true]
    exact ⟨rfl, rfl, updateProcessDeadline_computed (Or.inl rfl) x⟩
  by_cases hperiod : x.attributes.period = infiniteTimeValue
  · by_cases hdelay : x.savedInitDelay = 0
    · cases hsuspended : x.isSuspended with
      | false =>
          simp only [hwaiting, hperiod, hdelay, reduceCtorEq, if_false, if_true, true_and, ne_eq, not_true_eq_false,
            or_self, Bool.false_eq_true]
          exact ⟨rfl, rfl, updateProcessDeadline_computed (Or.inl rfl) _⟩
      | true =>
          simp only [hwaiting, hperiod, hdelay, reduceCtorEq, if_false, if_true, true_and, ne_eq,
            not_true_eq_false, or_self, Bool.true_eq_false, not_false_eq_true]
          exact ⟨rfl, rfl, updateProcessDeadline_computed (Or.inl rfl) _⟩
    · simp only [hwaiting, hperiod, hdelay, reduceCtorEq, if_false, if_true, true_and, ne_eq, not_true_eq_false,
        or_true, not_false_eq_true, false_and]
      exact ⟨rfl, Or.inr rfl, updateProcessDeadline_computed (Or.inr rfl) _⟩
  · have hsum : i64 (point + x.savedInitDelay) = i64 (s.arincTimeFindFirstReleasePoint + x.savedInitDelay) := by
      rw [hpoint hwaiting hperiod]
      exact Int.bmod_add_bmod
    simp only [hwaiting, hperiod, reduceCtorEq, if_false, if_true, ne_eq, true_or, not_false_eq_true, false_and,
      and_false, and_self]
    exact ⟨rfl, Or.inr hsum, updateProcessDeadline_computed (Or.inr hsum) _⟩

/-- Where no release point is stored, the deadline counts from a time. -/
theorem inRange_normalSums {x : Process} (huptime : s.krnl.uptime ≤ maxUptime) (hrelease : IsTime x.releasePointTime) :
    (s.normalSums x).InRange ↔ (x.processState ≠ .dormant → FitsFrom (s.normalBase x) x) := by
  unfold normalSums
  by_cases hdormant : x.processState = .dormant
  · rw [if_pos hdormant]
    exact ⟨fun _ hstate => absurd hdormant hstate, fun _ => TimeSums.inRange_empty⟩
  rw [if_neg hdormant]
  constructor
  · intro hrange _
    refine ⟨?_, hrange.deadlineTime _ rfl⟩
    by_cases hstores : x.processState = .waiting
        ∧ (x.attributes.period ≠ infiniteTimeValue ∨ x.savedInitDelay ≠ 0)
    · exact hrange.releasePointTime _ (if_pos hstores)
    · -- the deadline counts from the uptime or the old release point
      unfold normalBase
      split
      · next hwaiting =>
          obtain ⟨hperiod, hdelay⟩ := not_or.mp fun h => hstores ⟨hwaiting, h⟩
          rw [if_pos (not_not.mp hperiod), if_neg hdelay]
          split
          · exact hrelease
          · unfold maxUptime at huptime
            rw [isTime_iff]
            omega
      · exact hrelease
  · intro hfits
    have hfits := hfits hdormant
    refine ⟨fun _ ht => (nomatch ht), fun t ht => ?_, fun t ht => ?_⟩
    · dsimp only at ht
      split at ht
      · rw [← Option.some.inj ht]
        exact hfits.1
      · cases ht
    · rw [← Option.some.inj ht]
      exact hfits.2

/-- A periodic process that is told another release point stores that. -/
theorem throughPointer_eq_of_exact {x : Process} (hwaiting : x.processState = .waiting)
    (hperiod : x.attributes.period ≠ infiniteTimeValue)
    (hexact : (s.normalSums x).Exact x (startProcess s.krnl.uptime
      (s.conf.throughPointer s.arincTimeFindFirstReleasePoint) x)) :
    s.conf.throughPointer s.arincTimeFindFirstReleasePoint = i64 s.arincTimeFindFirstReleasePoint := by
  have hnew := hexact.releasePointTime
  unfold normalSums normalBase startProcess at hnew
  simp only [hwaiting, hperiod, reduceCtorEq, if_false, if_true, ne_eq, true_or, not_false_eq_true, false_and,
    and_false, and_self] at hnew
  have hstored : i64 (s.conf.throughPointer s.arincTimeFindFirstReleasePoint + x.savedInitDelay)
      = s.arincTimeFindFirstReleasePoint + x.savedInitDelay := hnew.1
  calc s.conf.throughPointer s.arincTimeFindFirstReleasePoint
      = i64 (s.conf.throughPointer s.arincTimeFindFirstReleasePoint) := Int.bmod_bmod.symm
    _ = i64 (s.conf.throughPointer s.arincTimeFindFirstReleasePoint + x.savedInitDelay - x.savedInitDelay) := by
        rw [Int.add_sub_cancel]
    _ = i64 (s.arincTimeFindFirstReleasePoint + x.savedInitDelay - x.savedInitDelay) := by
        rw [← hstored]
        exact Int.bmod_sub_bmod.symm
    _ = i64 s.arincTimeFindFirstReleasePoint := by rw [Int.add_sub_cancel]

/-- When `start_process` stores what it should. -/
theorem startProcess_exact_iff {x : Process} (huptime : s.krnl.uptime ≤ maxUptime)
    (hrelease : IsTime x.releasePointTime) :
    (s.normalSums x).Exact x (startProcess s.krnl.uptime (s.conf.throughPointer s.arincTimeFindFirstReleasePoint) x)
      ↔ (x.processState ≠ .dormant → s.FitsNormal x) := by
  by_cases hpoint : x.processState = .waiting → x.attributes.period ≠ infiniteTimeValue →
      s.conf.throughPointer s.arincTimeFindFirstReleasePoint = i64 s.arincTimeFindFirstReleasePoint
  · rw [(startProcess_computed hpoint).exact_iff, inRange_normalSums huptime hrelease]
    exact forall_congr' fun _ => (and_iff_left hpoint).symm
  · refine iff_of_false (fun hexact => hpoint fun hwaiting hperiod =>
      throughPointer_eq_of_exact hwaiting hperiod hexact) fun hfits => ?_
    obtain ⟨hwaiting, -⟩ := Classical.not_imp.mp hpoint
    exact hpoint (hfits (by rw [hwaiting]; decide)).2

/-- The way to `NORMAL` mode starts each process once. -/
theorem toNormal_computes (hvalid : TimesValid s) (huptime : s.krnl.uptime ≤ maxUptime)
    (hallocated : ∀ p, (∃ n ∈ s.processes, n.data = p) → p < s.nextProc)
    (hstarting : s.status.operatingMode ≠ .normal → Starting s) (hlinked : OnceLinked s) :
    Computes s .toNormal (s.setPartitionMode 3) := by
  unfold setPartitionMode
  rw [show OperatingMode.ofInt? 3 = some .normal by rfl]
  dsimp only
  refine .ite (by decide) (fun hnormal _ hmode => absurd hnormal.2 hmode) fun hmode => ?_
  rw [if_neg fun h => OperatingMode.noConfusion h.1]
  have hmode : s.status.operatingMode ≠ .normal := fun h => hmode ⟨rfl, h⟩
  let started := startProcess s.krnl.uptime (s.conf.throughPointer s.arincTimeFindFirstReleasePoint)
  have hvisited : ∀ q, visited s.processes started s.proc q
      = if TimeCall.toNormal.Concerns s q then started (s.proc q) else s.proc q := fun q => by
    rw [visited_iterate]
    by_cases hq : TimeCall.toNormal.Concerns s q
    · rw [if_pos hq, List.count_eq_one_of_mem (hlinked (hstarting hmode)) (List.mem_map.mpr hq)]
      rfl
    · rw [if_neg hq, List.count_eq_zero_of_not_mem fun h => hq (List.mem_map.mp h)]
      rfl
  have hexact : ∀ q, (TimeCall.toNormal.sums s q).Exact (s.proc q) (visited s.processes started s.proc q)
      ↔ (TimeCall.toNormal.Concerns s q → (s.proc q).processState ≠ .dormant → s.FitsNormal (s.proc q)) := fun q => by
    rw [hvisited, TimeCall.sums]
    by_cases hq : TimeCall.toNormal.Concerns s q
    · rw [if_pos hq, if_pos hq, forall_prop_of_true hq]
      exact startProcess_exact_iff huptime (hvalid.record _ (hallocated _ hq)).release
    · rw [if_neg hq, if_neg hq]
      exact iff_of_true ⟨rfl, rfl, rfl⟩ fun h => absurd h hq
  refine .stored rfl (Iff.trans (forall_congr' fun q => Iff.trans ?_ (hexact q)) ?_)
  · -- the error handler's context is no time
    dsimp only [toPartitionOs]
    unfold startProcesses
    rw [forEachProcess_eq]
    dsimp only
    split
    · exact Iff.rfl
    · next errorProcess _ =>
        rw [modProc_proc]
        split
        · next hq =>
            rw [hq]
            exact ⟨fun h => ⟨h.timeCounter, h.releasePointTime, h.deadlineTime⟩,
              fun h => ⟨h.timeCounter, h.releasePointTime, h.deadlineTime⟩⟩
        · exact Iff.rfl
  · constructor
    · intro hall _ _ n hn
      exact hall n.data ⟨n, hn, rfl⟩
    · rintro hfits _ ⟨n, hn, rfl⟩
      exact hfits rfl hmode n hn

/-- The times in the arguments of a service are values of `SYSTEM_TIME_TYPE`. -/
def Is64Call : Service → Prop
  | .createProcess attributes => Is64 attributes.period ∧ Is64 attributes.timeCapacity
  | .delayedStart _ t | .replenish t | .timedWait t | .suspendSelf t => Is64 t
  | _ => True

/-- Every call is refused or stores its sums. -/
theorem exec_computes (hvalid : TimesValid s) (hsound : Sound s) (hallocated : Allocated s) (hlinked : OnceLinked s)
    (hrunning : Running s) (huptime : s.krnl.uptime ≤ maxUptime) {c : TimeCall} (hc : Is64Call c.service) :
    Computes s c (s.exec c.service) := by
  cases c with
  | start processId => exact start_computes hvalid huptime processId
  | delayedStart processId delayTime => exact delayedStart_computes hvalid huptime processId hc
  | periodicWait =>
      exact periodicWait_computes hvalid fun c hcurrent => hallocated _ (Or.inr (Or.inl ⟨c, hcurrent, rfl⟩))
  | replenish budgetTime => exact replenish_computes huptime hc
  | timedWait delayTime => exact timedWait_computes huptime hc
  | suspendSelf timeOut => exact suspendSelf_computes huptime hc
  | toNormal =>
      refine toNormal_computes hvalid huptime (fun p hp => hallocated p (Or.inl hp)) (fun hmode => ?_) hlinked
      exact hsound.main (hrunning.resolve_left fun hctl => hmode (hsound.process hctl).1)

theorem Computes.exact_iff {c : TimeCall} (h : Computes s c (s.exec c.service)) :
    StoresExactly s c ↔ TimesFit s (.call c.service) := by
  cases h with
  | refused hrefused hproc hfits => exact ⟨fun _ => hfits, fun _ haccepted => absurd haccepted hrefused⟩
  | stored haccepted hexact => exact (forall_prop_of_true haccepted).trans hexact

end Pcb

end UcxArinc
