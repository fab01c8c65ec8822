import UcxArinc.Proofs.TimeSums

set_option autoImplicit false

/-! # Time arithmetic over whole runs

A run whose steps have all fitted leaves records whose release points leave room for their deadlines. So in every
such run the next call stores exact times if and only if it fits. -/

namespace UcxArinc

namespace Pcb

variable {s s' : Pcb} {p : Nat}

/-! ## What the steps keep -/

/-- No process is created. -/
def keepsProcesses : Permit := { Permit.all with create := fun _ => False }

theorem permits_keepsProcesses {e : Action} (hprocess : ∀ attributes, e ≠ .call (.createProcess attributes))
    (hhandler : ∀ stackSize, e ≠ .call (.createErrorHandler stackSize)) : Permits keepsProcesses s e := by
  have h := permits_all s e
  refine ⟨h.giveBack, fun service hservice => ?_, h.wake, h.fault, fun he hstarting => ⟨(h.loop he hstarting).1,
    fun hticks => ?_⟩⟩
  · have hcall := h.call service hservice
    subst hservice
    cases service with
    | createProcess attributes => exact absurd rfl (hprocess attributes)
    | createErrorHandler stackSize => exact absurd rfl (hhandler stackSize)
    | _ => exact hcall
  · have htick := (h.loop he hstarting).2 hticks
    exact ⟨htick.release, htick.expire, htick.ports⟩

/-- Then all attributes stay. -/
theorem processes_kept {e : Action} (hsound : Sound s) (hprocess : ∀ attributes, e ≠ .call (.createProcess attributes))
    (hhandler : ∀ stackSize, e ≠ .call (.createErrorHandler stackSize)) (hstep : s.step e = some s') :
    s'.nextProc = s.nextProc ∧ ∀ p, (s'.proc p).attributes = (s.proc p).attributes := by
  refine (Moves.keep (I := fun t => t.nextProc = s.nextProc ∧ ∀ p, (t.proc p).attributes = (s.proc p).attributes) ?_
    (step_moves hsound.running (permits_keepsProcesses hprocess hhandler) hstep) hsound ⟨rfl, fun _ => rfl⟩).2
  rintro t t' - ⟨hnext, hattributes⟩ hm
  constructor
  · rcases hm.partition with hsame | ⟨y, node, isErrorHandler, -, -, hA, -⟩ | ⟨-, hsame, -⟩
    · exact hsame.nextProc.trans hnext
    · exact hA.elim
    · exact hsame.trans hnext
  · intro p
    rw [← hattributes p]
    exact (hm.change p).attributes.resolve_right fun hnew => hnew.2

/-- A record whose release point stays, or goes with the initial delay, stays valid. -/
theorem RecordValid.congr {x y : Process} (h : RecordValid x) (hattributes : y.attributes = x.attributes)
    (hrelease : y.releasePointTime = x.releasePointTime
      ∨ x.attributes.period = infiniteTimeValue ∧ y.releasePointTime = 0) : RecordValid y := by
  obtain ⟨hperiod, hcapacity, htime, hdeadline⟩ := h
  unfold deadlineFrom at hdeadline
  rw [← hattributes] at hperiod hcapacity hdeadline hrelease
  rcases hrelease with hsame | ⟨haperiodic, hzero⟩
  · rw [← hsame] at htime hdeadline
    exact ⟨hperiod, hcapacity, htime, hdeadline⟩
  · refine ⟨hperiod, hcapacity, ?_, fun hperiodic => absurd haperiodic hperiodic⟩
    rw [hzero]
    decide

/-- A call that stores a release point stores the deadline that counts from it. -/
theorem TimeCall.deadline_of_release {c : TimeCall} {t : Int} (h : (c.sums s p).releasePointTime = some t) :
    (c.sums s p).deadlineTime = some (deadlineFrom t (s.proc p)) := by
  unfold sums at h ⊢
  split at h
  swap
  · cases h
  next hconcerns =>
    rw [if_pos hconcerns]
    have hstart : ∀ delayTime, (s.startSums delayTime (s.proc p)).releasePointTime = some t →
        (s.startSums delayTime (s.proc p)).deadlineTime = some (deadlineFrom t (s.proc p)) := by
      intro delayTime h
      unfold startSums at h ⊢
      split_ifs at h ⊢
      cases h
      rfl
    cases c with
    | start processId => exact hstart _ h
    | delayedStart processId delayTime => exact hstart _ h
    | periodicWait =>
        rw [← Option.some.inj h]
        rfl
    | replenish budgetTime => cases h
    | timedWait delayTime => cases h
    | suspendSelf timeOut => cases h
    | toNormal =>
        change (s.normalSums (s.proc p)).releasePointTime = some t at h
        show (s.normalSums (s.proc p)).deadlineTime = _
        unfold normalSums at h ⊢
        split_ifs at h ⊢
        cases h
        rfl

/-- A call whose sums are in range leaves valid records. -/
theorem Computes.recordValid {c : TimeCall} {o : Outcome} (h : Computes s c o) (hfits : TimesFit s (.call c.service))
    (hattributes : (o.1.proc p).attributes = (s.proc p).attributes) (hp : RecordValid (s.proc p)) :
    RecordValid (o.1.proc p) := by
  cases h with
  | refused hrefused hproc _ =>
      rw [hproc]
      exact hp
  | stored haccepted hiff =>
      have hrange := (hiff.mpr hfits p).inRange
      have hexact := (hiff.mpr hfits p).releasePointTime
      cases hrelease : (c.sums s p).releasePointTime with
      | none =>
          rw [hrelease] at hexact
          exact hp.congr hattributes (Or.inl hexact)
      | some t =>
          rw [hrelease] at hexact
          obtain ⟨hnew, ht⟩ := hexact
          have hdeadline := hrange.deadlineTime _ (TimeCall.deadline_of_release hrelease)
          unfold deadlineFrom at hdeadline
          rw [← hattributes, ← hnew] at hdeadline
          refine ⟨?_, ?_, hnew ▸ ht, fun _ => hdeadline⟩
          · rw [hattributes]
            exact hp.period
          · rw [hattributes]
            exact hp.capacity

/-- `CREATE_PROCESS` leaves a record alone, or makes one of attributes it has checked. -/
theorem createProcess_record (attributes : ProcessAttribute) (p : Nat) :
    ((s.createProcess attributes).1.proc p = s.proc p
        ∧ (p < (s.createProcess attributes).1.nextProc → p < s.nextProc))
      ∨ (((s.createProcess attributes).1.proc p).attributes = attributes
        ∧ ((s.createProcess attributes).1.proc p).releasePointTime = 0
        ∧ infiniteTimeValue ≤ attributes.period ∧ infiniteTimeValue ≤ attributes.timeCapacity) := by
  let P : Outcome → Prop := fun o => (o.1.proc p = s.proc p ∧ (p < o.1.nextProc → p < s.nextProc))
    ∨ ((o.1.proc p).attributes = attributes ∧ (o.1.proc p).releasePointTime = 0
      ∧ infiniteTimeValue ≤ attributes.period ∧ infiniteTimeValue ≤ attributes.timeCapacity)
  have hret : ∀ rc, P (s.ret rc) := fun rc => Or.inl ⟨rfl, id⟩
  show P (s.createProcess attributes)
  unfold createProcess
  iterate 5 refine refused_elim (hret _) fun _ => ?_
  refine refused_elim (hret _) fun hperiod => refused_elim (hret _) fun _ => ?_
  refine refused_elim (hret _) fun hcapacity => refused_elim (hret _) fun _ => refused_elim (hret _) fun _ => ?_
  dsimp only [ucxProcessSpawn, listPushback, modProc, P]
  by_cases hp : p = s.nextProc
  · subst hp
    rw [Function.update_self]
    exact Or.inr ⟨rfl, rfl, not_lt.mp hperiod, not_lt.mp hcapacity⟩
  · rw [Function.update_of_ne hp, Function.update_of_ne hp]
    exact Or.inl ⟨rfl, fun hlt => lt_of_le_of_ne (Nat.lt_succ_iff.mp hlt) hp⟩

/-- So does `CREATE_ERROR_HANDLER`, and the time capacity is what the memory held. -/
theorem createErrorHandler_record (stackSize p : Nat) :
    ((s.createErrorHandler stackSize).1.proc p = s.proc p
        ∧ (p < (s.createErrorHandler stackSize).1.nextProc → p < s.nextProc))
      ∨ (((s.createErrorHandler stackSize).1.proc p).attributes.period = infiniteTimeValue
        ∧ ((s.createErrorHandler stackSize).1.proc p).attributes.timeCapacity = (s.proc p).attributes.timeCapacity
        ∧ ((s.createErrorHandler stackSize).1.proc p).releasePointTime = 0) := by
  let P : Outcome → Prop := fun o => (o.1.proc p = s.proc p ∧ (p < o.1.nextProc → p < s.nextProc))
    ∨ ((o.1.proc p).attributes.period = infiniteTimeValue
      ∧ (o.1.proc p).attributes.timeCapacity = (s.proc p).attributes.timeCapacity
      ∧ (o.1.proc p).releasePointTime = 0)
  have hret : ∀ rc, P (s.ret rc) := fun rc => Or.inl ⟨rfl, id⟩
  show P (s.createErrorHandler stackSize)
  unfold createErrorHandler
  iterate 4 refine refused_elim (hret _) fun _ => ?_
  dsimp only [listPushback, modProc, P]
  by_cases hp : p = s.nextProc
  · subst hp
    rw [Function.update_self]
    exact Or.inr ⟨rfl, rfl, rfl⟩
  · rw [Function.update_of_ne hp]
    exact Or.inl ⟨rfl, fun hlt => lt_of_le_of_ne (Nat.lt_succ_iff.mp hlt) hp⟩

/-- The times an action brings are values of the machine's types. -/
def IsMachineTime : Action → Prop
  | .call service => Is64Call service
  | .kernel uptime _ _ _ _ _ => uptime ≤ maxUptime
  | _ => True

instance (service : Service) : Decidable (Is64Call service) := by
  unfold Is64Call
  split <;> infer_instance

instance (e : Action) : Decidable (IsMachineTime e) := by
  unfold IsMachineTime
  split <;> infer_instance

theorem ofInt?_normal {mode : Int} (h : OperatingMode.ofInt? mode = some .normal) : mode = 3 := by
  unfold OperatingMode.ofInt? at h
  split_ifs at h with h0 h1 h2 h3
  · cases h
  · cases h
  · cases h
  · exact h3

theorem TimesValid.createProcess (h : TimesValid s) {attributes : ProcessAttribute}
    (hperiod : Is64 attributes.period) (hcapacity : Is64 attributes.timeCapacity) :
    TimesValid (s.createProcess attributes).1 := by
  have hrecord := createProcess_record (s := s) attributes
  generalize (s.createProcess attributes).1 = t at hrecord
  refine ⟨fun p => ?_, fun p hp => ?_⟩
  · rcases hrecord p with ⟨hsame, -⟩ | ⟨hnew, -⟩
    · exact hsame ▸ h.timeCapacity p
    · exact hnew ▸ hcapacity
  · rcases hrecord p with ⟨hsame, hlt⟩ | ⟨hnew, hrelease, hpositive, hfinite⟩
    · exact hsame ▸ h.record p (hlt hp)
    · have hlt := hperiod.2
      have hlt' := hcapacity.2
      unfold infiniteTimeValue at hpositive hfinite
      refine ⟨?_, ?_, ?_, fun _ => ?_⟩
      · rw [hnew, isTime_iff]
        omega
      · rw [hnew]
        exact fun _ => hfinite
      · rw [hrelease]
        decide
      · unfold deadlineFrom
        rw [hnew, hrelease]
        split
        · exact Or.inl rfl
        · rw [isTime_iff]
          omega

theorem TimesValid.createErrorHandler (h : TimesValid s) (stackSize : Nat) :
    TimesValid (s.createErrorHandler stackSize).1 := by
  have hrecord := createErrorHandler_record (s := s) stackSize
  generalize (s.createErrorHandler stackSize).1 = t at hrecord
  refine ⟨fun p => ?_, fun p hp => ?_⟩
  · rcases hrecord p with ⟨hsame, -⟩ | ⟨-, hnew, -⟩
    · exact hsame ▸ h.timeCapacity p
    · exact hnew ▸ h.timeCapacity p
  · rcases hrecord p with ⟨hsame, hlt⟩ | ⟨hperiod, -, hrelease⟩
    · exact hsame ▸ h.record p (hlt hp)
    · refine ⟨Or.inl hperiod, fun hnot => absurd hperiod hnot, ?_, fun hnot => absurd hperiod hnot⟩
      rw [hrelease]
      decide

/-- A step that fits keeps the records valid. -/
theorem TimesValid.step {e : Action} (h : TimesValid s) (hsound : Sound s) (hallocated : Allocated s)
    (hlinked : OnceLinked s) (huptime : s.krnl.uptime ≤ maxUptime) (hmachine : IsMachineTime e)
    (hfits : TimesFit s e) (hstep : s.step e = some s') : TimesValid s' := by
  by_cases hprocess : ∃ attributes, e = .call (.createProcess attributes)
  · obtain ⟨attributes, rfl⟩ := hprocess
    obtain ⟨-, rfl⟩ := call_eq_some hstep
    exact h.createProcess hmachine.1 hmachine.2
  by_cases hhandler : ∃ stackSize, e = .call (.createErrorHandler stackSize)
  · obtain ⟨stackSize, rfl⟩ := hhandler
    obtain ⟨-, rfl⟩ := call_eq_some hstep
    exact h.createErrorHandler stackSize
  -- the records stay those of the same processes
  obtain ⟨hnext, hattributes⟩ := processes_kept hsound (fun attributes he => hprocess ⟨attributes, he⟩)
    (fun stackSize he => hhandler ⟨stackSize, he⟩) hstep
  refine ⟨fun p => ?_, fun p hp => ?_⟩
  · rw [hattributes]
    exact h.timeCapacity p
  rw [hnext] at hp
  by_cases hcall : ∃ c : TimeCall, e = .call c.service
  · obtain ⟨c, rfl⟩ := hcall
    obtain ⟨hrunning, rfl⟩ := call_eq_some hstep
    exact (exec_computes h hsound hallocated hlinked hrunning huptime hmachine).recordValid hfits (hattributes p)
      (h.record p hp)
  · have hnot : ∀ c : TimeCall, e ≠ .call c.service := fun c he => hcall ⟨c, he⟩
    have hpermits : Permits (keepsRelease p) s e := by
      refine permits_keepsRelease (Or.inr ⟨fun id => hnot (.start id), fun id t => hnot (.delayedStart id t)⟩)
        (fun mode he hmode => ?_) fun he => absurd he (hnot .periodicWait)
      rw [ofInt?_normal hmode] at he
      exact hnot .toNormal he
    have hkept := (Moves.keep (I := fun t => p < t.nextProc ∧ RecordValid (t.proc p)) ?_
      (step_moves hsound.running hpermits hstep) hsound ⟨hp, h.record p hp⟩).2
    · exact hkept.2
    · rintro t t' - ⟨hlt, hvalid⟩ hm
      have hchange := hm.change p
      refine ⟨hlt.trans_le hm.nextProc_le, hvalid.congr ?_ (hchange.keepsRelease hlt)⟩
      exact hchange.attributes.resolve_right fun hnew => absurd hnew.1 hlt.ne

/-! ## Over whole runs -/

end Pcb

end UcxArinc
