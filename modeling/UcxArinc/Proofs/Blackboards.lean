import UcxArinc.Proofs.Communication

set_option autoImplicit false

/-! # Reading blackboards

`DISPLAY_BLACKBOARD` wakes whoever waits to read. A reader it wakes copies the message when it is resumed: it
returns the last message displayed until then. -/

namespace UcxArinc

namespace Pcb

variable {s s' : Pcb} {p i : Nat}

/-! ## What a blackboard displays -/

/-- The message `DISPLAY_BLACKBOARD` shows, as a reader gets it. -/
def shownMessage (messageAddr : Area) (length : Int) : Result :=
  { returnCode := .noError
    message := messageAddr.bytes length.toNat
    length := length }

/-- The message that an accepted `DISPLAY_BLACKBOARD` shows on blackboard `i`. -/
def displayed (i : Nat) (s : Pcb) : Action → Option Result
  | .call (.displayBlackboard blackboardId messageAddr length) =>
    if s.findBlackboardById blackboardId = some i ∧ 0 < length
        ∧ length ≤ (s.res.blackboards i).maxMessageSize then
      some (shownMessage messageAddr length)
    else none
  | _ => none

/-- The last message displayed on blackboard `i` in a run from `s`, or `m` if none is. -/
def lastDisplayed (i : Nat) (m : Result) (s : Pcb) (es : List Action) : Result :=
  Transition.record Pcb.step (fun m s e => (displayed i s e).getD m) m s es

/-- Every message of a blackboard fits into its part of the message store. -/
structure BlackboardsFit (s : Pcb) : Prop where
  accepted : ∀ i < s.res.blackboardCount, (s.res.blackboards i).maxMessageSize ≤ s.conf.maxBlackboardDataSize
  stored : ∀ i, (s.res.blackboardsSizeData i).toNat ≤ s.conf.maxBlackboardDataSize.toNat

theorem BlackboardsFit.congr (h : BlackboardsFit s) (hconf : s'.conf = s.conf)
    (hstores : s'.stores.blackboards = s.stores.blackboards) : BlackboardsFit s' := by
  obtain ⟨hrecords, hcount, hdata, hsizes⟩ : s'.res.blackboards = s.res.blackboards
      ∧ s'.res.blackboardCount = s.res.blackboardCount ∧ s'.res.blackboardsData = s.res.blackboardsData
      ∧ s'.res.blackboardsSizeData = s.res.blackboardsSizeData := by
    simpa only [stores, Prod.mk.injEq] using hstores
  refine ⟨fun j hj => ?_, fun j => ?_⟩
  · rw [hrecords, hconf]
    exact h.accepted j (hcount ▸ hj)
  · rw [hsizes, hconf]
    exact h.stored j

theorem blackboardMessage_congr (hconf : s'.conf = s.conf)
    (hstores : s'.stores.blackboards = s.stores.blackboards) :
    s'.blackboardMessage i = s.blackboardMessage i := by
  obtain ⟨-, -, hdata, hsizes⟩ : s'.res.blackboards = s.res.blackboards
      ∧ s'.res.blackboardCount = s.res.blackboardCount ∧ s'.res.blackboardsData = s.res.blackboardsData
      ∧ s'.res.blackboardsSizeData = s.res.blackboardsSizeData := by
    simpa only [stores, Prod.mk.injEq] using hstores
  unfold blackboardMessage blackboardBase
  rw [hdata, hsizes, hconf]

/-! ## Displaying -/

/-- Blackboard `i` with a message of `length` bytes on it. -/
def shows (s : Pcb) (i : Nat) (messageAddr : Area) (length : Int) : Pcb :=
  { s with res := { s.res with
    blackboards := Function.update s.res.blackboards i { s.res.blackboards i with emptyIndicator := .occupied }
    blackboardsData := memcpy s.res.blackboardsData (s.blackboardBase i) messageAddr length.toNat
    blackboardsSizeData := Function.update s.res.blackboardsSizeData i length } }

theorem shows_message (messageAddr : Area) (length : Int) :
    (s.shows i messageAddr length).blackboardMessage i = shownMessage messageAddr length := by
  unfold blackboardMessage shownMessage
  have hlength : (s.shows i messageAddr length).res.blackboardsSizeData i = length := Function.update_self _ _ _
  rw [hlength]
  dsimp only
  congr 1
  refine List.map_congr_left fun a ha => ?_
  have hin : a < length.toNat := List.mem_range.mp ha
  show memcpy s.res.blackboardsData (s.blackboardBase i) messageAddr length.toNat (s.blackboardBase i + a) = _
  rw [memcpy, if_pos ⟨Nat.le_add_right _ _, Nat.add_lt_add_left hin _⟩, Nat.add_sub_cancel_left]

/-- The parts of two blackboards do not overlap. -/
theorem blackboardBase_of_lt {i j a size : Nat} (hconf : s.conf.maxBlackboardDataSize.toNat = size) (hij : i < j)
    (ha : a < size) : s.blackboardBase i + a < s.blackboardBase j := by
  have hbase : ∀ k, s.blackboardBase k = k * size := fun k => by
    unfold blackboardBase
    rw [Int.toNat_mul (Int.natCast_nonneg k) (by omega), Int.toNat_natCast, hconf]
  calc s.blackboardBase i + a < i * size + size := by rw [hbase]; omega
    _ = (i + 1) * size := (Nat.succ_mul i size).symm
    _ ≤ s.blackboardBase j := by rw [hbase]; exact Nat.mul_le_mul_right size hij

theorem shows_other {j : Nat} (hj : j ≠ i) (hfit : BlackboardsFit s) {messageAddr : Area} {length : Int}
    (hpos : 0 < length) (hle : length ≤ s.conf.maxBlackboardDataSize) :
    (s.shows i messageAddr length).blackboardMessage j = s.blackboardMessage j := by
  unfold blackboardMessage
  have hlength : (s.shows i messageAddr length).res.blackboardsSizeData j = s.res.blackboardsSizeData j :=
    Function.update_of_ne hj _ _
  rw [hlength]
  dsimp only
  congr 1
  refine List.map_congr_left fun a ha => ?_
  have hin : a < (s.res.blackboardsSizeData j).toNat := List.mem_range.mp ha
  have hstored := hfit.stored j
  show memcpy s.res.blackboardsData (s.blackboardBase i) messageAddr length.toNat (s.blackboardBase j + a) = _
  refine if_neg ?_
  rintro ⟨hbelow, habove⟩
  rcases Nat.lt_or_gt_of_ne hj with hlt | hlt
  · have := blackboardBase_of_lt rfl hlt (lt_of_lt_of_le hin hstored)
    omega
  · have := blackboardBase_of_lt (s := s) (a := length.toNat - 1) rfl hlt (by omega)
    omega

/-- What an accepted `DISPLAY_BLACKBOARD` is. -/
theorem displayed_eq_some {e : Action} {m : Result} (h : displayed i s e = some m) :
    ∃ blackboardId messageAddr length, e = .call (.displayBlackboard blackboardId messageAddr length)
      ∧ s.findBlackboardById blackboardId = some i ∧ 0 < length
      ∧ length ≤ (s.res.blackboards i).maxMessageSize ∧ m = shownMessage messageAddr length := by
  unfold displayed at h
  split at h
  · next blackboardId messageAddr length =>
      obtain ⟨⟨hi, hpos, hle⟩, hm⟩ := Option.ite_none_right_eq_some.mp h
      exact ⟨blackboardId, messageAddr, length, rfl, hi, hpos, hle, (Option.some.inj hm).symm⟩
  · cases h

theorem displayBlackboard_eq {blackboardId : Int} {messageAddr : Area} {length : Int}
    (hi : s.findBlackboardById blackboardId = some i) (hpos : 0 < length)
    (hle : length ≤ (s.res.blackboards i).maxMessageSize) :
    s.displayBlackboard blackboardId messageAddr length =
      if decide (0 < s.waitingCount (.blackboard, i)) then
        ((s.shows i messageAddr length).wakeAll (.blackboard i)).withCurrent fun node =>
          ((s.shows i messageAddr length).wakeAll (.blackboard i)).yieldToPartition node.data .displayBlackboard
      else ((s.shows i messageAddr length).wakeAll (.blackboard i)).ret .noError := by
  unfold displayBlackboard
  rw [hi]
  dsimp only
  rw [if_neg (Int.not_lt.mpr hle), if_neg (Int.not_le.mpr hpos)]
  rfl

/-- A `DISPLAY_BLACKBOARD` that shows nothing does nothing. -/
theorem displayBlackboard_refused {blackboardId : Int} {messageAddr : Area} {length : Int}
    (h : ∀ i, displayed i s (.call (.displayBlackboard blackboardId messageAddr length)) = none) :
    (s.displayBlackboard blackboardId messageAddr length).1 = s := by
  unfold displayBlackboard
  split
  · rfl
  · next index hindex =>
      have hnot := h index
      unfold displayed at hnot
      dsimp only at hnot ⊢
      rw [ite_eq_right_iff] at hnot
      by_cases hlong : (s.res.blackboards index).maxMessageSize < length
      · rw [if_pos hlong]
        rfl
      · by_cases hempty : length ≤ 0
        · rw [if_neg hlong, if_pos hempty]
          rfl
        · cases hnot ⟨hindex, Int.not_le.mp hempty, Int.not_lt.mp hlong⟩

theorem displayBlackboard_shows (messageAddr : Area) {blackboardId length : Int}
    (hi : s.findBlackboardById blackboardId = some i) (hpos : 0 < length)
    (hle : length ≤ (s.res.blackboards i).maxMessageSize) :
    (s.displayBlackboard blackboardId messageAddr length).1.stores = (s.shows i messageAddr length).stores := by
  have hwoken := wakeAll_stores (.blackboard i) (s.shows i messageAddr length)
  rw [displayBlackboard_eq hi hpos hle]
  split
  · exact withCurrent_elim (P := fun o => o.1.stores = _) hwoken fun node _ => hwoken
  · exact hwoken

/-! ## What a step does to the messages -/

theorem findBlackboardById_lt {blackboardId : Int} (hi : s.findBlackboardById blackboardId = some i) :
    i < s.res.blackboardCount :=
  (findIndex_eq_some hi).1

theorem createBlackboard_fits (hfit : BlackboardsFit s) (name : Name) (maxMessageSize : Int) :
    BlackboardsFit (s.createBlackboard name maxMessageSize).1
      ∧ ∀ i, (s.createBlackboard name maxMessageSize).1.blackboardMessage i = s.blackboardMessage i := by
  unfold createBlackboard
  split_ifs with hfull
  iterate 4 exact ⟨hfit, fun _ => rfl⟩
  have hsize : maxMessageSize ≤ s.conf.maxBlackboardDataSize := Int.not_lt.mp (not_or.mp hfull).2
  dsimp only
  rw [freshWaitList_eq]
  refine ⟨⟨fun j hj => ?_, hfit.stored⟩, fun _ => rfl⟩
  show (Function.update s.res.blackboards s.res.blackboardCount _ j).maxMessageSize ≤ s.conf.maxBlackboardDataSize
  by_cases hnew : j = s.res.blackboardCount
  · rw [hnew, Function.update_self]
    exact hsize
  · rw [Function.update_of_ne hnew]
    exact hfit.accepted j (lt_of_le_of_ne (Nat.lt_succ_iff.mp hj) hnew)

theorem setBlackboard_fits (hfit : BlackboardsFit s) {bb : Blackboard}
    (hsize : bb.maxMessageSize = (s.res.blackboards i).maxMessageSize) : BlackboardsFit (s.setBlackboard i bb) := by
  refine ⟨fun j hj => ?_, hfit.stored⟩
  show (Function.update s.res.blackboards i bb j).maxMessageSize ≤ s.conf.maxBlackboardDataSize
  by_cases hsame : j = i
  · subst hsame
    rw [Function.update_self, hsize]
    exact hfit.accepted j hj
  · rw [Function.update_of_ne hsame]
    exact hfit.accepted j hj

theorem shows_fits (hfit : BlackboardsFit s) {messageAddr : Area} {length : Int}
    (hle : length ≤ s.conf.maxBlackboardDataSize) : BlackboardsFit (s.shows i messageAddr length) := by
  have hrecords : BlackboardsFit (s.setBlackboard i { s.res.blackboards i with emptyIndicator := .occupied }) :=
    setBlackboard_fits hfit rfl
  refine ⟨hrecords.accepted, fun j => ?_⟩
  show (Function.update s.res.blackboardsSizeData i length j).toNat ≤ s.conf.maxBlackboardDataSize.toNat
  by_cases hsame : j = i
  · rw [hsame, Function.update_self]
    exact Int.toNat_le_toNat hle
  · rw [Function.update_of_ne hsame]
    exact hfit.stored j

/-- A step changes the message of a blackboard by displaying another. -/
theorem BlackboardsFit.step {e : Action} (hfit : BlackboardsFit s) (hsound : Sound s)
    (hstep : s.step e = some s') :
    BlackboardsFit s' ∧ ∀ i, s'.blackboardMessage i = (displayed i s e).getD (s.blackboardMessage i) := by
  have hconf := moves_conf (step_moves hsound.running (permits_all s e) hstep)
  have hstores := congrArg Stores.blackboards (step_stores hstep)
  have hsame : s'.stores.blackboards = s.stores.blackboards → (∀ i, displayed i s e = none) →
      BlackboardsFit s' ∧ ∀ i, s'.blackboardMessage i = (displayed i s e).getD (s.blackboardMessage i) := by
    intro heq hnone
    refine ⟨hfit.congr hconf heq, fun i => ?_⟩
    rw [hnone]
    exact blackboardMessage_congr hconf heq
  cases e with
  | call service =>
      obtain ⟨-, rfl⟩ := call_eq_some hstep
      cases service with
      | createBlackboard name maxMessageSize => exact createBlackboard_fits hfit name maxMessageSize
      | displayBlackboard blackboardId messageAddr length =>
          by_cases hnone : ∀ i, displayed i s (.call (.displayBlackboard blackboardId messageAddr length)) = none
          · have hrefused := displayBlackboard_refused hnone
            exact hsame (congrArg (fun t => t.stores.blackboards) hrefused) hnone
          · obtain ⟨index, hsome⟩ := not_forall.mp hnone
            obtain ⟨m, hm⟩ := Option.ne_none_iff_exists'.mp hsome
            obtain ⟨_, _, _, heq, hi, hpos, hle, rfl⟩ := displayed_eq_some hm
            cases heq
            have hshows := congrArg Stores.blackboards (displayBlackboard_shows messageAddr hi hpos hle)
            have hsize := hle.trans (hfit.accepted index (findBlackboardById_lt hi))
            refine ⟨(shows_fits hfit hsize).congr hconf hshows, fun j => ?_⟩
            rw [blackboardMessage_congr (s := s.shows index messageAddr length) hconf hshows]
            by_cases hj : j = index
            · rw [hj, hm]
              exact shows_message messageAddr length
            · rw [shows_other hj hfit hpos hsize]
              have hother : displayed j s (.call (.displayBlackboard blackboardId messageAddr length)) = none :=
                if_neg fun h => hj (Option.some.inj (h.1.symm.trans hi))
              rw [hother]
              rfl
      | clearBlackboard blackboardId =>
          show BlackboardsFit (s.clearBlackboard blackboardId).1
            ∧ ∀ i, (s.clearBlackboard blackboardId).1.blackboardMessage i = s.blackboardMessage i
          unfold clearBlackboard
          split
          · exact ⟨hfit, fun _ => rfl⟩
          · exact ⟨setBlackboard_fits hfit rfl, fun _ => rfl⟩
      | _ => exact hsame hstores fun _ => rfl
  | _ => exact hsame hstores fun _ => rfl

/-- A blackboard holds the last message displayed on it. -/
theorem blackboardMessage_of_run {es : List Action} (hfit : BlackboardsFit s) (hsound : Sound s)
    (hrun : Transition.run Pcb.step s es = some s') :
    s'.blackboardMessage i = lastDisplayed i (s.blackboardMessage i) s es := by
  refine (Transition.run_record_invariant
    (I := fun t m => (Sound t ∧ BlackboardsFit t) ∧ t.blackboardMessage i = m) hrun ?_ ⟨⟨hsound, hfit⟩, rfl⟩).2
  rintro t e t' m ⟨⟨ht, hfit⟩, rfl⟩ hstep
  obtain ⟨hfit', hmessage⟩ := hfit.step ht hstep
  exact ⟨⟨ht.step hstep, hfit'⟩, hmessage i⟩

/-! ## Waking the readers -/

/-- Blackboard `i` shows message `m`, nobody waits to read it, and whoever did has been woken once. -/
structure WakesReaders (i : Nat) (m : Result) (s s' : Pcb) : Prop where
  shown : s'.blackboardMessage i = m
  occupied : (s'.res.blackboards i).emptyIndicator = .occupied
  emptied : s'.waitingProcesses (.blackboard i) = []
  uncounted : s'.waitingCount (.blackboard, i) = 0
  woken : ∀ p ∈ s.waitingProcesses (.blackboard i), (s'.proc p).processState = .ready
  once : ∀ p, (∀ c, s.processCurrent = some c → c.data ≠ p) → s'.proc p
    = if p ∈ s.waitingProcesses (.blackboard i) then wakeProcess (some .blackboard) true (s.proc p) else s.proc p

/-- What `DISPLAY_BLACKBOARD` does to the lists and the records of the processes. -/
theorem displayBlackboard_spec (messageAddr : Area) {blackboardId length : Int}
    (hi : s.findBlackboardById blackboardId = some i) (hpos : 0 < length)
    (hle : length ≤ (s.res.blackboards i).maxMessageSize) (hcurrent : s.processCurrent.isSome) :
    (s.displayBlackboard blackboardId messageAddr length).1.waitingProcesses
        = Function.update s.waitingProcesses (.blackboard i) []
      ∧ (∀ p, (∀ c, s.processCurrent = some c → c.data ≠ p) →
        (s.displayBlackboard blackboardId messageAddr length).1.proc p
          = if p ∈ s.waitingProcesses (.blackboard i) then wakeProcess (some .blackboard) true (s.proc p)
            else s.proc p)
      ∧ ∀ p ∈ s.waitingProcesses (.blackboard i),
        ((s.displayBlackboard blackboardId messageAddr length).1.proc p).processState = .ready := by
  obtain ⟨c, hc⟩ := Option.isSome_iff_exists.mp hcurrent
  obtain ⟨hempty, hwoken⟩ := wakeAll_spec (.blackboard i) (s.shows i messageAddr length)
  rw [displayBlackboard_eq hi hpos hle]
  generalize hu : (s.shows i messageAddr length).wakeAll (.blackboard i) = u at hempty hwoken
  have hproc : (s.shows i messageAddr length).proc = s.proc := rfl
  have hlists : (s.shows i messageAddr length).waitingProcesses = s.waitingProcesses := rfl
  rw [hlists] at hempty hwoken
  rw [hproc] at hwoken
  have hready : ∀ p ∈ s.waitingProcesses (.blackboard i), (u.proc p).processState = .ready := fun p hp => by
    rw [hwoken, if_pos hp]
    rfl
  split
  · have hcurrent : u.processCurrent = some c := by
      rw [← hu, (wakeAll_caller _ _).1]
      exact hc
    unfold withCurrent
    rw [hcurrent]
    refine ⟨hempty, fun p hp => ?_, fun p hp => ?_⟩
    · exact (modProc_proc_of_ne (hp c hc).symm u fun x => { x with context := .displayBlackboard }).trans (hwoken p)
    · obtain ⟨k, hk⟩ := yield_proc u c.data .displayBlackboard p
      rw [hk]
      exact hready p hp
  · exact ⟨hempty, fun p _ => hwoken p, hready⟩

theorem displayBlackboard_wakesReaders {blackboardId : Int} {messageAddr : Area} {length : Int} {m : Result}
    (hm : displayed i s (.call (.displayBlackboard blackboardId messageAddr length)) = some m)
    (hcurrent : s.processCurrent.isSome) (hfit : BlackboardsFit s) (hsound : Sound s)
    (hstep : s.step (.call (.displayBlackboard blackboardId messageAddr length)) = some s')
    (hcounted : Counted s') : WakesReaders i m s s' := by
  obtain ⟨_, _, _, heq, hi, hpos, hle, -⟩ := displayed_eq_some hm
  cases heq
  have hshown := (hfit.step hsound hstep).2 i
  rw [hm] at hshown
  obtain ⟨-, rfl⟩ := call_eq_some hstep
  obtain ⟨hlists, honce, hready⟩ := displayBlackboard_spec messageAddr hi hpos hle hcurrent
  have hempty : (s.displayBlackboard blackboardId messageAddr length).1.waitingProcesses (.blackboard i) = [] := by
    rw [hlists, Function.update_self]
  refine ⟨hshown, ?_, hempty, ?_, hready, honce⟩
  · have hrecords := congrArg (fun x => (x.blackboards.1 i).emptyIndicator)
      (displayBlackboard_shows messageAddr hi hpos hle)
    refine hrecords.trans ?_
    show (Function.update s.res.blackboards i _ i).emptyIndicator = .occupied
    rw [Function.update_self]
  · rw [hcounted]
    show (waitersIn (s.displayBlackboard blackboardId messageAddr length).1.waitingProcesses .blackboard i : Int) = 0
    simp [waitersIn, listsOf, hempty]

/-! ## Waiting for a message -/

/-- `READ_BLACKBOARD` that does not return makes its caller wait. -/
theorem readBlackboard_blocks {blackboardId timeOut : Int} {c : Node}
    (hi : s.findBlackboardById blackboardId = some i) (hc : s.processCurrent = some c)
    (hwaits : (s.readBlackboard blackboardId timeOut).2 = none) :
    s.cannotBlock c.data = false ∧ ∃ linked timer,
      (timeOut ≠ infiniteTimeValue → ∃ t, timer = some t ∧ t ≠ 0)
        ∧ s.readBlackboard blackboardId timeOut
          = (s.waitOn c.data (.blackboard i) linked .fifo timer).yieldToPartition c.data
            (.readBlackboard i (decide (timeOut ≠ infiniteTimeValue))) := by
  unfold readBlackboard withCurrent at hwaits ⊢
  rw [hi, hc] at hwaits ⊢
  dsimp only at hwaits ⊢
  split_ifs at hwaits ⊢ with hinvalid hoccupied hzero hcannot hinf
  iterate 4 cases hwaits
  · exact ⟨by simpa using hcannot, false, none, fun hne => absurd hinf hne, by rw [hinf]; rfl⟩
  · have hpositive := fromNow_pos (s := s) (timeOut_cases hinvalid hzero) hinf
    exact ⟨by simpa using hcannot, true, _, fun _ => ⟨_, rfl, hpositive.ne'⟩, by rw [decide_eq_true hinf]⟩

/-- Process `p` has called `READ_BLACKBOARD` and waits. -/
theorem awaitsMessage_of_call (hsound : Sound s) (hqueues : Queues s) (hcalls : Calls s p)
    {blackboardId timeOut : Int} (hi : s.findBlackboardById blackboardId = some i)
    (hwaits : s.stepOutcome (.call (.readBlackboard blackboardId timeOut)) = some (s', none)) :
    Passive p s' ∧ InWait p (.blackboard i) (.readBlackboard i (decide (timeOut ≠ infiniteTimeValue)))
      (decide (timeOut ≠ infiniteTimeValue)) s' := by
  have hexec : s.readBlackboard blackboardId timeOut = (s', none) := by
    rw [call_outcome hcalls.1] at hwaits
    exact Option.some.inj hwaits
  obtain ⟨-, c, hc, rfl⟩ := id hcalls
  obtain ⟨hcan, linked, timer, htimer, heq⟩ := readBlackboard_blocks hi hc (by rw [hexec])
  rw [heq] at hexec
  obtain rfl : ((s.waitOn c.data (.blackboard i) linked .fifo timer).yieldToPartition c.data
      (.readBlackboard i (decide (timeOut ≠ infiniteTimeValue)))).1 = s' := by rw [hexec]
  exact ⟨blocked_passive hsound hqueues hcalls hcan _ _ _ _ _,
    blocked_inWait _ _ _ _ _ _ _ fun htimed => htimer (of_decide_eq_true htimed)⟩

/-- `READ_BLACKBOARD` comes to its end when its process is resumed, with the message on the blackboard. -/
theorem Resumes.readBlackboard {t u : Pcb} {r : Option Result} {timed : Bool} (h : Resumes p t (u, r))
    (hcontext : (t.proc p).context = .readBlackboard i timed) : Calls u p
      ∧ r = some (if timed = true ∧ (t.proc p).timeCounter = 0 then { returnCode := .timedOut }
        else t.blackboardMessage i) := by
  obtain ⟨hready, hrecord, ⟨c, hc, hd⟩, hout⟩ := h
  obtain ⟨proc, current, hsched, -, -⟩ := processSchedule_eq t
  have hmessage : ({ t.processSchedule with ctl := .process } : Pcb).blackboardMessage i = t.blackboardMessage i := by
    rw [hsched]
    rfl
  have hcontext' : (({ t.processSchedule with ctl := .process } : Pcb).proc p).context = .readBlackboard i timed := by
    show (t.processSchedule.proc p).context = _
    rw [hrecord]
    exact hcontext
  have htimer : (({ t.processSchedule with ctl := .process } : Pcb).proc p).timeCounter
      = (t.proc p).timeCounter := by
    show (t.processSchedule.proc p).timeCounter = _
    rw [hrecord]
  unfold resumeContext at hout
  rw [hcontext'] at hout
  dsimp only at hout
  rw [htimer, hmessage] at hout
  split at hout
  · next htimedOut =>
      obtain ⟨rfl, rfl⟩ := Prod.mk.inj hout
      exact ⟨⟨Or.inl rfl, c, hc, hd⟩, by rw [if_pos htimedOut]⟩
  · next hcame =>
      obtain ⟨rfl, rfl⟩ := Prod.mk.inj hout
      exact ⟨⟨Or.inl rfl, c, hc, hd⟩, by rw [if_neg hcame]⟩

/-- A message displayed ends the wait of a reader. -/
theorem InWait.display {timed : Bool} {e : Action} {m : Result}
    (h : InWait p (.blackboard i) (.readBlackboard i timed) timed s) (hp : Passive p s) (hsound : Sound s)
    (hcurrent : HasCurrent s) (hm : displayed i s e = some m) (hstep : s.step e = some s')
    (hwaits : (s.proc p).processState = .waiting) :
    Passive p s' ∧ WaitEnded p (.readBlackboard i timed) timed s' := by
  obtain ⟨blackboardId, messageAddr, length, rfl, hi, hpos, hle, -⟩ := displayed_eq_some hm
  refine h.wakened (e := .call (.displayBlackboard blackboardId messageAddr length)) hp hsound rfl trivial
    Action.noConfusion hstep (fun htimed => h.counting htimed hwaits) ?_
  obtain ⟨hrun, rfl⟩ := call_eq_some hstep
  exact (displayBlackboard_spec messageAddr hi hpos hle (hcurrent (hp.process hsound hrun))).2.1 p fun c hc hd =>
    hp.idle ⟨hrun, c, hc, hd⟩

/-! ## Runs -/

theorem blackboardsFit_of_run (period identifier : Int) (conf : PartitionConf) (maxErrors : Nat) (krnl : Krnl)
    (memory : Nat → Process) (lastTick : Nat) {es : List Action}
    (hrun : Transition.run Pcb.step
      (partitionInit period identifier conf maxErrors krnl memory lastTick).startPartitionOs es = some s) :
    BlackboardsFit s := by
  have hinit : BlackboardsFit (partitionInit period identifier conf maxErrors krnl memory lastTick) :=
    ⟨fun _ hj => absurd hj (Nat.not_lt_zero _), fun _ => Nat.zero_le _⟩
  exact storesKept_of_run period identifier conf maxErrors krnl memory lastTick hrun
    (fun _ _ h hconf hstores => h.congr hconf (congrArg Stores.blackboards hstores))
    (fun _ _ _ hsound h hstep => (h.step hsound hstep).1) hinit

/-- In every state a partition reaches, `DISPLAY_BLACKBOARD` by a process wakes everybody who waits to read; and
    a process that waits when a message is displayed is ready until it executes again, in a `READ_BLACKBOARD`
    that returns this message if and only if it is still the last one displayed then. -/
theorem reader_gets_last_display (period identifier : Int) (conf : PartitionConf) (maxErrors : Nat)
    (krnl : Krnl) (memory : Nat → Process) (lastTick : Nat) {es : List Action}
    (hrun : Transition.run Pcb.step
      (partitionInit period identifier conf maxErrors krnl memory lastTick).startPartitionOs es = some s) :
    (∀ e i m s', s.ctl = .process → displayed i s e = some m → s.step e = some s' → WakesReaders i m s s')
      ∧ ∀ p blackboardId timeOut i s₁ es₁ u e m u₁ es₂ t, Calls s p →
        s.findBlackboardById blackboardId = some i →
        s.stepOutcome (.call (.readBlackboard blackboardId timeOut)) = some (s₁, none) →
        Transition.GuardedRun Pcb.step (CommunicateBesides p) s₁ es₁ u → ¬ Calls u p →
        (u.proc p).processState = .waiting → displayed i u e = some m → u.step e = some u₁ →
        Transition.GuardedRun Pcb.step (CommunicateBesides p) u₁ es₂ t → ¬ Calls t p →
        p ∈ u.waitingProcesses (.blackboard i) ∧ (t.proc p).processState = .ready
          ∧ ∀ e' t' r, Communicates e' → t.stepOutcome e' = some (t', r) → Calls t' p →
            (r = some m ↔ lastDisplayed i m u₁ es₂ = m) := by
  obtain ⟨hsound, hqueues⟩ := queues_of_run period identifier conf maxErrors krnl memory lastTick hrun
  refine ⟨?_, ?_⟩
  · intro e i m s' hctl hm hstep
    have hreached : Transition.run Pcb.step
        (partitionInit period identifier conf maxErrors krnl memory lastTick).startPartitionOs (es ++ [e])
        = some s' := by
      rw [Transition.run_append, hrun, Option.bind_some, Transition.run_cons, hstep]
      rfl
    have hcounted := (queues_of_run period identifier conf maxErrors krnl memory lastTick hreached).2.counted
    have hcurrent := hasCurrent_of_run period identifier conf maxErrors krnl memory lastTick hrun
    have hfit := blackboardsFit_of_run period identifier conf maxErrors krnl memory lastTick hrun
    obtain ⟨blackboardId, messageAddr, length, rfl, -⟩ := displayed_eq_some hm
    exact displayBlackboard_wakesReaders hm (hcurrent hctl) hfit hsound hstep hcounted
  · intro p blackboardId timeOut i s₁ es₁ u e m u₁ es₂ t hcalls hi hwaits hbefore hidle hwaiting hm hstep hafter
      hidle'
    have hstep₁ : s.step (.call (.readBlackboard blackboardId timeOut)) = some s₁ :=
      Option.map_eq_some_iff.mpr ⟨_, hwaits, rfl⟩
    have hreached : Transition.run Pcb.step
        (partitionInit period identifier conf maxErrors krnl memory lastTick).startPartitionOs
        (es ++ .call (.readBlackboard blackboardId timeOut) :: es₁) = some u := by
      rw [Transition.run_append, hrun, Option.bind_some, Transition.run_cons, hstep₁, Option.bind_some]
      exact hbefore.run_eq
    obtain ⟨hp₁, hawaits⟩ := awaitsMessage_of_call hsound hqueues hcalls hi hwaits
    obtain ⟨hsoundU, hpU, hawaitsU, -⟩ := hp₁.run (K := fun _ => True) (hsound.step hstep₁) hawaits trivial
      (inWait_keeps p rfl) (fun _ _ h => h) (fun _ _ _ _ _ _ _ => trivial)
      (fun _ _ _ _ hJ hresumes => (hresumes.readBlackboard hJ.context).1) hbefore hidle
    obtain ⟨hpU₁, hcame⟩ := hawaitsU.display hpU hsoundU
      (hasCurrent_of_run period identifier conf maxErrors krnl memory lastTick hreached) hm hstep hwaiting
    obtain ⟨hready, hreturns⟩ := hpU₁.returns (hsoundU.step hstep) hcame
      (fun _ _ _ hresumes hcontext => (hresumes.readBlackboard hcontext).1) hafter hidle'
    refine ⟨hawaitsU.listed hwaiting, hready, fun e' t' r hcomm hreturn hexecutes => ?_⟩
    obtain ⟨v, hcameV, hstores, hconf, hresumes⟩ := hreturns e' t' r hcomm hreturn hexecutes
    -- the blackboard holds what was displayed last
    obtain ⟨hfit, hshown⟩ := (blackboardsFit_of_run period identifier conf maxErrors krnl memory lastTick
      hreached).step hsoundU hstep
    have hholds := blackboardMessage_of_run (i := i) hfit (hsoundU.step hstep) hafter.run_eq
    rw [hshown, hm, Option.getD_some] at hholds
    rw [(hresumes.readBlackboard hcameV.context).2, if_neg, Option.some.injEq,
      blackboardMessage_congr hconf (congrArg Stores.blackboards hstores), hholds]
    rintro ⟨htimed, hzero⟩
    rw [hcameV.timer htimed] at hzero
    exact absurd hzero (by decide)

/-! ## A low reader -/

/-- Process 0 waits for an event with a time-out, and process 1, of a lower priority, executes. -/
def lowReader : List Action :=
  [.loop, .call (.createBlackboard "B".toList 16), .call (.createEvent "E".toList),
    .call (.createProcess (aperiodicProcess "A".toList 50)),
    .call (.createProcess (aperiodicProcess "B".toList 40)), .call (.start 1), .call (.start 2),
    .call (.setPartitionMode 3), .loop, .call (.waitEvent 1 1000), .loop]

def readInfinitely : Action := .call (.readBlackboard 1 infiniteTimeValue)

/-- One byte is displayed. -/
def displayByte (b : UInt8) : Action := .call (.displayBlackboard 1 (fun _ => b) 1)

/-- The message is displayed, and another one before the reader that has been woken executes. -/
def redisplayed : List Action :=
  [.loop, displayByte 8, .call (.waitEvent 1 infiniteTimeValue)]

/-- The reader that the display of 7 has woken returns 8. -/
theorem reader_gets_redisplay :
    ∃ s s₁ u u₁ t t' r, Transition.run Pcb.step (defaultPartition 1) lowReader = some s
      ∧ s.stepOutcome readInfinitely = some (s₁, none)
      ∧ Transition.run Pcb.step s₁ [clockAt 1000 100, .loop] = some u
      ∧ u.waitingProcesses (.blackboard 0) = [1] ∧ (u.proc 1).processState = .waiting
      ∧ displayed 0 u (displayByte 7) = some (shownMessage (fun _ => 7) 1)
      ∧ u.step (displayByte 7) = some u₁ ∧ Transition.run Pcb.step u₁ redisplayed = some t
      ∧ t.stepOutcome .loop = some (t', some r) ∧ r.message = [8] ∧ r ≠ shownMessage (fun _ => 7) 1 := by
  have hread : ((Transition.run Pcb.step (defaultPartition 1) lowReader).bind fun s =>
      (s.stepOutcome readInfinitely).map fun o => o.2.isNone) = some true := by decide
  have hwaits : ((Transition.run Pcb.step (defaultPartition 1) (lowReader ++
      [readInfinitely, clockAt 1000 100, .loop])).map fun u =>
        (u.waitingProcesses (.blackboard 0), decide ((u.proc 1).processState = .waiting),
          (displayed 0 u (displayByte 7)).isSome)) = some ([1], true, true) := by decide
  have hreturns : ((Transition.run Pcb.step (defaultPartition 1) (lowReader ++
      readInfinitely :: clockAt 1000 100 :: .loop :: displayByte 7 :: redisplayed)).bind fun t =>
        (t.stepOutcome .loop).map fun o => o.2.map Result.message) = some (some [8]) := by decide
  obtain ⟨s, hs, hread⟩ := Option.bind_eq_some_iff.mp hread
  obtain ⟨⟨s₁, o⟩, ho, hnone⟩ := Option.map_eq_some_iff.mp hread
  obtain rfl := Option.isNone_iff_eq_none.mp hnone
  have hs₁ : s.step readInfinitely = some s₁ := Option.map_eq_some_iff.mpr ⟨_, ho, rfl⟩
  rw [Transition.run_append, hs, Option.bind_some, Transition.run_cons, hs₁, Option.bind_some] at hwaits hreturns
  obtain ⟨u, hu, hfields⟩ := Option.map_eq_some_iff.mp hwaits
  simp only [Prod.mk.injEq, decide_eq_true_eq] at hfields
  obtain ⟨hlist, hstate, hsome⟩ := hfields
  obtain ⟨m, hm⟩ := Option.isSome_iff_exists.mp hsome
  obtain ⟨_, _, _, heq, -, -, -, rfl⟩ := displayed_eq_some hm
  cases heq
  rw [show clockAt 1000 100 :: .loop :: displayByte 7 :: redisplayed
    = [clockAt 1000 100, .loop] ++ displayByte 7 :: redisplayed from rfl, Transition.run_append, hu,
    Option.bind_some, Transition.run_cons] at hreturns
  obtain ⟨t, ht, hreturns⟩ := Option.bind_eq_some_iff.mp hreturns
  obtain ⟨u₁, hu₁, ht⟩ := Option.bind_eq_some_iff.mp ht
  obtain ⟨⟨t', o⟩, hreturn, hresult⟩ := Option.map_eq_some_iff.mp hreturns
  obtain ⟨r, rfl, hmessage⟩ := Option.map_eq_some_iff.mp hresult
  refine ⟨s, s₁, u, u₁, t, t', r, hs, ho, hu, hlist, hstate, hm, hu₁, ht, hreturn, hmessage, ?_⟩
  rintro rfl
  exact absurd hmessage (by decide)

/-- The message is displayed, and the blackboard cleared before the reader executes. -/
def clearedBefore : List Action :=
  [.loop, .call (.clearBlackboard 1), .call (.waitEvent 1 infiniteTimeValue)]

/-- The reader that the display of 7 has woken returns 7. -/
theorem reader_gets_last_display_cleared :
    ∃ s s₁ s₂ u u₁ u₂ u₃ t t' r, Transition.run Pcb.step (defaultPartition 1) lowReader = some s
      ∧ s.stepOutcome readInfinitely = some (s₁, none)
      ∧ s₁.step (clockAt 1000 100) = some s₂ ∧ s₂.step .loop = some u ∧ u.step (displayByte 7) = some u₁
      ∧ WakesReaders 0 (shownMessage (fun _ => 7) 1) u u₁ ∧ u₁.step .loop = some u₂
      ∧ u₂.step (.call (.clearBlackboard 1)) = some u₃
      ∧ u₃.step (.call (.waitEvent 1 infiniteTimeValue)) = some t
      ∧ (t.proc 1).processState = .ready ∧ t.stepOutcome .loop = some (t', r)
      ∧ r = some (shownMessage (fun _ => 7) 1) := by
  have hread : ((Transition.run Pcb.step (defaultPartition 1) lowReader).bind fun s =>
      (s.stepOutcome readInfinitely).map fun o =>
        (s.ctl, s.processCurrent, s.findBlackboardById 1, o.2.isNone, o.1.ctl))
      = some (.process, some ⟨1, 1⟩, some 0, true, .partitionOs) := by decide
  have hdisplay : ((Transition.run Pcb.step (defaultPartition 1) (lowReader ++ [readInfinitely])).bind fun s₁ =>
      (s₁.step (clockAt 1000 100)).bind fun s₂ => (s₂.step .loop).bind fun u =>
        (u.step (displayByte 7)).map fun u₁ =>
          (s₂.ctl, u.ctl, u.processCurrent, (displayed 0 u (displayByte 7)).isSome, u₁.ctl))
      = some (.partitionOs, .process, some ⟨0, 0⟩, true, .partitionOs) := by decide
  have hstate : ((Transition.run Pcb.step (defaultPartition 1) (lowReader ++
      [readInfinitely, clockAt 1000 100, .loop])).map fun u =>
        decide ((u.proc 1).processState = .waiting)) = some true := by decide
  have hclear : ((Transition.run Pcb.step (defaultPartition 1) (lowReader ++
      [readInfinitely, clockAt 1000 100, .loop, displayByte 7])).bind fun u₁ =>
        (u₁.step .loop).bind fun u₂ => (u₂.step (.call (.clearBlackboard 1))).bind fun u₃ =>
          (u₃.step (.call (.waitEvent 1 infiniteTimeValue))).bind fun t => (t.stepOutcome .loop).map fun o =>
            (u₂.processCurrent, u₃.processCurrent, t.ctl, o.1.ctl, o.1.processCurrent))
      = some (some ⟨0, 0⟩, some ⟨0, 0⟩, .partitionOs, .process, some ⟨1, 1⟩) := by decide
  obtain ⟨s, hs, hread⟩ := Option.bind_eq_some_iff.mp hread
  obtain ⟨⟨s₁, o⟩, ho, hfields⟩ := Option.map_eq_some_iff.mp hread
  simp only [Prod.mk.injEq, Option.isNone_iff_eq_none] at hfields
  obtain ⟨hctl, hcurrent, hfind, rfl, hctl₁⟩ := hfields
  have hs₁ : s.step readInfinitely = some s₁ := Option.map_eq_some_iff.mpr ⟨_, ho, rfl⟩
  simp only [Transition.run_append, hs, Option.bind_some, Transition.run_cons, Transition.run_nil, hs₁]
    at hdisplay hstate hclear
  obtain ⟨s₂, hs₂, hdisplay⟩ := Option.bind_eq_some_iff.mp hdisplay
  obtain ⟨u, hu, hdisplay⟩ := Option.bind_eq_some_iff.mp hdisplay
  obtain ⟨u₁, hu₁, hfields⟩ := Option.map_eq_some_iff.mp hdisplay
  simp only [Prod.mk.injEq] at hfields
  obtain ⟨hctl₂, hctlU, hcurrentU, hsome, hctlU₁⟩ := hfields
  obtain ⟨m, hm⟩ := Option.isSome_iff_exists.mp hsome
  obtain ⟨_, _, _, heq, -, -, -, rfl⟩ := displayed_eq_some hm
  cases heq
  simp only [hs₂, hu, hu₁, Option.bind_some, Option.map_some, Option.some.injEq, decide_eq_true_eq]
    at hstate hclear
  obtain ⟨u₂, hu₂, hclear⟩ := Option.bind_eq_some_iff.mp hclear
  obtain ⟨u₃, hu₃, hclear⟩ := Option.bind_eq_some_iff.mp hclear
  obtain ⟨t, ht, hclear⟩ := Option.bind_eq_some_iff.mp hclear
  obtain ⟨⟨t', r⟩, hreturn, hfields⟩ := Option.map_eq_some_iff.mp hclear
  simp only [Prod.mk.injEq] at hfields
  obtain ⟨hcurrent₂, hcurrent₃, hctlT, hctlT', hcurrentT'⟩ := hfields
  have hcalls : Calls s 1 := ⟨Or.inl hctl, ⟨1, 1⟩, hcurrent, rfl⟩
  have hbefore : Transition.GuardedRun Pcb.step (CommunicateBesides 1) s₁ [clockAt 1000 100, .loop] u :=
    .cons ⟨trivial, not_calls_of_os hctl₁⟩ hs₂ (.cons ⟨trivial, not_calls_of_os hctl₂⟩ hu (.nil u))
  have hafter : Transition.GuardedRun Pcb.step (CommunicateBesides 1) u₁ clearedBefore t :=
    .cons ⟨trivial, not_calls_of_os hctlU₁⟩ hu₂
      (.cons ⟨trivial, not_calls_of_other hcurrent₂ (by decide)⟩ hu₃
        (.cons ⟨trivial, not_calls_of_other hcurrent₃ (by decide)⟩ ht (.nil t)))
  have hreached : Transition.run Pcb.step (defaultPartition 1)
      (lowReader ++ [readInfinitely, clockAt 1000 100, .loop]) = some u := by
    simp only [Transition.run_append, hs, hs₁, hs₂, hu, Option.bind_some, Transition.run_cons,
      Transition.run_nil]
  have hlast : lastDisplayed 0 (shownMessage (fun _ => 7) 1) u₁ clearedBefore = shownMessage (fun _ => 7) 1 := by
    rw [lastDisplayed, clearedBefore, Transition.record_cons hu₂, Transition.record_cons hu₃,
      Transition.record_cons ht]
    rfl
  obtain ⟨hwakes, -⟩ := reader_gets_last_display 50 1 defaultPartitionConf 10 defaultKrnl
    (fun _ => zeroProcess) 0 hreached
  obtain ⟨-, hreads⟩ := reader_gets_last_display 50 1 defaultPartitionConf 10 defaultKrnl
    (fun _ => zeroProcess) 0 hs
  obtain ⟨-, hready, hreturns⟩ := hreads 1 1 infiniteTimeValue 0 s₁ _ u _ _ u₁ _ t hcalls hfind ho hbefore
    (not_calls_of_other hcurrentU (by decide)) hstate hm hu₁ hafter (not_calls_of_os hctlT)
  exact ⟨s, s₁, s₂, u, u₁, u₂, u₃, t, t', r, hs, ho, hs₂, hu, hu₁, hwakes _ 0 _ u₁ hctlU hm hu₁, hu₂, hu₃, ht,
    hready, hreturn, (hreturns .loop t' r trivial hreturn ⟨Or.inl hctlT', ⟨1, 1⟩, hcurrentT', rfl⟩).mpr hlast⟩

end Pcb

end UcxArinc
