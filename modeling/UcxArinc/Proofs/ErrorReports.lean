import UcxArinc.Proofs.ErrorRing

set_option autoImplicit false

/-! # Errors raised and errors returned

As long as nobody raises an error while the list is full, what `GET_ERROR_STATUS` has returned, followed by what
is unread, is what has been raised since the error handler was created. -/

namespace UcxArinc

namespace Pcb

variable {s s' : Pcb}

/-! ## The record -/

/-- The errors raised for the error handler and those returned to it, since it was created. -/
structure ErrorHistory where
  raised : List ErrorStatus
  returned : List ErrorStatus

/-- A step enters the error it raises and the one it returns. -/
def recordErrors (h : ErrorHistory) (s : Pcb) (e : Action) : ErrorHistory :=
  if s.createsHandler e then ⟨[], []⟩
  else ⟨h.raised ++ (s.raisedError e).toList, h.returned ++ (s.returnedError e).toList⟩

/-- What is on record of a run. -/
def errorHistory (s : Pcb) (es : List Action) : ErrorHistory :=
  Transition.record Pcb.step recordErrors ⟨[], []⟩ s es

/-- Whoever raises an error finds room for it. -/
def RaisesWithRoom (s : Pcb) (e : Action) : Prop :=
  (s.raisedError e).isSome → s.errorListCb.nbErrors < s.errorListCb.maxErrors

instance (s : Pcb) (e : Action) : Decidable (RaisesWithRoom s e) :=
  inferInstanceAs (Decidable ((s.raisedError e).isSome → s.errorListCb.nbErrors < s.errorListCb.maxErrors))

/-! ## Nobody waits for room -/

/-- Nobody has raised an error and waits, or has waited, for room in the list. -/
structure NobodyWaitsForRoom (s : Pcb) : Prop where
  list : s.waitingProcesses .errorProcesses = []
  contexts : ∀ p error, (s.proc p).context ≠ .raiseApplicationErrorFull error

theorem NobodyWaitsForRoom.resumedError (h : NobodyWaitsForRoom s) : s.resumedError = none := by
  unfold Pcb.resumedError
  split
  · next error hresumed =>
      obtain ⟨node, -, hcontext, -⟩ := resumedContext_eq_some hresumed
      rw [dispatched_context] at hcontext
      exact absurd hcontext (h.contexts node.data error)
  · rfl

theorem NobodyWaitsForRoom.moves (h : NobodyWaitsForRoom s)
    (hm : Moves (onlyBlocks fun _ _ q _ => q ≠ .errorProcesses) s s') : NobodyWaitsForRoom s' := by
  refine ⟨?_, fun p error hk => ?_⟩
  · have hlist := sublist_of_moves hm
    rw [h.list] at hlist
    exact List.sublist_nil.mp hlist
  · rcases waitsIn_of_moves hm hk rfl Context.noConfusion with hbefore | ⟨t, q, timer, hne, hfrom⟩
    · exact h.contexts p error hbefore
    · cases hfrom
      exact hne rfl

/-- A raise that reaches no error handler changes no list and no context. -/
theorem raise_unreported {errorCode : ErrorCode} {messageAddr : Area} {length : Int}
    (hnone : s.raisedError (.call (.raiseApplicationError errorCode messageAddr length)) = none) :
    (s.raiseApplicationError errorCode messageAddr length).1.waitingProcesses = s.waitingProcesses
      ∧ ∀ p, ((s.raiseApplicationError errorCode messageAddr length).1.proc p).context = (s.proc p).context := by
  unfold raiseApplicationError withCurrent
  unfold raisedError at hnone
  cases hc : s.processCurrent with
  | none => exact ⟨rfl, fun _ => rfl⟩
  | some node =>
      rw [hc] at hnone
      dsimp only [Option.bind_some] at hnone ⊢
      split_ifs with hlength hcode hhandler hfull
      · exact ⟨rfl, fun _ => rfl⟩
      · exact ⟨rfl, fun _ => rfl⟩
      · unfold hmRaisePartitionError
        split
        · split
          · exact ⟨rfl, fun _ => rfl⟩
          · next failed _ =>
              refine ⟨rfl, fun p => ?_⟩
              show ((s.modProc failed.data fun x => { x with processState := .ready }).proc p).context = _
              rw [modProc_proc]
              split
              · next heq => rw [heq]
              · rfl
        · exact ⟨rfl, fun _ => rfl⟩
      all_goals
        rw [if_neg fun h => ?_] at hnone
        · cases hnone
        · rcases h with h | h | h
          · exact hlength h
          · exact hcode h
          · exact hhandler h

theorem NobodyWaitsForRoom.step (h : NobodyWaitsForRoom s) (hsound : Sound s) {e : Action}
    (hroom : RaisesWithRoom s e) (hstep : s.step e = some s') : NobodyWaitsForRoom s' := by
  by_cases hfull : s.errorListCb.nbErrors = s.errorListCb.maxErrors
      ∧ ∃ errorCode messageAddr length, e = .call (.raiseApplicationError errorCode messageAddr length)
  · obtain ⟨hfull, errorCode, messageAddr, length, rfl⟩ := hfull
    have hnone : s.raisedError (.call (.raiseApplicationError errorCode messageAddr length)) = none := by
      by_contra hsome
      have hlt := hroom (Option.isSome_iff_ne_none.mpr hsome)
      rw [hfull] at hlt
      exact lt_irrefl _ hlt
    obtain ⟨-, rfl⟩ := call_eq_some hstep
    obtain ⟨hlists, hcontexts⟩ := raise_unreported hnone
    refine ⟨?_, fun p error => ?_⟩
    · show (s.raiseApplicationError errorCode messageAddr length).1.waitingProcesses .errorProcesses = []
      rw [hlists]
      exact h.list
    · show ((s.raiseApplicationError errorCode messageAddr length).1.proc p).context ≠ _
      rw [hcontexts]
      exact h.contexts p error
  · refine h.moves (step_moves hsound.running (permits_onlyBlocks fun service he c _ t _ q hblocks _ hq => ?_) hstep)
    -- only a raise while the list is full makes its caller wait for room
    subst hq
    obtain ⟨hlist, errorCode, messageAddr, length, rfl⟩ := hblocks.awaited
    exact hfull ⟨hlist, errorCode, messageAddr, length, he⟩

/-! ## Delivery -/

/-- Nothing that was raised is lost, doubled or overtaken. -/
structure Delivers (h : ErrorHistory) (s : Pcb) : Prop where
  intact : s.errorListCb.Intact
  delivered : h.returned ++ s.errorListCb.unread = h.raised

theorem createsHandler_of_raised {e : Action} {error : ErrorStatus} (h : s.raisedError e = some error) :
    s.createsHandler e = false := by
  cases e with
  | call service => cases service <;> first | rfl | cases h
  | _ => rfl

theorem returned_of_raised {e : Action} {error : ErrorStatus} (h : s.raisedError e = some error) :
    s.returnedError e = none := by
  cases e with
  | call service => cases service <;> first | rfl | cases h
  | _ => rfl

/-- An error that is raised is entered into the record and into the list. -/
theorem Delivers.raise {h : ErrorHistory} (hd : Delivers h s) {e : Action} {error : ErrorStatus}
    (hraised : s.raisedError e = some error) (hroom : s.errorListCb.nbErrors < s.errorListCb.maxErrors)
    (hlist : s'.errorListCb = s.errorListCb.written error) : Delivers (recordErrors h s e) s' := by
  have hrecord : recordErrors h s e = ⟨h.raised ++ [error], h.returned⟩ := by
    rw [recordErrors, createsHandler_of_raised hraised, returned_of_raised hraised, hraised, Option.toList_some,
      Option.toList_none, List.append_nil]
    rfl
  rw [hrecord]
  refine ⟨?_, ?_⟩
  · rw [hlist]
    exact hd.intact.written_iff.mpr hroom
  · rw [hlist, hd.intact.unread_written hroom, ← List.append_assoc, hd.delivered]

/-- A step raises an error into the list, returns the oldest, empties the list, or does neither. -/
theorem Delivers.step {h : ErrorHistory} (hd : Delivers h s) (hnobody : NobodyWaitsForRoom s) {e : Action}
    (hroom : RaisesWithRoom s e) (hstep : s.step e = some s') : Delivers (recordErrors h s e) s' := by
  have herrors := step_errors hstep
  generalize hreturned : s.returnedError e = returned at herrors
  generalize hlist : s'.errorListCb = cb at herrors
  cases herrors with
  | same hraised hforced hnew =>
      have hrecord : recordErrors h s e = h := by
        rw [recordErrors, hnew, hraised, hreturned, Option.toList_none, List.append_nil, List.append_nil]
        rfl
      rw [hrecord]
      exact ⟨hlist ▸ hd.intact, hlist ▸ hd.delivered⟩
  | waits error hraised hforced hfull =>
      have hlt := hroom (by rw [hraised]; rfl)
      rw [hfull] at hlt
      exact absurd hlt (lt_irrefl _)
  | raised error hraised hforced hnotFull => exact hd.raise hraised (hroom (by rw [hraised]; rfl)) hlist
  | forced error hforced =>
      have hraised : s.raisedError e = some error := by
        cases e with
        | fault errorCode messageAddr length => exact hforced
        | loop =>
            rw [show s.forcedError .loop = none from hnobody.resumedError] at hforced
            cases hforced
        | call service => cases hforced
        | mainReturn => cases hforced
        | kernel => cases hforced
      exact hd.raise hraised (hroom (by rw [hraised]; rfl)) hlist
  | read he hsome _ =>
      subst he
      have hrecord : recordErrors h s (.call .getErrorStatus)
          = ⟨h.raised, h.returned ++ [s.errorListCb.processErrorList s.errorListCb.readIndex]⟩ := by
        rw [recordErrors, hreturned]
        show ErrorHistory.mk (h.raised ++ []) _ = _
        rw [List.append_nil, Option.toList_some]
      rw [hrecord]
      refine ⟨hlist ▸ hd.intact.oneRead hsome, ?_⟩
      rw [hlist, List.append_assoc, List.singleton_append, ← hd.intact.unread_oneRead hsome]
      exact hd.delivered
  | readAndMoved error he hsome hwaits => exact absurd hnobody.list hwaits
  | emptied stackSize he hnew =>
      have hrecord : recordErrors h s e = ⟨[], []⟩ := by
        rw [recordErrors, hnew]
        rfl
      rw [hrecord]
      refine ⟨hlist ▸ ErrorList.intact_emptied _, ?_⟩
      rw [hlist, ErrorList.unread_emptied]
      rfl

/-- The error handler is given the oldest unread error, if there is one. -/
theorem returnedError_of_handler (hintact : s.errorListCb.Intact) {c : Node} (hc : s.processCurrent = some c)
    (hhandler : s.errorHandlerProcess = some c.data) :
    s.returnedError (.call .getErrorStatus) = s.errorListCb.unread.head? := by
  unfold returnedError
  dsimp only
  unfold getErrorStatus withCurrent
  rw [hc]
  dsimp only
  rw [if_neg (not_not.mpr hhandler)]
  by_cases hnone : s.errorListCb.nbErrors = 0
  · rw [if_pos hnone, ErrorList.unread, RingBuffer.Cursors.contents_eq_nil.mpr (show s.errorListCb.nbErrors.toNat = 0 by
      rw [hnone]; rfl)]
    rfl
  · rw [if_neg hnone, hintact.unread_oneRead hnone]
    unfold hmReadError
    dsimp only
    split <;> rfl

theorem nobodyWaitsForRoom_startPartitionOs (period identifier : Int) (conf : PartitionConf) (maxErrors : Nat)
    (krnl : Krnl) (memory : Nat → Process) (lastTick : Nat) : NobodyWaitsForRoom
      (partitionInit period identifier conf maxErrors krnl memory lastTick).startPartitionOs := by
  have hinit : NobodyWaitsForRoom (partitionInit period identifier conf maxErrors krnl memory lastTick) :=
    ⟨rfl, fun _ _ => Context.noConfusion⟩
  exact hinit.moves (startPartitionOs_moves _)

/-- In every run in which nobody raises an error while the list is full, the errors returned and the unread ones
    are those raised since the error handler was created, each once and in order; and the handler is always given
    the oldest unread one. -/
theorem errors_delivered_in_order (period identifier : Int) (conf : PartitionConf) (maxErrors : Nat) (krnl : Krnl)
    (memory : Nat → Process) (lastTick : Nat) {es : List Action}
    (hrun : Transition.GuardedRun Pcb.step RaisesWithRoom
      (partitionInit period identifier conf maxErrors krnl memory lastTick).startPartitionOs es s) :
    (errorHistory (partitionInit period identifier conf maxErrors krnl memory lastTick).startPartitionOs es).returned
        ++ s.errorListCb.unread
      = (errorHistory (partitionInit period identifier conf maxErrors krnl memory lastTick).startPartitionOs es).raised
      ∧ ∀ c, s.processCurrent = some c → s.errorHandlerProcess = some c.data →
        s.returnedError (.call .getErrorStatus) = s.errorListCb.unread.head? := by
  have hinv := hrun.record_invariant
    (I := fun t h => Sound t ∧ NobodyWaitsForRoom t ∧ Delivers h t) (f := recordErrors) (b := ⟨[], []⟩)
    ?_ ⟨sound_startPartitionOs period identifier conf maxErrors krnl memory lastTick,
      nobodyWaitsForRoom_startPartitionOs period identifier conf maxErrors krnl memory lastTick,
      intact_startPartitionOs period identifier conf maxErrors krnl memory lastTick, ?_⟩
  · obtain ⟨-, -, hd⟩ := hinv
    exact ⟨hd.delivered, fun c hc hhandler => returnedError_of_handler hd.intact hc hhandler⟩
  · rintro t e t' h ⟨ht, hnobody, hd⟩ hroom hstep
    exact ⟨ht.step hstep, hnobody.step ht hroom hstep, hd.step hnobody hroom hstep⟩
  · have hlist := congrArg Stores.errors (startPartitionOs_stores
      (partitionInit period identifier conf maxErrors krnl memory lastTick))
    rw [show (partitionInit period identifier conf maxErrors krnl memory lastTick).startPartitionOs.errorListCb
      = _ from hlist]
    rfl

/-- The process raises two errors, each of which the handler reads. -/
def raisedWithRoom : List Action :=
  handlerAndTwo ++ [raiseByte 7, .loop, .call .getErrorStatus, .call .stopSelf, .loop,
    raiseByte 8, .loop, .call .getErrorStatus]

theorem errors_delivered_with_room :
    ∃ s, Transition.run Pcb.step oneErrorPartition raisedWithRoom = some s ∧ s.errorListCb.nbErrors = 0
      ∧ (errorHistory oneErrorPartition raisedWithRoom).raised.map ErrorStatus.message = [[7], [8]]
      ∧ (errorHistory oneErrorPartition raisedWithRoom).returned ++ s.errorListCb.unread
        = (errorHistory oneErrorPartition raisedWithRoom).raised := by
  have hrun : ((Transition.checkedRun Pcb.step RaisesWithRoom oneErrorPartition raisedWithRoom).map fun s =>
      s.errorListCb.nbErrors) = some 0 := by decide
  have hraised : (errorHistory oneErrorPartition raisedWithRoom).raised.map ErrorStatus.message = [[7], [8]] := by
    decide
  obtain ⟨s, hs, hcount⟩ := Option.map_eq_some_iff.mp hrun
  have hguarded := Transition.guardedRun_of_checked hs
  exact ⟨s, hguarded.run_eq, hcount, hraised,
    (errors_delivered_in_order 50 1 defaultPartitionConf 1 defaultKrnl (fun _ => zeroProcess) 0 hguarded).1⟩

/-- The handler ends without reading the first error, and its process waits for room with the second. The other
    process starts the handler, which reads both; then the first process executes again. -/
def raisedWhileFull : List Action :=
  handlerAndTwo ++ [raiseByte 7, .loop, .call .stopSelf, .loop, raiseByte 8, .loop, .call (.start 0), .loop,
    .call .getErrorStatus, .call .getErrorStatus, .call .stopSelf, .loop, .loop, .call .getErrorStatus]

/-- The second error is returned twice. -/
theorem error_returned_twice :
    ∃ s, Transition.run Pcb.step oneErrorPartition raisedWhileFull = some s
      ∧ (errorHistory oneErrorPartition raisedWhileFull).returned.map ErrorStatus.message = [[7], [8], [8]]
      ∧ (errorHistory oneErrorPartition raisedWhileFull).raised.map ErrorStatus.message = [[7], [8]]
      ∧ (errorHistory oneErrorPartition raisedWhileFull).returned ++ s.errorListCb.unread
        ≠ (errorHistory oneErrorPartition raisedWhileFull).raised := by
  have hrun : (Transition.run Pcb.step oneErrorPartition raisedWhileFull).isSome = true := by decide
  have hreturned : (errorHistory oneErrorPartition raisedWhileFull).returned.map ErrorStatus.message
      = [[7], [8], [8]] := by decide
  have hraised : (errorHistory oneErrorPartition raisedWhileFull).raised.map ErrorStatus.message
      = [[7], [8]] := by decide
  obtain ⟨s, hs⟩ := Option.isSome_iff_exists.mp hrun
  refine ⟨s, hs, hreturned, hraised, ?_⟩
  intro heq
  have hlength := congrArg List.length (congrArg (List.map ErrorStatus.message) heq)
  rw [List.map_append, hreturned, hraised, List.length_append] at hlength
  simp only [List.length_cons, List.length_nil] at hlength
  omega

end Pcb

end UcxArinc
