import UcxArinc.Library.RingBuffer
import UcxArinc.Proofs.Stores

set_option autoImplicit false

/-! # The ring of the error list

`RAISE_APPLICATION_ERROR` writes an error where there is room. A fault and a raiser that has waited for room write
without looking. The counters of the list agree exactly as long as these two find room. -/

namespace UcxArinc

namespace ErrorList

variable {cb : ErrorList} {error : ErrorStatus}

/-- The counters of the list, as those of a ring buffer. -/
def cursors (cb : ErrorList) : RingBuffer.Cursors := ⟨cb.maxErrors, cb.readIndex, cb.writeIndex, cb.nbErrors.toNat⟩

/-- The errors written and not yet read, oldest first. -/
def unread (cb : ErrorList) : List ErrorStatus := cb.cursors.contents cb.processErrorList

/-- `hm_write_error` on the list. -/
def written (cb : ErrorList) (error : ErrorStatus) : ErrorList := { cb with
  processErrorList := Function.update cb.processErrorList cb.writeIndex error
  writeIndex := (cb.writeIndex + 1) % cb.maxErrors
  nbErrors := cb.nbErrors + 1 }

/-- `hm_read_error` on the list. -/
def oneRead (cb : ErrorList) : ErrorList := { cb with
  readIndex := (cb.readIndex + 1) % cb.maxErrors
  nbErrors := cb.nbErrors - 1 }

/-- The list of a new error handler. -/
def emptied (cb : ErrorList) : ErrorList := { cb with readIndex := 0, writeIndex := 0, nbErrors := 0 }

/-- The counters of the list agree. -/
structure Intact (cb : ErrorList) : Prop where
  nonneg : 0 ≤ cb.nbErrors
  bounded : cb.nbErrors ≤ cb.maxErrors
  writeIndex_eq : (cb.writeIndex : Int) = (cb.readIndex + cb.nbErrors) % cb.maxErrors
  readIndex_lt : 0 < cb.maxErrors → cb.readIndex < cb.maxErrors

theorem Intact.valid (h : cb.Intact) : cb.cursors.Valid := by
  have hnb := Int.toNat_of_nonneg h.nonneg
  refine ⟨h.readIndex_lt, Int.toNat_le.mpr h.bounded, ?_⟩
  have heq := h.writeIndex_eq
  rw [← hnb] at heq
  exact_mod_cast heq

theorem intact_of_valid (hnonneg : 0 ≤ cb.nbErrors) (h : cb.cursors.Valid) : cb.Intact := by
  have hnb := Int.toNat_of_nonneg hnonneg
  have hle : cb.nbErrors.toNat ≤ cb.maxErrors := h.count_le
  refine ⟨hnonneg, by omega, ?_, h.readIndex_lt⟩
  have heq : cb.writeIndex = (cb.readIndex + cb.nbErrors.toNat) % cb.maxErrors := h.writeIndex_eq
  rw [← hnb]
  exact_mod_cast heq

/-! ## Writing and reading -/

theorem Intact.room (h : cb.Intact) (hroom : cb.nbErrors < cb.maxErrors) : cb.cursors.count < cb.cursors.size := by
  have hnonneg := h.nonneg
  show cb.nbErrors.toNat < cb.maxErrors
  omega

theorem Intact.cursors_written (h : cb.Intact) : (cb.written error).cursors = cb.cursors.push := by
  have hnonneg := h.nonneg
  show RingBuffer.Cursors.mk _ _ _ (cb.nbErrors + 1).toNat = RingBuffer.Cursors.mk _ _ _ (cb.nbErrors.toNat + 1)
  rw [show (cb.nbErrors + 1).toNat = cb.nbErrors.toNat + 1 by omega]
  rfl

/-- Writing keeps the counters exactly where there is room. -/
theorem Intact.written_iff (h : cb.Intact) : (cb.written error).Intact ↔ cb.nbErrors < cb.maxErrors := by
  constructor
  · intro h'
    have hbounded : cb.nbErrors + 1 ≤ cb.maxErrors := h'.bounded
    omega
  · intro hroom
    refine intact_of_valid (Int.add_nonneg h.nonneg Int.one_nonneg) ?_
    rw [h.cursors_written]
    exact h.valid.push (h.room hroom)

theorem Intact.unread_written (h : cb.Intact) (hroom : cb.nbErrors < cb.maxErrors) :
    (cb.written error).unread = cb.unread ++ [error] := by
  have hother : ∀ i < cb.cursors.size, i ≠ cb.cursors.writeIndex →
      (cb.written error).processErrorList i = cb.processErrorList i :=
    fun i _ hi => Function.update_of_ne hi _ _
  have hlast : (cb.written error).processErrorList cb.cursors.writeIndex = error := Function.update_self _ _ _
  unfold unread
  rw [h.cursors_written, h.valid.contents_push (h.room hroom) hother, hlast]

theorem Intact.count_pos (h : cb.Intact) (hsome : cb.nbErrors ≠ 0) : 0 < cb.cursors.count := by
  have hnonneg := h.nonneg
  show 0 < cb.nbErrors.toNat
  omega

theorem Intact.cursors_oneRead (h : cb.Intact) : cb.oneRead.cursors = cb.cursors.pop := by
  have hnonneg := h.nonneg
  show RingBuffer.Cursors.mk _ _ _ (cb.nbErrors - 1).toNat = RingBuffer.Cursors.mk _ _ _ (cb.nbErrors.toNat - 1)
  rw [show (cb.nbErrors - 1).toNat = cb.nbErrors.toNat - 1 by omega]
  rfl

theorem Intact.oneRead (h : cb.Intact) (hsome : cb.nbErrors ≠ 0) : cb.oneRead.Intact := by
  have hnonneg := h.nonneg
  refine intact_of_valid (show 0 ≤ cb.nbErrors - 1 by omega) ?_
  rw [h.cursors_oneRead]
  exact h.valid.pop (h.count_pos hsome)

theorem Intact.unread_oneRead (h : cb.Intact) (hsome : cb.nbErrors ≠ 0) :
    cb.unread = cb.processErrorList cb.readIndex :: cb.oneRead.unread := by
  unfold unread
  rw [h.cursors_oneRead]
  exact h.valid.contents_pop (h.count_pos hsome)

/-- After a read there is room. -/
theorem Intact.room_oneRead (h : cb.Intact) :
    cb.oneRead.nbErrors < cb.oneRead.maxErrors := by
  have hbounded := h.bounded
  show cb.nbErrors - 1 < cb.maxErrors
  omega

theorem intact_emptied (cb : ErrorList) : cb.emptied.Intact :=
  intact_of_valid le_rfl (RingBuffer.Cursors.valid_clear cb.cursors)

theorem unread_emptied (cb : ErrorList) : cb.emptied.unread = [] :=
  RingBuffer.Cursors.contents_eq_nil.mpr rfl

end ErrorList

namespace Pcb

variable {s s' : Pcb}

/-! ## What is raised, and what is returned -/

/-- The error of process `p`. -/
def errorOf (s : Pcb) (p : Nat) (errorCode : ErrorCode) (messageAddr : Area) (length : Int) : ErrorStatus where
  failedProcessId := (s.proc p).processId
  errorCode := errorCode
  length := length
  message := messageAddr.bytes length.toNat

/-- The error that an action raises for the error handler. -/
def raisedError (s : Pcb) : Action → Option ErrorStatus
  | .call (.raiseApplicationError errorCode messageAddr length) => s.processCurrent.bind fun node =>
    if (length < 0 ∨ maxErrorMessageSize < length) ∨ errorCode ≠ .applicationError
        ∨ s.errorHandlerProcess = some node.data ∨ s.errorHandlerProcess = none then none
    else some (s.errorOf node.data errorCode messageAddr length)
  | .fault errorCode messageAddr length => s.processCurrent.bind fun node =>
    if s.errorHandlerProcess = some node.data ∨ s.errorHandlerProcess = none then none
    else some (s.errorOf node.data errorCode messageAddr length)
  | _ => none

/-- The error that the raiser which the loop resumes has waited with. -/
def resumedError (s : Pcb) : Option ErrorStatus :=
  match s.resumedContext with
  | some (.raiseApplicationErrorFull error) => some error
  | _ => none

/-- The error that an action writes without looking for room. -/
def forcedError (s : Pcb) (e : Action) : Option ErrorStatus :=
  match e with
  | .fault _ _ _ => s.raisedError e
  | .loop => s.resumedError
  | _ => none

/-- The error that `GET_ERROR_STATUS` returns. -/
def returnedError (s : Pcb) : Action → Option ErrorStatus
  | .call .getErrorStatus => s.getErrorStatus.2.bind Result.error
  | _ => none

/-- The action creates the error handler. -/
def createsHandler (s : Pcb) : Action → Bool
  | .call (.createErrorHandler stackSize) =>
    (s.createErrorHandler stackSize).2.any fun r => decide (r.returnCode = .noError)
  | _ => false

/-- What an action does to the error list, and the error it returns. -/
inductive ErrorStep (s : Pcb) (e : Action) : Option ErrorStatus → ErrorList → Prop
  | same (hraised : s.raisedError e = none) (hforced : s.forcedError e = none)
      (hnew : s.createsHandler e = false) : ErrorStep s e none s.errorListCb
  | waits (error : ErrorStatus) (hraised : s.raisedError e = some error) (hforced : s.forcedError e = none)
      (hfull : s.errorListCb.nbErrors = s.errorListCb.maxErrors) : ErrorStep s e none s.errorListCb
  | raised (error : ErrorStatus) (hraised : s.raisedError e = some error) (hforced : s.forcedError e = none)
      (hroom : s.errorListCb.nbErrors ≠ s.errorListCb.maxErrors) :
      ErrorStep s e none (s.errorListCb.written error)
  | forced (error : ErrorStatus) (hforced : s.forcedError e = some error) :
      ErrorStep s e none (s.errorListCb.written error)
  | read (he : e = .call .getErrorStatus) (hsome : s.errorListCb.nbErrors ≠ 0)
      (hnobody : s.waitingProcesses .errorProcesses = []) :
      ErrorStep s e (some (s.errorListCb.processErrorList s.errorListCb.readIndex)) s.errorListCb.oneRead
  | readAndMoved (error : ErrorStatus) (he : e = .call .getErrorStatus) (hsome : s.errorListCb.nbErrors ≠ 0)
      (hwaits : s.waitingProcesses .errorProcesses ≠ []) :
      ErrorStep s e (some (s.errorListCb.processErrorList s.errorListCb.readIndex))
        (s.errorListCb.oneRead.written error)
  | emptied (stackSize : Nat) (he : e = .call (.createErrorHandler stackSize))
      (hnew : s.createsHandler e = true) : ErrorStep s e none s.errorListCb.emptied

theorem raiseToErrorHandler_errors (current : Nat) (error : ErrorStatus) :
    (s.raiseToErrorHandler current error).1.errorListCb = s.errorListCb.written error :=
  congrArg Stores.errors (raiseToErrorHandler_stores current error)

theorem raiseApplicationError_step (errorCode : ErrorCode) (messageAddr : Area) (length : Int) :
    ErrorStep s (.call (.raiseApplicationError errorCode messageAddr length)) none
      (s.raiseApplicationError errorCode messageAddr length).1.errorListCb := by
  have hsame : ∀ o : Outcome, o.1.errorListCb = s.errorListCb →
      s.raisedError (.call (.raiseApplicationError errorCode messageAddr length)) = none →
      ErrorStep s (.call (.raiseApplicationError errorCode messageAddr length)) none o.1.errorListCb := by
    intro o ho hraised
    rw [ho]
    exact .same hraised rfl rfl
  unfold raiseApplicationError withCurrent
  cases hc : s.processCurrent with
  | none => exact hsame _ rfl (by rw [raisedError, hc]; rfl)
  | some node =>
      dsimp only
      have hnone : ((length < 0 ∨ maxErrorMessageSize < length) ∨ errorCode ≠ .applicationError
          ∨ s.errorHandlerProcess = some node.data ∨ s.errorHandlerProcess = none) →
          s.raisedError (.call (.raiseApplicationError errorCode messageAddr length)) = none := fun h => by
        rw [raisedError, hc]
        exact if_pos h
      split_ifs with hlength hcode hhandler hfull
      · exact hsame _ rfl (hnone (Or.inl hlength))
      · exact hsame _ rfl (hnone (Or.inr (Or.inl hcode)))
      · exact hsame _ (congrArg Stores.errors (hmRaisePartitionError_stores s _))
          (hnone (Or.inr (Or.inr hhandler)))
      all_goals
        have hraised : s.raisedError (.call (.raiseApplicationError errorCode messageAddr length))
            = some (s.errorOf node.data errorCode messageAddr length) := by
          rw [raisedError, hc]
          refine if_neg fun h => ?_
          rcases h with h | h | h
          · exact hlength h
          · exact hcode h
          · exact hhandler h
      · exact .waits _ hraised rfl hfull
      · rw [raiseToErrorHandler_errors]
        exact .raised _ hraised rfl hfull

theorem hmRaiseError_step (errorCode : ErrorCode) (messageAddr : Area) (length : Int) :
    ErrorStep s (.fault errorCode messageAddr length) none
      (s.hmRaiseError errorCode messageAddr length).1.errorListCb := by
  have hsame : ∀ o : Outcome, o.1.errorListCb = s.errorListCb →
      s.raisedError (.fault errorCode messageAddr length) = none →
      ErrorStep s (.fault errorCode messageAddr length) none o.1.errorListCb := by
    intro o ho hraised
    rw [ho]
    exact .same hraised hraised rfl
  unfold hmRaiseError withCurrent
  cases hc : s.processCurrent with
  | none => exact hsame _ rfl (by rw [raisedError, hc]; rfl)
  | some node =>
      dsimp only
      have hnone : (s.errorHandlerProcess = some node.data ∨ s.errorHandlerProcess = none) →
          s.raisedError (.fault errorCode messageAddr length) = none := fun h => by
        rw [raisedError, hc]
        exact if_pos h
      generalize hu : s.modProc node.data (fun x => { x with processState := .faulted }) = u
      have hlist : u.errorListCb = s.errorListCb := by rw [← hu]; rfl
      have hhandler : u.errorHandlerProcess = s.errorHandlerProcess := by rw [← hu]; rfl
      have hid : (u.proc node.data).processId = (s.proc node.data).processId := by
        rw [← hu, modProc_proc_self]
      rw [hhandler]
      cases heh : s.errorHandlerProcess with
      | none =>
          exact hsame _ ((congrArg Stores.errors (hmRaisePartitionError_stores u _)).trans hlist) (hnone (Or.inr heh))
      | some errorProcess =>
          dsimp only
          split_ifs with hself
          · subst hself
            exact hsame _ ((congrArg Stores.errors (hmRaisePartitionError_stores u _)).trans hlist)
              (hnone (Or.inl heh))
          · have hraised : s.raisedError (.fault errorCode messageAddr length)
                = some (s.errorOf node.data errorCode messageAddr length) := by
              rw [raisedError, hc]
              refine if_neg ?_
              rw [heh]
              rintro (h | h)
              · exact hself (Option.some.inj h).symm
              · cases h
            have hwritten : ∀ v : Pcb, v.errorListCb = u.errorListCb.written
                (u.errorOf node.data errorCode messageAddr length) →
                ErrorStep s (.fault errorCode messageAddr length) none v.errorListCb := by
              intro v hv
              have herror : u.errorOf node.data errorCode messageAddr length
                  = s.errorOf node.data errorCode messageAddr length := by rw [errorOf, errorOf, hid]
              rw [hv, hlist, herror]
              exact .forced _ hraised
            generalize hw : u.hmWriteError _ = w
            cases hwake : w.wakeErrorHandler errorProcess with
            | none => exact hwritten w (by rw [← hw]; rfl)
            | some v =>
                refine hwritten v ((congrArg Stores.errors (wakeErrorHandler_stores hwake)).trans ?_)
                rw [← hw]
                rfl

theorem getErrorStatus_step : ErrorStep s (.call .getErrorStatus) (s.returnedError (.call .getErrorStatus))
    s.getErrorStatus.1.errorListCb := by
  have hsame : ∀ rc, ErrorStep s (.call .getErrorStatus) ((s.ret rc).2.bind Result.error) (s.ret rc).1.errorListCb :=
    fun rc => .same rfl rfl rfl
  unfold returnedError
  dsimp only
  unfold getErrorStatus withCurrent
  cases s.processCurrent with
  | none => exact .same rfl rfl rfl
  | some node =>
      dsimp only
      split_ifs with hother hnone
      · exact hsame _
      · exact hsame _
      · unfold hmReadError
        dsimp only
        split
        · next hnobody =>
            have hempty := wakeFirst_eq_none.mp hnobody
            exact .read rfl hnone hempty
        · next p t hwake =>
            obtain ⟨rest, hlist, rfl⟩ := wakeFirst_eq_some hwake
            refine .readAndMoved _ rfl hnone ?_
            rw [show s.waitingProcesses .errorProcesses = p :: rest from hlist]
            exact List.cons_ne_nil p rest

theorem createErrorHandler_step (stackSize : Nat) :
    ErrorStep s (.call (.createErrorHandler stackSize)) none (s.createErrorHandler stackSize).1.errorListCb := by
  have hcases : ((s.createErrorHandler stackSize).2.any (fun r => decide (r.returnCode = .noError)) = true
        ∧ (s.createErrorHandler stackSize).1.errorListCb = s.errorListCb.emptied)
      ∨ (s.createErrorHandler stackSize).2.any (fun r => decide (r.returnCode = .noError)) = false
        ∧ (s.createErrorHandler stackSize).1.errorListCb = s.errorListCb := by
    unfold createErrorHandler
    split_ifs
    iterate 4 exact Or.inr ⟨rfl, rfl⟩
    exact Or.inl ⟨rfl, rfl⟩
  rcases hcases with ⟨hnew, hlist⟩ | ⟨hnew, hlist⟩
  · rw [hlist]
    exact .emptied stackSize rfl hnew
  · rw [hlist]
    exact .same rfl rfl hnew

/-- Only a raiser that has waited for room writes when it is resumed. -/
theorem loop_step : ErrorStep s .loop none s.partitionOsLoop.1.errorListCb := by
  have hloop := congrArg Stores.errors (partitionOsLoop_stores s)
  have hsame : s.partitionOsLoop.1.errorListCb = s.errorListCb → s.resumedError = none →
      ErrorStep s .loop none s.partitionOsLoop.1.errorListCb := by
    intro heq hnone
    rw [heq]
    exact .same rfl hnone rfl
  cases hresumed : s.resumedContext with
  | none =>
      rw [hresumed] at hloop
      exact hsame hloop (by rw [resumedError, hresumed])
  | some k =>
      rw [hresumed] at hloop
      cases k with
      | raiseApplicationErrorFull error =>
          obtain ⟨node, hnode, hcontext, hout⟩ := resumedContext_eq_some hresumed
          have hwritten : s.partitionOsLoop.1.errorListCb = s.errorListCb.written error := by
            rw [hout]
            unfold resumeContext
            rw [show (({ s.dispatched with ctl := .process } : Pcb).proc node.data).context
              = .raiseApplicationErrorFull error from hcontext]
            dsimp only
            rw [raiseToErrorHandler_errors]
            exact congrArg (ErrorList.written · error) (congrArg Stores.errors (dispatched_stores s))
          rw [hwritten]
          exact .forced error (show s.resumedError = some error by rw [resumedError, hresumed])
      | _ => exact hsame hloop (by rw [resumedError, hresumed])

/-- What a step does to the error list. -/
theorem step_errors {e : Action} (hstep : s.step e = some s') :
    ErrorStep s e (s.returnedError e) s'.errorListCb := by
  have hstores := congrArg Stores.errors (step_stores hstep)
  have hsame : s'.errorListCb = s.errorListCb → s.raisedError e = none → s.forcedError e = none →
      s.createsHandler e = false → ErrorStep s e none s'.errorListCb := by
    intro heq hraised hforced hnew
    rw [heq]
    exact .same hraised hforced hnew
  cases e with
  | call service =>
      obtain ⟨-, rfl⟩ := call_eq_some hstep
      cases service with
      | createErrorHandler stackSize => exact createErrorHandler_step stackSize
      | raiseApplicationError errorCode messageAddr length =>
          exact raiseApplicationError_step errorCode messageAddr length
      | getErrorStatus => exact getErrorStatus_step
      | _ => exact hsame hstores rfl rfl rfl
  | fault errorCode messageAddr length =>
      obtain ⟨o, ho, rfl⟩ := Option.map_eq_some_iff.mp hstep
      simp only [stepOutcome, Option.ite_none_right_eq_some] at ho
      cases Option.some.inj ho.2
      exact hmRaiseError_step errorCode messageAddr length
  | loop =>
      obtain ⟨-, rfl⟩ := loop_eq_some hstep
      exact loop_step
  | _ => exact hsame hstores rfl rfl rfl

/-! ## Room -/

/-- Who writes an error without looking finds room for it. -/
def KeepsRoom (s : Pcb) (e : Action) : Prop :=
  (s.forcedError e).isSome → s.errorListCb.nbErrors < s.errorListCb.maxErrors

instance (s : Pcb) (e : Action) : Decidable (KeepsRoom s e) :=
  inferInstanceAs (Decidable ((s.forcedError e).isSome → s.errorListCb.nbErrors < s.errorListCb.maxErrors))

/-- A step keeps the counters of the list exactly where it keeps room. -/
theorem intact_step_iff {e : Action} (h : s.errorListCb.Intact) (hstep : s.step e = some s') :
    s'.errorListCb.Intact ↔ KeepsRoom s e := by
  have herrors := step_errors hstep
  generalize s.returnedError e = returned at herrors
  generalize s'.errorListCb = cb at herrors ⊢
  unfold KeepsRoom
  cases herrors with
  | same hraised hforced hnew =>
      rw [hforced]
      exact iff_of_true h fun hsome => by cases hsome
  | waits error hraised hforced hfull =>
      rw [hforced]
      exact iff_of_true h fun hsome => by cases hsome
  | raised error hraised hforced hroom =>
      have hbounded := h.bounded
      rw [hforced, h.written_iff]
      exact iff_of_true (lt_of_le_of_ne hbounded hroom) fun hsome => by cases hsome
  | forced error hforced =>
      rw [hforced, h.written_iff]
      exact ⟨fun hroom _ => hroom, fun hroom => hroom rfl⟩
  | read he hsome hnobody =>
      rw [he]
      exact iff_of_true (h.oneRead hsome) fun hforced => by cases hforced
  | readAndMoved error he hsome hwaits =>
      rw [he]
      exact iff_of_true ((h.oneRead hsome).written_iff.mpr h.room_oneRead) fun hforced => by cases hforced
  | emptied stackSize he hnew =>
      rw [he]
      exact iff_of_true (ErrorList.intact_emptied _) fun hforced => by cases hforced

/-- An error that is returned is the oldest unread one; the others stay unread, in order, before those that are
    written. -/
structure KeepsUnread (s : Pcb) (e : Action) (s' : Pcb) : Prop where
  oldest : ∀ error, s.returnedError e = some error → s.errorListCb.unread.head? = some error
  kept : (∀ stackSize, e ≠ .call (.createErrorHandler stackSize)) → ∃ added, s'.errorListCb.unread
    = (if (s.returnedError e).isSome then s.errorListCb.unread.tail else s.errorListCb.unread) ++ added

theorem keepsUnread_step {e : Action} (h : s.errorListCb.Intact) (hstep : s.step e = some s')
    (hroom : KeepsRoom s e) : KeepsUnread s e s' := by
  have herrors := step_errors hstep
  have hwritten : ∀ error, s.errorListCb.nbErrors < s.errorListCb.maxErrors →
      (s.errorListCb.written error).unread = s.errorListCb.unread ++ [error] := fun _ h' => h.unread_written h'
  refine ⟨fun error hreturned => ?_, fun hnot => ?_⟩
  · rw [hreturned] at herrors
    generalize s'.errorListCb = cb at herrors
    cases herrors with
    | read he hsome hnobody =>
        rw [h.unread_oneRead hsome]
        rfl
    | readAndMoved error he hsome hwaits =>
        rw [h.unread_oneRead hsome]
        rfl
  · generalize s.returnedError e = returned at herrors ⊢
    generalize s'.errorListCb = cb at herrors ⊢
    cases herrors with
    | same hraised hforced hnew => exact ⟨[], (List.append_nil _).symm⟩
    | waits error hraised hforced hfull => exact ⟨[], (List.append_nil _).symm⟩
    | raised error hraised hforced hnotFull => exact ⟨[error], hwritten error (lt_of_le_of_ne h.bounded hnotFull)⟩
    | forced error hforced => exact ⟨[error], hwritten error (hroom (by rw [hforced]; rfl))⟩
    | read he hsome hnobody =>
        rw [h.unread_oneRead hsome]
        exact ⟨[], (List.append_nil _).symm⟩
    | readAndMoved error he hsome hwaits =>
        rw [h.unread_oneRead hsome, (h.oneRead hsome).unread_written h.room_oneRead]
        exact ⟨[error], rfl⟩
    | emptied stackSize he hnew => exact absurd he (hnot stackSize)

theorem intact_startPartitionOs (period identifier : Int) (conf : PartitionConf) (maxErrors : Nat) (krnl : Krnl)
    (memory : Nat → Process) (lastTick : Nat) :
    (partitionInit period identifier conf maxErrors krnl memory lastTick).startPartitionOs.errorListCb.Intact := by
  have hlist := congrArg Stores.errors (startPartitionOs_stores
    (partitionInit period identifier conf maxErrors krnl memory lastTick))
  rw [show (partitionInit period identifier conf maxErrors krnl memory lastTick).startPartitionOs.errorListCb
    = _ from hlist]
  exact ErrorList.intact_emptied
    (partitionInit period identifier conf maxErrors krnl memory lastTick).errorListCb

/-- The counters of the error list agree in every state of a run exactly if faults and resumed raisers find room;
    then no unread error is overwritten, and none is returned but the oldest. -/
theorem errorRing_intact_iff (period identifier : Int) (conf : PartitionConf) (maxErrors : Nat) (krnl : Krnl)
    (memory : Nat → Process) (lastTick : Nat) {es : List Action}
    (hrun : Transition.run Pcb.step
      (partitionInit period identifier conf maxErrors krnl memory lastTick).startPartitionOs es = some s) :
    (Transition.Always Pcb.step (fun t => t.errorListCb.Intact)
        (partitionInit period identifier conf maxErrors krnl memory lastTick).startPartitionOs es
      ↔ Transition.GuardedRun Pcb.step KeepsRoom
        (partitionInit period identifier conf maxErrors krnl memory lastTick).startPartitionOs es s)
      ∧ (Transition.GuardedRun Pcb.step KeepsRoom
          (partitionInit period identifier conf maxErrors krnl memory lastTick).startPartitionOs es s →
        ∀ e s', s.step e = some s' → KeepsRoom s e → KeepsUnread s e s') := by
  have hstart := intact_startPartitionOs period identifier conf maxErrors krnl memory lastTick
  refine ⟨Transition.always_iff_guarded hrun (fun _ _ _ h hstep => intact_step_iff h hstep) hstart, ?_⟩
  intro hguarded e s' hstep hroom
  exact keepsUnread_step (hguarded.invariant (fun _ _ _ h hok hs => (intact_step_iff h hs).mpr hok) hstart)
    hstep hroom

/-! ## A list for one error -/

def oneErrorPartition : Pcb :=
  (partitionInit 50 1 defaultPartitionConf 1 defaultKrnl (fun _ => zeroProcess) 0).startPartitionOs

/-- The error handler and two processes are created; the first of them executes. -/
def handlerAndTwo : List Action :=
  [.loop, .call (.createErrorHandler 1024), .call (.createProcess (aperiodicProcess "A".toList 50)),
    .call (.createProcess (aperiodicProcess "B".toList 40)), .call (.start 1), .call (.start 2),
    .call (.setPartitionMode 3), .loop]

def raiseByte (b : UInt8) : Action := .call (.raiseApplicationError .applicationError (fun _ => b) 1)

/-- The process raises an error, which the handler reads, and fails. -/
def faultWithRoom : List Action :=
  handlerAndTwo ++ [raiseByte 7, .loop, .call .getErrorStatus, .call .stopSelf, .loop,
    .fault .numericError (fun _ => 8) 1, .loop]

theorem errorRing_intact_with_room :
    ∃ s s', Transition.run Pcb.step oneErrorPartition faultWithRoom = some s
      ∧ Transition.Always Pcb.step (fun t => t.errorListCb.Intact) oneErrorPartition faultWithRoom
      ∧ s.errorListCb.nbErrors = 1 ∧ s.step (.call .getErrorStatus) = some s'
      ∧ KeepsUnread s (.call .getErrorStatus) s' := by
  have hrun : ((Transition.checkedRun Pcb.step KeepsRoom oneErrorPartition faultWithRoom).bind fun s =>
      (s.step (.call .getErrorStatus)).map fun _ => (s.ctl, s.errorListCb.nbErrors))
      = some (.process, 1) := by decide
  obtain ⟨s, hs, hrun⟩ := Option.bind_eq_some_iff.mp hrun
  obtain ⟨s', hs', hfields⟩ := Option.map_eq_some_iff.mp hrun
  obtain ⟨-, hcount⟩ := Prod.mk.inj hfields
  have hguarded := Transition.guardedRun_of_checked hs
  obtain ⟨halways, hunread⟩ := errorRing_intact_iff 50 1 defaultPartitionConf 1 defaultKrnl
    (fun _ => zeroProcess) 0 hguarded.run_eq
  exact ⟨s, s', hguarded.run_eq, halways.mpr hguarded, hcount, hs',
    hunread hguarded _ s' hs' fun hforced => by cases hforced⟩

/-- The process raises an error, which the handler does not read, and fails. -/
def faultWhileFull : List Action :=
  handlerAndTwo ++ [raiseByte 7, .loop, .call .stopSelf, .loop, .fault .numericError (fun _ => 8) 1]

theorem fault_overflows_errorRing :
    ∃ s, Transition.run Pcb.step oneErrorPartition faultWhileFull = some s ∧ s.errorListCb.nbErrors = 2
      ∧ s.errorListCb.maxErrors = 1 ∧ ¬ s.errorListCb.Intact := by
  have hrun : ((Transition.run Pcb.step oneErrorPartition faultWhileFull).map fun s =>
      (s.errorListCb.nbErrors, s.errorListCb.maxErrors)) = some (2, 1) := by decide
  obtain ⟨s, hs, hfields⟩ := Option.map_eq_some_iff.mp hrun
  obtain ⟨hcount, hmax⟩ := Prod.mk.inj hfields
  refine ⟨s, hs, hcount, hmax, fun h => ?_⟩
  have hbounded := h.bounded
  rw [hcount, hmax] at hbounded
  exact absurd hbounded (by decide)

end Pcb

end UcxArinc
