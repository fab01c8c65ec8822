import UcxArinc.Implementation.Queries
import UcxArinc.Implementation.StaticConf
import UcxArinc.Library.Directory
import UcxArinc.Proofs.InitialisationCalls

set_option autoImplicit false

/-! # Directories of resources

The blackboards, buffers, semaphores, events and mutexes of a partition each form a directory: a
`CREATE_…` enters a name or leaves the partition as it is, and `GET_…_ID` looks a name up. The five
hand-written services and searches are brought to this one form, and the directories are compared with
what the calls of a run have returned. -/

namespace UcxArinc

/-- The kinds of resources with a directory. -/
inductive ResourceKind
  | blackboard
  | buffer
  | semaphore
  | event
  | mutex
  deriving DecidableEq

/-- How many resources of a kind are configured. -/
def PartitionConf.capacity (conf : PartitionConf) : ResourceKind → Nat
  | .blackboard => conf.maxBlackboards
  | .buffer => conf.maxBuffers
  | .semaphore => conf.maxSemaphores
  | .event => conf.maxEvents
  | .mutex => conf.maxMutexes

/-- The kind and the name a `CREATE_…` is called with. -/
def Service.creates : Service → Option (ResourceKind × Name)
  | .createBlackboard name _ => some (.blackboard, name)
  | .createBuffer name _ _ _ => some (.buffer, name)
  | .createSemaphore name _ _ _ => some (.semaphore, name)
  | .createEvent name => some (.event, name)
  | .createMutex name _ _ => some (.mutex, name)
  | _ => none

/-- The kind and the name a `GET_…_ID` is called with. -/
def Query.looksUp : Query → Option (ResourceKind × Name)
  | .getBlackboardId name => some (.blackboard, name)
  | .getBufferId name => some (.buffer, name)
  | .getSemaphoreId name => some (.semaphore, name)
  | .getEventId name => some (.event, name)
  | .getMutexId name => some (.mutex, name)
  | _ => none

namespace Pcb

variable {s s' : Pcb} {k : ResourceKind} {name : Name}

/-! ## The directories of a partition -/

/-- How many resources of a kind there are. -/
def resourceCount (s : Pcb) : ResourceKind → Nat
  | .blackboard => s.res.blackboardCount
  | .buffer => s.res.bufferCount
  | .semaphore => s.res.semaphoreCount
  | .event => s.res.eventCount
  | .mutex => s.res.mutexCount

/-- The stored name and identifier of a resource. -/
def resourceEntry (s : Pcb) : ResourceKind → Nat → Name × Int
  | .blackboard, i => ((s.res.blackboards i).blackboardName, (s.res.blackboards i).blackboardId)
  | .buffer, i => ((s.res.buffers i).bufferName, (s.res.buffers i).bufferId)
  | .semaphore, i => ((s.res.semaphores i).semaphoreName, (s.res.semaphores i).semaphoreId)
  | .event, i => ((s.res.events i).eventName, (s.res.events i).eventId)
  | .mutex, i => ((s.res.mutexes i).mutexName, (s.res.mutexes i).mutexId)

/-- The directory of a kind. -/
def directory (s : Pcb) (k : ResourceKind) : List (Name × Int) :=
  (List.range (s.resourceCount k)).map (s.resourceEntry k)

@[simp] theorem length_directory (s : Pcb) (k : ResourceKind) :
    (s.directory k).length = s.resourceCount k := by
  simp [directory]

/-- `GET_BLACKBOARD_ID` … `GET_MUTEX_ID`. -/
def getId (s : Pcb) : ResourceKind → Name → Except ReturnCode Int
  | .blackboard, name => s.getBlackboardId name
  | .buffer, name => s.getBufferId name
  | .semaphore, name => s.getSemaphoreId name
  | .event, name => s.getEventId name
  | .mutex, name => s.getMutexId name

/-! ## Looking a name up -/

/-- A search of an array by name is a search of its directory. -/
theorem findIndex_name (count : Nat) (entry : Nat → Name × Int) (name : Name) :
    (findIndex count fun i => decide ((entry i).1 = name)).map entry
      = ((List.range count).map entry).find? fun e => decide (e.1 = name) := by
  rw [findIndex, List.find?_map]
  rfl

/-- A lookup fails where the directory has no entry of the name. -/
theorem findIndex_isSome (count : Nat) (entry : Nat → Name × Int) (name : Name) :
    (findIndex count fun i => decide ((entry i).1 = name)).isSome
      ↔ name ∈ ((List.range count).map entry).map Prod.fst := by
  rw [findIndex, List.find?_isSome, List.map_map, List.mem_map]
  exact exists_congr fun i => and_congr_right fun _ => decide_eq_true_iff

/-- Every `GET_…_ID` answers from the directory. -/
theorem getId_eq (s : Pcb) (k : ResourceKind) (name : Name) : s.getId k name =
    reply ((s.directory k).find? fun e => decide (e.1 = name)) .invalidConfig Prod.snd := by
  have hreply : ∀ (count : Nat) (entry : Nat → Name × Int),
      reply (findIndex count fun i => decide ((entry i).1 = name)) .invalidConfig
          (fun i => (entry i).2)
        = reply (((List.range count).map entry).find? fun e => decide (e.1 = name)) .invalidConfig
          Prod.snd := by
    intro count entry
    rw [← findIndex_name]
    cases findIndex count fun i => decide ((entry i).1 = name) with
    | none => rfl
    | some i => rfl
  cases k with
  | blackboard => exact hreply _ (s.resourceEntry .blackboard)
  | buffer => exact hreply _ (s.resourceEntry .buffer)
  | semaphore => exact hreply _ (s.resourceEntry .semaphore)
  | event => exact hreply _ (s.resourceEntry .event)
  | mutex => exact hreply _ (s.resourceEntry .mutex)

/-! ## Entering a name -/

/-- What a successful `CREATE_…` does to the directories. -/
structure Enters (s : Pcb) (k : ResourceKind) (name : Name) (s' : Pcb) : Prop where
  room : s.resourceCount k < s.conf.capacity k
  isNew : name ∉ (s.directory k).map Prod.fst
  added : s'.directory k = s.directory k ++ [(strncpyName name, (s.resourceCount k : Int) + 1)]
  others : ∀ k', k' ≠ k → s'.directory k' = s.directory k'
  conf : s'.conf = s.conf
  status : s'.status = s.status
  ctl : s'.ctl = s.ctl

/-- A `CREATE_…` is refused and changes nothing, or enters the name and hands its identifier back. -/
def CreateOutcome (s : Pcb) (k : ResourceKind) (name : Name) (o : Outcome) : Prop :=
  (∃ rc, rc ≠ .noError ∧ o = s.ret rc) ∨
  ∃ s', o = (s', some { returnCode := .noError, value := (s.resourceCount k : Int) + 1 })
    ∧ s.Enters k name s'

/-- A directory whose array has got one more element behind the others. -/
theorem entries_update {α : Type} (elements : Nat → α) (n : Nat) (x : α) (entry : α → Name × Int) :
    ((List.range (n + 1)).map fun i => entry (Function.update elements n x i))
      = ((List.range n).map fun i => entry (elements i)) ++ [entry x] := by
  rw [List.range_succ, List.map_append]
  congr 1
  · refine List.map_congr_left fun i hi => ?_
    rw [Function.update_of_ne (List.mem_range.mp hi).ne]
  · simp

/-- A check of a `CREATE_…`. -/
theorem CreateOutcome.check {c : Prop} [Decidable c] {rc : ReturnCode} {o : Outcome}
    (hrc : rc ≠ .noError) (ho : ¬ c → CreateOutcome s k name o) :
    CreateOutcome s k name (if c then s.ret rc else o) :=
  refused_elim (Or.inl ⟨rc, hrc, rfl⟩) ho

/-- The check of a `QUEUING_DISCIPLINE`. -/
theorem CreateOutcome.discipline {x : Int} {f : QueuingDiscipline → Outcome}
    (hf : ∀ discipline, CreateOutcome s k name (f discipline)) :
    CreateOutcome s k name (match QueuingDiscipline.ofInt? x with
      | none => s.ret .invalidParam
      | some discipline => f discipline) := by
  cases QueuingDiscipline.ofInt? x with
  | none => exact Or.inl ⟨_, by decide, rfl⟩
  | some discipline => exact hf discipline

theorem createBlackboard_outcome (s : Pcb) (name : Name) (maxMessageSize : Int) :
    CreateOutcome s .blackboard name (s.createBlackboard name maxMessageSize) := by
  unfold createBlackboard
  refine .check (by decide) fun hroom => .check (by decide) fun hnew => ?_
  refine .check (by decide) fun _ => .check (by decide) fun _ => Or.inr ⟨_, rfl, ?_⟩
  rw [freshWaitList_eq]
  exact {
    room := not_lt.mp (not_or.mp hroom).1
    isNew := fun h => hnew ((findIndex_isSome _ (s.resourceEntry .blackboard) name).mpr h)
    added := entries_update s.res.blackboards _ _ fun x => (x.blackboardName, x.blackboardId)
    others := fun k' hk => by cases k' <;> first | rfl | exact absurd rfl hk
    conf := rfl
    status := rfl
    ctl := rfl }

theorem createBuffer_outcome (s : Pcb) (name : Name)
    (maxMessageSize maxNbMessage queuingDiscipline : Int) :
    CreateOutcome s .buffer name
      (s.createBuffer name maxMessageSize maxNbMessage queuingDiscipline) := by
  unfold createBuffer
  refine .check (by decide) fun hroom => .check (by decide) fun hnew => ?_
  refine .check (by decide) fun _ => .check (by decide) fun _ => .discipline fun discipline => ?_
  refine .check (by decide) fun _ => Or.inr ⟨_, rfl, ?_⟩
  rw [freshWaitList_eq, freshWaitList_eq]
  exact {
    room := not_lt.mp (not_or.mp hroom).1
    isNew := fun h => hnew ((findIndex_isSome _ (s.resourceEntry .buffer) name).mpr h)
    added := entries_update s.res.buffers _ _ fun x => (x.bufferName, x.bufferId)
    others := fun k' hk => by cases k' <;> first | rfl | exact absurd rfl hk
    conf := rfl
    status := rfl
    ctl := rfl }

theorem createSemaphore_outcome (s : Pcb) (name : Name)
    (currentValue maximumValue queuingDiscipline : Int) :
    CreateOutcome s .semaphore name
      (s.createSemaphore name currentValue maximumValue queuingDiscipline) := by
  unfold createSemaphore
  refine .check (by decide) fun hroom => .check (by decide) fun hnew => ?_
  refine .check (by decide) fun _ => .check (by decide) fun _ => .check (by decide) fun _ => ?_
  refine .discipline fun discipline => .check (by decide) fun _ => Or.inr ⟨_, rfl, ?_⟩
  rw [freshWaitList_eq]
  exact {
    room := not_lt.mp hroom
    isNew := fun h => hnew ((findIndex_isSome _ (s.resourceEntry .semaphore) name).mpr h)
    added := entries_update s.res.semaphores _ _ fun x => (x.semaphoreName, x.semaphoreId)
    others := fun k' hk => by cases k' <;> first | rfl | exact absurd rfl hk
    conf := rfl
    status := rfl
    ctl := rfl }

theorem createEvent_outcome (s : Pcb) (name : Name) :
    CreateOutcome s .event name (s.createEvent name) := by
  unfold createEvent
  refine .check (by decide) fun hroom => .check (by decide) fun hnew => ?_
  refine .check (by decide) fun _ => Or.inr ⟨_, rfl, ?_⟩
  rw [freshWaitList_eq]
  exact {
    room := not_lt.mp hroom
    isNew := fun h => hnew ((findIndex_isSome _ (s.resourceEntry .event) name).mpr h)
    added := entries_update s.res.events _ _ fun x => (x.eventName, x.eventId)
    others := fun k' hk => by cases k' <;> first | rfl | exact absurd rfl hk
    conf := rfl
    status := rfl
    ctl := rfl }

theorem createMutex_outcome (s : Pcb) (name : Name) (mutexPriority queuingDiscipline : Int) :
    CreateOutcome s .mutex name (s.createMutex name mutexPriority queuingDiscipline) := by
  unfold createMutex
  refine .check (by decide) fun hroom => .check (by decide) fun hnew => ?_
  refine .check (by decide) fun _ => .discipline fun discipline => ?_
  refine .check (by decide) fun _ => Or.inr ⟨_, rfl, ?_⟩
  rw [freshWaitList_eq]
  exact {
    room := not_lt.mp hroom
    isNew := fun h => hnew ((findIndex_isSome _ (s.resourceEntry .mutex) name).mpr h)
    added := entries_update s.res.mutexes _ _ fun x => (x.mutexName, x.mutexId)
    others := fun k' hk => by cases k' <;> first | rfl | exact absurd rfl hk
    conf := rfl
    status := rfl
    ctl := rfl }

/-- The five services in one form. -/
theorem create_outcome {service : Service} (h : service.creates = some (k, name)) :
    CreateOutcome s k name (s.exec service) := by
  cases service with
  | createBlackboard => cases h; exact createBlackboard_outcome s _ _
  | createBuffer => cases h; exact createBuffer_outcome s _ _ _ _
  | createSemaphore => cases h; exact createSemaphore_outcome s _ _ _ _
  | createEvent => cases h; exact createEvent_outcome s _
  | createMutex => cases h; exact createMutex_outcome s _ _ _
  | _ => cases h

/-! ## Sequences of calls -/

/-- A step of a sequence of calls: a service runs, a query is answered. -/
def callStep (s : Pcb) : ApexCall → Option Pcb
  | .service service => s.step (.call service)
  | .query query => if s.ctl = .process ∨ s.ctl = .mainProcess then (s.ask query).map fun _ => s else none

/-- The calls of the sequences: `CREATE_…` with names that fit, and `GET_…_ID`. -/
def DirectoryCall : ApexCall → Prop
  | .service service => ∃ k name, service.creates = some (k, name) ∧ name.length < maxNameLength
  | .query query => ∃ k name, query.looksUp = some (k, name)

/-- What a call has created: the kind, the name it was called with and the identifier it returned with
    `NO_ERROR`. -/
def createdBy (s : Pcb) : ApexCall → List (ResourceKind × Name × Int)
  | .query _ => []
  | .service service =>
    match service.creates, (s.exec service).2 with
    | some (k, name), some r => if r.returnCode = .noError then [(k, name, r.value)] else []
    | _, _ => []

/-- The creations of a sequence, one call after the other. -/
def enterCreated (created : List (ResourceKind × Name × Int)) (s : Pcb) (call : ApexCall) :
    List (ResourceKind × Name × Int) := created ++ s.createdBy call

/-- The directories hold what the calls have created. -/
def Holds (s : Pcb) (created : List (ResourceKind × Name × Int)) : Prop :=
  ∀ k, ∃ d : Directory Name (s.conf.capacity k), d.entries = s.directory k
    ∧ ∀ name id, (name, id) ∈ s.directory k ↔ (k, name, id) ∈ created

/-- A call of a sequence is answered, and keeps the directories and the record in step. -/
theorem Holds.create {created : List (ResourceKind × Name × Int)} (h : Holds s created)
    {service : Service} (hcreates : service.creates = some (k, name))
    (hname : name.length < maxNameLength) :
    Holds (s.exec service).1 (enterCreated created s (.service service))
      ∧ (s.exec service).1.ctl = s.ctl ∧ (s.exec service).1.status = s.status := by
  rcases create_outcome (s := s) hcreates with ⟨rc, hrc, heq⟩ | ⟨t, heq, henters⟩
  · -- refused
    have hcreated : s.createdBy (.service service) = [] := by
      simp [createdBy, hcreates, heq, ret, hrc]
    rw [enterCreated, hcreated, List.append_nil, heq]
    exact ⟨h, rfl, rfl⟩
  · have hshort : strncpyName name = name := List.take_of_length_le (by omega)
    have hcreated : s.createdBy (.service service) = [(k, name, (s.resourceCount k : Int) + 1)] := by
      simp [createdBy, hcreates, heq]
    rw [enterCreated, hcreated, heq]
    refine ⟨fun k' => ?_, henters.ctl, henters.status⟩
    obtain ⟨d, hd, hmem⟩ := h k'
    rw [henters.conf]
    by_cases hk : k' = k
    · subst hk
      have hlen : d.entries.length = s.resourceCount k' := by rw [hd, length_directory]
      refine ⟨d.add name (by rw [hd]; exact henters.isNew) (hlen.trans_lt henters.room), ?_, ?_⟩
      · rw [Directory.entries_add, hlen, hd, henters.added, hshort]
      · intro name' id
        rw [henters.added, hshort, List.mem_append, List.mem_append, hmem]
        simp
    · refine ⟨d, hd.trans (henters.others k' hk).symm, fun name' id => ?_⟩
      rw [henters.others k' hk, hmem, List.mem_append]
      simp [hk]

/-- Every call of a sequence is answered. -/
theorem callStep_isSome {created : List (ResourceKind × Name × Int)} (h : Holds s created)
    (hctl : s.ctl = .mainProcess) {call : ApexCall} (hcall : DirectoryCall call) :
    ∃ t, s.callStep call = some t ∧ Holds t (enterCreated created s call) ∧ t.ctl = .mainProcess := by
  cases call with
  | service service =>
      obtain ⟨k, name, hcreates, hname⟩ := hcall
      obtain ⟨hholds, hsame, -⟩ := h.create hcreates hname
      refine ⟨(s.exec service).1, ?_, hholds, hsame.trans hctl⟩
      simp [callStep, step, stepOutcome, hctl]
  | query query =>
      obtain ⟨k, name, hlooks⟩ := hcall
      refine ⟨s, ?_, by rwa [enterCreated, createdBy, List.append_nil], hctl⟩
      have hask : ∃ rc, s.ask query = some rc := by
        cases query with
        | getBlackboardId | getBufferId | getSemaphoreId | getEventId | getMutexId => exact ⟨_, rfl⟩
        | _ => cases hlooks
      obtain ⟨rc, hrc⟩ := hask
      simp [callStep, hctl, hrc]

/-- What a sequence of calls leaves behind. -/
structure Agreed (s : Pcb) (created : List (ResourceKind × Name × Int)) : Prop where
  names : ∀ k, ((s.directory k).map Prod.fst).Nodup
  ids : ∀ k, (s.directory k).map Prod.snd = (List.range (s.resourceCount k)).map fun i : Nat => (i : Int) + 1
  count_le : ∀ k, s.resourceCount k ≤ s.conf.capacity k
  found : ∀ k name id, s.getId k name = .ok id ↔ (k, name, id) ∈ created
  missing : ∀ k name, (∃ rc, s.getId k name = .error rc) ↔ ∀ id, (k, name, id) ∉ created
  refused : ∀ service, service.creates.isSome → ∃ r, (s.exec service).2 = some r
    ∧ (r.returnCode ≠ .noError → (s.exec service).1 = s)

/-- `GET_…_ID` is the lookup of the directory. -/
theorem getId_lookup {d : Directory Name (s.conf.capacity k)} (hd : d.entries = s.directory k)
    (name : Name) :
    s.getId k name = match d.lookup name with | none => .error .invalidConfig | some id => .ok id := by
  rw [getId_eq, ← hd, Directory.lookup]
  cases d.entries.find? fun e => decide (e.1 = name) with
  | none => rfl
  | some e => rfl

theorem Holds.agreed {created : List (ResourceKind × Name × Int)} (h : Holds s created) :
    Agreed s created where
  names k := by
    obtain ⟨d, hd, -⟩ := h k
    exact hd ▸ d.nodup
  ids k := by
    obtain ⟨d, hd, -⟩ := h k
    rw [← length_directory, ← hd]
    exact d.ids
  count_le k := by
    obtain ⟨d, hd, -⟩ := h k
    rw [← length_directory, ← hd]
    exact d.length_le
  found k name id := by
    obtain ⟨d, hd, hmem⟩ := h k
    rw [← hmem, ← hd, ← d.lookup_eq_some, getId_lookup hd]
    cases d.lookup name with
    | none => exact ⟨fun h => (nomatch h), fun h => (nomatch h)⟩
    | some id' => simp
  missing k name := by
    obtain ⟨d, hd, hmem⟩ := h k
    have hmissing : (∀ id, (k, name, id) ∉ created) ↔ d.lookup name = none := by
      rw [d.lookup_eq_none, hd]
      exact forall_congr' fun id => not_congr (hmem name id).symm
    rw [hmissing, getId_lookup hd]
    cases d.lookup name with
    | none => exact ⟨fun _ => rfl, fun _ => ⟨_, rfl⟩⟩
    | some id' => exact ⟨fun ⟨rc, hrc⟩ => (nomatch hrc), fun h => (nomatch h)⟩
  refused service hservice := by
    obtain ⟨⟨k, name⟩, hcreates⟩ := Option.isSome_iff_exists.mp hservice
    rcases create_outcome (s := s) hcreates with ⟨rc, -, heq⟩ | ⟨t, heq, -⟩
    · exact ⟨_, by rw [heq]; rfl, fun _ => by rw [heq]; rfl⟩
    · exact ⟨_, by rw [heq], fun hrc => absurd rfl hrc⟩

/-! ## From the start of the partition -/

/-- The call with which `partition_OS` creates the mutex of the preemption lock. -/
def preemptionLockCall : ApexCall :=
  .service (.createMutex "PREEMPTION_LOCK".toList maxPriorityValue 0)

theorem holds_partitionInit (period identifier : Int) (conf : PartitionConf) (maxErrors : Nat)
    (krnl : Krnl) (memory : Nat → Process) (lastTick : Nat) :
    Holds (partitionInit period identifier conf maxErrors krnl memory lastTick) [] := by
  intro k
  refine ⟨.empty Name _, ?_, ?_⟩
  · cases k <;> rfl
  · intro name id
    cases k <;> exact ⟨fun h => (nomatch h), fun h => (nomatch h)⟩

/-- A sequence of calls is answered to its end. -/
theorem Holds.calls {created : List (ResourceKind × Name × Int)} (h : Holds s created)
    (hctl : s.ctl = .mainProcess) {calls : List ApexCall} (hcalls : ∀ call ∈ calls, DirectoryCall call) :
    ∃ s', Transition.run callStep s calls = some s'
      ∧ Holds s' (Transition.record callStep enterCreated created s calls) := by
  induction calls generalizing s created with
  | nil => exact ⟨s, rfl, h⟩
  | cons call calls ih =>
      obtain ⟨t, hstep, hholds, ht⟩ := callStep_isSome h hctl (hcalls call List.mem_cons_self)
      obtain ⟨s', hrun, hlast⟩ := ih hholds ht fun c hc => hcalls c (List.mem_cons_of_mem _ hc)
      refine ⟨s', ?_, ?_⟩
      · rw [Transition.run_cons, hstep]
        exact hrun
      · rw [Transition.record_cons hstep]
        exact hlast

/-- The initialisation code starts, and after every sequence of `CREATE_…` and `GET_…_ID` calls the
    directories agree with what the calls have returned, the first of them the one `partition_OS` makes. -/
theorem directories_agree (period identifier : Int) (conf : PartitionConf) (maxErrors : Nat)
    (krnl : Krnl) (memory : Nat → Process) (lastTick : Nat) {calls : List ApexCall}
    (hcalls : ∀ call ∈ calls, DirectoryCall call) :
    let boot := partitionInit period identifier conf maxErrors krnl memory lastTick
    ∃ s s', boot.startPartitionOs.step .loop = some s ∧ Transition.run callStep s calls = some s'
      ∧ Agreed s' (Transition.record callStep enterCreated (boot.createdBy preemptionLockCall) s calls) := by
  intro boot
  have hcreates : Service.creates (.createMutex "PREEMPTION_LOCK".toList maxPriorityValue 0)
      = some (.mutex, "PREEMPTION_LOCK".toList) := rfl
  obtain ⟨hholds, hctl, hstatus⟩ :=
    (holds_partitionInit period identifier conf maxErrors krnl memory lastTick).create hcreates (by decide)
  have hloop : boot.startPartitionOs.step .loop
      = some { boot.startPartitionOs with ctl := .mainProcess } := by
    have hos : boot.startPartitionOs.ctl = .partitionOs := hctl
    have hmode : boot.startPartitionOs.status.operatingMode = .coldStart :=
      congrArg PartitionStatus.operatingMode hstatus
    simp [step, stepOutcome, hos, partitionOsLoop, hmode]
  obtain ⟨s', hrun, hlast⟩ := Holds.calls (s := { boot.startPartitionOs with ctl := .mainProcess })
    hholds rfl hcalls
  exact ⟨_, s', hloop, hrun, hlast.agreed⟩

/-- An event and a mutex are created, the mutex again, and both are looked up. -/
theorem directories_agree_default :
    let calls : List ApexCall := [.service (.createEvent "E".toList),
      .service (.createMutex "M".toList 5 0), .service (.createMutex "M".toList 7 0),
      .query (.getMutexId "M".toList), .query (.getEventId "M".toList)]
    let boot := partitionInit 50 1 defaultPartitionConf 10 defaultKrnl (fun _ => zeroProcess) 0
    ∃ s s', boot.startPartitionOs.step .loop = some s ∧ Transition.run callStep s calls = some s'
      ∧ Agreed s' (Transition.record callStep enterCreated (boot.createdBy preemptionLockCall) s calls) := by
  intro calls
  refine directories_agree 50 1 defaultPartitionConf 10 defaultKrnl (fun _ => zeroProcess) 0 ?_
  have hevent : DirectoryCall (.service (.createEvent "E".toList)) := ⟨_, _, rfl, by decide⟩
  have hmutex : ∀ priority, DirectoryCall (.service (.createMutex "M".toList priority 0)) :=
    fun _ => ⟨_, _, rfl, by decide⟩
  intro call hcall
  simp only [calls, List.mem_cons, List.not_mem_nil, or_false] at hcall
  rcases hcall with rfl | rfl | rfl | rfl | rfl
  · exact hevent
  · exact hmutex 5
  · exact hmutex 7
  · exact ⟨_, _, rfl⟩
  · exact ⟨_, _, rfl⟩

end Pcb

end UcxArinc
