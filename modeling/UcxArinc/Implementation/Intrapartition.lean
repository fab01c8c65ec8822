import UcxArinc.Implementation.Partition

set_option autoImplicit false

/-! # Intra-partition communication

The blackboard, buffer, semaphore and event services of `arinc_intrapartition_communication.c`. -/

namespace UcxArinc

namespace Pcb

/-! ## Blackboards -/

/-- Where blackboard `index` starts in `blackboards_data`. -/
def blackboardBase (s : Pcb) (index : Nat) : Nat := (index * s.conf.maxBlackboardDataSize).toNat

/-- `CREATE_BLACKBOARD`. -/
def createBlackboard (s : Pcb) (blackboardName : Name) (maxMessageSize : Int) : Outcome :=
  if s.conf.maxBlackboards < s.res.blackboardCount + 1 ∨
      s.conf.maxBlackboardDataSize < maxMessageSize then s.ret .invalidConfig
  else if (s.findBlackboardByName blackboardName).isSome then s.ret .noAction
  else if maxMessageSize ≤ 0 then s.ret .invalidParam
  else if s.status.operatingMode = .normal then s.ret .invalidMode
  else
    let index := s.res.blackboardCount
    let s := s.setBlackboard index
      { blackboardName := strncpyName blackboardName
        blackboardId := index + 1
        emptyIndicator := .empty
        maxMessageSize := maxMessageSize }
    let s := s.freshWaitList (.blackboard index)
    ({ s with res := { s.res with blackboardCount := index + 1 } },
      some { returnCode := .noError, value := index + 1 })

/-- `DISPLAY_BLACKBOARD`. -/
def displayBlackboard (s : Pcb) (blackboardId : Int) (messageAddr : Area) (length : Int) :
    Outcome :=
  match s.findBlackboardById blackboardId with
  | none => s.ret .invalidConfig
  | some index =>
    let bb := s.res.blackboards index
    if bb.maxMessageSize < length then s.ret .invalidParam
    else if length ≤ 0 then s.ret .invalidParam
    else
      let isWaitingProcesses := decide (0 < s.waitingCount (.blackboard, index))
      let s := s.setBlackboard index { bb with emptyIndicator := .occupied }
      let s := { s with res := { s.res with
        blackboardsData :=
          memcpy s.res.blackboardsData (s.blackboardBase index) messageAddr length.toNat
        blackboardsSizeData := Function.update s.res.blackboardsSizeData index length } }
      let s := s.wakeAll (.blackboard index)
      if isWaitingProcesses then
        s.withCurrent fun node => s.yieldToPartition node.data .displayBlackboard
      else s.ret .noError

/-- The message blackboard `index` displays, as `READ_BLACKBOARD` hands it back. -/
def blackboardMessage (s : Pcb) (index : Nat) : Result :=
  let length := s.res.blackboardsSizeData index
  { returnCode := .noError
    message := Area.bytes (fun a => s.res.blackboardsData (s.blackboardBase index + a)) length.toNat
    length := length }

/-- `READ_BLACKBOARD`; the infinite wait sets no back-pointer. -/
def readBlackboard (s : Pcb) (blackboardId timeOut : Int) : Outcome :=
  match s.findBlackboardById blackboardId with
  | none => s.ret .invalidConfig
  | some index =>
    if s.timeOutInvalid timeOut then s.ret .invalidParam
    else s.withCurrent fun node =>
      let current := node.data
      if (s.res.blackboards index).emptyIndicator = .occupied then
        (s, some (s.blackboardMessage index))
      else if timeOut = 0 then s.ret .notAvailable
      else if s.cannotBlock current then s.ret .invalidMode
      else if timeOut = infiniteTimeValue then
        (s.waitOn current (.blackboard index) false .fifo none).yieldToPartition current
          (.readBlackboard index false)
      else
        (s.waitOn current (.blackboard index) true .fifo
          (some (s.fromNow timeOut))).yieldToPartition current (.readBlackboard index true)

/-- `CLEAR_BLACKBOARD`. -/
def clearBlackboard (s : Pcb) (blackboardId : Int) : Outcome :=
  match s.findBlackboardById blackboardId with
  | none => s.ret .invalidConfig
  | some index =>
    (s.setBlackboard index { s.res.blackboards index with emptyIndicator := .empty }).ret .noError

/-! ## Buffers -/

/-- `CREATE_BUFFER`. -/
def createBuffer (s : Pcb) (bufferName : Name)
    (maxMessageSize maxNbMessage queuingDiscipline : Int) : Outcome :=
  if s.conf.maxBuffers < s.res.bufferCount + 1 ∨
      s.conf.maxBufferDataSize < i32 (maxMessageSize * maxNbMessage) then s.ret .invalidConfig
  else if (s.findBufferByName bufferName).isSome then s.ret .noAction
  else if maxMessageSize ≤ 0 then s.ret .invalidParam
  else if maxNbMessage ≤ 0 then s.ret .invalidParam
  else
    match QueuingDiscipline.ofInt? queuingDiscipline with
    | none => s.ret .invalidParam
    | some discipline =>
      if s.status.operatingMode = .normal then s.ret .invalidMode
      else
        let index := s.res.bufferCount
        let s := s.setBuffer index
          { bufferName := strncpyName bufferName
            bufferId := index + 1
            nbMessage := 0
            maxNbMessage := maxNbMessage
            maxMessageSize := maxMessageSize
            queuingDiscipline := discipline
            readIndex := 0
            writeIndex := 0 }
        let s := (s.freshWaitList (.bufferReaders index)).freshWaitList (.bufferWriters index)
        ({ s with res := { s.res with bufferCount := index + 1 } },
          some { returnCode := .noError, value := index + 1 })

/-- Where message `slot` of buffer `index` starts in `buffers_data`. -/
def bufferData (s : Pcb) (index slot : Nat) : Nat :=
  u32 (u32 (index * toU32 s.conf.maxBufferDataSize)
    + slot * toU32 (s.res.buffers index).maxMessageSize)

/-- Where the size of message `slot` of buffer `index` stands in `buffers_size_data`. -/
def bufferSize (s : Pcb) (index slot : Nat) : Nat :=
  u32 (u32 (index * toU32 (s.res.buffers index).maxNbMessage) + slot)

/-- `(slot + 1) % MAX_NB_MESSAGE`. -/
def nextSlot (s : Pcb) (index slot : Nat) : Nat :=
  u32 (slot + 1) % toU32 (s.res.buffers index).maxNbMessage

/-- A message of `length` bytes is stored at the write index of buffer `index`. -/
def storeMessage (s : Pcb) (index : Nat) (messageAddr : Area) (length : Int) : Pcb :=
  let buf := s.res.buffers index
  let s' := { s with res := { s.res with
    buffersData :=
      memcpy s.res.buffersData (s.bufferData index buf.writeIndex) messageAddr length.toNat
    buffersSizeData :=
      Function.update s.res.buffersSizeData (s.bufferSize index buf.writeIndex) (toU32 length) } }
  (s'.setBuffer index { buf with
    nbMessage := buf.nbMessage + 1
    writeIndex := s.nextSlot index buf.writeIndex }).emit
      (.accepted index (messageAddr.bytes length.toNat))

/-- The message at the read index of buffer `index`. -/
def headMessage (s : Pcb) (index : Nat) : List UInt8 :=
  let slot := (s.res.buffers index).readIndex
  Area.bytes (fun a => s.res.buffersData (s.bufferData index slot + a))
    (s.res.buffersSizeData (s.bufferSize index slot))

/-- The message at the read index of buffer `index` is taken out for process `p`. -/
def takeMessage (s : Pcb) (index p : Nat) : Pcb :=
  let buf := s.res.buffers index
  (s.setBuffer index { buf with
    nbMessage := buf.nbMessage - 1
    readIndex := s.nextSlot index buf.readIndex }).emit (.assigned index p (s.headMessage index))

/-- `SEND_BUFFER`. `messageAddr` is the message of a sender that waits: the code keeps its address, and the
    `RECEIVE_BUFFER` that lets the sender go on copies it. -/
def sendBuffer (s : Pcb) (bufferId : Int) (messageAddr : Area) (length timeOut : Int) : Outcome :=
  match s.findBufferById bufferId with
  | none => s.ret .invalidParam
  | some index =>
    let buf := s.res.buffers index
    if buf.maxMessageSize ≤ length then s.ret .invalidConfig
    else if length ≤ 0 then s.ret .invalidParam
    else if s.timeOutInvalid timeOut then s.ret .invalidParam
    else s.withCurrent fun node =>
      let current := node.data
      let message := messageAddr.bytes length.toNat
      if buf.nbMessage < buf.maxNbMessage then
        match s.wakeFirst (.bufferReaders index) true with
        | none => (s.storeMessage index messageAddr length).ret .noError
        | some (reader, s) =>
          -- the message goes straight to the reader's area
          let s := s.modProc reader fun x => { x with
            waitingMessage := memcpy x.waitingMessage 0 messageAddr length.toNat
            waitingMessageSize := length }
          let s := (s.emit (.accepted index message)).emit (.assigned index reader message)
          s.yieldToPartition current .sendBufferDone
      else if timeOut = 0 then s.ret .notAvailable
      else if s.cannotBlock current then s.ret .invalidMode
      else
        let s := s.modProc current fun x => { x with
          waitingMessage := messageAddr
          waitingMessageSize := length }
        if timeOut = infiniteTimeValue then
          (s.waitOn current (.bufferWriters index) true buf.queuingDiscipline none).yieldToPartition
            current (.sendBuffer false)
        else
          (s.waitOn current (.bufferWriters index) true buf.queuingDiscipline
            (some (s.fromNow timeOut))).yieldToPartition current (.sendBuffer true)

/-- What a receive by `p` hands back. -/
def receivedMessage (s : Pcb) (index p : Nat) (message : List UInt8) (length : Int) : Outcome :=
  (s.emit (.received index p message length),
    some { returnCode := .noError, message := message, length := length })

/-- `RECEIVE_BUFFER` into the area `messageAddr`. -/
def receiveBuffer (s : Pcb) (bufferId timeOut : Int) (messageAddr : Area) : Outcome :=
  match s.findBufferById bufferId with
  | none => s.ret .invalidParam
  | some index =>
    if s.timeOutInvalid timeOut then s.ret .invalidParam
    else s.withCurrent fun node =>
      let current := node.data
      let buf := s.res.buffers index
      if 0 < buf.nbMessage then
        let message := s.headMessage index
        let length := message.length
        let s := s.takeMessage index current
        match s.wakeFirst (.bufferWriters index) true with
        | none => s.receivedMessage index current message length
        | some (writer, s) =>
          -- the woken writer's message takes the free place
          (s.storeMessage index (s.proc writer).waitingMessage
            (s.proc writer).waitingMessageSize).yieldToPartition current
              (.receiveBufferDone index message length)
      else if timeOut = 0 then s.ret .notAvailable
      else if s.cannotBlock current then s.ret .invalidMode
      else
        let s := s.modProc current fun x => { x with waitingMessage := messageAddr }
        if timeOut = infiniteTimeValue then
          (s.waitOn current (.bufferReaders index) true buf.queuingDiscipline none).yieldToPartition
            current (.receiveBuffer index false)
        else
          (s.waitOn current (.bufferReaders index) true buf.queuingDiscipline
            (some (s.fromNow timeOut))).yieldToPartition current (.receiveBuffer index true)

/-! ## Semaphores -/

/-- `CREATE_SEMAPHORE`. -/
def createSemaphore (s : Pcb) (semaphoreName : Name)
    (currentValue maximumValue queuingDiscipline : Int) : Outcome :=
  if s.conf.maxSemaphores < s.res.semaphoreCount + 1 then s.ret .invalidConfig
  else if (s.findSemaphoreByName semaphoreName).isSome then s.ret .noAction
  else if currentValue < 0 then s.ret .invalidParam
  else if maximumValue ≤ 0 then s.ret .invalidParam
  else if maximumValue < currentValue then s.ret .invalidParam
  else
    match QueuingDiscipline.ofInt? queuingDiscipline with
    | none => s.ret .invalidParam
    | some discipline =>
      if s.status.operatingMode = .normal then s.ret .invalidMode
      else
        let index := s.res.semaphoreCount
        let s := s.setSemaphore index
          { semaphoreName := strncpyName semaphoreName
            semaphoreId := index + 1
            queuingDiscipline := discipline
            currentValue := currentValue
            maximumValue := maximumValue }
        let s := s.freshWaitList (.semaphore index)
        ({ s with res := { s.res with semaphoreCount := index + 1 } },
          some { returnCode := .noError, value := index + 1 })

/-- `WAIT_SEMAPHORE`; the infinite wait sets no back-pointer. -/
def waitSemaphore (s : Pcb) (semaphoreId timeOut : Int) : Outcome :=
  match s.findSemaphoreById semaphoreId with
  | none => s.ret .invalidParam
  | some index =>
    if s.timeOutInvalid timeOut then s.ret .invalidParam
    else s.withCurrent fun node =>
      let current := node.data
      let sem := s.res.semaphores index
      if 0 < sem.currentValue then
        (s.setSemaphore index { sem with currentValue := sem.currentValue - 1 }).ret .noError
      else if timeOut = 0 then s.ret .notAvailable
      else if s.cannotBlock current then s.ret .invalidMode
      else if timeOut = infiniteTimeValue then
        (s.waitOn current (.semaphore index) false sem.queuingDiscipline none).yieldToPartition
          current (.waitSemaphore false)
      else
        (s.waitOn current (.semaphore index) true sem.queuingDiscipline
          (some (s.fromNow timeOut))).yieldToPartition current (.waitSemaphore true)

/-- `SIGNAL_SEMAPHORE`. -/
def signalSemaphore (s : Pcb) (semaphoreId : Int) : Outcome :=
  match s.findSemaphoreById semaphoreId with
  | none => s.ret .invalidParam
  | some index =>
    let sem := s.res.semaphores index
    if sem.currentValue = sem.maximumValue then s.ret .invalidConfig
    else
      match s.wakeFirst (.semaphore index) true with
      | none =>
        (s.setSemaphore index { sem with currentValue := sem.currentValue + 1 }).ret .noError
      | some (_, s) => s.withCurrent fun node => s.yieldToPartition node.data .signalSemaphore

/-! ## Events -/

/-- `CREATE_EVENT`. -/
def createEvent (s : Pcb) (eventName : Name) : Outcome :=
  if s.conf.maxEvents < s.res.eventCount + 1 then s.ret .invalidConfig
  else if (s.findEventByName eventName).isSome then s.ret .noAction
  else if s.status.operatingMode = .normal then s.ret .invalidMode
  else
    let index := s.res.eventCount
    let s := s.setEventRecord index
      { eventName := strncpyName eventName, eventId := index + 1, eventState := .down }
    let s := s.freshWaitList (.event index)
    ({ s with res := { s.res with eventCount := index + 1 } },
      some { returnCode := .noError, value := index + 1 })

/-- `SET_EVENT`. -/
def setEvent (s : Pcb) (eventId : Int) : Outcome :=
  match s.findEventById eventId with
  | none => s.ret .invalidParam
  | some index =>
    let s := s.setEventRecord index { s.res.events index with eventState := .up }
    if s.waitingProcesses (.event index) = [] then s.ret .noError
    else s.withCurrent fun node =>
      (s.wakeAll (.event index)).yieldToPartition node.data .setEvent

/-- `RESET_EVENT`. -/
def resetEvent (s : Pcb) (eventId : Int) : Outcome :=
  match s.findEventById eventId with
  | none => s.ret .invalidParam
  | some index =>
    (s.setEventRecord index { s.res.events index with eventState := .down }).ret .noError

/-- `WAIT_EVENT`: an infinite wait queues last, a timed one by priority. -/
def waitEvent (s : Pcb) (eventId timeOut : Int) : Outcome :=
  match s.findEventById eventId with
  | none => s.ret .invalidParam
  | some index =>
    if s.timeOutInvalid timeOut then s.ret .invalidParam
    else s.withCurrent fun node =>
      let current := node.data
      if (s.res.events index).eventState = .up then s.ret .noError
      else if timeOut = 0 then s.ret .notAvailable
      else if s.cannotBlock current then s.ret .invalidMode
      else if timeOut = infiniteTimeValue then
        (s.waitOn current (.event index) true .fifo none).yieldToPartition current
          (.waitEvent false)
      else
        (s.waitOn current (.event index) true .priority
          (some (s.fromNow timeOut))).yieldToPartition current (.waitEvent true)

/-- The end of `APERIODIC_WAIT_EVENT`: a new deadline from the current time on. -/
def finishAperiodicWaitEvent (s : Pcb) (current : Nat) : Outcome :=
  let timeCapacity := (s.proc current).attributes.timeCapacity
  if timeCapacity ≠ infiniteTimeValue ∧ timeOverflow (u64 (s.fromNow timeCapacity)) then
    s.ret .invalidConfig
  else (s.modProc current (updateProcessDeadline s.krnl.uptime)).ret .noError

/-- `APERIODIC_WAIT_EVENT`. -/
def aperiodicWaitEvent (s : Pcb) (eventId : Int) : Outcome :=
  s.withCurrent fun node =>
    let current := node.data
    if s.errorHandlerProcess ≠ some current ∨ s.status.operatingMode ≠ .normal then
      s.ret .invalidMode
    else
      match s.findEventById eventId with
      | none => s.ret .invalidParam
      | some index =>
        let event := s.res.events index
        if (s.proc current).attributes.period = infiniteTimeValue then s.ret .invalidMode
        else if (s.proc current).ownedMutexId ≠ noMutexOwned ∧ event.eventState = .down then
          s.ret .invalidMode
        else
          let s := s.modProc current fun x => { x with deadlineTime := infiniteTimeValue }
          if event.eventState = .up then s.finishAperiodicWaitEvent current
          else
            (s.waitOn current (.event index) true .priority none).yieldToPartition current
              .aperiodicWaitEvent

end Pcb

end UcxArinc
