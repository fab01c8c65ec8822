import UcxArinc.Implementation.Partition

set_option autoImplicit false

/-! # Inter-partition communication

The port services of `arinc_interpartition_communication.c`. A port reaches the kernel memory of a
channel; `channelEnqueue` and `channelDequeue` are what a send and a receive do to a queuing
channel, at once or after a wait. -/

namespace UcxArinc

/-! ## Channels -/

namespace QueuingChannel

/-- `current_nb_messages++`, the copy of the message and its size, the next write index. -/
def channelEnqueue (c : QueuingChannel) (messageAddr : Area) (length : Int) : QueuingChannel :=
  { c with
    currentNbMessages := u32 (c.currentNbMessages + 1)
    bufferData := memcpy c.bufferData (u32 (c.writeIndex * c.maxMessageSize)) messageAddr
      length.toNat
    bufferSizes := Function.update c.bufferSizes c.writeIndex (toU32 length)
    writeIndex := u32 (c.writeIndex + 1) % c.maxNbMessages }

/-- The message at the read index. -/
def headMessage (c : QueuingChannel) : List UInt8 :=
  Area.bytes (fun a => c.bufferData (u32 (c.readIndex * c.maxMessageSize) + a))
    (c.bufferSizes c.readIndex)

/-- `current_nb_messages--` and the next read index; the counter is unsigned. -/
def channelDequeue (c : QueuingChannel) : QueuingChannel :=
  { c with
    currentNbMessages := u32Sub c.currentNbMessages 1
    readIndex := u32 (c.readIndex + 1) % c.maxNbMessages }

/-- What `CLEAR_QUEUING_PORT` does to the channel. -/
def channelClear (c : QueuingChannel) : QueuingChannel :=
  { c with currentNbMessages := 0, readIndex := 0, writeIndex := 0 }

end QueuingChannel

namespace Pcb

/-! ## The routing table -/

/-- `check_port_in_conf_table`: the first row with the name. -/
def checkPortInConfTable (s : Pcb) (portName : Name) : Option PortMapping :=
  s.krnl.systemPortTable.find? fun row => decide (portName = row.portName)

/-- `check_max_message_size_in_conf`. -/
def checkMaxMessageSizeInConf (row : PortMapping) (maxMessageSize : Int) : Bool :=
  decide (maxMessageSize = row.messageSizeBytes)

/-- The direction a `PORT_DIRECTION` argument names, if `check_port_direction_in_conf` accepts
    it. -/
def checkPortDirectionInConf (row : PortMapping) (portDirection : Int) : Option PortDirection :=
  (PortDirection.ofInt? portDirection).filter fun d => decide (d = row.portDirection)

/-! ## Sampling ports -/

/-- `CREATE_SAMPLING_PORT`. -/
def createSamplingPort (s : Pcb) (samplingPortName : Name)
    (maxMessageSize portDirection refreshPeriod : Int) : Outcome :=
  if s.conf.maxSamplingPorts < s.res.samplingPortCount + 1 ∨
      s.conf.maxSamplingPortDataSize < maxMessageSize then s.ret .invalidConfig
  else
    match s.checkPortInConfTable samplingPortName with
    | none => s.ret .invalidConfig
    | some row =>
      if (s.findSamplingPortByName samplingPortName).isSome then s.ret .noAction
      else if maxMessageSize ≤ 0 ∨ checkMaxMessageSizeInConf row maxMessageSize = false then
        s.ret .invalidConfig
      else
        match checkPortDirectionInConf row portDirection with
        | none => s.ret .invalidConfig
        | some direction =>
          if refreshPeriod < 0 ∨ timeOverflow (u64 (s.fromNow refreshPeriod)) then
            s.ret .invalidConfig
          else if s.status.operatingMode = .normal then s.ret .invalidConfig
          else
            let index := s.res.samplingPortCount
            let port : SamplingPort :=
              { samplingPortName := strncpyName samplingPortName
                samplingPortId := index + 1
                partitionId := s.status.identifier
                refreshPeriod := refreshPeriod
                maxMessageSize := maxMessageSize
                portDirection := direction
                lastMsgValidity := .invalid
                channel := row.samplingChannel }
            ({ s with res := { s.res with
                samplingPorts := Function.update s.res.samplingPorts index port
                samplingPortCount := index + 1 } },
              some { returnCode := .noError, value := index + 1 })

/-- `WRITE_SAMPLING_MESSAGE`. -/
def writeSamplingMessage (s : Pcb) (samplingPortId : Int) (messageAddr : Area) (length : Int) :
    Outcome :=
  match s.findSamplingPortById samplingPortId with
  | none => s.ret .invalidParam
  | some index =>
    let port := s.res.samplingPorts index
    if port.maxMessageSize < length then s.ret .invalidConfig
    else if length ≤ 0 then s.ret .invalidParam
    else if port.portDirection ≠ .source then s.ret .invalidMode
    else
      match port.channel with
      | none => s.crash
      | some c =>
        let channel := s.krnl.samplingChannels c
        ({ s with krnl := { s.krnl with
            samplingChannels := Function.update s.krnl.samplingChannels c { channel with
              buffer := memcpy channel.buffer 0 messageAddr length.toNat
              currentMessageSize := length
              lastUpdateTime := s.krnl.uptime } } }).ret .noError

/-- `READ_SAMPLING_MESSAGE`. -/
def readSamplingMessage (s : Pcb) (samplingPortId : Int) : Outcome :=
  match s.findSamplingPortById samplingPortId with
  | none => s.ret .invalidParam
  | some index =>
    let port := s.res.samplingPorts index
    if port.portDirection ≠ .destination then s.ret .invalidMode
    else
      match port.channel with
      | none => s.crash
      | some c =>
        let channel := s.krnl.samplingChannels c
        let result : Result :=
          if channel.currentMessageSize = 0 then { returnCode := .noAction, validity := .invalid }
          else
            { returnCode := .noError
              message := channel.buffer.bytes channel.currentMessageSize.toNat
              length := channel.currentMessageSize
              validity :=
                if (s.krnl.uptime : Int) - channel.lastUpdateTime ≤ port.refreshPeriod then .valid
                else .invalid }
        ({ s with res := { s.res with
            samplingPorts := Function.update s.res.samplingPorts index
              { port with lastMsgValidity := result.validity } } }, some result)

/-! ## Queuing ports -/

/-- `CREATE_QUEUING_PORT`. -/
def createQueuingPort (s : Pcb) (queuingPortName : Name)
    (maxMessageSize maxNbMessage portDirection queuingDiscipline : Int) : Outcome :=
  if s.conf.maxQueuingPorts < s.res.queuingPortCount + 1 ∨
      s.conf.maxQueuingPortDataSize < maxMessageSize then s.ret .invalidConfig
  else
    match s.checkPortInConfTable queuingPortName with
    | none => s.ret .invalidConfig
    | some row =>
      if (s.findQueuingPortByName queuingPortName).isSome then s.ret .noAction
      else if maxMessageSize ≤ 0 ∨ checkMaxMessageSizeInConf row maxMessageSize = false then
        s.ret .invalidConfig
      else if maxNbMessage ≤ 0 ∨ row.maxNbMessage < maxNbMessage then s.ret .invalidConfig
      else
        match checkPortDirectionInConf row portDirection,
          QueuingDiscipline.ofInt? queuingDiscipline with
        | some direction, some discipline =>
          if s.status.operatingMode = .normal then s.ret .invalidConfig
          else
            let index := s.res.queuingPortCount
            let port : QueuingPort :=
              { queuingPortName := strncpyName queuingPortName
                queuingPortId := index + 1
                partitionId := s.status.identifier
                maxNbMessage := maxNbMessage
                maxMessageSize := maxMessageSize
                portDirection := direction
                queuingDiscipline := discipline
                channel := row.queuingChannel }
            let s := { s with res := { s.res with
              queuingPorts := Function.update s.res.queuingPorts index port
              queuingPortCount := index + 1 } }
            (s.freshWaitList (.queuingPort index),
              some { returnCode := .noError, value := index + 1 })
        | _, _ => s.ret .invalidConfig

/-- The current process waits in the queue of port `index`. -/
def waitOnPort (s : Pcb) (index current : Nat) (timeOut : Int) : Pcb :=
  s.waitOn current (.queuingPort index) true (s.res.queuingPorts index).queuingDiscipline
    (if timeOut ≠ infiniteTimeValue then some (s.fromNow timeOut) else none)

/-- `SEND_QUEUING_MESSAGE`. -/
def sendQueuingMessage (s : Pcb) (queuingPortId : Int) (messageAddr : Area)
    (length timeOut : Int) : Outcome :=
  match s.findQueuingPortById queuingPortId with
  | none => s.ret .invalidParam
  | some index =>
    let port := s.res.queuingPorts index
    if s.timeOutInvalid timeOut then s.ret .invalidParam
    else if port.maxMessageSize ≤ length then s.ret .invalidConfig
    else if length ≤ 0 then s.ret .invalidParam
    else if port.portDirection ≠ .source then s.ret .invalidMode
    else s.withCurrent fun node =>
      let current := node.data
      match port.channel with
      | none => s.crash
      | some c =>
        let channel := s.krnl.queuingChannels c
        if channel.currentNbMessages < channel.maxNbMessages ∧
            s.waitingProcesses (.queuingPort index) = [] then
          (s.setQueuingChannel c (channel.channelEnqueue messageAddr length)).ret .noError
        else if timeOut = 0 then s.ret .notAvailable
        else if s.cannotBlock current then s.ret .invalidMode
        else (s.waitOnPort index current timeOut).yieldToPartition current
          (.sendQueuingMessage index messageAddr length timeOut)

/-- A message is taken out of channel `c` and handed back. -/
def takeFromChannel (s : Pcb) (c : Nat) : Outcome :=
  let channel := s.krnl.queuingChannels c
  (s.setQueuingChannel c channel.channelDequeue,
    some { returnCode := .noError, message := channel.headMessage,
           length := channel.headMessage.length })

/-- `RECEIVE_QUEUING_MESSAGE`. -/
def receiveQueuingMessage (s : Pcb) (queuingPortId timeOut : Int) : Outcome :=
  match s.findQueuingPortById queuingPortId with
  | none => s.ret .invalidParam
  | some index =>
    let port := s.res.queuingPorts index
    if s.timeOutInvalid timeOut then s.ret .invalidParam
    else if port.portDirection ≠ .destination then s.ret .invalidMode
    else s.withCurrent fun node =>
      let current := node.data
      match port.channel with
      | none => s.crash
      | some c =>
        if 0 < (s.krnl.queuingChannels c).currentNbMessages then s.takeFromChannel c
        else if timeOut = 0 then s.ret .notAvailable
        else if s.cannotBlock current then s.ret .invalidMode
        else (s.waitOnPort index current timeOut).yieldToPartition current
          (.receiveQueuingMessage index timeOut)

/-- `CLEAR_QUEUING_PORT`. -/
def clearQueuingPort (s : Pcb) (queuingPortId : Int) : Outcome :=
  match s.findQueuingPortById queuingPortId with
  | none => s.ret .invalidParam
  | some index =>
    let port := s.res.queuingPorts index
    if port.portDirection ≠ .destination then s.ret .invalidMode
    else
      match port.channel with
      | none => s.crash
      | some c => (s.setQueuingChannel c (s.krnl.queuingChannels c).channelClear).ret .noError

end Pcb

end UcxArinc
