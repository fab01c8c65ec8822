import UcxArinc.Implementation.Malloc

set_option autoImplicit false

/-! # The event log

The log of the health monitor: `hm_init` and `hm_log_event` of `kernel/hm.c`, and
`REPORT_APPLICATION_MESSAGE` of `arinc/arinc_HM.c`, which writes it. The counters of `struct hm_cb_s` that
only `hm_init` sets are left out. -/

namespace UcxArinc

/-- `struct hm_cb_s`. The configuration has at least one entry, with room for its header and a NUL. -/
structure HmCb where
  logBuffer : Area
  writeIndex : Nat
  maxLogEntries : Nat
  maxLogEntrySize : Nat
  maxLogEntries_pos : 1 ≤ maxLogEntries
  five_le_maxLogEntrySize : 5 ≤ maxLogEntrySize

namespace HmCb

/-- `sizeof(PARTITION_ID_TYPE)`. -/
def headerSize : Nat := 4

/-- `hm_init`, with `MAX_LOG_ENTRIES` and `MAX_LOG_ENTRY_SIZE` of `static_conf.h`. -/
def hmInit (logBuffer : Area) : HmCb where
  logBuffer := logBuffer
  writeIndex := 0
  maxLogEntries := 16
  maxLogEntrySize := 256
  maxLogEntries_pos := by decide
  five_le_maxLogEntrySize := by decide

/-- `while (i < remaining_space && msg[i] != '\0')`, with `space` bytes left; the buffer and `i` at its end. -/
def copyLoop (msg : Area) (dest : Nat) : Nat → Nat → Area → Area × Nat
  | 0, i, buffer => (buffer, i)
  | space + 1, i, buffer =>
    if msg i = 0 then (buffer, i)
    else copyLoop msg dest space (i + 1) (Function.update buffer (dest + i) (msg i))

/-- `hm_log_event`; the message may be a null pointer. -/
def hmLogEvent (h : HmCb) (partitionId : Int) (msg : Option Area) : HmCb :=
  let dest := h.writeIndex * h.maxLogEntrySize
  let buffer := h.logBuffer.setWord dest (toU32 partitionId)
  let dest := dest + headerSize
  let remainingSpace := h.maxLogEntrySize - headerSize - 1
  let (buffer, i) :=
    match msg with
    | none => (buffer, 0)
    | some msg => copyLoop msg dest remainingSpace 0 buffer
  { h with
    logBuffer := Function.update buffer (dest + i) 0
    writeIndex := (h.writeIndex + 1) % h.maxLogEntries }

/-- `REPORT_APPLICATION_MESSAGE` by the partition `identifier`. -/
def reportApplicationMessage (h : HmCb) (identifier : Int) (messageAddr : Option Area) (length : Int) :
    HmCb × ReturnCode :=
  if length ≤ 0 then (h, .invalidParam) else (h.hmLogEvent identifier messageAddr, .noError)

/-- What a reader of the log finds in a slot: the partition and the text up to its NUL. -/
def entryAt (h : HmCb) (k : Nat) : Nat × List UInt8 :=
  let slot := k * h.maxLogEntrySize
  (h.logBuffer.word slot,
    ((List.range (h.maxLogEntrySize - headerSize)).map fun i =>
      h.logBuffer (slot + headerSize + i)).takeWhile (· ≠ 0))

end HmCb

end UcxArinc
