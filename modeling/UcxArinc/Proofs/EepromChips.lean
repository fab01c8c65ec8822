import UcxArinc.Implementation.Eeprom
import UcxArinc.Library.Cells

set_option autoImplicit false

/-! # EEPROM chips on a bus

What the chips of the two families do with the calls of a bus driver: a page write goes to the cells when the
bus is released, a read goes on from cell to cell. A bus keeps the calls made to it and answers as its chip
does after them; every transfer succeeds in full. -/

namespace UcxArinc

open Cells Eeprom

namespace Eeprom

/-- What the first byte of a transfer asks a chip for. -/
inductive Request where
  | ignore
  | enableWrite
  | write
  | read
  /-- Read from where the address counter is. -/
  | readOn
  deriving DecidableEq, Repr

/-- What distinguishes one chip from another. -/
structure Part where
  capacity : Nat
  pageSize : Nat
  addrSize : Nat
  request : UInt8 → Request
  /-- The cell meant by the first byte of a transfer and the bytes of the address. -/
  address : UInt8 → List UInt8 → Nat
  /-- A transfer of no bytes is a new start (I2C). -/
  restarts : Bool
  /-- A page write has to be enabled before (SPI). -/
  latched : Bool

/-- What the next byte is. -/
inductive Phase where
  | idle
  | first
  | address (first : UInt8) (received : List UInt8)
  | data (received : List UInt8)
  | reading

structure Chip where
  cells : Nat → UInt8
  pointer : Nat
  writeEnabled : Bool
  phase : Phase

/-- A call of the bus driver. -/
inductive BusCall where
  | devOpen
  | devClose
  | devRead (count : Nat)
  | devWrite (bytes : List UInt8)
  deriving DecidableEq, Repr

namespace Part

variable (part : Part)

/-- What a chip does with a byte. -/
def receive (chip : Chip) (byte : UInt8) : Chip :=
  match chip.phase with
  | .first =>
    match part.request byte with
    | .ignore => { chip with phase := .idle }
    | .enableWrite => { chip with writeEnabled := true, phase := .idle }
    | .write | .read => { chip with phase := .address byte [] }
    | .readOn => { chip with phase := .reading }
  | .address first received =>
    if received.length + 1 < part.addrSize then { chip with phase := .address first (received ++ [byte]) }
    else
      { chip with
        pointer := part.address first (received ++ [byte])
        phase := if part.request first = .read then .reading
          else if part.latched && !chip.writeEnabled then .idle else .data [] }
  | .data received => { chip with phase := .data (received ++ [byte]) }
  | .idle | .reading => chip

/-- What a chip does at a call. -/
def step (chip : Chip) : BusCall → Chip
  | .devOpen => { chip with phase := .first }
  | .devClose =>
    match chip.phase with
    | .data received =>
      { chip with
        cells := pageWrite part.pageSize chip.cells chip.pointer received
        writeEnabled := chip.writeEnabled && received.isEmpty
        phase := .idle }
    | _ => { chip with phase := .idle }
  | .devRead count =>
    if part.restarts && count = 0 then { chip with phase := .first }
    else
      match chip.phase with
      | .reading => { chip with pointer := (chip.pointer + count) % part.capacity }
      | _ => chip
  | .devWrite bytes =>
    if part.restarts && bytes.isEmpty then { chip with phase := .first } else bytes.foldl part.receive chip

/-- What a chip sends. -/
def reply (chip : Chip) (count : Nat) : List UInt8 :=
  match chip.phase with
  | .reading => slice (fun i => chip.cells (i % part.capacity)) chip.pointer count
  | _ => List.replicate count 0xff

/-- A bus with a chip on it. -/
def bus (chip : Chip) : BusDev (List BusCall) where
  devOpen calls := (0, calls ++ [.devOpen])
  devClose calls := calls ++ [.devClose]
  devRead count calls := (part.reply (calls.foldl part.step chip) count, calls ++ [.devRead count])
  devWrite bytes calls := (bytes.length, calls ++ [.devWrite bytes])

/-- The cell that is meant by what is sent before the data of a page write. -/
def writeAddress : List UInt8 → Option Nat
  | [] => none
  | first :: received =>
    if part.request first = .write ∧ received.length = part.addrSize then some (part.address first received) else none

end Part

/-! ## Page writes -/

/-- A transfer with data: what is sent before the data, and the data. -/
structure PageWrite where
  header : List UInt8
  data : List UInt8
  deriving DecidableEq, Repr

/-- The page writes among the calls of a bus. -/
def pageWrites : List BusCall → List PageWrite
  | .devOpen :: .devWrite header :: .devWrite data :: .devClose :: calls => ⟨header, data⟩ :: pageWrites calls
  | _ :: calls => pageWrites calls
  | [] => []

/-- Each page write that is not empty is addressed to the cell its first byte is for. -/
def Addressed (address : List UInt8 → Option Nat) : Nat → List PageWrite → Prop
  | _, [] => True
  | offset, write :: writes =>
    (write.data ≠ [] → address write.header = some offset) ∧ Addressed address (offset + write.data.length) writes

namespace Part

variable {part : Part} {chip : Chip} {header bytes : List UInt8} {a : Nat}

theorem foldl_receive_data {received : List UInt8} (h : chip.phase = .data received) :
    bytes.foldl part.receive chip = { chip with phase := .data (received ++ bytes) } := by
  induction bytes generalizing chip received with
  | nil => rw [List.foldl_nil, List.append_nil, ← h]
  | cons byte bytes ih =>
      have hbyte : part.receive chip byte = { chip with phase := .data (received ++ [byte]) } := by
        simp only [receive, h]
      rw [List.foldl_cons, hbyte, ih rfl, List.append_assoc, List.singleton_append]

section Address

variable {first byte : UInt8} {received : List UInt8}

theorem receive_address_of_lt (h : chip.phase = .address first received)
    (hlen : received.length + 1 < part.addrSize) :
    part.receive chip byte = { chip with phase := .address first (received ++ [byte]) } := by
  simp only [receive, h, hlen, if_true]

/-- What the last byte of an address does. -/
theorem receive_address_last (h : chip.phase = .address first received)
    (hlen : received.length + 1 = part.addrSize) :
    part.receive chip byte = { chip with
      pointer := part.address first (received ++ [byte])
      phase := if part.request first = .read then .reading
        else if part.latched && !chip.writeEnabled then .idle else .data [] } := by
  simp only [receive, h, hlen, Nat.lt_irrefl, if_false]

theorem foldl_receive_address (h : chip.phase = .address first received) (hne : bytes ≠ [])
    (hlen : received.length + bytes.length = part.addrSize) :
    bytes.foldl part.receive chip = { chip with
      pointer := part.address first (received ++ bytes)
      phase := if part.request first = .read then .reading
        else if part.latched && !chip.writeEnabled then .idle else .data [] } := by
  induction bytes generalizing chip received with
  | nil => exact absurd rfl hne
  | cons byte bytes ih =>
      rw [List.length_cons] at hlen
      rw [List.foldl_cons]
      cases bytes with
      | nil => rw [receive_address_last h hlen, List.foldl_nil]
      | cons byte' bytes =>
          rw [List.length_cons] at hlen
          have hlen' : (received ++ [byte]).length + (byte' :: bytes).length = part.addrSize := by
            rw [List.length_append, List.length_singleton, List.length_cons]
            omega
          rw [receive_address_of_lt h (by omega), ih rfl (List.cons_ne_nil _ _) hlen', List.append_assoc,
            List.singleton_append]

end Address

/-- What a chip does with a request and an address. -/
theorem foldl_receive_request {first : UInt8} {received : List UInt8} (haddr : 0 < part.addrSize)
    (hrequest : part.request first = .write ∨ part.request first = .read) (hlen : received.length = part.addrSize)
    (hphase : chip.phase = .first) :
    (first :: received).foldl part.receive chip = { chip with
      pointer := part.address first received
      phase := if part.request first = .read then .reading
        else if part.latched && !chip.writeEnabled then .idle else .data [] } := by
  have hne : received ≠ [] := List.length_pos_iff.mp (by omega)
  have hfirst : part.receive chip first = { chip with phase := .address first [] } := by
    rcases hrequest with hrequest | hrequest <;> simp only [receive, hphase, hrequest]
  rw [List.foldl_cons, hfirst, foldl_receive_address rfl hne (by simpa using hlen), List.nil_append]

/-- A chip takes the data of a page write that is addressed to it. -/
theorem foldl_receive_header (haddr : 0 < part.addrSize) (h : part.writeAddress header = some a)
    (hphase : chip.phase = .first) (hready : part.latched = true → chip.writeEnabled = true) :
    header.foldl part.receive chip = { chip with pointer := a, phase := .data [] } := by
  cases header with
  | nil => exact nomatch h
  | cons first received =>
      rw [writeAddress] at h
      split at h
      · rename_i hwrite
        obtain ⟨hrequest, hlen⟩ := hwrite
        have hunlatched : (part.latched && !chip.writeEnabled) = false := by
          cases hlatched : part.latched
          · rfl
          · rw [hready hlatched]
            rfl
        rw [foldl_receive_request haddr (Or.inl hrequest) hlen hphase, hrequest]
        simp only [Option.some.injEq] at h
        simp [hunlatched, h]
      · exact nomatch h

/-- A chip that takes a page write has been sent something before the data. -/
theorem isEmpty_header (h : part.writeAddress header = some a) : header.isEmpty = false := by
  cases header with
  | nil => exact nomatch h
  | cons first received => rfl

/-- A page write goes to the cells it is addressed to. -/
theorem foldl_step_pageWrite (haddr : 0 < part.addrSize) (h : part.writeAddress header = some a)
    (hready : part.latched = true → chip.writeEnabled = true) :
    ([BusCall.devOpen, .devWrite header, .devWrite bytes, .devClose].foldl part.step chip).cells
      = pageWrite part.pageSize chip.cells a bytes := by
  have hheader : header.foldl part.receive { chip with phase := .first }
      = { chip with pointer := a, phase := .data [] } := foldl_receive_header haddr h rfl hready
  simp only [List.foldl_cons, List.foldl_nil, step, isEmpty_header h, Bool.and_false, Bool.false_eq_true, if_false, hheader]
  cases hbytes : part.restarts && bytes.isEmpty
  · rw [if_neg (by simp), foldl_receive_data rfl]
    rfl
  · have hnil : bytes = [] := by simpa using (Bool.and_eq_true_iff.mp hbytes).2
    rw [if_pos rfl, hnil]
    rfl

/-- A range that does not reach the end of the chip is read as it is. -/
theorem reply_reading {pos count : Nat} (hphase : chip.phase = .reading) (hpointer : 0 < count → chip.pointer = pos)
    (hfit : pos + count ≤ part.capacity) : part.reply chip count = slice chip.cells pos count := by
  rw [reply, hphase]
  dsimp only
  rcases Nat.eq_zero_or_pos count with hzero | hpos
  · rw [hzero]
    rfl
  · rw [hpointer hpos]
    refine slice_congr fun i hle hlt => ?_
    rw [Nat.mod_eq_of_lt (by omega)]

end Part

/-! ## The chips -/

/-- The number that some bytes are, the most significant first. -/
def ofBytes (bytes : List UInt8) : Nat := bytes.foldl (fun n byte => 256 * n + byte.toNat) 0

end Eeprom

namespace Eeprom24lc

def ChipType.kbits : ChipType → Nat
  | .eeprom24lc01 => 1
  | .eeprom24lc02 => 2
  | .eeprom24lc04 => 4
  | .eeprom24lc08 => 8
  | .eeprom24lc16 => 16
  | .eeprom24lc32 => 32
  | .eeprom24lc64 => 64
  | .eeprom24lc128 => 128
  | .eeprom24lc256 => 256
  | .eeprom24lc512 => 512
  | .eeprom24lc1024 => 1024

/-- The part of an address that stands in the device bits, and the chip select that is left of them. -/
def ChipType.splitDevice (type : ChipType) (device : UInt8) : UInt8 × Option UInt8 :=
  match type with
  | .eeprom24lc01 | .eeprom24lc02 => (0, none)
  | .eeprom24lc04 | .eeprom24lc08 | .eeprom24lc16 => (device, none)
  | .eeprom24lc1024 => (device >>> 2, some (device &&& 0x03))
  | _ => (0, some device)

/-- The chip select that a chip is wired to. -/
def Config.wired (config : Config) : UInt8 :=
  if config.type = .eeprom24lc1024 then config.select &&& 0x03 else config.select &&& 0x07

/-- The chip of a configuration. A control byte is `1010`, three device bits, and 1 to read. -/
def Config.part (config : Config) : Part where
  capacity := 128 * config.type.kbits
  pageSize := match config.type with
    | .eeprom24lc01 | .eeprom24lc02 => 8
    | .eeprom24lc04 | .eeprom24lc08 | .eeprom24lc16 => 16
    | .eeprom24lc32 | .eeprom24lc64 => 32
    | .eeprom24lc128 | .eeprom24lc256 => 64
    | .eeprom24lc512 | .eeprom24lc1024 => 128
  addrSize := if config.type.kbits ≤ 16 then 1 else 2
  request control :=
    if control >>> 4 = 0x0A ∧ (config.type.splitDevice ((control >>> 1) &&& 0x07)).2.getD config.wired = config.wired then
      if control &&& 0x01 = 0 then .write else .readOn
    else .ignore
  address control received :=
    ofBytes ((config.type.splitDevice ((control >>> 1) &&& 0x07)).1 :: received) % (128 * config.type.kbits)
  restarts := true
  latched := false

end Eeprom24lc

namespace Eeprom25lc

def ChipType.kbits : ChipType → Nat
  | .eeprom25lc010 => 1
  | .eeprom25lc020 => 2
  | .eeprom25lc040 => 4
  | .eeprom25lc080 => 8
  | .eeprom25lc160 => 16
  | .eeprom25lc320 => 32
  | .eeprom25lc640 => 64
  | .eeprom25lc128 => 128
  | .eeprom25lc256 => 256
  | .eeprom25lc512 => 512
  | .eeprom25lc1024 => 1024

/-- The chip of a type. Bit 3 of an instruction is the ninth bit of an address, if there are nine. -/
def ChipType.part (type : ChipType) : Part where
  capacity := 128 * type.kbits
  pageSize := match type with
    | .eeprom25lc010 | .eeprom25lc020 | .eeprom25lc040 => 16
    | .eeprom25lc080 | .eeprom25lc160 => 16
    | .eeprom25lc320 | .eeprom25lc640 => 32
    | .eeprom25lc128 | .eeprom25lc256 => 64
    | .eeprom25lc512 => 128
    | .eeprom25lc1024 => 256
  addrSize := if type.kbits ≤ 4 then 1 else if type.kbits ≤ 512 then 2 else 3
  request instruction :=
    if instruction &&& 0xF7 = READ then .read
    else if instruction &&& 0xF7 = WRITE then .write
    else if instruction &&& 0xF7 = WREN then .enableWrite
    else .ignore
  address instruction received :=
    ofBytes ((if type = .eeprom25lc040 then (instruction >>> 3) &&& 0x01 else 0) :: received) % (128 * type.kbits)
  restarts := false
  latched := true

end Eeprom25lc

end UcxArinc
