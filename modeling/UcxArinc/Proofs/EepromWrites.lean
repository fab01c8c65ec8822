import Mathlib.Data.Nat.Bitwise
import Mathlib.Tactic.IntervalCases
import UcxArinc.Proofs.PagedWrites

set_option autoImplicit false

/-! # Writes to EEPROMs

The device bits of a 24LCxxx and the opcode of a 25LC040 hold the upper bits of an address. `write` takes
them from the position where it begins, so it hits the right cells if and only if it does not leave the
block that the other bytes of the address reach. -/

namespace UcxArinc

open Cells Eeprom Driver

/-! ## Bytes of an address -/

section Bytes

variable (upper : UInt8) (pos : Nat)

theorem posLow_toNat : (posLow pos).toNat = pos % 256 := by
  rw [posLow, UInt8.toNat_ofNat', show 0x00ff = 2 ^ 8 - 1 from rfl, Nat.and_two_pow_sub_one_eq_mod]
  omega

theorem posMiddle_toNat : (posMiddle pos).toNat = pos / 256 % 256 := by
  rw [posMiddle, UInt8.toNat_ofNat', Nat.shiftRight_and_distrib, show 0xff00 >>> 8 = 2 ^ 8 - 1 from rfl,
    Nat.and_two_pow_sub_one_eq_mod, Nat.shiftRight_eq_div_pow]
  omega

theorem posHigh_toNat : (posHigh pos).toNat = pos / 65536 % 256 := by
  rw [posHigh, UInt8.toNat_ofNat', Nat.shiftRight_and_distrib, show 0xff0000 >>> 16 = 2 ^ 8 - 1 from rfl,
    Nat.and_two_pow_sub_one_eq_mod, Nat.shiftRight_eq_div_pow]
  omega

theorem ofBytes_low : ofBytes [upper, posLow pos] = upper.toNat * 256 ^ 1 + pos % 256 ^ 1 := by
  simp only [ofBytes, List.foldl_cons, List.foldl_nil, posLow_toNat]
  omega

theorem ofBytes_middle : ofBytes [upper, posMiddle pos, posLow pos] = upper.toNat * 256 ^ 2 + pos % 256 ^ 2 := by
  simp only [ofBytes, List.foldl_cons, List.foldl_nil, posMiddle_toNat, posLow_toNat]
  omega

theorem ofBytes_high :
    ofBytes [upper, posHigh pos, posMiddle pos, posLow pos] = upper.toNat * 256 ^ 3 + pos % 256 ^ 3 := by
  simp only [ofBytes, List.foldl_cons, List.foldl_nil, posHigh_toNat, posMiddle_toNat, posLow_toNat]
  omega

end Bytes

/-! ## 24LCxxx -/

namespace Eeprom24lc

variable {config : Config} {pos count : Nat} {device : UInt8}

/-- A control byte is made of its device bits. -/
theorem control_parts (h : device.toNat < 8) :
    (((0xA0 : UInt8) ||| (device <<< 1)) >>> 4 = 0x0A ∧ (((0xA0 : UInt8) ||| (device <<< 1)) >>> 1) &&& 0x07 = device ∧
        ((0xA0 : UInt8) ||| (device <<< 1)) &&& 0x01 = 0) ∧
      ((0xA1 : UInt8) ||| (device <<< 1)) >>> 4 = 0x0A ∧ (((0xA1 : UInt8) ||| (device <<< 1)) >>> 1) &&& 0x07 = device ∧
        ((0xA1 : UInt8) ||| (device <<< 1)) &&& 0x01 = 1 := by
  obtain ⟨n, rfl, hn⟩ : ∃ n, device = UInt8.ofNat n ∧ n < 8 := ⟨device.toNat, UInt8.ofNat_toNat.symm, h⟩
  interval_cases n <;> decide

/-- The part of an address that is put into the device bits. -/
def ChipType.upper (type : ChipType) (pos : Nat) : Nat :=
  match type with
  | .eeprom24lc04 | .eeprom24lc08 | .eeprom24lc16 => pos / 256 % 8
  | .eeprom24lc1024 => pos / 65536 % 2
  | _ => 0

theorem blockBits_toNat (pos : Nat) : (UInt8.ofNat ((pos >>> 8) &&& 0x07)).toNat = pos / 256 % 8 := by
  rw [UInt8.toNat_ofNat', show 0x07 = 2 ^ 3 - 1 from rfl, Nat.and_two_pow_sub_one_eq_mod, Nat.shiftRight_eq_div_pow]
  omega

theorem wired_lt (select : UInt8) : (select &&& 0x07).toNat < 8 := by
  rw [UInt8.toNat_and]
  exact Nat.lt_succ_of_le Nat.and_le_right

/-- The device bits of a 24LC1024. -/
theorem device_1024 (pos : Nat) (select : UInt8) :
    (UInt8.ofNat ((pos >>> 14) &&& 0x04) ||| (select &&& 0x03)).toNat < 8 ∧
      ((UInt8.ofNat ((pos >>> 14) &&& 0x04) ||| (select &&& 0x03)) >>> 2).toNat = pos / 65536 % 2 ∧
      (UInt8.ofNat ((pos >>> 14) &&& 0x04) ||| (select &&& 0x03)) &&& 0x03 = select &&& 0x03 := by
  have hbit : (pos >>> 14) &&& 0x04 = pos / 65536 % 2 * 4 := by
    rw [show 0x04 = 2 ^ 2 from rfl, Nat.and_two_pow, Nat.testBit_shiftRight, Nat.testBit_eq_decide_div_mod_eq]
    have hlt := Nat.mod_lt (pos / 65536) Nat.two_pos
    by_cases h : pos / 65536 % 2 = 1
    · simp [h]
    · have hzero : pos / 65536 % 2 = 0 := by omega
      simp [hzero]
  obtain ⟨n, hs, hn⟩ : ∃ n, select &&& 0x03 = UInt8.ofNat n ∧ n < 4 := by
    refine ⟨(select &&& 0x03).toNat, UInt8.ofNat_toNat.symm, ?_⟩
    rw [UInt8.toNat_and]
    exact Nat.lt_succ_of_le Nat.and_le_right
  have hlt := Nat.mod_lt (pos / 65536) Nat.two_pos
  rw [hbit, hs]
  generalize pos / 65536 % 2 = b at hlt
  interval_cases b <;> interval_cases n <;> decide

/-- The device bits hold the upper part of the position, and what else they hold is the chip's. -/
theorem select_device (config : Config) (pos : Nat) :
    (select config pos).1.toNat < 8 ∧
      (config.type.splitDevice (select config pos).1).1.toNat = config.type.upper pos ∧
      (config.type.splitDevice (select config pos).1).2.getD config.wired = config.wired := by
  obtain ⟨type, sel⟩ := config
  have hbits := blockBits_toNat pos
  have hlt := Nat.mod_lt (pos / 256) (show 0 < 8 by decide)
  cases type
  case eeprom24lc01 | eeprom24lc02 => exact ⟨Nat.le_of_ble_eq_true rfl, rfl, rfl⟩
  case eeprom24lc04 | eeprom24lc08 | eeprom24lc16 => exact ⟨hbits.symm ▸ hlt, hbits, rfl⟩
  case eeprom24lc1024 => exact device_1024 pos sel
  all_goals exact ⟨wired_lt sel, rfl, rfl⟩

theorem request_control (config : Config) (pos : Nat) :
    config.part.request ((0xA0 : UInt8) ||| ((select config pos).1 <<< 1)) = .write ∧
      config.part.request ((0xA1 : UInt8) ||| ((select config pos).1 <<< 1)) = .readOn := by
  obtain ⟨hlt, hupper, hwired⟩ := select_device config pos
  obtain ⟨⟨hcode, hdevice, hwrite⟩, hcode', hdevice', hread⟩ := control_parts hlt
  constructor
  · simp only [Config.part, hcode, hdevice, hwrite, hwired, and_self, if_true]
  · simp only [Config.part, hcode', hdevice', hread, hwired, and_self, if_true]
    decide

theorem address_control (config : Config) (pos : Nat) (received : List UInt8) :
    config.part.address ((0xA0 : UInt8) ||| ((select config pos).1 <<< 1)) received
      = ofBytes ((config.type.splitDevice (select config pos).1).1 :: received) % config.part.capacity := by
  obtain ⟨hcode, hdevice, hwrite⟩ := (control_parts (select_device config pos).1).1
  simp only [Config.part, hdevice]

theorem select_size (config : Config) (pos : Nat) :
    (select config pos).2 = 2 ∧ config.part.addrSize = 1 ∨ (select config pos).2 = 3 ∧ config.part.addrSize = 2 := by
  obtain ⟨type, sel⟩ := config
  cases type <;> first | exact Or.inl ⟨rfl, rfl⟩ | exact Or.inr ⟨rfl, rfl⟩

/-- The cell a page write is addressed to: the device bits come from the first position, the rest from its own. -/
theorem writeAddress_command (config : Config) (pos i : Nat) :
    config.part.writeAddress (command (select config pos).1 (select config pos).2 i)
      = some ((config.type.upper pos * config.part.blockSize + i % config.part.blockSize) % config.part.capacity) := by
  have hrequest := (request_control config pos).1
  have hupper := (select_device config pos).2.1
  rcases select_size config pos with ⟨hsize, haddr⟩ | ⟨hsize, haddr⟩
  · have hcommand : command (select config pos).1 (select config pos).2 i
        = [(0xA0 : UInt8) ||| ((select config pos).1 <<< 1), posLow i] := by
      rw [hsize]
      rfl
    rw [hcommand, Part.writeAddress, if_pos ⟨hrequest, haddr.symm⟩, address_control, ofBytes_low, hupper,
      Part.blockSize, haddr]
  · have hcommand : command (select config pos).1 (select config pos).2 i
        = [(0xA0 : UInt8) ||| ((select config pos).1 <<< 1), posMiddle i, posLow i] := by
      rw [hsize]
      rfl
    rw [hcommand, Part.writeAddress, if_pos ⟨hrequest, haddr.symm⟩, address_control, ofBytes_middle, hupper,
      Part.blockSize, haddr]

/-- A page write goes to the cell it is for if that is in the block where the first one began. -/
theorem writeAddress_command_iff {i : Nat} (hle : pos ≤ i) (hlt : i < config.part.capacity) :
    config.part.writeAddress (command (select config pos).1 (select config pos).2 i) = some i
      ↔ i / config.part.blockSize = pos / config.part.blockSize := by
  rw [writeAddress_command, Option.some.injEq]
  obtain ⟨type, sel⟩ := config
  cases type <;>
    simp only [Config.part, ChipType.upper, ChipType.kbits, Part.blockSize] at hlt ⊢ <;> norm_num at hlt ⊢ <;> omega

/-- The calls of a page write. -/
def pageCalls (device : UInt8) (cmdSize offset : Nat) (bytes : List UInt8) : List BusCall :=
  [.devOpen, .devWrite (command device cmdSize offset), .devWrite bytes, .devClose]

theorem sends_pageCalls (part : Part) (chip : Chip) (device : UInt8) (cmdSize : Nat) :
    Sends (writePage (part.bus chip) device cmdSize) (pageCalls device cmdSize) := by
  intro bytes ⟨data, made⟩
  rw [writePage, bind_apply, getData_apply, devOpen_bus]
  simp only [bind_apply, pure_apply, devWrite_bus]
  rw [advance_apply, devClose_bus]
  simp only [Dev.written, pageCalls, List.append_assoc, List.cons_append, List.nil_append]

theorem addrSize_pos (config : Config) : 0 < config.part.addrSize := by
  rcases select_size config 0 with h | h <;> rw [h.2] <;> decide

theorem makePageWrite (config : Config) (device : UInt8) (cmdSize : Nat) :
    MakePageWrite config.part (command device cmdSize) (pageCalls device cmdSize) where
  pageWrites_eq _ _ _ := rfl
  cells_eq _ _ _ _ ha := Part.foldl_step_pageWrite (addrSize_pos config) ha nofun

theorem pageSize_dvd (config : Config) : 0 < config.part.pageSize ∧ config.part.pageSize ∣ config.part.blockSize := by
  obtain ⟨type, sel⟩ := config
  cases type <;> norm_num [Config.part, ChipType.kbits, Part.blockSize]

/-- What is read is what the cells hold. -/
theorem driverRead_bus {chip : Chip} {data : Data} (hinit : data.init = true)
    (hfit : data.pos + count ≤ config.part.capacity) (made : List BusCall) :
    (driverRead config (config.part.bus chip) count ⟨data, made⟩).1
      = some (slice (made.foldl config.part.step chip).cells data.pos count) := by
  have hsome : ∃ a, config.part.writeAddress
      (command (select config data.pos).1 (select config data.pos).2 data.pos) = some a ∧ (0 < count → a = data.pos) := by
    refine ⟨_, writeAddress_command config data.pos data.pos, fun hpos => ?_⟩
    have hlt : data.pos < config.part.capacity := by omega
    have hown := (writeAddress_command_iff (Nat.le_refl data.pos) hlt).mpr rfl
    rw [writeAddress_command, Option.some.injEq] at hown
    exact hown
  have hread := (request_control config data.pos).2
  rw [driverRead, getData_init hinit]
  cases hselect : select config data.pos with
  | mk device cmdSize =>
      rw [hselect] at hsome hread
      obtain ⟨a, ha, hpointer⟩ := hsome
      dsimp only
      rw [devOpen_bus]
      simp only [bind_apply, pure_apply, devWrite_bus, List.append_assoc, List.cons_append, List.nil_append]
      rw [devRead_bus, List.foldl_append]
      simp only [List.foldl_cons, List.foldl_nil]
      generalize made.foldl config.part.step chip = c
      have hheader : (command device cmdSize data.pos).foldl config.part.receive { c with phase := .first }
          = { c with pointer := a, phase := .data [] } :=
        Part.foldl_receive_header (addrSize_pos config) ha rfl nofun
      have hcontrol : config.part.receive { c with pointer := a, phase := .first }
          ((0xA1 : UInt8) ||| (device <<< 1)) = { c with pointer := a, phase := .reading } := by
        simp only [Part.receive, hread]
      have hopen : config.part.step c .devOpen = { c with phase := .first } := rfl
      have hwrite : config.part.step { c with phase := .first } (.devWrite (command device cmdSize data.pos))
          = { c with pointer := a, phase := .data [] } := by
        rw [Part.step, Part.isEmpty_header ha, Bool.and_false, if_neg Bool.false_ne_true, hheader]
      have hrestart : config.part.step { c with pointer := a, phase := .data [] } (.devWrite [])
          = { c with pointer := a, phase := .first } := rfl
      have hreading : config.part.step { c with pointer := a, phase := .first }
          (.devWrite [(0xA1 : UInt8) ||| (device <<< 1)]) = { c with pointer := a, phase := .reading } := by
        rw [Part.step, List.isEmpty_cons, Bool.and_false, if_neg Bool.false_ne_true, List.foldl_cons, List.foldl_nil,
          hcontrol]
      rw [hopen, hwrite, hrestart, hreading]
      exact congrArg some (Part.reply_reading rfl hpointer hfit)

/-- Where a write begins and what is in reach decides. -/
theorem hits_iff {chip : Chip} {data : Data} {buf : List UInt8} (hdata : data.SetUpFor config.part)
    (hfit : data.pos + buf.length ≤ config.part.capacity) :
    HitsRightCells config.part chip (driverWrite config) (driverRead config) data buf
      ↔ config.part.SameBlock data.pos buf.length := by
  obtain ⟨hinit, haddrSize, hpageSize⟩ := hdata
  obtain ⟨hpos, hdvd⟩ := pageSize_dvd config
  refine hitsRightCells_iff (makePageWrite config (select config data.pos).1 (select config data.pos).2) hdvd hfit ?_
    (fun i => ⟨_, writeAddress_command config data.pos i⟩) (fun i => writeAddress_command_iff)
    (driverRead_bus hinit hfit)
  obtain ⟨pieces, hflat, hpaged, hrun⟩ := writePages_all
    (sends_pageCalls config.part chip (select config data.pos).1 (select config data.pos).2) hpos buf ⟨data, []⟩
  refine ⟨pieces, hflat, hpaged, ?_⟩
  rw [driverWrite, getData_init hinit]
  cases hselect : select config data.pos with
  | mk device cmdSize =>
      rw [hselect] at hrun
      dsimp only
      rw [bind_apply, hpageSize, hrun, pure_apply]

end Eeprom24lc

/-! ## 25LCxxx -/

namespace Eeprom25lc

variable {type : ChipType} {pos count : Nat} {cmd0 : UInt8}

/-- The part of an address that is put into the opcode. -/
def ChipType.upper (type : ChipType) (pos : Nat) : Nat :=
  match type with
  | .eeprom25lc040 => pos / 256 % 2
  | _ => 0

/-- The opcode of a page write. -/
def writeOpcode (cmd0 : UInt8) : UInt8 := ((((cmd0 &&& 0x08) ||| WREN) &&& 0x08) ||| WRITE)

/-- `select` sets bit 3 to the upper part of the position. -/
theorem select_opcode (type : ChipType) (pos : Nat) :
    (select type pos 0).1 = UInt8.ofNat (8 * type.upper pos) ∧ type.upper pos < 2 := by
  have hbit : (((pos >>> 8) &&& 0x01) <<< 3) = 8 * (pos / 256 % 2) := by
    rw [show 0x01 = 2 ^ 1 - 1 from rfl, Nat.and_two_pow_sub_one_eq_mod, Nat.shiftRight_eq_div_pow,
      Nat.shiftLeft_eq]
    omega
  have hlt := Nat.mod_lt (pos / 256) Nat.two_pos
  cases type
  case eeprom25lc040 =>
    refine ⟨?_, hlt⟩
    rw [select, hbit, ChipType.upper, UInt8.zero_or]
  all_goals exact ⟨rfl, Nat.two_pos⟩

theorem request_opcode (type : ChipType) (pos : Nat) :
    type.part.request (((select type pos 0).1 &&& 0x08) ||| WREN) = .enableWrite ∧
      type.part.request (writeOpcode (select type pos 0).1) = .write ∧
      type.part.request (((select type pos 0).1 &&& 0x08) ||| READ) = .read := by
  obtain ⟨hselect, hlt⟩ := select_opcode type pos
  rw [hselect]
  generalize type.upper pos = b at hlt
  interval_cases b <;> exact ⟨rfl, rfl, rfl⟩

theorem address_opcode (type : ChipType) (pos : Nat) (received : List UInt8) :
    type.part.address (writeOpcode (select type pos 0).1) received
        = ofBytes (UInt8.ofNat (type.upper pos) :: received) % type.part.capacity ∧
      type.part.address (((select type pos 0).1 &&& 0x08) ||| READ) received
        = ofBytes (UInt8.ofNat (type.upper pos) :: received) % type.part.capacity := by
  obtain ⟨hselect, hlt⟩ := select_opcode type pos
  rw [hselect]
  by_cases htype : type = .eeprom25lc040
  · subst htype
    generalize ChipType.upper .eeprom25lc040 pos = b at hlt
    interval_cases b <;> exact ⟨rfl, rfl⟩
  · have hzero : type.upper pos = 0 := by
      cases type <;> first | rfl | exact absurd rfl htype
    simp only [ChipType.part, htype, if_false, hzero]
    exact ⟨rfl, rfl⟩

/-- The address bytes of a command. -/
theorem command_address (type : ChipType) (pos i : Nat) (opcode : UInt8) :
    ∃ received, command opcode (select type pos 0).2 i = opcode :: received ∧
      received.length = type.part.addrSize ∧ ∀ upper : UInt8,
        ofBytes (upper :: received) = upper.toNat * type.part.blockSize + i % type.part.blockSize := by
  cases type
  case eeprom25lc010 | eeprom25lc020 | eeprom25lc040 => exact ⟨[posLow i], rfl, rfl, fun upper => ofBytes_low upper i⟩
  case eeprom25lc1024 =>
    exact ⟨[posHigh i, posMiddle i, posLow i], rfl, rfl, fun upper => ofBytes_high upper i⟩
  all_goals exact ⟨[posMiddle i, posLow i], rfl, rfl, fun upper => ofBytes_middle upper i⟩

theorem upper_toNat (type : ChipType) (pos : Nat) : (UInt8.ofNat (type.upper pos)).toNat = type.upper pos := by
  have hlt := (select_opcode type pos).2
  rw [UInt8.toNat_ofNat']
  exact Nat.mod_eq_of_lt (by omega)

/-- The cell a page write is addressed to: the opcode comes from the first position, the rest from its own. -/
theorem writeAddress_command (type : ChipType) (pos i : Nat) :
    type.part.writeAddress (command (writeOpcode (select type pos 0).1) (select type pos 0).2 i)
      = some ((type.upper pos * type.part.blockSize + i % type.part.blockSize) % type.part.capacity) := by
  obtain ⟨received, hcommand, hlen, hbytes⟩ := command_address type pos i (writeOpcode (select type pos 0).1)
  rw [hcommand, Part.writeAddress, if_pos ⟨(request_opcode type pos).2.1, hlen⟩, (address_opcode type pos _).1, hbytes,
    upper_toNat]

/-- A page write goes to the cell it is for if that is in the block where the first one began. -/
theorem writeAddress_command_iff {i : Nat} (hle : pos ≤ i) (hlt : i < type.part.capacity) :
    type.part.writeAddress (command (writeOpcode (select type pos 0).1) (select type pos 0).2 i) = some i
      ↔ i / type.part.blockSize = pos / type.part.blockSize := by
  rw [writeAddress_command, Option.some.injEq]
  cases type <;>
    simp only [ChipType.part, ChipType.upper, ChipType.kbits, Part.blockSize] at hlt ⊢ <;> norm_num at hlt ⊢ <;> omega

/-- The calls of a page write: it is enabled first. -/
def pageCalls (cmd0 : UInt8) (cmdSize offset : Nat) (bytes : List UInt8) : List BusCall :=
  [.devOpen, .devWrite [(cmd0 &&& 0x08) ||| WREN], .devClose,
    .devOpen, .devWrite (command (writeOpcode cmd0) cmdSize offset), .devWrite bytes, .devClose]

theorem sends_pageCalls (part : Part) (chip : Chip) (cmd0 : UInt8) (cmdSize : Nat) :
    Sends (writePage (part.bus chip) cmd0 cmdSize) (pageCalls cmd0 cmdSize) := by
  intro bytes ⟨data, made⟩
  rw [writePage, bind_apply, getData_apply]
  dsimp only
  rw [devOpen_bus, bind_apply, devWrite_bus, bind_apply, devClose_bus]
  dsimp only
  rw [devOpen_bus]
  simp only [bind_apply, pure_apply, devWrite_bus]
  rw [advance_apply, devClose_bus]
  simp only [Dev.written, pageCalls, writeOpcode, List.append_assoc, List.cons_append, List.nil_append]

theorem addrSize_pos (type : ChipType) : 0 < type.part.addrSize := by
  cases type <;> exact Nat.le_of_ble_eq_true rfl

theorem pageSize_dvd (type : ChipType) : 0 < type.part.pageSize ∧ type.part.pageSize ∣ type.part.blockSize := by
  cases type <;> norm_num [ChipType.part, ChipType.kbits, Part.blockSize]

/-- A page write is taken because it has been enabled. -/
theorem makePageWrite (type : ChipType) (pos : Nat) :
    MakePageWrite type.part (command (writeOpcode (select type pos 0).1) (select type pos 0).2)
      (pageCalls (select type pos 0).1 (select type pos 0).2) where
  pageWrites_eq _ _ _ := rfl
  cells_eq offset bytes a chip ha := by
    have henable : [BusCall.devOpen, .devWrite [((select type pos 0).1 &&& 0x08) ||| WREN], .devClose].foldl
        type.part.step chip = { chip with writeEnabled := true, phase := .idle } := by
      have hrequest := (request_opcode type pos).1
      simp [Part.step, Part.receive, hrequest]
    have hsplit : pageCalls (select type pos 0).1 (select type pos 0).2 offset bytes
        = [.devOpen, .devWrite [((select type pos 0).1 &&& 0x08) ||| WREN], .devClose]
          ++ [.devOpen, .devWrite (command (writeOpcode (select type pos 0).1) (select type pos 0).2 offset),
            .devWrite bytes, .devClose] := rfl
    rw [hsplit, List.foldl_append, henable]
    exact Part.foldl_step_pageWrite (addrSize_pos type) ha fun _ => rfl

/-- What is read is what the cells hold. -/
theorem driverRead_bus {chip : Chip} {data : Data} (hinit : data.init = true)
    (hfit : data.pos + count ≤ type.part.capacity) (made : List BusCall) :
    (driverRead type (type.part.bus chip) count ⟨data, made⟩).1
      = some (slice (made.foldl type.part.step chip).cells data.pos count) := by
  have hrequest := (request_opcode type data.pos).2.2
  obtain ⟨received, hcommand, hlen, hbytes⟩ := command_address type data.pos data.pos
    (((select type data.pos 0).1 &&& 0x08) ||| READ)
  have hpointer : 0 < count →
      type.part.address (((select type data.pos 0).1 &&& 0x08) ||| READ) received = data.pos := by
    intro hpos
    have hlt : data.pos < type.part.capacity := by omega
    have hown := (writeAddress_command_iff (Nat.le_refl data.pos) hlt).mpr rfl
    rw [writeAddress_command, Option.some.injEq] at hown
    rw [(address_opcode type data.pos received).2, hbytes, upper_toNat, hown]
  rw [driverRead, getData_init hinit]
  cases hselect : select type data.pos 0 with
  | mk cmd0 cmdSize =>
      rw [hselect] at hrequest hcommand hpointer
      dsimp only at hrequest hcommand hpointer ⊢
      rw [devOpen_bus, hcommand]
      simp only [bind_apply, pure_apply, devWrite_bus, List.append_assoc, List.cons_append, List.nil_append]
      rw [devRead_bus, List.foldl_append]
      simp only [List.foldl_cons, List.foldl_nil]
      generalize made.foldl type.part.step chip = c
      have hread : type.part.step (type.part.step c .devOpen) (.devWrite (((cmd0 &&& 0x08) ||| READ) :: received))
          = { c with pointer := type.part.address ((cmd0 &&& 0x08) ||| READ) received, phase := .reading } := by
        have hopen : type.part.step c .devOpen = { c with phase := .first } := rfl
        rw [hopen, Part.step, List.isEmpty_cons, Bool.and_false, if_neg Bool.false_ne_true,
          Part.foldl_receive_request (addrSize_pos type) (Or.inr hrequest) hlen rfl, hrequest, if_pos rfl]
      rw [hread]
      exact congrArg some (Part.reply_reading rfl hpointer hfit)

/-- Where a write begins and what is in reach decides. -/
theorem hits_iff {chip : Chip} {data : Data} {buf : List UInt8} (hdata : data.SetUpFor type.part)
    (hfit : data.pos + buf.length ≤ type.part.capacity) :
    HitsRightCells type.part chip (driverWrite type) (driverRead type) data buf
      ↔ type.part.SameBlock data.pos buf.length := by
  obtain ⟨hinit, haddrSize, hpageSize⟩ := hdata
  obtain ⟨hpos, hdvd⟩ := pageSize_dvd type
  refine hitsRightCells_iff (makePageWrite type data.pos) hdvd hfit ?_
    (fun i => ⟨_, writeAddress_command type data.pos i⟩) (fun i => writeAddress_command_iff)
    (driverRead_bus hinit hfit)
  obtain ⟨pieces, hflat, hpaged, hrun⟩ := writePages_all
    (sends_pageCalls type.part chip (select type data.pos 0).1 (select type data.pos 0).2) hpos buf ⟨data, []⟩
  refine ⟨pieces, hflat, hpaged, ?_⟩
  rw [driverWrite, getData_init hinit]
  cases hselect : select type data.pos 0 with
  | mk cmd0 cmdSize =>
      rw [hselect] at hrun
      dsimp only
      rw [bind_apply, hpageSize, hrun, pure_apply]

end Eeprom25lc

/-! ## Both families -/

namespace Eeprom

variable {σ : Type}

/-- `init` sets the sizes of the chip. -/
theorem driverInit_setUp24lc (config : Eeprom24lc.Config) (dev : Dev σ) :
    (Eeprom24lc.driverInit config dev).2.data.SetUpFor config.part := by
  obtain ⟨type, sel⟩ := config
  cases type <;> exact ⟨rfl, rfl, rfl⟩

theorem driverInit_setUp25lc (type : Eeprom25lc.ChipType) (dev : Dev σ) :
    (Eeprom25lc.driverInit type dev).2.data.SetUpFor type.part := by
  cases type <;> exact ⟨rfl, rfl, rfl⟩

/-- The types with more than one block. -/
theorem oneBlock24lc_iff (config : Eeprom24lc.Config) :
    config.part.capacity ≤ config.part.blockSize ↔
      config.type ∉ [.eeprom24lc04, .eeprom24lc08, .eeprom24lc16, .eeprom24lc1024] := by
  obtain ⟨type, sel⟩ := config
  cases type <;> simp [Eeprom24lc.Config.part, Eeprom24lc.ChipType.kbits, Part.blockSize]

theorem oneBlock25lc_iff (type : Eeprom25lc.ChipType) :
    type.part.capacity ≤ type.part.blockSize ↔ type ≠ .eeprom25lc040 := by
  cases type <;> simp [Eeprom25lc.ChipType.part, Eeprom25lc.ChipType.kbits, Part.blockSize]

/-- Paged writes hit the right cells if and only if they stay in one block. -/
theorem pagedWrites_hit_iff (chip : Chip) (data : Data) (buf : List UInt8) :
    (∀ config : Eeprom24lc.Config, data.SetUpFor config.part → data.pos + buf.length ≤ config.part.capacity →
      (HitsRightCells config.part chip (Eeprom24lc.driverWrite config) (Eeprom24lc.driverRead config) data buf
        ↔ config.part.SameBlock data.pos buf.length)) ∧
      ∀ type : Eeprom25lc.ChipType, data.SetUpFor type.part → data.pos + buf.length ≤ type.part.capacity →
        (HitsRightCells type.part chip (Eeprom25lc.driverWrite type) (Eeprom25lc.driverRead type) data buf
          ↔ type.part.SameBlock data.pos buf.length) :=
  ⟨fun _ hdata hfit => Eeprom24lc.hits_iff hdata hfit, fun _ hdata hfit => Eeprom25lc.hits_iff hdata hfit⟩

/-- A chip that has been erased. -/
def erased : Chip := ⟨fun _ => 0xff, 0, false, .idle⟩

/-- 130 bytes at 0x2000. -/
theorem pagedWrites_hit_iff_lc256 :
    HitsRightCells (Eeprom24lc.Config.part ⟨.eeprom24lc256, 0⟩) erased (Eeprom24lc.driverWrite ⟨.eeprom24lc256, 0⟩)
        (Eeprom24lc.driverRead ⟨.eeprom24lc256, 0⟩) ⟨true, true, 2, 64, 0x2000⟩ (List.replicate 130 0x55) ∧
      HitsRightCells Eeprom25lc.ChipType.eeprom25lc256.part erased (Eeprom25lc.driverWrite .eeprom25lc256)
        (Eeprom25lc.driverRead .eeprom25lc256) ⟨true, true, 2, 64, 0x2000⟩ (List.replicate 130 0x55) := by
  constructor
  · refine ((pagedWrites_hit_iff erased ⟨true, true, 2, 64, 0x2000⟩ _).1 ⟨.eeprom24lc256, 0⟩ ⟨rfl, rfl, rfl⟩ ?_).mpr ?_
    · rw [List.length_replicate]
      decide
    · rw [List.length_replicate]
      exact Or.inr (by decide)
  · refine ((pagedWrites_hit_iff erased ⟨true, true, 2, 64, 0x2000⟩ _).2 .eeprom25lc256 ⟨rfl, rfl, rfl⟩ ?_).mpr ?_
    · rw [List.length_replicate]
      decide
    · rw [List.length_replicate]
      exact Or.inr (by decide)

/-- 16 bytes at 248 of a 24LC16: the second half goes to the first block. -/
theorem pagedWrites_not_hit :
    ¬ ((∀ (config : Eeprom24lc.Config) (chip : Chip) (data : Data) (buf : List UInt8), data.SetUpFor config.part →
        data.pos + buf.length ≤ config.part.capacity →
        HitsRightCells config.part chip (Eeprom24lc.driverWrite config) (Eeprom24lc.driverRead config) data buf) ∧
      ∀ (type : Eeprom25lc.ChipType) (chip : Chip) (data : Data) (buf : List UInt8), data.SetUpFor type.part →
        data.pos + buf.length ≤ type.part.capacity →
        HitsRightCells type.part chip (Eeprom25lc.driverWrite type) (Eeprom25lc.driverRead type) data buf) := by
  intro ⟨h, _⟩
  have hfit : 248 + (List.replicate 16 (0x55 : UInt8)).length
      ≤ (Eeprom24lc.Config.part ⟨.eeprom24lc16, 0⟩).capacity := by
    rw [List.length_replicate]
    decide
  have hhits := h ⟨.eeprom24lc16, 0⟩ erased ⟨true, true, 1, 16, 248⟩ (List.replicate 16 0x55) ⟨rfl, rfl, rfl⟩ hfit
  rw [Eeprom24lc.hits_iff ⟨rfl, rfl, rfl⟩ hfit, List.length_replicate] at hhits
  rcases hhits with hzero | hblock
  · exact absurd hzero (by decide)
  · exact absurd hblock (by decide)

end Eeprom

end UcxArinc
