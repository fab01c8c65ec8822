import Mathlib.Algebra.Group.Nat.Defs

set_option autoImplicit false

/-! # EEPROM drivers

`drivers/device/24lcxxx/24lcxxx.c` and `drivers/device/25lcxxx/25lcxxx.c`. The two differ in how they place an
address in a command; the page sizes and the loop over the pages are the same. `seek` keeps a position from
being negative, and the chips have at most 2^17 bytes, so positions and sizes are numbers. `printf` and
`_delay_ms` are left out. -/

namespace UcxArinc

namespace Eeprom

/-- `config->i2c_dev` or `config->spi_dev`, by what the functions of its API do and return. -/
structure BusDev (σ : Type) where
  devOpen : σ → Int × σ
  devClose : σ → σ
  devRead : Nat → σ → List UInt8 × σ
  devWrite : List UInt8 → σ → Nat × σ

/-- `struct eeprom_24lc_data_s` and `struct eeprom_25lc_data_s`. -/
structure Data where
  init : Bool
  busy : Bool
  addrSize : Nat
  pageSize : Nat
  pos : Nat
  deriving DecidableEq, Repr

/-- What a driver works on. -/
structure Dev (σ : Type) where
  data : Data
  bus : σ

abbrev Driver (σ : Type) := StateM (Dev σ)

variable {σ : Type}

namespace Driver

def getData : Driver σ Data := fun dev => (dev.data, dev)

def setData (data : Data) : Driver σ Unit := fun dev => ((), { dev with data := data })

/-- `data->pos += size`. -/
def advance (size : Nat) : Driver σ Unit := fun dev =>
  ((), { dev with data := { dev.data with pos := dev.data.pos + size } })

def devOpen (bus : BusDev σ) : Driver σ Int := fun dev =>
  ((bus.devOpen dev.bus).1, { dev with bus := (bus.devOpen dev.bus).2 })

def devClose (bus : BusDev σ) : Driver σ Unit := fun dev => ((), { dev with bus := bus.devClose dev.bus })

def devRead (bus : BusDev σ) (count : Nat) : Driver σ (List UInt8) := fun dev =>
  ((bus.devRead count dev.bus).1, { dev with bus := (bus.devRead count dev.bus).2 })

def devWrite (bus : BusDev σ) (bytes : List UInt8) : Driver σ Nat := fun dev =>
  ((bus.devWrite bytes dev.bus).1, { dev with bus := (bus.devWrite bytes dev.bus).2 })

end Driver

open Driver

/-! ## What both drivers do -/

/-- What `init` sets, for the sizes of the type. -/
def driverInit (addrSize pageSize : Nat) : Driver σ Int := do
  setData { init := true, busy := false, addrSize := addrSize, pageSize := pageSize, pos := 0 }
  pure 0

inductive Whence where
  | seekSet
  | seekCur
  | seekEnd
  deriving DecidableEq, Repr

/-- `eeprom_24lc_driver_seek` and `eeprom_25lc_driver_seek`. -/
def driverSeek (pos : Int) (whence : Whence) : Driver σ Nat := do
  let data ← getData
  match whence with
  | .seekSet => do
    setData { data with pos := if pos < 0 then 0 else pos.toNat }
    pure (if pos < 0 then 0 else pos.toNat)
  | .seekCur => do
    setData { data with pos := if data.pos + pos < 0 then 0 else (data.pos + pos).toNat }
    pure (if data.pos + pos < 0 then 0 else (data.pos + pos).toNat)
  | .seekEnd => pure 0

/-- `first_write_size`, `last_write_size` and `num_writes`. -/
structure WriteSizes where
  first : Nat
  last : Nat
  num : Nat
  deriving DecidableEq, Repr

/-- What `write` computes before its loop. -/
def writeSizes (pageSize pos count : Nat) : WriteSizes :=
  let pageSpace := (pos / pageSize + 1) * pageSize - pos
  let first := pageSpace - pageSpace / pageSize * pageSize
  let first := if first = 0 then pageSize else first
  if count > first then ⟨first, (count - first) % pageSize, (count - first) / pageSize + 2⟩
  else ⟨first, count, 1⟩

/-- `write_size` of a page. -/
def WriteSizes.writeSize (sizes : WriteSizes) (pageSize page : Nat) : Nat :=
  let writeSize := if page = 0 then sizes.first else pageSize
  if page = sizes.num - 1 then sizes.last else writeSize

/-- The loop of `write`, with the turns that are left, `page` and `size`. `writePage` is its body, for what is at
`buf + size` and `write_size`; it has no result if `dev_open` fails, and then `write` returns 0. -/
def writePages (writePage : List UInt8 → Nat → Driver σ (Option Nat)) (sizes : WriteSizes) (pageSize : Nat)
    (buf : List UInt8) : Nat → Nat → Nat → Driver σ Nat
  | 0, _, size => pure size
  | turns + 1, page, size => do
    let writeSize := sizes.writeSize pageSize page
    let written ← writePage ((buf.drop size).take writeSize) writeSize
    match written with
    | none => pure 0
    | some written => writePages writePage sizes pageSize buf turns (page + 1) (size + written)

/-- `(pos & 0xff0000) >> 16`. -/
def posHigh (pos : Nat) : UInt8 := UInt8.ofNat ((pos &&& 0xff0000) >>> 16)

/-- `(pos & 0xff00) >> 8`. -/
def posMiddle (pos : Nat) : UInt8 := UInt8.ofNat ((pos &&& 0xff00) >>> 8)

/-- `pos & 0x00ff`. -/
def posLow (pos : Nat) : UInt8 := UInt8.ofNat (pos &&& 0x00ff)

end Eeprom

open Eeprom Driver

variable {σ : Type}

/-! ## 24LCxxx -/

namespace Eeprom24lc

/-- `enum eeprom_24lc_config_values`. -/
inductive ChipType where
  | eeprom24lc01
  | eeprom24lc02
  | eeprom24lc04
  | eeprom24lc08
  | eeprom24lc16
  | eeprom24lc32
  | eeprom24lc64
  | eeprom24lc128
  | eeprom24lc256
  | eeprom24lc512
  | eeprom24lc1024
  deriving DecidableEq, Repr

/-- `struct eeprom_24lc_config_values_s`. -/
structure Config where
  type : ChipType
  select : UInt8

/-- The sizes `eeprom_24lc_driver_init` takes for a type. -/
def ChipType.addrSize : ChipType → Nat
  | .eeprom24lc01 | .eeprom24lc02 => 1
  | .eeprom24lc04 | .eeprom24lc08 | .eeprom24lc16 => 1
  | .eeprom24lc32 | .eeprom24lc64 => 2
  | .eeprom24lc128 | .eeprom24lc256 => 2
  | .eeprom24lc512 | .eeprom24lc1024 => 2

@[inherit_doc ChipType.addrSize]
def ChipType.pageSize : ChipType → Nat
  | .eeprom24lc01 | .eeprom24lc02 => 8
  | .eeprom24lc04 | .eeprom24lc08 | .eeprom24lc16 => 16
  | .eeprom24lc32 | .eeprom24lc64 => 32
  | .eeprom24lc128 | .eeprom24lc256 => 64
  | .eeprom24lc512 | .eeprom24lc1024 => 128

/-- `eeprom_24lc_driver_init`. -/
def driverInit (config : Config) : Driver σ Int := Eeprom.driverInit config.type.addrSize config.type.pageSize

/-- `eeprom_24lc_select`: `device` and `cmd_size`. -/
def select (config : Config) (pos : Nat) : UInt8 × Nat :=
  match config.type with
  | .eeprom24lc01 | .eeprom24lc02 => (0x00, 2)
  | .eeprom24lc04 | .eeprom24lc08 | .eeprom24lc16 => (UInt8.ofNat ((pos >>> 8) &&& 0x07), 2)
  | .eeprom24lc32 | .eeprom24lc64 | .eeprom24lc128 | .eeprom24lc256 | .eeprom24lc512 => (config.select &&& 0x07, 3)
  | .eeprom24lc1024 => (UInt8.ofNat ((pos >>> 14) &&& 0x04) ||| (config.select &&& 0x03), 3)

/-- The bytes of `cmd` that are sent before the data. -/
def command (device : UInt8) (cmdSize pos : Nat) : List UInt8 :=
  [(0xA0 : UInt8) ||| (device <<< 1), if cmdSize = 2 then posLow pos else posMiddle pos, posLow pos].take cmdSize

/-- `eeprom_24lc_driver_read`: what it puts into the buffer, or nothing for `-1`. -/
def driverRead (config : Config) (bus : BusDev σ) (count : Nat) : Driver σ (Option (List UInt8)) := do
  let data ← getData
  if !data.init then pure none else
  let (device, cmdSize) := select config data.pos
  let val ← devOpen bus
  if val < 0 then pure (some []) else do
    let _ ← devWrite bus (command device cmdSize data.pos)
    -- restart (write size zero)
    let _ ← devWrite bus []
    let _ ← devWrite bus [(0xA1 : UInt8) ||| (device <<< 1)]
    let read ← devRead bus count
    advance read.length
    devClose bus
    pure (some read)

/-- The body of the loop of `eeprom_24lc_driver_write`. -/
def writePage (bus : BusDev σ) (device : UInt8) (cmdSize : Nat) (bytes : List UInt8) (writeSize : Nat) :
    Driver σ (Option Nat) := do
  let data ← getData
  let val ← devOpen bus
  if val < 0 then pure none else do
    let _ ← devWrite bus (command device cmdSize data.pos)
    let written ← devWrite bus bytes
    advance writeSize
    devClose bus
    pure (some written)

/-- `eeprom_24lc_driver_write`. It returns nothing for `-1`. -/
def driverWrite (config : Config) (bus : BusDev σ) (buf : List UInt8) : Driver σ (Option Nat) := do
  let data ← getData
  if !data.init then pure none else
  let (device, cmdSize) := select config data.pos
  let sizes := writeSizes data.pageSize data.pos buf.length
  let size ← writePages (writePage bus device cmdSize) sizes data.pageSize buf sizes.num 0 0
  pure (some size)

end Eeprom24lc

/-! ## 25LCxxx -/

namespace Eeprom25lc

/-- `enum eeprom_25lc_config_values`. -/
inductive ChipType where
  | eeprom25lc010
  | eeprom25lc020
  | eeprom25lc040
  | eeprom25lc080
  | eeprom25lc160
  | eeprom25lc320
  | eeprom25lc640
  | eeprom25lc128
  | eeprom25lc256
  | eeprom25lc512
  | eeprom25lc1024
  deriving DecidableEq, Repr

/-- The sizes `eeprom_25lc_driver_init` takes for a type. -/
def ChipType.addrSize : ChipType → Nat
  | .eeprom25lc010 | .eeprom25lc020 | .eeprom25lc040 => 1
  | .eeprom25lc080 | .eeprom25lc160 => 2
  | .eeprom25lc320 | .eeprom25lc640 => 2
  | .eeprom25lc128 | .eeprom25lc256 => 2
  | .eeprom25lc512 => 2
  | .eeprom25lc1024 => 3

@[inherit_doc ChipType.addrSize]
def ChipType.pageSize : ChipType → Nat
  | .eeprom25lc010 | .eeprom25lc020 | .eeprom25lc040 => 16
  | .eeprom25lc080 | .eeprom25lc160 => 16
  | .eeprom25lc320 | .eeprom25lc640 => 32
  | .eeprom25lc128 | .eeprom25lc256 => 64
  | .eeprom25lc512 => 128
  | .eeprom25lc1024 => 256

/-- `eeprom_25lc_driver_init`. -/
def driverInit (type : ChipType) : Driver σ Int := Eeprom.driverInit type.addrSize type.pageSize

/-- `eeprom_25lc_select`: `cmd[0]`, from what it was, and `cmd_size`. -/
def select (type : ChipType) (pos : Nat) (cmd0 : UInt8) : UInt8 × Nat :=
  match type with
  | .eeprom25lc010 | .eeprom25lc020 => (cmd0, 2)
  | .eeprom25lc040 => (cmd0 ||| UInt8.ofNat (((pos >>> 8) &&& 0x01) <<< 3), 2)
  | .eeprom25lc080 | .eeprom25lc160 | .eeprom25lc320 | .eeprom25lc640 | .eeprom25lc128 | .eeprom25lc256
  | .eeprom25lc512 => (cmd0, 3)
  | .eeprom25lc1024 => (cmd0, 4)

/-- The bytes of `cmd` that are sent before the data. -/
def command (cmd0 : UInt8) (cmdSize pos : Nat) : List UInt8 :=
  match cmdSize with
  | 2 => [cmd0, posLow pos]
  | 3 => [cmd0, posMiddle pos, posLow pos]
  | _ => [cmd0, posHigh pos, posMiddle pos, posLow pos]

/-- `enum eeprom_25lc_cmd`, as far as it is used. -/
def READ : UInt8 := 0x03

@[inherit_doc READ]
def WRITE : UInt8 := 0x02

@[inherit_doc READ]
def WREN : UInt8 := 0x06

/-- `eeprom_25lc_driver_read`: what it puts into the buffer, or nothing for `-1`. -/
def driverRead (type : ChipType) (bus : BusDev σ) (count : Nat) : Driver σ (Option (List UInt8)) := do
  let data ← getData
  if !data.init then pure none else
  let (cmd0, cmdSize) := select type data.pos 0
  let val ← devOpen bus
  if val < 0 then pure (some []) else do
    let _ ← devWrite bus (command ((cmd0 &&& 0x08) ||| READ) cmdSize data.pos)
    let read ← devRead bus count
    advance read.length
    devClose bus
    pure (some read)

/-- The body of the loop of `eeprom_25lc_driver_write`. Of `cmd[0]` only the bit that `select` has set goes from
page to page. -/
def writePage (bus : BusDev σ) (cmd0 : UInt8) (cmdSize : Nat) (bytes : List UInt8) (writeSize : Nat) :
    Driver σ (Option Nat) := do
  let data ← getData
  let cmd0 := (cmd0 &&& 0x08) ||| WREN
  let val ← devOpen bus
  if val < 0 then pure none else do
    let _ ← devWrite bus [cmd0]
    devClose bus
    let cmd0 := (cmd0 &&& 0x08) ||| WRITE
    let val ← devOpen bus
    if val < 0 then pure none else do
      let _ ← devWrite bus (command cmd0 cmdSize data.pos)
      let written ← devWrite bus bytes
      advance writeSize
      devClose bus
      pure (some written)

/-- `eeprom_25lc_driver_write`. It returns nothing for `-1`. -/
def driverWrite (type : ChipType) (bus : BusDev σ) (buf : List UInt8) : Driver σ (Option Nat) := do
  let data ← getData
  if !data.init then pure none else
  let (cmd0, cmdSize) := select type data.pos 0
  let sizes := writeSizes data.pageSize data.pos buf.length
  let size ← writePages (writePage bus cmd0 cmdSize) sizes data.pageSize buf sizes.num 0 0
  pure (some size)

end Eeprom25lc

end UcxArinc
