import UcxArinc.Proofs.EepromChips

set_option autoImplicit false

/-! # The loop over the pages

`write` sends its buffer in pieces that lie in one page each. What one piece does to a chip, the next one
goes on with; in the end the cells are what they would be after one write of the buffer. -/

namespace UcxArinc

open Cells Eeprom Driver

namespace Eeprom

variable {σ : Type} {pageSize pos count : Nat}

theorem bind_apply {α β : Type} (m : Driver σ α) (f : α → Driver σ β) (dev : Dev σ) :
    (m >>= f) dev = f (m dev).1 (m dev).2 := rfl

theorem pure_apply {α : Type} (a : α) (dev : Dev σ) : (pure a : Driver σ α) dev = (a, dev) := rfl

theorem getData_apply (dev : Dev σ) : getData dev = (dev.data, dev) := rfl

/-- A driver that has been set up goes on. -/
theorem getData_init {α : Type} {data : Data} (h : data.init = true) (fail : Driver σ α) (f : Data → Driver σ α)
    (s : σ) : (getData >>= fun data => if !data.init then fail else f data) ⟨data, s⟩ = f data ⟨data, s⟩ := by
  have hif : (if !data.init then fail else f data) = f data := by simp [h]
  exact congrFun hif ⟨data, s⟩

theorem advance_apply (size : Nat) (data : Data) (s : σ) :
    advance size ⟨data, s⟩ = ((), ⟨{ data with pos := data.pos + size }, s⟩) := rfl

section Bus

variable (part : Part) (chip : Chip) (data : Data) (made : List BusCall)

/-- `dev_open` succeeds. -/
theorem devOpen_bus {α : Type} (fail next : Driver (List BusCall) α) :
    (devOpen (part.bus chip) >>= fun val => if val < 0 then fail else next) ⟨data, made⟩
      = next ⟨data, made ++ [.devOpen]⟩ := rfl

theorem devClose_bus : devClose (part.bus chip) ⟨data, made⟩ = ((), ⟨data, made ++ [.devClose]⟩) := rfl

theorem devWrite_bus (bytes : List UInt8) :
    devWrite (part.bus chip) bytes ⟨data, made⟩ = (bytes.length, ⟨data, made ++ [.devWrite bytes]⟩) := rfl

theorem devRead_bus (count : Nat) :
    devRead (part.bus chip) count ⟨data, made⟩
      = (part.reply (made.foldl part.step chip) count, ⟨data, made ++ [.devRead count]⟩) := rfl

end Bus

/-! ## Sizes -/

/-- The first write ends with the page. -/
theorem writeSizes_eq (hpos : 0 < pageSize) :
    writeSizes pageSize pos count =
      let first := pageSize - pos % pageSize
      if count > first then ⟨first, (count - first) % pageSize, (count - first) / pageSize + 2⟩
      else ⟨first, count, 1⟩ := by
  have hdiv := Nat.div_add_mod' pos pageSize
  have hmod := Nat.mod_lt pos hpos
  have hspace : (pos / pageSize + 1) * pageSize - pos = pageSize - pos % pageSize := by
    rw [Nat.add_mul, Nat.one_mul]
    omega
  have hfirst : (if pageSize - pos % pageSize - (pageSize - pos % pageSize) / pageSize * pageSize = 0 then pageSize
      else pageSize - pos % pageSize - (pageSize - pos % pageSize) / pageSize * pageSize)
        = pageSize - pos % pageSize := by
    by_cases hzero : pos % pageSize = 0
    · rw [hzero, Nat.sub_zero, Nat.div_self hpos, Nat.one_mul, Nat.sub_self, if_pos rfl]
    · rw [Nat.div_eq_of_lt (by omega), Nat.zero_mul, Nat.sub_zero, if_neg (by omega)]
  rw [writeSizes, hspace, hfirst]

/-! ## Pieces -/

/-- The calls for the pieces of a range. -/
def pieceCalls (calls : Nat → List UInt8 → List BusCall) : Nat → List (List UInt8) → List BusCall
  | _, [] => []
  | offset, piece :: pieces => calls offset piece ++ pieceCalls calls (offset + piece.length) pieces

/-- So many more bytes have been written, with these calls. -/
def Dev.written (dev : Dev (List BusCall)) (size : Nat) (calls : List BusCall) : Dev (List BusCall) where
  data := { dev.data with pos := dev.data.pos + size }
  bus := dev.bus ++ calls

/-- A body of the loop that sends all of a piece, with calls that depend on where it goes. -/
def Sends (writePage : List UInt8 → Nat → Driver (List BusCall) (Option Nat))
    (calls : Nat → List UInt8 → List BusCall) : Prop :=
  ∀ bytes dev, writePage bytes bytes.length dev
    = (some bytes.length, dev.written bytes.length (calls dev.data.pos bytes))

variable {writePage : List UInt8 → Nat → Driver (List BusCall) (Option Nat)}
variable {calls : Nat → List UInt8 → List BusCall} {sizes : WriteSizes} {buf : List UInt8}
variable {dev : Dev (List BusCall)} {turns page size : Nat}

theorem Dev.written_written (dev : Dev (List BusCall)) (m n : Nat) (cs cs' : List BusCall) :
    (dev.written m cs).written n cs' = dev.written (m + n) (cs ++ cs') := by
  simp only [Dev.written, Nat.add_assoc, List.append_assoc]

/-- One turn of the loop. -/
theorem writePages_turn (hsends : Sends writePage calls)
    (hsize : size + sizes.writeSize pageSize page ≤ buf.length) :
    writePages writePage sizes pageSize buf (turns + 1) page size dev =
      let piece := (buf.drop size).take (sizes.writeSize pageSize page)
      writePages writePage sizes pageSize buf turns (page + 1) (size + piece.length)
        (dev.written piece.length (calls dev.data.pos piece)) := by
  have hlen : ((buf.drop size).take (sizes.writeSize pageSize page)).length = sizes.writeSize pageSize page := by
    rw [List.length_take, List.length_drop]
    omega
  have hpage := hsends ((buf.drop size).take (sizes.writeSize pageSize page)) dev
  rw [hlen] at hpage
  rw [writePages, bind_apply, hpage]
  dsimp only
  rw [hlen]

/-- The loop from a page boundary on. -/
theorem writePages_aligned (hsends : Sends writePage calls) (hpos : 0 < pageSize) (dev : Dev (List BusCall))
    (turns page size : Nat)
    (haligned : dev.data.pos % pageSize = 0) (hsize : size ≤ buf.length)
    (hturns : turns = (buf.length - size) / pageSize + 1) (hnum : page + turns = sizes.num) (hpage : 0 < page)
    (hlast : sizes.last = (buf.length - size) % pageSize) :
    ∃ pieces : List (List UInt8), pieces.flatten = buf.drop size ∧ Paged pageSize dev.data.pos pieces ∧
      writePages writePage sizes pageSize buf turns page size dev
        = (buf.length, dev.written (buf.length - size) (pieceCalls calls dev.data.pos pieces)) := by
  induction turns generalizing page size dev with
  | zero => exact absurd hturns (Nat.succ_ne_zero _).symm
  | succ turns ih =>
      have hdiv := Nat.div_add_mod' (buf.length - size) pageSize
      have hmod := Nat.mod_lt (buf.length - size) hpos
      cases turns with
      | zero =>
          -- the last page takes what is left
          have hleft : (buf.length - size) / pageSize = 0 := by omega
          have hwrite : sizes.writeSize pageSize page = buf.length - size := by
            rw [WriteSizes.writeSize, if_pos (by omega), hlast]
            rw [hleft, Nat.zero_mul] at hdiv
            omega
          have hpiece : (buf.drop size).take (buf.length - size) = buf.drop size :=
            List.take_of_length_le (Nat.le_of_eq List.length_drop)
          refine ⟨[buf.drop size], List.flatten_singleton, ⟨?_, fun _ => rfl, trivial⟩, ?_⟩
          · rw [haligned, Nat.zero_add, List.length_drop]
            rw [hleft, Nat.zero_mul] at hdiv
            omega
          · rw [writePages_turn hsends (by omega), hwrite, hpiece]
            dsimp only
            rw [writePages, pure_apply, List.length_drop, Nat.add_sub_cancel' hsize, pieceCalls, pieceCalls,
              List.append_nil]
      | succ turns =>
          have hwrite : sizes.writeSize pageSize page = pageSize := by
            rw [WriteSizes.writeSize, if_neg (by omega), if_neg (by omega)]
          have hfull : pageSize ≤ buf.length - size := by
            by_contra hlt
            rw [Nat.div_eq_of_lt (by omega)] at hturns
            omega
          have hsub : (buf.length - size) / pageSize = (buf.length - (size + pageSize)) / pageSize + 1 := by
            rw [Nat.div_eq_sub_div hpos hfull, Nat.sub_sub]
          have hlast' : sizes.last = (buf.length - (size + pageSize)) % pageSize := by
            rw [hlast, Nat.mod_eq_sub_mod hfull, Nat.sub_sub]
          have hlen : ((buf.drop size).take pageSize).length = pageSize := by
            rw [List.length_take, List.length_drop]
            omega
          obtain ⟨pieces, hflat, hpaged, hrun⟩ := ih
            (dev.written pageSize (calls dev.data.pos ((buf.drop size).take pageSize))) (page + 1) (size + pageSize)
            (by rw [Dev.written, Nat.add_mod_right, haligned]) (by omega) (by omega) (by omega)
            (Nat.succ_pos page) hlast'
          refine ⟨(buf.drop size).take pageSize :: pieces, ?_, ⟨?_, fun hnil => ?_, ?_⟩, ?_⟩
          · rw [List.flatten_cons, hflat, ← List.drop_drop, List.take_append_drop]
          · exact Nat.le_of_eq (by rw [haligned, hlen, Nat.zero_add])
          · rw [hnil, List.length_nil] at hlen
            omega
          · rw [hlen]
            exact hpaged
          · rw [writePages_turn hsends (by omega), hwrite]
            dsimp only
            rw [hlen, hrun, Dev.written_written, pieceCalls, hlen]
            have htotal : pageSize + (buf.length - (size + pageSize)) = buf.length - size := by omega
            rw [htotal]
            rfl

/-- The loop sends the buffer in pieces that lie in one page each. -/
theorem writePages_all (hsends : Sends writePage calls) (hpos : 0 < pageSize) (buf : List UInt8)
    (dev : Dev (List BusCall)) :
    let sizes := writeSizes pageSize dev.data.pos buf.length
    ∃ pieces : List (List UInt8), pieces.flatten = buf ∧ Paged pageSize dev.data.pos pieces ∧
      writePages writePage sizes pageSize buf sizes.num 0 0 dev
        = (buf.length, dev.written buf.length (pieceCalls calls dev.data.pos pieces)) := by
  have hmod := Nat.mod_lt dev.data.pos hpos
  have hdiv := Nat.div_add_mod' dev.data.pos pageSize
  rw [writeSizes_eq hpos]
  intro sizes
  by_cases hgt : buf.length > pageSize - dev.data.pos % pageSize
  · -- the first page is filled, and then the position is at a page boundary
    have hsizes : sizes = ⟨pageSize - dev.data.pos % pageSize,
        (buf.length - (pageSize - dev.data.pos % pageSize)) % pageSize,
        (buf.length - (pageSize - dev.data.pos % pageSize)) / pageSize + 2⟩ := if_pos hgt
    generalize hfirst : pageSize - dev.data.pos % pageSize = first at hgt hsizes
    have hwrite : sizes.writeSize pageSize 0 = first := by
      simp [hsizes, WriteSizes.writeSize]
    have hlen : (buf.take first).length = first := by
      rw [List.length_take]
      omega
    have haligned : (dev.data.pos + first) % pageSize = 0 := by
      have hplace : dev.data.pos + first = (dev.data.pos / pageSize + 1) * pageSize := by
        rw [Nat.add_mul, Nat.one_mul]
        omega
      rw [hplace, Nat.mul_mod_left]
    have hlast : sizes.last = (buf.length - first) % pageSize := by rw [hsizes]
    have hturns : 1 + ((buf.length - first) / pageSize + 1) = sizes.num := by rw [hsizes, Nat.add_comm]
    obtain ⟨pieces, hflat, hpaged, hrun⟩ := writePages_aligned hsends hpos
      (dev.written first (calls dev.data.pos (buf.take first))) _ 1 first haligned (Nat.le_of_lt hgt) rfl hturns
      Nat.one_pos hlast
    refine ⟨buf.take first :: pieces, ?_, ⟨?_, fun hnil => ?_, ?_⟩, ?_⟩
    · rw [List.flatten_cons, hflat, List.take_append_drop]
    · rw [hlen]
      omega
    · rw [hnil, List.length_nil] at hlen
      omega
    · rw [hlen]
      exact hpaged
    · have hnum : sizes.num = (buf.length - first) / pageSize + 1 + 1 := by rw [hsizes]
      rw [hnum, writePages_turn hsends (by omega), hwrite, List.drop_zero]
      dsimp only
      rw [hlen, Nat.zero_add, Nat.zero_add, hrun, Dev.written_written, pieceCalls, hlen]
      have htotal : first + (buf.length - first) = buf.length := by omega
      rw [htotal]
      rfl
  · have hsizes : sizes = ⟨pageSize - dev.data.pos % pageSize, buf.length, 1⟩ := if_neg hgt
    have hwrite : sizes.writeSize pageSize 0 = buf.length := by
      simp [hsizes, WriteSizes.writeSize]
    have hnum : sizes.num = 0 + 1 := by rw [hsizes]
    refine ⟨[buf], List.flatten_singleton, ⟨by omega, fun _ => rfl, trivial⟩, ?_⟩
    rw [hnum, writePages_turn hsends (by omega), hwrite, List.drop_zero, List.take_length]
    dsimp only
    rw [writePages, pure_apply, Nat.zero_add, pieceCalls, pieceCalls, List.append_nil]

/-! ## What the pieces are to a chip -/

section Chips

variable {part : Part} {chip : Chip} {header : Nat → List UInt8} {offset : Nat} {pieces : List (List UInt8)}

/-- Calls that make one page write, with this header, and first enable it if need be. -/
structure MakePageWrite (part : Part) (header : Nat → List UInt8) (calls : Nat → List UInt8 → List BusCall) :
    Prop where
  pageWrites_eq : ∀ offset bytes rest,
    pageWrites (calls offset bytes ++ rest) = ⟨header offset, bytes⟩ :: pageWrites rest
  cells_eq : ∀ offset bytes a (chip : Chip), part.writeAddress (header offset) = some a →
    ((calls offset bytes).foldl part.step chip).cells = pageWrite part.pageSize chip.cells a bytes

/-- The page writes of the pieces of a range. -/
def place (header : Nat → List UInt8) : Nat → List (List UInt8) → List PageWrite
  | _, [] => []
  | offset, piece :: pieces => ⟨header offset, piece⟩ :: place header (offset + piece.length) pieces

theorem map_data_place (header : Nat → List UInt8) (offset : Nat) (pieces : List (List UInt8)) :
    (place header offset pieces).map PageWrite.data = pieces := by
  induction pieces generalizing offset with
  | nil => rfl
  | cons piece pieces ih => rw [place, List.map_cons, ih]

theorem pageWrites_pieceCalls (h : MakePageWrite part header calls) :
    pageWrites (pieceCalls calls offset pieces) = place header offset pieces := by
  induction pieces generalizing offset with
  | nil => rfl
  | cons piece pieces ih => rw [pieceCalls, h.pageWrites_eq, ih, place]

theorem addressed_place {address : List UInt8 → Option Nat} :
    Addressed address offset (place header offset pieces)
      ↔ EachAt (fun i => address (header i) = some i) offset pieces := by
  induction pieces generalizing offset with
  | nil => exact Iff.rfl
  | cons piece pieces ih => rw [place, Addressed, EachAt, ih]

/-- One page write after the other writes the whole range. -/
theorem cells_pieceCalls (h : MakePageWrite part header calls)
    (hsome : ∀ i, ∃ a, part.writeAddress (header i) = some a) (hpaged : Paged part.pageSize offset pieces)
    (haddr : EachAt (fun i => part.writeAddress (header i) = some i) offset pieces) :
    ((pieceCalls calls offset pieces).foldl part.step chip).cells = put chip.cells offset pieces.flatten := by
  induction pieces generalizing offset chip with
  | nil => rw [pieceCalls, List.flatten_nil, put_nil, List.foldl_nil]
  | cons piece pieces ih =>
      have hcells : ((calls offset piece).foldl part.step chip).cells = put chip.cells offset piece := by
        by_cases hnil : piece = []
        · -- an empty page write changes nothing, wherever it goes
          obtain ⟨a, ha⟩ := hsome offset
          rw [h.cells_eq offset piece a chip ha, hnil, pageWrite, put_nil]
        · rw [h.cells_eq offset piece offset chip (haddr.1 hnil), pageWrite_eq_put hpaged.1]
      rw [pieceCalls, List.foldl_append, ih hpaged.2.2 haddr.2, hcells, List.flatten_cons, put_append]

end Chips

/-! ## The right cells -/

/-- The cells that the bytes of the address tell apart. -/
def Part.blockSize (part : Part) : Nat := 256 ^ part.addrSize

/-- The first and the last byte are in one block. -/
def Part.SameBlock (part : Part) (pos count : Nat) : Prop :=
  count = 0 ∨ (pos + count - 1) / part.blockSize = pos / part.blockSize

theorem Part.sameBlock_iff (part : Part) (pos count : Nat) :
    part.SameBlock pos count ↔ ∀ i, pos ≤ i → i < pos + count → i / part.blockSize = pos / part.blockSize := by
  constructor
  · intro h i hle hlt
    rcases h with hzero | hlast
    · omega
    · have hlow : pos / part.blockSize ≤ i / part.blockSize := Nat.div_le_div_right hle
      have hhigh : i / part.blockSize ≤ (pos + count - 1) / part.blockSize := Nat.div_le_div_right (by omega)
      omega
  · intro h
    rcases Nat.eq_zero_or_pos count with hzero | hpos
    · exact Or.inl hzero
    · exact Or.inr (h (pos + count - 1) (by omega) (by omega))

/-- `data` as `init` has left it, but for the position. -/
def Data.SetUpFor (data : Data) (part : Part) : Prop :=
  data.init = true ∧ data.addrSize = part.addrSize ∧ data.pageSize = part.pageSize

/-- A write of a buffer with a chip on the bus: every byte is sent once, in page writes of which none crosses a
page boundary and only the last may be empty, each to the full address of its first byte, and what is then
read from there is the buffer. -/
structure HitsRightCells (part : Part) (chip : Chip)
    (driverWrite : BusDev (List BusCall) → List UInt8 → Driver (List BusCall) (Option Nat))
    (driverRead : BusDev (List BusCall) → Nat → Driver (List BusCall) (Option (List UInt8)))
    (data : Data) (buf : List UInt8) : Prop where
  sent : ((pageWrites (driverWrite (part.bus chip) buf ⟨data, []⟩).2.bus).map PageWrite.data).flatten = buf
  paged : Paged part.pageSize data.pos
    ((pageWrites (driverWrite (part.bus chip) buf ⟨data, []⟩).2.bus).map PageWrite.data)
  addressed : Addressed part.writeAddress data.pos (pageWrites (driverWrite (part.bus chip) buf ⟨data, []⟩).2.bus)
  readBack : ((do
    let _ ← driverWrite (part.bus chip) buf
    let _ ← driverSeek data.pos .seekSet
    driverRead (part.bus chip) buf.length) ⟨data, []⟩).1 = some buf

section Hits

variable {part : Part} {chip : Chip} {header : Nat → List UInt8} {data : Data}
variable {driverWrite : BusDev (List BusCall) → List UInt8 → Driver (List BusCall) (Option Nat)}
variable {driverRead : BusDev (List BusCall) → Nat → Driver (List BusCall) (Option (List UInt8))}

/-- A driver that sends in pieces, with headers in which the block is that of the position where it began, hits
the right cells if and only if it stays in that block. -/
theorem hitsRightCells_iff (hmake : MakePageWrite part header calls) (hdvd : part.pageSize ∣ part.blockSize)
    (hfit : data.pos + buf.length ≤ part.capacity)
    (hwrite : ∃ pieces : List (List UInt8), pieces.flatten = buf ∧ Paged part.pageSize data.pos pieces ∧
      (driverWrite (part.bus chip) buf ⟨data, []⟩).2
        = Dev.written ⟨data, []⟩ buf.length (pieceCalls calls data.pos pieces))
    (hsome : ∀ i, ∃ a, part.writeAddress (header i) = some a)
    (haddress : ∀ i, data.pos ≤ i → i < part.capacity →
      (part.writeAddress (header i) = some i ↔ i / part.blockSize = data.pos / part.blockSize))
    (hread : ∀ made : List BusCall, (driverRead (part.bus chip) buf.length ⟨data, made⟩).1
      = some (slice (made.foldl part.step chip).cells data.pos buf.length)) :
    HitsRightCells part chip driverWrite driverRead data buf ↔ part.SameBlock data.pos buf.length := by
  obtain ⟨pieces, hflat, hpaged, hrun⟩ := hwrite
  have hbus : (driverWrite (part.bus chip) buf ⟨data, []⟩).2.bus = pieceCalls calls data.pos pieces := by
    rw [hrun, Dev.written, List.nil_append]
  have hpages : pageWrites (driverWrite (part.bus chip) buf ⟨data, []⟩).2.bus = place header data.pos pieces := by
    rw [hbus, pageWrites_pieceCalls hmake]
  have hiff : EachAt (fun i => part.writeAddress (header i) = some i) data.pos pieces
      ↔ part.SameBlock data.pos buf.length := by
    rw [Part.sameBlock_iff, ← hflat, ← hpaged.eachAt_block_iff hdvd]
    constructor
    · refine EachAt.imp fun i hle hlt => (haddress i hle ?_).mp
      rw [hflat] at hlt
      omega
    · refine EachAt.imp fun i hle hlt => (haddress i hle ?_).mpr
      rw [hflat] at hlt
      omega
  constructor
  · intro h
    rw [← hiff, ← addressed_place, ← hpages]
    exact h.addressed
  · intro h
    refine ⟨?_, ?_, ?_, ?_⟩
    · rw [hpages, map_data_place, hflat]
    · rw [hpages, map_data_place]
      exact hpaged
    · rw [hpages, addressed_place]
      exact hiff.mpr h
    · -- seek goes back to where the write began
      have hseek : (driverSeek data.pos .seekSet
          (Dev.written ⟨data, []⟩ buf.length (pieceCalls calls data.pos pieces))).2
            = ⟨data, pieceCalls calls data.pos pieces⟩ := by
        simp only [driverSeek, bind_apply, getData, setData, pure_apply, Dev.written, List.nil_append]
        rw [if_neg (by omega), Int.toNat_natCast]
      rw [bind_apply, bind_apply, hrun, hseek, hread,
        cells_pieceCalls hmake hsome hpaged (hiff.mpr h), hflat, slice_put]

end Hits

end Eeprom

end UcxArinc
