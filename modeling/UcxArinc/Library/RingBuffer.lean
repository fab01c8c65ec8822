import Mathlib.Data.Nat.ModEq
import Mathlib.Tactic.Common

set_option autoImplicit false

/-! # Ring buffers

A queue kept in the slots `0 … size - 1` of an array by three counters that are updated one by one: where
the next entry is read, where the next entry is written, and how many entries there are. As long as the
counters agree (`Cursors.Valid`) the slots from the read index on hold the entries of a queue, whatever has
been written, read and dropped before. -/

namespace RingBuffer

variable {α : Type*}

/-- The counters of a ring of `size` slots. -/
structure Cursors where
  size : Nat
  readIndex : Nat
  writeIndex : Nat
  count : Nat

namespace Cursors

variable {c : Cursors}

/-- An entry has been written. -/
def push (c : Cursors) : Cursors :=
  { c with writeIndex := (c.writeIndex + 1) % c.size, count := c.count + 1 }

/-- An entry has been read. -/
def pop (c : Cursors) : Cursors :=
  { c with readIndex := (c.readIndex + 1) % c.size, count := c.count - 1 }

/-- All entries have been dropped. -/
def clear (c : Cursors) : Cursors := { c with readIndex := 0, writeIndex := 0, count := 0 }

/-- The counters agree. -/
structure Valid (c : Cursors) : Prop where
  readIndex_lt : 0 < c.size → c.readIndex < c.size
  count_le : c.count ≤ c.size
  writeIndex_eq : c.writeIndex = (c.readIndex + c.count) % c.size

/-- The entries, oldest first. -/
def contents (c : Cursors) (slot : Nat → α) : List α :=
  (List.range c.count).map fun k => slot ((c.readIndex + k) % c.size)

@[simp] theorem contents_length (c : Cursors) (slot : Nat → α) :
    (c.contents slot).length = c.count := by
  simp [contents]

theorem contents_eq_nil {slot : Nat → α} : c.contents slot = [] ↔ c.count = 0 := by
  rw [← List.length_eq_zero_iff, contents_length]

/-! ## The counters -/

theorem valid_clear (c : Cursors) : c.clear.Valid :=
  ⟨fun hpos => hpos, Nat.zero_le _, (Nat.zero_mod _).symm⟩

theorem Valid.push (h : c.Valid) (hroom : c.count < c.size) : c.push.Valid := by
  refine ⟨h.readIndex_lt, hroom, ?_⟩
  rw [Cursors.push, h.writeIndex_eq, Nat.mod_add_mod, Nat.add_assoc]

theorem Valid.pop (h : c.Valid) (hsome : 0 < c.count) : c.pop.Valid := by
  have hsize := Nat.lt_of_lt_of_le hsome h.count_le
  refine ⟨fun hpos => Nat.mod_lt _ hpos, (Nat.sub_le _ _).trans h.count_le, ?_⟩
  rw [Cursors.pop, h.writeIndex_eq, Nat.mod_add_mod]
  congr 1
  dsimp only
  omega

theorem Valid.writeIndex_lt (h : c.Valid) (hroom : c.count < c.size) : c.writeIndex < c.size := by
  rw [h.writeIndex_eq]
  exact Nat.mod_lt _ (Nat.zero_lt_of_lt hroom)

/-! ## The entries -/

/-- The slot at the write index is none of those in use. -/
theorem Valid.free_slot (h : c.Valid) (hroom : c.count < c.size) {k : Nat} (hk : k < c.count) :
    (c.readIndex + k) % c.size ≠ c.writeIndex := by
  have hread := h.readIndex_lt (Nat.zero_lt_of_lt hroom)
  rw [h.writeIndex_eq]
  intro heq
  -- two positions less than a turn apart are congruent
  have hmod : (c.readIndex + k + (c.count - k)) % c.size = (c.readIndex + k + 0) % c.size := by
    rw [show c.readIndex + k + (c.count - k) = c.readIndex + c.count by omega, Nat.add_zero, heq]
  have hzero : (c.count - k) % c.size = 0 % c.size := Nat.ModEq.add_left_cancel' _ hmod
  rw [Nat.zero_mod, Nat.mod_eq_of_lt (by omega)] at hzero
  omega

/-- Writing into the slot at the write index appends an entry. -/
theorem Valid.contents_push {slot slot' : Nat → α} (h : c.Valid) (hroom : c.count < c.size)
    (hsame : ∀ i < c.size, i ≠ c.writeIndex → slot' i = slot i) :
    c.push.contents slot' = c.contents slot ++ [slot' c.writeIndex] := by
  have hsize := Nat.zero_lt_of_lt hroom
  have hlast : (c.readIndex + c.count) % c.size = c.writeIndex := h.writeIndex_eq.symm
  unfold contents Cursors.push
  dsimp only
  rw [List.range_succ, List.map_append, List.map_singleton, hlast]
  congr 1
  exact List.map_congr_left fun k hk =>
    hsame _ (Nat.mod_lt _ hsize) (h.free_slot hroom (List.mem_range.mp hk))

/-- The slots in use are all that matters. -/
theorem Valid.contents_push_used {slot slot' : Nat → α} (h : c.Valid)
    (hsame : ∀ k < c.count, slot' ((c.readIndex + k) % c.size) = slot ((c.readIndex + k) % c.size)) :
    c.push.contents slot' = c.contents slot ++ [slot' c.writeIndex] := by
  have hlast : (c.readIndex + c.count) % c.size = c.writeIndex := h.writeIndex_eq.symm
  unfold contents Cursors.push
  dsimp only
  rw [List.range_succ, List.map_append, List.map_singleton, hlast]
  congr 1
  exact List.map_congr_left fun k hk => hsame k (List.mem_range.mp hk)

/-- The entries are those of the slots in use. -/
theorem contents_congr {slot slot' : Nat → α}
    (hsame : ∀ k < c.count, slot' ((c.readIndex + k) % c.size) = slot ((c.readIndex + k) % c.size)) :
    c.contents slot' = c.contents slot :=
  List.map_congr_left fun k hk => hsame k (List.mem_range.mp hk)

theorem mem_contents {slot : Nat → α} {k : Nat} (hk : k < c.count) :
    slot ((c.readIndex + k) % c.size) ∈ c.contents slot :=
  List.mem_map.mpr ⟨k, List.mem_range.mpr hk, rfl⟩

/-- The slot at the read index holds the oldest entry. -/
theorem Valid.contents_pop {slot : Nat → α} (h : c.Valid) (hsome : 0 < c.count) :
    c.contents slot = slot c.readIndex :: c.pop.contents slot := by
  have hread := h.readIndex_lt (Nat.lt_of_lt_of_le hsome h.count_le)
  obtain ⟨n, hn⟩ : ∃ n, c.count = n + 1 := ⟨c.count - 1, by omega⟩
  unfold contents Cursors.pop
  dsimp only
  rw [hn, List.range_succ_eq_map, List.map_cons, List.map_map, Nat.add_zero, Nat.mod_eq_of_lt hread,
    Nat.add_sub_cancel]
  congr 1
  refine List.map_congr_left fun k _ => ?_
  rw [Function.comp_apply, Nat.mod_add_mod]
  congr 2
  omega

end Cursors

end RingBuffer
