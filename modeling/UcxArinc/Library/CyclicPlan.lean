import Mathlib.Data.List.Pairwise
import Mathlib.Tactic.Common
import Mathlib.Tactic.Linarith

set_option autoImplicit false

/-! # Cyclic plans and their cursors

A cyclic plan repeats a frame of `frame` time units in which some slots, ordered and disjoint, are
reserved for owners. `slotAt` is its table: the slot a position of the frame lies in. A cursor is
what an incremental scheduler keeps instead: how many frames have passed and the last slot whose
start has been reached. The results say that a cursor moved by at most one slot (or to the next
frame) per call stays right as long as the calls are no further apart than the shortest slot. -/

/-- Time reserved for an owner, relative to the start of the frame. -/
structure Slot (α : Type*) where
  owner : α
  start : ℕ
  length : ℕ

namespace Slot

variable {α : Type*}

/-- The first position after the slot. -/
def stop (w : Slot α) : ℕ := w.start + w.length

/-- The position lies in the slot. -/
def Contains (w : Slot α) (pos : ℕ) : Prop := w.start ≤ pos ∧ pos < w.stop

instance (w : Slot α) (pos : ℕ) : Decidable (w.Contains pos) :=
  inferInstanceAs (Decidable (_ ∧ _))

end Slot

/-- A frame with its slots: sorted, disjoint, non-empty, inside the frame, the first at its
    start. -/
structure CyclicPlan (α : Type*) where
  frame : ℕ
  slots : List (Slot α)
  sorted : slots.Pairwise fun a b => a.stop ≤ b.start
  positive : ∀ w ∈ slots, 0 < w.length
  inFrame : ∀ w ∈ slots, w.stop ≤ frame
  zero_lt_length : 0 < slots.length
  startsAtZero : slots[0].start = 0

namespace CyclicPlan

variable {α : Type*} (P : CyclicPlan α)

/-- The slot that starts with the frame. -/
def firstSlot : Slot α := P.slots.get ⟨0, P.zero_lt_length⟩

theorem firstSlot_mem : P.firstSlot ∈ P.slots := List.get_mem _ _

theorem firstSlot_start : P.firstSlot.start = 0 := P.startsAtZero

/-- The slot a position of the frame lies in, if it lies in one. -/
def slotAt (pos : ℕ) : Option (Slot α) := P.slots.find? fun w => decide (w.Contains pos)

theorem stop_le_start {i j : ℕ} (hj : j < P.slots.length) (hij : i < j) :
    P.slots[i].stop ≤ P.slots[j].start :=
  List.pairwise_iff_getElem.mp P.sorted i j (hij.trans hj) hj hij

theorem start_lt_stop {w : Slot α} (hw : w ∈ P.slots) : w.start < w.stop :=
  Nat.lt_add_of_pos_right (P.positive w hw)

theorem frame_pos : 0 < P.frame := by
  have h0 := List.getElem_mem P.zero_lt_length
  exact (Nat.zero_le _).trans_lt ((P.start_lt_stop h0).trans_le (P.inFrame _ h0))

/-! ## Cursors -/

/-- At time `t`, position `pos` of frame number `frames`, slot `idx` is the last one that has
    started. -/
structure Cursor (t frames idx pos : ℕ) : Prop where
  time_eq : t = frames * P.frame + pos
  pos_lt : pos < P.frame
  idx_lt : idx < P.slots.length
  start_le : P.slots[idx].start ≤ pos
  lt_next : ∀ h : idx + 1 < P.slots.length, pos < P.slots[idx + 1].start

variable {P} {t frames idx pos : ℕ}

theorem Cursor.mod_eq (h : P.Cursor t frames idx pos) : t % P.frame = pos := by
  rw [h.time_eq, Nat.mul_add_mod', Nat.mod_eq_of_lt h.pos_lt]

theorem Cursor.div_eq (h : P.Cursor t frames idx pos) : t / P.frame = frames := by
  rw [h.time_eq, Nat.mul_comm, Nat.mul_add_div P.frame_pos, Nat.div_eq_of_lt h.pos_lt,
    Nat.add_zero]

/-- The table agrees with the cursor: the position lies in the cursor's slot or in no slot. -/
theorem Cursor.slotAt_eq (h : P.Cursor t frames idx pos) (hidx : idx < P.slots.length) :
    P.slotAt pos = if pos < P.slots[idx].stop then some P.slots[idx] else none := by
  have hbefore : ∀ j (hj : j < P.slots.length), j < idx → ¬ P.slots[j].Contains pos :=
    fun j _ hlt hc => absurd hc.2 (not_lt.mpr ((P.stop_le_start hidx hlt).trans h.start_le))
  by_cases hstop : pos < P.slots[idx].stop
  · rw [if_pos hstop]
    refine List.find?_eq_some_iff_getElem.mpr
      ⟨decide_eq_true ⟨h.start_le, hstop⟩, idx, hidx, rfl, fun j hj => ?_⟩
    rw [decide_eq_false (hbefore j (hj.trans hidx) hj), Bool.not_false]
  · rw [if_neg hstop]
    refine List.find?_eq_none.mpr fun w hw hc => ?_
    obtain ⟨j, hj, rfl⟩ := List.getElem_of_mem hw
    have hc := of_decide_eq_true hc
    rcases lt_trichotomy j idx with hlt | rfl | hgt
    · exact hbefore j hj hlt hc
    · exact hstop hc.2
    · -- a later slot starts no earlier than the one that follows the cursor
      have hnext := h.lt_next (by omega)
      have hle : P.slots[idx + 1].start ≤ P.slots[j].start := by
        rcases Nat.lt_or_ge (idx + 1) j with hlt | hge
        · exact ((P.start_lt_stop (List.getElem_mem _)).le).trans (P.stop_le_start hj hlt)
        · obtain rfl : j = idx + 1 := by omega
          exact le_refl _
      exact absurd hc.1 (not_le.mpr (hnext.trans_le hle))

/-! ## Moving a cursor -/

section Moves

variable {t' gap : ℕ}

/-- The first slot of the first frame. -/
theorem Cursor.first (h : t < P.firstSlot.stop) : P.Cursor t 0 0 t where
  time_eq := by omega
  pos_lt := h.trans_le (P.inFrame _ P.firstSlot_mem)
  idx_lt := P.zero_lt_length
  start_le := by rw [P.startsAtZero]; exact Nat.zero_le _
  lt_next := fun h' => h.trans_le (P.stop_le_start h' (Nat.lt_succ_self 0))

/-- The cursor's slot remains the last one that has started. -/
theorem Cursor.stay (h : P.Cursor t frames idx pos) (hle : t ≤ t')
    (hpos : t' - frames * P.frame < P.frame)
    (hnext : ∀ h : idx + 1 < P.slots.length,
      t' - frames * P.frame < P.slots[idx + 1].start) :
    P.Cursor t' frames idx (t' - frames * P.frame) where
  time_eq := by have := h.time_eq; omega
  pos_lt := hpos
  idx_lt := h.idx_lt
  start_le := by have := h.time_eq; have := h.start_le; omega
  lt_next := hnext

/-- A call that reaches the start of the next slot comes before its end. -/
theorem Cursor.next_lt_stop (h : P.Cursor t frames idx pos) (hgap : t' ≤ t + gap)
    (hshort : ∀ w ∈ P.slots, gap ≤ w.length) (hidx : idx + 1 < P.slots.length) :
    t' - frames * P.frame < P.slots[idx + 1].stop := by
  have hnext := h.lt_next hidx
  have hlen := hshort _ (List.getElem_mem hidx)
  have ht := h.time_eq
  simp only [Slot.stop]
  omega

/-- A call that reaches the start of the next slot moves the cursor there. -/
theorem Cursor.next (h : P.Cursor t frames idx pos) (hle : t ≤ t') (hgap : t' ≤ t + gap)
    (hshort : ∀ w ∈ P.slots, gap ≤ w.length) (hpos : t' - frames * P.frame < P.frame)
    (hidx : idx + 1 < P.slots.length)
    (hnext : P.slots[idx + 1].start ≤ t' - frames * P.frame) :
    P.Cursor t' frames (idx + 1) (t' - frames * P.frame) where
  time_eq := by have := h.time_eq; omega
  pos_lt := hpos
  idx_lt := hidx
  start_le := hnext
  lt_next := fun hidx' =>
    (h.next_lt_stop hgap hshort hidx).trans_le
      (P.stop_le_start hidx' (Nat.lt_succ_self (idx + 1)))

/-- A call past the end of the frame comes before the end of the first slot of the next one. -/
theorem Cursor.wrap_lt_stop (h : P.Cursor t frames idx pos) (hgap : t' ≤ t + gap)
    (hshort : ∀ w ∈ P.slots, gap ≤ w.length) :
    t' - (frames + 1) * P.frame < P.firstSlot.stop := by
  have hfirst := hshort _ P.firstSlot_mem
  have hpos := P.positive _ P.firstSlot_mem
  have hstart := P.firstSlot_start
  have hlt := h.pos_lt
  have ht := h.time_eq
  have hmul : (frames + 1) * P.frame = frames * P.frame + P.frame := Nat.succ_mul _ _
  simp only [Slot.stop, hstart]
  omega

/-- A call past the end of the frame moves the cursor to the first slot of the next one. -/
theorem Cursor.wrap (h : P.Cursor t frames idx pos) (hgap : t' ≤ t + gap)
    (hshort : ∀ w ∈ P.slots, gap ≤ w.length) (hpos : P.frame ≤ t' - frames * P.frame) :
    P.Cursor t' (frames + 1) 0 (t' - (frames + 1) * P.frame) where
  time_eq := by
    have hmul : (frames + 1) * P.frame = frames * P.frame + P.frame := Nat.succ_mul _ _
    have := P.frame_pos
    omega
  pos_lt := (h.wrap_lt_stop hgap hshort).trans_le (P.inFrame _ P.firstSlot_mem)
  idx_lt := P.zero_lt_length
  start_le := by rw [P.startsAtZero]; exact Nat.zero_le _
  lt_next := fun h' =>
    (h.wrap_lt_stop hgap hshort).trans_le (P.stop_le_start h' (Nat.lt_succ_self 0))

end Moves

/-! ## Catching up -/

/-- How many calls, one per time unit, a cursor at distance `pos` from the start of its frame needs at
    most to be right again, if each takes it no further than to the next frame. -/
def callsLeft (frame pos : ℕ) : ℕ := if pos ≤ frame then frame - pos + 1 else pos + 1

theorem callsLeft_pos (frame pos : ℕ) : 0 < callsLeft frame pos := by
  unfold callsLeft
  split <;> omega

theorem callsLeft_le {frame pos : ℕ} (hframe : 2 ≤ frame) : callsLeft frame pos ≤ pos + 2 * frame := by
  unfold callsLeft
  split <;> omega

/-- A call inside the frame. -/
theorem callsLeft_succ {frame pos : ℕ} (h : pos < frame) :
    callsLeft frame (pos + 1) < callsLeft frame pos := by
  unfold callsLeft
  rw [if_pos (Nat.succ_le_of_lt h), if_pos h.le]
  omega

/-- A call that comes more than a frame late. -/
theorem callsLeft_wrap {frame pos : ℕ} (hframe : 2 ≤ frame) (h : frame < pos) :
    callsLeft frame (pos + 1 - frame) < callsLeft frame pos := by
  unfold callsLeft
  rw [if_neg (not_le.mpr h)]
  split <;> omega

end CyclicPlan
