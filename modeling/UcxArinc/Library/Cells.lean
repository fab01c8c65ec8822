import Mathlib.Data.List.Basic
import Mathlib.Logic.Function.Basic

set_option autoImplicit false

/-! # Ranges of cells, and pages

A memory is a function of the place. `slice` takes a range out of it, and `put` writes over one. A page
write puts its values into one page: behind the last cell of the page it goes on with the first. It is a
`put` if it does not get there, which `Paged` says of the pieces of a range. -/

namespace Cells

variable {α : Type*} {cells : Nat → α} {src : List α} {offset count i : Nat}

/-! ## Ranges -/

/-- So many values from an offset on. -/
def slice (cells : Nat → α) (offset count : Nat) : List α := (List.range count).map fun i => cells (offset + i)

/-- Values written over what is at an offset. -/
def put (cells : Nat → α) (offset : Nat) (src : List α) (i : Nat) : α :=
  if offset ≤ i then src[i - offset]?.getD (cells i) else cells i

@[simp] theorem length_slice (cells : Nat → α) (offset count : Nat) : (slice cells offset count).length = count := by
  simp [slice]

theorem slice_succ (cells : Nat → α) (offset count : Nat) :
    slice cells offset (count + 1) = cells offset :: slice cells (offset + 1) count := by
  rw [slice, List.range_succ_eq_map, List.map_cons, List.map_map, Nat.add_zero]
  refine congrArg _ (List.map_congr_left fun i _ => ?_)
  simp only [Function.comp_apply, Nat.succ_eq_add_one, Nat.add_comm i 1, Nat.add_assoc]

theorem slice_add (cells : Nat → α) (offset a b : Nat) :
    slice cells offset (a + b) = slice cells offset a ++ slice cells (offset + a) b := by
  induction a generalizing offset with
  | zero => simp [slice]
  | succ a ih =>
      rw [Nat.add_right_comm, slice_succ, slice_succ, ih, List.cons_append, Nat.add_assoc, Nat.add_comm 1 a]

theorem slice_congr {cells' : Nat → α} (h : ∀ i, offset ≤ i → i < offset + count → cells i = cells' i) :
    slice cells offset count = slice cells' offset count := by
  refine List.map_congr_left fun i hi => h _ (Nat.le_add_right _ _) ?_
  have hlt := List.mem_range.mp hi
  omega

theorem put_of_lt (h : i < offset) : put cells offset src i = cells i := if_neg (by omega)

theorem put_of_ge (h : offset + src.length ≤ i) : put cells offset src i = cells i := by
  rw [put, if_pos (by omega), List.getElem?_eq_none (by omega), Option.getD_none]

/-- What has been written is there. -/
theorem slice_put (cells : Nat → α) (offset : Nat) (src : List α) :
    slice (put cells offset src) offset src.length = src := by
  refine List.ext_getElem (length_slice _ _ _) fun i hi hi' => ?_
  simp only [slice, List.getElem_map, List.getElem_range]
  rw [put, if_pos (Nat.le_add_right _ _), Nat.add_sub_cancel_left, List.getElem?_eq_getElem hi', Option.getD_some]

/-- Writing what is there changes nothing. -/
theorem put_slice (h : slice cells offset src.length = src) : put cells offset src = cells := by
  funext i
  rcases Nat.lt_or_ge i offset with hi | hi
  · exact put_of_lt hi
  · rcases Nat.lt_or_ge i (offset + src.length) with hi' | hi'
    · have hplace : offset + (i - offset) = i := by omega
      have hget : (slice cells offset src.length)[i - offset]? = some (cells i) := by
        rw [slice, List.getElem?_map, List.getElem?_range (by omega), Option.map_some, hplace]
      rw [h] at hget
      rw [put, if_pos hi, hget, Option.getD_some]
    · exact put_of_ge hi'

/-- Behind what has been written nothing changes. -/
theorem slice_put_of_ge {o : Nat} (h : offset + src.length ≤ o) :
    slice (put cells offset src) o count = slice cells o count :=
  slice_congr fun _ hi _ => put_of_ge (Nat.le_trans h hi)

@[simp] theorem put_nil (cells : Nat → α) (offset : Nat) : put cells offset [] = cells := by
  funext i
  simp [put]

theorem put_cons (cells : Nat → α) (offset : Nat) (x : α) (src : List α) :
    put cells offset (x :: src) = put (Function.update cells offset x) (offset + 1) src := by
  funext i
  rcases Nat.lt_trichotomy i offset with hi | rfl | hi
  · rw [put_of_lt hi, put_of_lt (by omega), Function.update_of_ne (by omega)]
  · have hright : put (Function.update cells i x) (i + 1) src i = x :=
      (put_of_lt (Nat.lt_succ_self i)).trans (Function.update_self ..)
    rw [hright, put, if_pos (Nat.le_refl _), Nat.sub_self]
    rfl
  · have hsub : i - offset = i - (offset + 1) + 1 := by omega
    rw [put, put, if_pos (by omega), if_pos (by omega), hsub, List.getElem?_cons_succ,
      Function.update_of_ne (by omega)]

theorem put_append (cells : Nat → α) (offset : Nat) (src src' : List α) :
    put cells offset (src ++ src') = put (put cells offset src) (offset + src.length) src' := by
  induction src generalizing cells offset with
  | nil => simp
  | cons x src ih =>
      rw [List.cons_append, put_cons, put_cons, ih, List.length_cons, Nat.add_assoc, Nat.add_comm 1]

/-! ## Pages -/

variable {size block b : Nat} {pieces : List (List α)}

/-- The cell behind one in its page. -/
def nextInPage (size i : Nat) : Nat := i / size * size + (i % size + 1) % size

/-- A page write: behind the last cell of a page comes the first. -/
def pageWrite (size : Nat) : (Nat → α) → Nat → List α → Nat → α
  | cells, _, [] => cells
  | cells, offset, x :: src => pageWrite size (Function.update cells offset x) (nextInPage size offset) src

theorem nextInPage_of_lt (h : i % size + 1 < size) : nextInPage size i = i + 1 := by
  have hdiv := Nat.div_add_mod' i size
  rw [nextInPage, Nat.mod_eq_of_lt h]
  omega

/-- A page write that stays in its page. -/
theorem pageWrite_eq_put (h : offset % size + src.length ≤ size) :
    pageWrite size cells offset src = put cells offset src := by
  induction src generalizing cells offset with
  | nil => rw [put_nil, pageWrite]
  | cons x src ih =>
      rw [List.length_cons] at h
      rw [pageWrite, put_cons]
      cases src with
      | nil => rw [put_nil, pageWrite]
      | cons y src =>
          rw [List.length_cons] at h
          have hnext : nextInPage size offset = offset + 1 := nextInPage_of_lt (by omega)
          have hmod : (offset + 1) % size = offset % size + 1 := by
            rw [← Nat.mod_add_mod, Nat.mod_eq_of_lt (by omega)]
          rw [hnext]
          exact ih (by rw [hmod, List.length_cons]; omega)

/-- Pieces of a range from an offset on: each lies in one page, and only the last may be empty. -/
def Paged (size : Nat) : Nat → List (List α) → Prop
  | _, [] => True
  | offset, src :: pieces =>
    offset % size + src.length ≤ size ∧ (src = [] → pieces = []) ∧ Paged size (offset + src.length) pieces

/-- What holds of the offset of each piece that is not empty. -/
def EachAt (p : Nat → Prop) : Nat → List (List α) → Prop
  | _, [] => True
  | offset, src :: pieces => (src ≠ [] → p offset) ∧ EachAt p (offset + src.length) pieces

/-- The cells of a page are in one block, if the blocks are made of pages. -/
theorem div_block_eq (hdvd : size ∣ block) (hle : offset ≤ i) (hlt : i < offset + count)
    (hpage : offset % size + count ≤ size) : i / block = offset / block := by
  obtain ⟨k, rfl⟩ := hdvd
  have hdiv := Nat.div_add_mod' offset size
  have hplace : i = (i - offset + offset % size) + offset / size * size := by omega
  have hi : i / size = offset / size := by
    rw [hplace, Nat.add_mul_div_right _ _ (by omega), Nat.div_eq_of_lt (by omega), Nat.zero_add]
  rw [← Nat.div_div_eq_div_mul, ← Nat.div_div_eq_div_mul, hi]

theorem EachAt.imp {p q : Nat → Prop} (himp : ∀ i, offset ≤ i → i < offset + pieces.flatten.length → p i → q i)
    (h : EachAt p offset pieces) : EachAt q offset pieces := by
  induction pieces generalizing offset with
  | nil => trivial
  | cons src pieces ih =>
      rw [List.flatten_cons, List.length_append] at himp
      refine ⟨fun hne => ?_, ih (fun i hle hlt => himp i (by omega) (by omega)) h.2⟩
      have hpos : 0 < src.length := List.length_pos_iff.mpr hne
      exact himp offset (Nat.le_refl _) (by omega) (h.1 hne)

/-- The pieces start in one block if and only if all of the range is in it. -/
theorem Paged.eachAt_block_iff (hdvd : size ∣ block) (h : Paged size offset pieces) :
    EachAt (fun i => i / block = b) offset pieces ↔
      ∀ i, offset ≤ i → i < offset + pieces.flatten.length → i / block = b := by
  induction pieces generalizing offset with
  | nil => exact ⟨fun _ i hle hlt => absurd hlt (by simpa using hle), fun _ => trivial⟩
  | cons src pieces ih =>
      rw [List.flatten_cons, List.length_append, EachAt, ih h.2.2]
      constructor
      · intro ⟨hfirst, hrest⟩ i hle hlt
        rcases Nat.lt_or_ge i (offset + src.length) with hi | hi
        · have hne : src ≠ [] := List.length_pos_iff.mp (by omega)
          exact (div_block_eq hdvd hle hi h.1).trans (hfirst hne)
        · exact hrest i hi (by omega)
      · intro hall
        refine ⟨fun hne => ?_, fun i hle hlt => hall i (by omega) (by omega)⟩
        have hpos : 0 < src.length := List.length_pos_iff.mpr hne
        exact hall offset (Nat.le_refl _) (by omega)

end Cells
