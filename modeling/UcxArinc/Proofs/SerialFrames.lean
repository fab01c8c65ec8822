import UcxArinc.Implementation.SerialLine

set_option autoImplicit false

/-! # Reading back frames from a serial line

A frame shorter than the longest is read with its closing delimiter. Of a frame of the greatest length the
closing delimiter is left behind, and the next read takes it for an opening one. -/

namespace UcxArinc

open Cells

namespace SerialLine

variable {frame : List UInt8} {frames : List (List UInt8)} {buffer : Nat → UInt8} {input : List UInt8} {i turns : Nat}

/-- No byte is cut off that the loop has room for. -/
theorem writeLoop_eq (h : i + frame.length ≤ minFramelen) : writeLoop i frame = frame.flatMap putByte := by
  induction frame generalizing i with
  | nil => rfl
  | cons data frame ih =>
      rw [List.length_cons] at h
      rw [writeLoop, if_pos (by omega), ih (by omega), List.flatMap_cons]

/-- A byte that has been put is read back, escaped or not. -/
theorem readLoop_putByte (data : UInt8) (turns i : Nat) (buffer : Nat → UInt8) (input : List UInt8) :
    readLoop (turns + 1) i buffer (putByte data ++ input)
      = readLoop turns (i + 1) (Function.update buffer i data) input := by
  unfold putByte
  by_cases hspecial : data = 0x7e ∨ data = 0x7d
  · have hback : data ^^^ 0x20 ^^^ 0x20 = data := by
      rw [UInt8.xor_assoc, UInt8.xor_self, UInt8.xor_zero]
    rw [if_pos hspecial, List.cons_append, List.singleton_append, readLoop.eq_def]
    dsimp only
    rw [if_neg (by decide), if_pos rfl, hback]
  · rw [not_or] at hspecial
    rw [if_neg (not_or.mpr hspecial), List.singleton_append, readLoop.eq_def]
    dsimp only
    rw [if_neg hspecial.1, if_neg hspecial.2]

/-- The bytes of a frame are read back, as far as there is room. -/
theorem readLoop_frame (h : frame.length ≤ turns) (i : Nat) (buffer : Nat → UInt8) (input : List UInt8) :
    readLoop turns i buffer (frame.flatMap putByte ++ input)
      = readLoop (turns - frame.length) (i + frame.length) (put buffer i frame) input := by
  induction frame generalizing turns i buffer with
  | nil => rw [List.flatMap_nil, List.nil_append, put_nil, List.length_nil, Nat.sub_zero, Nat.add_zero]
  | cons data frame ih =>
      rw [List.length_cons] at h
      obtain ⟨n, rfl⟩ : ∃ n, turns = n + 1 := ⟨turns - 1, by omega⟩
      have hturns : n + 1 - (frame.length + 1) = n - frame.length := by omega
      have hplace : i + 1 + frame.length = i + (frame.length + 1) := by omega
      rw [List.flatMap_cons, List.append_assoc, readLoop_putByte, ih (by omega), put_cons, List.length_cons, hturns,
        hplace]

/-- What a read makes of a frame and what comes behind it. -/
theorem ttyRead_ttyWrite (h : frame.length ≤ minFramelen) (buffer : Nat → UInt8) (input : List UInt8) :
    ttyRead buffer ((ttyWrite frame).1 ++ input)
      = some (frame.length, put buffer 0 frame, if frame.length < minFramelen then input else 0x7e :: input) := by
  rw [ttyWrite, List.cons_append, ttyRead, if_neg (by decide), writeLoop_eq (by omega), List.append_assoc, readLoop_frame h,
    Nat.zero_add]
  by_cases hlt : frame.length < minFramelen
  · obtain ⟨n, hn⟩ : ∃ n, minFramelen - frame.length = n + 1 := ⟨minFramelen - frame.length - 1, by omega⟩
    rw [if_pos hlt, hn, List.singleton_append, readLoop.eq_def]
    dsimp only
    rw [if_pos rfl]
  · have hzero : minFramelen - frame.length = 0 := by omega
    rw [if_neg hlt, hzero, List.singleton_append, readLoop]

/-- Frames are read back in order and as long as they were, and behind each the input goes on with the next. -/
def RoundTrip (buffer : Nat → UInt8) (frames : List (List UInt8)) : Prop :=
  ∀ k ≤ frames.length, readFrames k buffer (writeFrames frames) = some (frames.take k, writeFrames (frames.drop k))

theorem writeFrames_cons (frame : List UInt8) (frames : List (List UInt8)) :
    writeFrames (frame :: frames) = (ttyWrite frame).1 ++ writeFrames frames := List.flatMap_cons

/-- One frame more. -/
theorem readFrames_succ (h : frame.length ≤ minFramelen) (k : Nat) (buffer : Nat → UInt8) :
    readFrames (k + 1) buffer (writeFrames (frame :: frames))
      = (readFrames k (put buffer 0 frame) (if frame.length < minFramelen then writeFrames frames
          else 0x7e :: writeFrames frames)).map fun r => (frame :: r.1, r.2) := by
  rw [readFrames, writeFrames_cons, ttyRead_ttyWrite h]
  simp only [Option.bind_eq_bind, Option.bind_some, slice_put]
  cases readFrames k (put buffer 0 frame) (if frame.length < minFramelen then writeFrames frames
    else 0x7e :: writeFrames frames) <;> rfl

/-- A frame of the greatest length leaves its closing delimiter. -/
theorem not_roundTrip_of_full (h : frame.length = minFramelen) : ¬ RoundTrip buffer (frame :: frames) := by
  intro hround
  have hone := hround 1 (by simp)
  rw [readFrames_succ (Nat.le_of_eq h), if_neg (by omega), readFrames, Option.map_some, Option.some.injEq,
    Prod.mk.injEq] at hone
  have hlen := congrArg List.length hone.2
  simp at hlen

/-- A shorter frame leaves nothing. -/
theorem roundTrip_cons_iff (h : frame.length < minFramelen) :
    RoundTrip buffer (frame :: frames) ↔ RoundTrip (put buffer 0 frame) frames := by
  constructor
  · intro hround k hk
    have hmore := hround (k + 1) (Nat.succ_le_succ hk)
    rw [readFrames_succ (Nat.le_of_lt h), if_pos h, Option.map_eq_some_iff] at hmore
    obtain ⟨⟨read, left⟩, hread, heq⟩ := hmore
    rw [Prod.mk.injEq, List.take_succ_cons, List.cons.injEq, List.drop_succ_cons] at heq
    dsimp only at heq
    rw [hread, heq.1.2, heq.2]
  · intro hround k hk
    cases k with
    | zero => rfl
    | succ k =>
        rw [readFrames_succ (Nat.le_of_lt h), if_pos h, hround k (Nat.le_of_succ_le_succ hk),
          Option.map_some, List.take_succ_cons,
          List.drop_succ_cons]

/-- Frames are read back as they were written if and only if all are shorter than the greatest length. -/
theorem roundTrip_iff (buffer : Nat → UInt8) (frames : List (List UInt8))
    (hlen : ∀ frame ∈ frames, 1 ≤ frame.length ∧ frame.length ≤ minFramelen) :
    RoundTrip buffer frames ↔ ∀ frame ∈ frames, frame.length < minFramelen := by
  induction frames generalizing buffer with
  | nil =>
      refine ⟨fun _ => nofun, fun _ k hk => ?_⟩
      rw [Nat.le_zero.mp hk]
      rfl
  | cons frame frames ih =>
      have hrest := fun buffer => ih buffer fun f hf => hlen f (List.mem_cons_of_mem _ hf)
      rw [List.forall_mem_cons]
      rcases Nat.lt_or_eq_of_le (hlen frame List.mem_cons_self).2 with hlt | hfull
      · rw [roundTrip_cons_iff hlt, hrest]
        exact ⟨fun h => ⟨hlt, h⟩, fun h => h.2⟩
      · exact ⟨fun h => absurd h (not_roundTrip_of_full hfull), fun h => absurd h.1 (by omega)⟩

/-- Two frames, with a delimiter and an escape among their bytes. -/
theorem roundTrip_iff_escaped : RoundTrip (fun _ => 0) [[0x7e, 0x41, 0x7d], [0x7d]] := by
  refine (roundTrip_iff (fun _ => 0) [[0x7e, 0x41, 0x7d], [0x7d]] ?_).mpr ?_
  · simp [minFramelen]
  · simp [minFramelen]

/-- A frame of the greatest length, and one behind it. -/
theorem not_roundTrip : ¬ ∀ (buffer : Nat → UInt8) (frames : List (List UInt8)),
    (∀ frame ∈ frames, 1 ≤ frame.length ∧ frame.length ≤ minFramelen) → RoundTrip buffer frames := by
  intro h
  refine not_roundTrip_of_full ?_ (h (fun _ => 0) [List.replicate minFramelen 0x41, [0x42]] ?_)
  · exact List.length_replicate
  · intro frame hframe
    rcases List.mem_cons.mp hframe with rfl | hframe
    · rw [List.length_replicate]
      exact ⟨by decide, Nat.le_refl _⟩
    · rw [List.mem_singleton.mp hframe]
      decide

end SerialLine

end UcxArinc
