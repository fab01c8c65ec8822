import UcxArinc.Implementation.Time
import UcxArinc.Implementation.StaticConf
import Mathlib.Order.Bounds.Basic

set_option autoImplicit false

/-! # First release points

`arinc_time_find_first_release_point` takes the first window that starts a period in the order of the plan,
and computes its time in 32 bits. So with the windows in the order of their starts the time it returns is
right exactly as long as the true one fits. -/

namespace UcxArinc

namespace Pcb

variable {s : Pcb} {w : WindowPartition}

/-- Milliseconds per tick. -/
def msPerTick (s : Pcb) : Nat := 1000 / s.krnl.fTimer

/-- When a window starts in frame `k`. -/
def startTime (s : Pcb) (k : Nat) (w : WindowPartition) : Nat :=
  (k * s.krnl.moduleScheduler.majorFrameTick + w.startTick) * s.msPerTick

/-- The start times, in any frame, of the windows that start a period of the partition, from the start of
    the current window of the current frame on. -/
def releaseTimes (s : Pcb) (current : WindowPartition) : Set Nat :=
  {t | ∃ k, ∃ w ∈ s.krnl.moduleScheduler.windowsPartition,
    startsPeriod s.status.identifier w = true ∧ t = s.startTime k w
      ∧ s.startTime s.krnl.moduleScheduler.majorFrameCount current ≤ t}

/-- The start the code aims at: that of the first such window in the order of the plan, from the current one
    on and then in the next frame. -/
def plannedStart (s : Pcb) : Nat :=
  let ms := s.krnl.moduleScheduler
  match (ms.windowsPartition.drop ms.windowsIdx).find? (startsPeriod s.status.identifier) with
  | some w => s.startTime ms.majorFrameCount w
  | none =>
    match (ms.windowsPartition.take ms.windowsIdx).find? (startsPeriod s.status.identifier) with
    | some w => s.startTime (ms.majorFrameCount + 1) w
    | none => 0

/-- The windows come in the order of their starts, all inside the frame. -/
structure OrderedPlan (ms : Mscb) : Prop where
  sorted : ms.windowsPartition.Pairwise fun a b => a.startTick < b.startTick
  inFrame : ∀ w ∈ ms.windowsPartition, w.startTick < ms.majorFrameTick

/-- The first window found among sorted ones is the earliest. -/
theorem startTick_le_of_find? {ws : List WindowPartition} {p : WindowPartition → Bool}
    (hsorted : ws.Pairwise fun a b => a.startTick < b.startTick) (hfind : ws.find? p = some w)
    {w' : WindowPartition} (hw' : w' ∈ ws) (hp : p w' = true) : w.startTick ≤ w'.startTick := by
  obtain ⟨-, before, behind, rfl, hbefore⟩ := List.find?_eq_some_iff_append.mp hfind
  rcases List.mem_append.mp hw' with hmem | hmem
  · have := hbefore w' hmem
    simp [hp] at this
  · rcases List.mem_cons.mp hmem with rfl | hmem
    · exact le_rfl
    · have hpair := (List.pairwise_append.mp hsorted).2.1
      exact (List.rel_of_pairwise_cons hpair hmem).le

/-- What the 32-bit computation returns. -/
theorem u32_startTime (hdvd : s.krnl.fTimer ∣ 1000) (k : Nat) (w : WindowPartition) :
    u32 (k * ticksToMs s.krnl.fTimer s.krnl.moduleScheduler.majorFrameTick
      + ticksToMs s.krnl.fTimer w.startTick) = s.startTime k w % 2 ^ 32 := by
  have hms : ∀ ticks, ticksToMs s.krnl.fTimer ticks = ticks * s.msPerTick % 2 ^ 32 := by
    intro ticks
    unfold ticksToMs msPerTick u32
    rw [Nat.mul_div_assoc _ hdvd]
  unfold u32 startTime
  rw [hms, hms, Nat.add_mod, Nat.mod_mod, Nat.mul_mod, Nat.mod_mod, ← Nat.mul_mod, ← Nat.add_mod,
    ← Nat.mul_assoc, ← Nat.add_mul]

/-- A window of a later frame starts after one of an earlier frame. -/
theorem frame_le_of_start_le {frame k c st st' : Nat} (hst : st < frame)
    (h : c * frame + st' ≤ k * frame + st) : c ≤ k := by
  by_contra hlt
  have hmul := Nat.mul_le_mul_right frame (by omega : k + 1 ≤ c)
  rw [Nat.succ_mul] at hmul
  omega

/-- The code finds a window, and returns the 32 low bits of its start. -/
theorem firstReleasePoint_eq (hdvd : s.krnl.fTimer ∣ 1000)
    (hflagged : ∃ w ∈ s.krnl.moduleScheduler.windowsPartition,
      startsPeriod s.status.identifier w = true) :
    s.arincTimeFindFirstReleasePoint = (s.plannedStart % 2 ^ 32 : Nat) := by
  unfold arincTimeFindFirstReleasePoint plannedStart
  dsimp only
  cases hbehind : (s.krnl.moduleScheduler.windowsPartition.drop s.krnl.moduleScheduler.windowsIdx).find?
      (startsPeriod s.status.identifier) with
  | some w => dsimp only; rw [u32_startTime hdvd]
  | none =>
      cases hbefore : (s.krnl.moduleScheduler.windowsPartition.take
          s.krnl.moduleScheduler.windowsIdx).find? (startsPeriod s.status.identifier) with
      | some w => dsimp only; rw [u32_startTime hdvd]
      | none =>
          obtain ⟨w, hw, hp⟩ := hflagged
          rw [← List.take_append_drop s.krnl.moduleScheduler.windowsIdx
            s.krnl.moduleScheduler.windowsPartition] at hw
          rcases List.mem_append.mp hw with hmem | hmem
          · exact absurd hp (List.find?_eq_none.mp hbefore w hmem)
          · exact absurd hp (List.find?_eq_none.mp hbehind w hmem)

section Ordered

variable {ms : Mscb} {current : WindowPartition}

/-- The current window heads the second half of the plan. -/
theorem drop_windowsIdx (hcurrent : ms.windowsPartition[ms.windowsIdx]? = some current) :
    ms.windowsPartition.drop ms.windowsIdx
      = current :: ms.windowsPartition.drop (ms.windowsIdx + 1) := by
  obtain ⟨hidx, hget⟩ := List.getElem?_eq_some_iff.mp hcurrent
  rw [List.drop_eq_getElem_cons hidx, hget]

/-- The two halves of an ordered plan are ordered, and every window of the first starts before every window
    of the second. -/
theorem OrderedPlan.halves (hplan : OrderedPlan ms) :
    (ms.windowsPartition.take ms.windowsIdx).Pairwise (fun a b => a.startTick < b.startTick)
      ∧ (ms.windowsPartition.drop ms.windowsIdx).Pairwise (fun a b => a.startTick < b.startTick)
      ∧ ∀ a ∈ ms.windowsPartition.take ms.windowsIdx, ∀ b ∈ ms.windowsPartition.drop ms.windowsIdx,
        a.startTick < b.startTick := by
  have hsorted := hplan.sorted
  rw [← List.take_append_drop ms.windowsIdx ms.windowsPartition] at hsorted
  exact List.pairwise_append.mp hsorted

/-- A window behind the current one starts no earlier. -/
theorem OrderedPlan.current_le (hplan : OrderedPlan ms)
    (hcurrent : ms.windowsPartition[ms.windowsIdx]? = some current)
    (hw : w ∈ ms.windowsPartition.drop ms.windowsIdx) : current.startTick ≤ w.startTick := by
  have hbehind := hplan.halves.2.1
  rw [drop_windowsIdx hcurrent] at hw hbehind
  rcases List.mem_cons.mp hw with rfl | hw
  · exact le_rfl
  · exact (List.rel_of_pairwise_cons hbehind hw).le

/-- A window before the current one starts earlier. -/
theorem OrderedPlan.lt_current (hplan : OrderedPlan ms)
    (hcurrent : ms.windowsPartition[ms.windowsIdx]? = some current)
    (hw : w ∈ ms.windowsPartition.take ms.windowsIdx) : w.startTick < current.startTick := by
  refine hplan.halves.2.2 w hw current ?_
  rw [drop_windowsIdx hcurrent]
  exact List.mem_cons_self

/-- A window of a frame starts before every window of a later frame. -/
theorem OrderedPlan.start_le_of_frame_lt (hplan : OrderedPlan ms) {c k : Nat} {w' : WindowPartition}
    (hw : w ∈ ms.windowsPartition) (hlt : c < k) :
    c * ms.majorFrameTick + w.startTick ≤ k * ms.majorFrameTick + w'.startTick := by
  have hst := hplan.inFrame w hw
  have hmul := Nat.mul_le_mul_right ms.majorFrameTick (Nat.succ_le_of_lt hlt)
  rw [Nat.succ_mul] at hmul
  omega

end Ordered

/-- In an ordered plan the start the code aims at is the next one. -/
theorem plannedStart_least (hplan : OrderedPlan s.krnl.moduleScheduler) (hdvd : s.krnl.fTimer ∣ 1000)
    {current : WindowPartition}
    (hcurrent : s.krnl.moduleScheduler.windowsPartition[s.krnl.moduleScheduler.windowsIdx]? = some current)
    (hflagged : ∃ w ∈ s.krnl.moduleScheduler.windowsPartition,
      startsPeriod s.status.identifier w = true) :
    IsLeast (s.releaseTimes current) s.plannedStart := by
  have hmem : current ∈ s.krnl.moduleScheduler.windowsPartition := List.mem_of_getElem? hcurrent
  -- times are compared by their ticks
  have hpos : 0 < s.msPerTick := by
    have hle := Nat.le_of_dvd (by omega) hdvd
    exact Nat.div_pos hle (Nat.pos_of_dvd_of_pos hdvd (by omega))
  have hticks : ∀ {k k' : Nat} {w w' : WindowPartition}, s.startTime k w ≤ s.startTime k' w'
      ↔ k * s.krnl.moduleScheduler.majorFrameTick + w.startTick
        ≤ k' * s.krnl.moduleScheduler.majorFrameTick + w'.startTick :=
    fun {_ _ _ _} => Nat.mul_le_mul_right_iff hpos
  have hcases : ∀ w ∈ s.krnl.moduleScheduler.windowsPartition,
      w ∈ s.krnl.moduleScheduler.windowsPartition.take s.krnl.moduleScheduler.windowsIdx
        ∨ w ∈ s.krnl.moduleScheduler.windowsPartition.drop s.krnl.moduleScheduler.windowsIdx := by
    intro w hw
    rw [← List.take_append_drop s.krnl.moduleScheduler.windowsIdx
      s.krnl.moduleScheduler.windowsPartition] at hw
    exact List.mem_append.mp hw
  unfold plannedStart
  dsimp only
  cases hbehind : (s.krnl.moduleScheduler.windowsPartition.drop s.krnl.moduleScheduler.windowsIdx).find?
      (startsPeriod s.status.identifier) with
  | some w =>
      have hw := List.mem_of_find?_eq_some hbehind
      have hw' := List.mem_of_mem_drop hw
      refine ⟨⟨_, w, hw', List.find?_some hbehind, rfl, ?_⟩, ?_⟩
      · rw [hticks]
        have := hplan.current_le hcurrent hw
        omega
      · rintro t ⟨k, w₁, hw₁, hp, rfl, hle⟩
        dsimp only
        rw [hticks] at hle ⊢
        rcases Nat.lt_or_ge s.krnl.moduleScheduler.majorFrameCount k with hlt | hge
        · exact hplan.start_le_of_frame_lt hw' hlt
        · obtain rfl : k = s.krnl.moduleScheduler.majorFrameCount :=
            le_antisymm hge (frame_le_of_start_le (hplan.inFrame w₁ hw₁) hle)
          rcases hcases w₁ hw₁ with hmem₁ | hmem₁
          · have := hplan.lt_current hcurrent hmem₁
            omega
          · have := startTick_le_of_find? hplan.halves.2.1 hbehind hmem₁ hp
            omega
  | none =>
      have hnone : ∀ w ∈ s.krnl.moduleScheduler.windowsPartition.drop s.krnl.moduleScheduler.windowsIdx,
          ¬ startsPeriod s.status.identifier w = true := List.find?_eq_none.mp hbehind
      cases hbefore : (s.krnl.moduleScheduler.windowsPartition.take
          s.krnl.moduleScheduler.windowsIdx).find? (startsPeriod s.status.identifier) with
      | none =>
          obtain ⟨w, hw, hp⟩ := hflagged
          rcases hcases w hw with hmem₁ | hmem₁
          · exact absurd hp (List.find?_eq_none.mp hbefore w hmem₁)
          · exact absurd hp (hnone w hmem₁)
      | some w =>
          have hw := List.mem_of_find?_eq_some hbefore
          have hw' := List.mem_of_mem_take hw
          refine ⟨⟨_, w, hw', List.find?_some hbefore, rfl, ?_⟩, ?_⟩
          · rw [hticks]
            exact hplan.start_le_of_frame_lt hmem (Nat.lt_succ_self _)
          · rintro t ⟨k, w₁, hw₁, hp, rfl, hle⟩
            dsimp only
            rw [hticks] at hle ⊢
            have hk := frame_le_of_start_le (hplan.inFrame w₁ hw₁) hle
            have hbeforeMem := (hcases w₁ hw₁).resolve_right fun hmem₁ => hnone w₁ hmem₁ hp
            rcases Nat.lt_trichotomy k (s.krnl.moduleScheduler.majorFrameCount + 1) with hlt | rfl | hgt
            · -- in the current frame the first half is over
              obtain rfl : k = s.krnl.moduleScheduler.majorFrameCount := by omega
              have := hplan.lt_current hcurrent hbeforeMem
              omega
            · have := startTick_le_of_find? hplan.halves.1 hbefore hbeforeMem hp
              omega
            · exact hplan.start_le_of_frame_lt hw' hgt

/-- The release point returned is the next start of a window that starts a period exactly if that start is
    below `2 ^ 32` milliseconds and is, up to multiples of `2 ^ 32`, that of the first such window in the
    order of the plan. Where the plan is in the order of the starts, the first condition is the only one. -/
theorem firstReleasePoint_least_iff (s : Pcb) (hdvd : s.krnl.fTimer ∣ 1000) {current : WindowPartition}
    (hcurrent : s.krnl.moduleScheduler.windowsPartition[s.krnl.moduleScheduler.windowsIdx]? = some current)
    (hflagged : ∃ w ∈ s.krnl.moduleScheduler.windowsPartition,
      startsPeriod s.status.identifier w = true) :
    ((∃ t : Nat, s.arincTimeFindFirstReleasePoint = t ∧ IsLeast (s.releaseTimes current) t)
      ↔ ∃ t, IsLeast (s.releaseTimes current) t ∧ t < 2 ^ 32 ∧ s.plannedStart % 2 ^ 32 = t % 2 ^ 32)
    ∧ (OrderedPlan s.krnl.moduleScheduler →
      ((∃ t : Nat, s.arincTimeFindFirstReleasePoint = t ∧ IsLeast (s.releaseTimes current) t)
        ↔ ∀ t, IsLeast (s.releaseTimes current) t → t < 2 ^ 32)) := by
  have hiff : (∃ t : Nat, s.arincTimeFindFirstReleasePoint = t ∧ IsLeast (s.releaseTimes current) t)
      ↔ ∃ t, IsLeast (s.releaseTimes current) t ∧ t < 2 ^ 32 ∧ s.plannedStart % 2 ^ 32 = t % 2 ^ 32 := by
    rw [firstReleasePoint_eq hdvd hflagged]
    constructor
    · rintro ⟨t, heq, hleast⟩
      have heq := Int.ofNat_inj.mp heq
      exact ⟨t, hleast, by omega, by omega⟩
    · rintro ⟨t, hleast, hlt, heq⟩
      exact ⟨t, by rw [heq, Nat.mod_eq_of_lt hlt], hleast⟩
  refine ⟨hiff, ?_⟩
  intro hplan
  have hleast := plannedStart_least hplan hdvd hcurrent hflagged
  rw [hiff]
  constructor
  · rintro ⟨t, hleast', hlt, -⟩ u hu
    have h := hu.unique hleast'
    omega
  · intro hall
    exact ⟨s.plannedStart, hleast, hall _ hleast, rfl⟩

/-- The partition of the default configuration, in the frame of a module clock with 1000 ticks a second. -/
def inFrame (majorFrameCount : Nat) : Pcb :=
  let s := defaultPartition 1
  { s with krnl := { s.krnl with
      fTimer := 1000
      moduleScheduler := { Kcb.moduleSchedulerInit 100 (Kcb.defaultWindows 1000) with
        majorFrameCount := majorFrameCount } } }

/-- At the start of the default partition. -/
theorem firstReleasePoint_least_iff_default :
    ∃ t : Nat, (inFrame 0).arincTimeFindFirstReleasePoint = t
      ∧ IsLeast ((inFrame 0).releaseTimes ⟨1, 0, 40, true⟩) t := by
  have h := firstReleasePoint_least_iff (inFrame 0) (by decide)
    (by decide : (inFrame 0).krnl.moduleScheduler.windowsPartition[
      (inFrame 0).krnl.moduleScheduler.windowsIdx]? = some ⟨1, 0, 40, true⟩) (by decide)
  refine (h.2 ⟨by decide, by decide⟩).mpr ?_
  intro t ht
  have hzero : 0 ∈ (inFrame 0).releaseTimes ⟨1, 0, 40, true⟩ :=
    ⟨0, ⟨1, 0, 40, true⟩, by decide, by decide, by decide, by decide⟩
  have hle := ht.2 hzero
  omega

/-- After 42949673 frames of 100 ms the time of the next start is 2 ^ 32 + 4 ms, and 4 is returned. -/
theorem firstReleasePoint_wraps :
    ¬ ∃ t : Nat, (inFrame 42949673).arincTimeFindFirstReleasePoint = t
      ∧ IsLeast ((inFrame 42949673).releaseTimes ⟨1, 0, 40, true⟩) t := by
  rintro ⟨t, heq, ⟨k, w, -, -, -, hle⟩, -⟩
  have hreturns : (inFrame 42949673).arincTimeFindFirstReleasePoint = 4 := by decide
  have hcurrent : (inFrame 42949673).startTime
    (inFrame 42949673).krnl.moduleScheduler.majorFrameCount ⟨1, 0, 40, true⟩ = 4294967300 := by decide
  rw [hreturns] at heq
  rw [hcurrent] at hle
  omega

end Pcb

end UcxArinc
