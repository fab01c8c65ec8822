import UcxArinc.Implementation.ModuleScheduler

set_option autoImplicit false

/-! # The scheduler follows the window plan

`windows_idx` and `major_frame_count` are a cursor into the cyclic plan the window table describes.
`Synced s t` relates the scheduler's state to the plan at the tick of its last call; every call and
every mode change preserve it, so the partition dispatched is the planned one for ever. -/

namespace UcxArinc

/-! ## 32-bit arithmetic -/

theorem u32_of_lt {n : Nat} (h : n < 2 ^ 32) : u32 n = n := Nat.mod_eq_of_lt h

theorem u32Sub_of_le {a b : Nat} (hba : b ≤ a) (ha : a < 2 ^ 32) : u32Sub a b = a - b := by
  rw [u32Sub, u32_of_lt (hba.trans_lt ha), u32,
    show a + (2 ^ 32 - b) = a - b + 2 ^ 32 by omega, Nat.add_mod_right,
    Nat.mod_eq_of_lt (by omega)]

/-- Without overflow `MS_TO_TICKS` is the exact number of ticks. -/
theorem msToTicks_eq {fTimer uptime : Nat} (h : uptime * fTimer < 2 ^ 32) :
    msToTicks fTimer (u32 uptime) = uptime * fTimer / 1000 := by
  have key : u32 (u32 (u32 uptime) * u32 fTimer) = uptime * fTimer := by
    simp only [u32, Nat.mod_mod]
    rw [← Nat.mul_mod, Nat.mod_eq_of_lt h]
  rw [msToTicks, key]

namespace Kcb

/-! ## The table as a cyclic plan -/

/-- Sorted and disjoint windows of positive duration end before the next one starts. -/
theorem WellFormedPlan.slots_sorted {ms : Mscb} (h : WellFormedPlan ms) :
    (ms.windowsPartition.map slotOf).Pairwise fun a b => a.stop ≤ b.start := by
  rw [List.pairwise_map]
  have hboth := h.sorted.and h.disjoint
  refine hboth.imp_of_mem fun {a b} _ hb hab => ?_
  have hpos := h.positive b hb
  simp only [Slot.stop, slotOf]
  omega

theorem WellFormedPlan.slots_positive {ms : Mscb} (h : WellFormedPlan ms) :
    ∀ w ∈ ms.windowsPartition.map slotOf, 0 < w.length := by
  simpa [slotOf] using h.positive

theorem WellFormedPlan.slots_inFrame {ms : Mscb} (h : WellFormedPlan ms) :
    ∀ w ∈ ms.windowsPartition.map slotOf, w.stop ≤ ms.majorFrameTick := by
  simpa [slotOf, Slot.stop] using h.inFrame

theorem WellFormedPlan.slots_length_pos {ms : Mscb} (h : WellFormedPlan ms) :
    0 < (ms.windowsPartition.map slotOf).length := by
  simpa using h.zero_lt_length

theorem WellFormedPlan.slots_startsAtZero {ms : Mscb} (h : WellFormedPlan ms)
    (hpos : 0 < (ms.windowsPartition.map slotOf).length) :
    (ms.windowsPartition.map slotOf)[0].start = 0 := by
  simpa [slotOf] using h.startsAtZero

/-- The cyclic plan a well-formed window table describes. -/
def plan (ms : Mscb) (h : WellFormedPlan ms) : CyclicPlan Int where
  frame := ms.majorFrameTick
  slots := ms.windowsPartition.map slotOf
  sorted := h.slots_sorted
  positive := h.slots_positive
  inFrame := h.slots_inFrame
  zero_lt_length := h.slots_length_pos
  startsAtZero := h.slots_startsAtZero _

theorem windowOwner_eq (s : Kcb) (h : WellFormedPlan s.moduleScheduler) (pos : Nat) :
    s.windowOwner pos = ((plan s.moduleScheduler h).slotAt pos).map Slot.owner := by
  simp only [windowOwner, CyclicPlan.slotAt, plan, List.find?_map, Option.map_map]
  rfl

/-! ## Partition switches -/

/-- Who is current after a switch to an existing partition. -/
def dispatched (s : Kcb) (identifier : Int) : Option Int :=
  if s.IsIdle identifier then none else some identifier

theorem krnlPartitionSwitch_idle (s : Kcb) :
    s.krnlPartitionSwitch idlePartitionId
      = some ({ s with partitionCurrent := none }, idlePartitionId) := by
  rw [krnlPartitionSwitch, if_pos rfl]

/-- A switch to an existing partition dispatches it, or nobody if it is in `IDLE` mode. -/
theorem krnlPartitionSwitch_of_exists {s : Kcb} {id : Int} (hid : id ≠ idlePartitionId)
    (hex : ∃ p ∈ s.partitions, p.identifier = id) :
    ∃ r, s.krnlPartitionSwitch id
      = some ({ s with partitionCurrent := s.dispatched id }, r) := by
  obtain ⟨p, hp, hpid⟩ := hex
  have hsome : (s.findPartition id).isSome := by
    rw [findPartition, List.find?_isSome]
    exact ⟨p, hp, decide_eq_true hpid⟩
  obtain ⟨q, hq⟩ := Option.isSome_iff_exists.mp hsome
  rw [krnlPartitionSwitch, if_neg hid, hq]
  by_cases hidle : q.operatingMode = .idle
  · exact ⟨idlePartitionId, by simp [dispatched, IsIdle, hq, hidle]⟩
  · exact ⟨id, by simp [dispatched, IsIdle, hq, hidle]⟩

theorem dispatched_congr {s s' : Kcb} (h : s'.partitions = s.partitions) (id : Int) :
    s'.dispatched id = s.dispatched id :=
  if_congr (by simp only [IsIdle, findPartition, h]) rfl rfl

theorem plannedPartition_eq (s : Kcb) (t : Nat) :
    s.plannedPartition t
      = (s.windowOwner (t % s.moduleScheduler.majorFrameTick)).bind s.dispatched := by
  rw [plannedPartition]
  cases s.windowOwner (t % s.moduleScheduler.majorFrameTick) <;> rfl

/-! ## The invariant -/

/-- The state of the scheduler at tick `t`, between two of its calls: the cursor is right, the
    current partition owns the window of `t`, and an idle request is pending exactly when the
    current partition has gone to `IDLE` mode. -/
structure Synced (s : Kcb) (t : Nat) : Prop where
  wellFormed : WellFormedPlan s.moduleScheduler
  exist : s.PartitionsExist
  cursor : (plan s.moduleScheduler wellFormed).Cursor t s.moduleScheduler.majorFrameCount
    s.moduleScheduler.windowsIdx (t % s.moduleScheduler.majorFrameTick)
  owner : ∀ id, s.partitionCurrent = some id →
    s.windowOwner (t % s.moduleScheduler.majorFrameTick) = some id
  request : s.moduleScheduler.idleCurrentPartition = true
    ↔ ∃ id, s.partitionCurrent = some id ∧ s.IsIdle id
  planned : s.partitionCurrent = none → s.plannedPartition t = none

/-- The window the cursor points to. -/
theorem Synced.idx_lt {s : Kcb} {t : Nat} (h : Synced s t) :
    s.moduleScheduler.windowsIdx < s.moduleScheduler.windowsPartition.length := by
  simpa [plan] using h.cursor.idx_lt

/-- The static configuration of the scheduler is the same. -/
structure SameConf (s s' : Kcb) : Prop where
  fTimer : s'.fTimer = s.fTimer
  windows : s'.moduleScheduler.windowsPartition = s.moduleScheduler.windowsPartition
  frame : s'.moduleScheduler.majorFrameTick = s.moduleScheduler.majorFrameTick

theorem SameConf.trans {s s' s'' : Kcb} (h : SameConf s s') (h' : SameConf s' s'') :
    SameConf s s'' :=
  ⟨h'.fTimer.trans h.fTimer, h'.windows.trans h.windows, h'.frame.trans h.frame⟩

theorem SameConf.wellFormed {s s' : Kcb} (h : SameConf s s')
    (hwf : WellFormedPlan s.moduleScheduler) : WellFormedPlan s'.moduleScheduler := by
  obtain ⟨h1, h2, h3, h4, h5, h6, h7⟩ := hwf
  have hlen : 0 < s'.moduleScheduler.windowsPartition.length := by rw [h.windows]; exact h5
  refine ⟨?_, ?_, ?_, ?_, hlen, ?_, ?_⟩
  · rw [h.windows]; exact h1
  · rw [h.windows]; exact h2
  · rw [h.windows]; exact h3
  · rw [h.windows, h.frame]; exact h4
  · simpa only [h.windows] using h6
  · rw [h.frame]; exact h7

theorem SameConf.exist {s s' : Kcb} (h : SameConf s s') (hp : s'.partitions = s.partitions)
    (hex : s.PartitionsExist) : s'.PartitionsExist := by
  intro w hw
  rw [hp]
  exact hex w (h.windows ▸ hw)

theorem SameConf.windowOwner {s s' : Kcb} (h : SameConf s s') (pos : Nat) :
    s'.windowOwner pos = s.windowOwner pos := by
  simp only [Kcb.windowOwner, h.windows]

theorem SameConf.cursor {s s' : Kcb} (h : SameConf s s') (hwf : WellFormedPlan s.moduleScheduler)
    {t frames idx pos : Nat} (hc : (plan s.moduleScheduler hwf).Cursor t frames idx pos) :
    (plan s'.moduleScheduler (h.wellFormed hwf)).Cursor t frames idx pos := by
  have heq : plan s'.moduleScheduler (h.wellFormed hwf) = plan s.moduleScheduler hwf := by
    simp only [plan, h.windows, h.frame]
  rw [heq]
  exact hc

/-- The state after a call: who is current, and where the cursor stands. -/
def moved (s : Kcb) (current : Option Int) (frames idx : Nat) : Kcb :=
  { s with
    partitionCurrent := current
    moduleScheduler := { s.moduleScheduler with
      idleCurrentPartition := false
      windowsIdx := idx
      majorFrameCount := frames } }

theorem moved_sameConf (s : Kcb) (current : Option Int) (frames idx : Nat) :
    SameConf s (s.moved current frames idx) := ⟨rfl, rfl, rfl⟩

theorem plannedPartition_congr {s s' : Kcb} (hconf : SameConf s s')
    (hparts : s'.partitions = s.partitions) (t : Nat) :
    s'.plannedPartition t = s.plannedPartition t := by
  rw [plannedPartition_eq, plannedPartition_eq, hconf.frame, hconf.windowOwner]
  exact congrArg _ (funext fun id => dispatched_congr hparts id)

/-- A planned partition owns the window and is not idle. -/
theorem plannedPartition_eq_some {s : Kcb} {t : Nat} {id : Int}
    (h : s.plannedPartition t = some id) :
    s.windowOwner (t % s.moduleScheduler.majorFrameTick) = some id ∧ ¬ s.IsIdle id := by
  rw [plannedPartition] at h
  split at h
  · cases h
  · rename_i id' hid'
    split at h
    · cases h
    · rename_i hidle
      cases h
      exact ⟨hid', hidle⟩

/-- Moving the cursor to `t` and dispatching the planned partition restores the invariant. -/
theorem Synced.of_moved {s : Kcb} {t frames idx : Nat} (hwf : WellFormedPlan s.moduleScheduler)
    (hex : s.PartitionsExist)
    (hcursor : (plan s.moduleScheduler hwf).Cursor t frames idx
      (t % s.moduleScheduler.majorFrameTick)) :
    Synced (s.moved (s.plannedPartition t) frames idx) t where
  wellFormed := (s.moved_sameConf _ _ _).wellFormed hwf
  exist := (s.moved_sameConf _ _ _).exist rfl hex
  cursor := hcursor
  owner := fun _ hid => (plannedPartition_eq_some hid).1
  request := ⟨fun h => Bool.noConfusion h,
    fun ⟨_, hid, hidle⟩ => absurd hidle (plannedPartition_eq_some hid).2⟩
  planned := fun hnone => (plannedPartition_congr (s.moved_sameConf _ _ _) rfl t).trans hnone

/-! ## One call of the scheduler -/

/-- The planned partition, read off a cursor. -/
theorem plannedPartition_of_cursor {s : Kcb} {t frames idx pos : Nat}
    (hwf : WellFormedPlan s.moduleScheduler)
    (hc : (plan s.moduleScheduler hwf).Cursor t frames idx pos)
    (hidx : idx < s.moduleScheduler.windowsPartition.length) :
    s.plannedPartition t =
      if pos < s.moduleScheduler.windowsPartition[idx].startTick
          + s.moduleScheduler.windowsPartition[idx].durationTick
      then s.dispatched s.moduleScheduler.windowsPartition[idx].id else none := by
  have hmod : t % s.moduleScheduler.majorFrameTick = pos := hc.mod_eq
  rw [plannedPartition_eq, hmod, windowOwner_eq s hwf, hc.slotAt_eq hc.idx_lt]
  simp only [plan, List.getElem_map, slotOf, Slot.stop]
  split <;> rfl

/-- Inside the cursor's window its partition is planned. -/
theorem plannedPartition_in_window {s : Kcb} {t frames idx pos : Nat}
    (hwf : WellFormedPlan s.moduleScheduler)
    (hc : (plan s.moduleScheduler hwf).Cursor t frames idx pos)
    (hidx : idx < s.moduleScheduler.windowsPartition.length)
    (hpos : pos < s.moduleScheduler.windowsPartition[idx].startTick
      + s.moduleScheduler.windowsPartition[idx].durationTick) :
    s.plannedPartition t = s.dispatched s.moduleScheduler.windowsPartition[idx].id := by
  rw [plannedPartition_of_cursor hwf hc hidx, if_pos hpos]

/-- After the end of the cursor's window nobody is planned. -/
theorem plannedPartition_in_gap {s : Kcb} {t frames idx pos : Nat}
    (hwf : WellFormedPlan s.moduleScheduler)
    (hc : (plan s.moduleScheduler hwf).Cursor t frames idx pos)
    (hidx : idx < s.moduleScheduler.windowsPartition.length)
    (hpos : s.moduleScheduler.windowsPartition[idx].startTick
      + s.moduleScheduler.windowsPartition[idx].durationTick ≤ pos) :
    s.plannedPartition t = none := by
  rw [plannedPartition_of_cursor hwf hc hidx, if_neg (not_lt.mpr hpos)]

/-- Serving the idle request leaves the partition planned for the last tick current. -/
theorem Synced.serveIdleRequest_eq {s : Kcb} {t : Nat} (h : Synced s t) :
    s.serveIdleRequest = some (s.moved (s.plannedPartition t)
      s.moduleScheduler.majorFrameCount s.moduleScheduler.windowsIdx) := by
  by_cases hflag : s.moduleScheduler.idleCurrentPartition = true
  · obtain ⟨id, hid, hidle⟩ := h.request.mp hflag
    have hnone : s.plannedPartition t = none := by
      rw [plannedPartition_eq, h.owner id hid]
      exact if_pos hidle
    rw [serveIdleRequest, if_pos hflag, krnlPartitionSwitch_idle, hnone]
    rfl
  · have hsome : s.plannedPartition t = s.partitionCurrent := by
      cases hcur : s.partitionCurrent with
      | none => exact h.planned hcur
      | some id =>
          rw [plannedPartition_eq, h.owner id hcur]
          exact if_neg fun hidle => hflag (h.request.mpr ⟨id, hcur, hidle⟩)
    have hfalse : s.moduleScheduler.idleCurrentPartition = false := by simpa using hflag
    rw [serveIdleRequest, if_neg hflag, hsome, moved, ← hfalse]

/-- The position the code computes is the distance to the start of the counted frame. -/
theorem Synced.positionInFrame_eq {s : Kcb} {t t' : Nat} (h : Synced s t) (hle : t ≤ t')
    (hlt : t' < 2 ^ 32) :
    s.positionInFrame t'
      = t' - s.moduleScheduler.majorFrameCount * s.moduleScheduler.majorFrameTick := by
  refine u32Sub_of_le (le_trans ?_ hle) hlt
  have ht : t = s.moduleScheduler.majorFrameCount * s.moduleScheduler.majorFrameTick
      + t % s.moduleScheduler.majorFrameTick := h.cursor.time_eq
  omega

/-- The partition of the window to dispatch exists, so the switch succeeds. -/
theorem krnlPartitionSwitch_of_window {s : Kcb} (hex : s.PartitionsExist) {w : WindowPartition}
    (hw : w ∈ s.moduleScheduler.windowsPartition) (current : Option Int) (frames idx : Nat) :
    ∃ r, (s.moved current frames idx).krnlPartitionSwitch w.id
      = some (s.moved (s.dispatched w.id) frames idx, r) := by
  obtain ⟨hid, hp⟩ := hex w hw
  exact krnlPartitionSwitch_of_exists (s := s.moved current frames idx) hid hp

/-- The step lemma: a call no later than the shortest window after the last one succeeds, moves the
    cursor to its own tick and dispatches the planned partition. -/
theorem Synced.partitionScheduler_eq {s : Kcb} {t t' uptime : Nat} (h : Synced s t)
    (hoverflow : uptime * s.fTimer < 2 ^ 32) (ht' : t' = uptime * s.fTimer / 1000)
    (hle : t ≤ t')
    (hshort : ∀ w ∈ s.moduleScheduler.windowsPartition, t' ≤ t + w.durationTick) :
    ∃ frames idx r,
      s.partitionScheduler uptime = some (s.moved (s.plannedPartition t') frames idx, r)
      ∧ (plan s.moduleScheduler h.wellFormed).Cursor t' frames idx
        (t' % s.moduleScheduler.majorFrameTick) := by
  have hwf := h.wellFormed
  have hidx := h.idx_lt
  have hlt : t' < 2 ^ 32 := by omega
  have hgap : t' ≤ t + (t' - t) := by omega
  have hshort' : ∀ w ∈ (plan s.moduleScheduler hwf).slots, t' - t ≤ w.length := by
    simp only [plan, List.mem_map, forall_exists_index, and_imp, forall_apply_eq_imp_iff₂, slotOf]
    intro w hw
    have := hshort w hw
    omega
  have hend := u32_of_lt ((hwf.inFrame _ (List.getElem_mem hidx)).trans_lt hwf.frame_lt)
  rw [partitionScheduler]
  simp only [msToTicks_eq hoverflow, ← ht', h.positionInFrame_eq hle hlt, h.serveIdleRequest_eq,
    List.getElem?_eq_getElem hidx, hend]
  by_cases hwrap : s.moduleScheduler.majorFrameTick
      ≤ t' - s.moduleScheduler.majorFrameCount * s.moduleScheduler.majorFrameTick
  · -- the next frame begins with the first window
    have hc := h.cursor.wrap hgap hshort' hwrap
    have hstop := h.cursor.wrap_lt_stop hgap hshort'
    have hfirst := hwf.zero_lt_length
    have hcount : u32 (s.moduleScheduler.majorFrameCount + 1)
        = s.moduleScheduler.majorFrameCount + 1 := by
      refine u32_of_lt (lt_of_le_of_lt ?_ hlt)
      have htime := hc.time_eq
      have hmul := Nat.le_mul_of_pos_right (s.moduleScheduler.majorFrameCount + 1)
        (plan s.moduleScheduler hwf).frame_pos
      omega
    obtain ⟨r, hr⟩ := krnlPartitionSwitch_of_window h.exist (List.getElem_mem hfirst)
      (s.plannedPartition t) (s.moduleScheduler.majorFrameCount + 1) 0
    refine ⟨s.moduleScheduler.majorFrameCount + 1, 0, r, ?_, ?_⟩
    · rw [if_pos hwrap, List.getElem?_eq_getElem hfirst, hcount,
        plannedPartition_in_window hwf hc hfirst]
      · exact hr
      · simpa [CyclicPlan.firstSlot, plan, slotOf, Slot.stop] using hstop
    · rw [show t' % s.moduleScheduler.majorFrameTick = _ from hc.mod_eq]
      exact hc
  · have hin : t' - s.moduleScheduler.majorFrameCount * s.moduleScheduler.majorFrameTick
        < s.moduleScheduler.majorFrameTick := not_le.mp hwrap
    rw [if_neg hwrap]
    by_cases hdone : s.moduleScheduler.windowsPartition[s.moduleScheduler.windowsIdx].startTick
        + s.moduleScheduler.windowsPartition[s.moduleScheduler.windowsIdx].durationTick
        ≤ t' - s.moduleScheduler.majorFrameCount * s.moduleScheduler.majorFrameTick
    · rw [if_pos hdone]
      by_cases hlast : s.moduleScheduler.windowsIdx
          = s.moduleScheduler.windowsPartition.length - 1
      · -- the gap after the last window
        have hc := h.cursor.stay hle hin fun hnext => by
          simp only [plan, List.length_map] at hnext
          omega
        refine ⟨_, _, idlePartitionId, ?_, by rwa [hc.mod_eq.symm] at hc⟩
        rw [if_pos hlast, krnlPartitionSwitch_idle, plannedPartition_in_gap hwf hc hidx hdone]
        rfl
      · have hsucc : s.moduleScheduler.windowsIdx + 1
            < s.moduleScheduler.windowsPartition.length := by omega
        rw [if_neg hlast, List.getElem?_eq_getElem hsucc]
        by_cases hhole : t' - s.moduleScheduler.majorFrameCount * s.moduleScheduler.majorFrameTick
            < s.moduleScheduler.windowsPartition[s.moduleScheduler.windowsIdx + 1].startTick
        · -- a gap between two windows
          have hc := h.cursor.stay hle hin fun _ => by simpa [plan, slotOf] using hhole
          refine ⟨_, _, idlePartitionId, ?_, by rwa [hc.mod_eq.symm] at hc⟩
          simp only [if_pos hhole]
          rw [krnlPartitionSwitch_idle, plannedPartition_in_gap hwf hc hidx hdone]
          rfl
        · -- the next window
          have hsucc' : s.moduleScheduler.windowsIdx + 1
              < (plan s.moduleScheduler hwf).slots.length := by simpa [plan] using hsucc
          have hstart : (plan s.moduleScheduler hwf).slots[s.moduleScheduler.windowsIdx + 1].start
              ≤ t' - s.moduleScheduler.majorFrameCount * s.moduleScheduler.majorFrameTick := by
            simpa [plan, slotOf] using hhole
          have hc := h.cursor.next hle hgap hshort' hin hsucc' hstart
          have hstop := h.cursor.next_lt_stop hgap hshort' hsucc'
          obtain ⟨r, hr⟩ := krnlPartitionSwitch_of_window h.exist (List.getElem_mem hsucc)
            (s.plannedPartition t) s.moduleScheduler.majorFrameCount
            (s.moduleScheduler.windowsIdx + 1)
          refine ⟨_, _, s.moduleScheduler.windowsPartition[s.moduleScheduler.windowsIdx + 1].id,
            ?_, by rwa [hc.mod_eq.symm] at hc⟩
          simp only [if_neg hhole]
          rw [plannedPartition_in_window hwf hc hsucc]
          · exact congrArg (Option.map _) hr
          · simpa [CyclicPlan.firstSlot, plan, slotOf, Slot.stop] using hstop
    · -- the window goes on, and so does whoever was planned in it
      have hin' := not_le.mp hdone
      have hc := h.cursor.stay hle hin fun hnext => by
        refine hin'.trans_le ?_
        simpa [plan, slotOf, Slot.stop] using
          (plan s.moduleScheduler hwf).stop_le_start hnext (Nat.lt_succ_self _)
      have hbefore : t % s.moduleScheduler.majorFrameTick
          ≤ t' - s.moduleScheduler.majorFrameCount * s.moduleScheduler.majorFrameTick := by
        have htime : t = s.moduleScheduler.majorFrameCount * s.moduleScheduler.majorFrameTick
          + t % s.moduleScheduler.majorFrameTick := h.cursor.time_eq
        omega
      have hsame : s.plannedPartition t' = s.plannedPartition t := by
        rw [plannedPartition_in_window hwf hc hidx hin',
          plannedPartition_in_window hwf h.cursor hidx (hbefore.trans_lt hin')]
      refine ⟨_, _, if s.moduleScheduler.idleCurrentPartition then idlePartitionId
        else s.moduleScheduler.windowsPartition[s.moduleScheduler.windowsIdx].id, ?_,
        by rwa [hc.mod_eq.symm] at hc⟩
      rw [if_neg hdone, hsame]

/-- The call leaves the scheduler in step with its own tick. -/
theorem Synced.schedule {s : Kcb} {t t' uptime : Nat} (h : Synced s t)
    (hoverflow : uptime * s.fTimer < 2 ^ 32) (ht' : t' = uptime * s.fTimer / 1000)
    (hle : t ≤ t')
    (hshort : ∀ w ∈ s.moduleScheduler.windowsPartition, t' ≤ t + w.durationTick) :
    ∃ s' r, s.partitionScheduler uptime = some (s', r) ∧ SameConf s s' ∧ Synced s' t'
      ∧ s'.partitionCurrent = s'.plannedPartition t' := by
  obtain ⟨frames, idx, r, heq, hc⟩ := h.partitionScheduler_eq hoverflow ht' hle hshort
  exact ⟨_, r, heq, s.moved_sameConf _ _ _, .of_moved h.wellFormed h.exist hc,
    (plannedPartition_congr (s.moved_sameConf _ _ _) rfl t').symm⟩

/-! ## Mode changes -/

/-- The partitions after the one with identifier `id` has changed its mode. -/
def withMode (s : Kcb) (id : Int) (operatingMode : OperatingMode) : List PartitionEntry :=
  s.partitions.map fun p =>
    if p.identifier = id then { p with operatingMode := operatingMode } else p

theorem isIdle_of_withMode {s s' : Kcb} {id : Int} {operatingMode : OperatingMode}
    (hparts : s'.partitions = s.withMode id operatingMode) (hex : (s.findPartition id).isSome) :
    s'.IsIdle id ↔ operatingMode = .idle := by
  obtain ⟨p, hp⟩ := Option.isSome_iff_exists.mp hex
  have hid : p.identifier = id := by simpa using List.find?_some hp
  have hfind : s'.findPartition id = some { p with operatingMode := operatingMode } := by
    rw [findPartition, hparts, withMode, List.find?_map]
    have hcomp : ((fun q : PartitionEntry => decide (q.identifier = id)) ∘ fun q =>
        if q.identifier = id then { q with operatingMode := operatingMode } else q)
          = fun q => decide (q.identifier = id) := by
      funext q
      simp only [Function.comp_apply]
      split <;> simp_all
    rw [hcomp]
    rw [findPartition] at hp
    rw [hp, Option.map_some, if_pos hid]
  simp [IsIdle, hfind]

/-- A mode change keeps the scheduler in step: going `IDLE` leaves the request that the next call
    serves. -/
theorem Synced.setPartitionMode {s s' : Kcb} {t : Nat} {operatingMode : OperatingMode}
    (h : Synced s t) (hstep : s.setPartitionMode operatingMode = some s') :
    Synced s' t ∧ SameConf s s' := by
  rw [Kcb.setPartitionMode] at hstep
  split at hstep
  · cases hstep
  · rename_i p hp
    obtain ⟨id, hcur, hfind⟩ := Option.bind_eq_some_iff.mp hp
    have hid : p.identifier = id := by simpa using List.find?_some hfind
    split at hstep
    · cases hstep
    · rename_i hactive
      split at hstep
      · cases hstep
        exact ⟨h, rfl, rfl, rfl⟩
      · split at hstep
        · cases hstep
          exact ⟨h, rfl, rfl, rfl⟩
        · -- the current partition was not idle, so no request was pending
          have hflag : s.moduleScheduler.idleCurrentPartition = false := by
            rw [← Bool.not_eq_true, h.request]
            rintro ⟨id', hcur', hidle⟩
            obtain rfl : id = id' := Option.some.inj (hcur.symm.trans hcur')
            exact hactive (by simpa [IsIdle, hfind] using hidle)
          have key : ∀ s' : Kcb, SameConf s s' → s'.partitions = s.withMode id operatingMode →
              s'.partitionCurrent = s.partitionCurrent →
              s'.moduleScheduler.windowsIdx = s.moduleScheduler.windowsIdx →
              s'.moduleScheduler.majorFrameCount = s.moduleScheduler.majorFrameCount →
              (s'.moduleScheduler.idleCurrentPartition = true ↔ operatingMode = .idle) →
              Synced s' t ∧ SameConf s s' := by
            intro s' hconf hparts hcur' hidx hcount hreq
            refine ⟨⟨hconf.wellFormed h.wellFormed, ?_, ?_, ?_, ?_, ?_⟩, hconf⟩
            · intro w hw
              obtain ⟨hne, q, hq, hqid⟩ := h.exist w (hconf.windows ▸ hw)
              rw [hparts]
              refine ⟨hne, _, List.mem_map_of_mem hq, ?_⟩
              split <;> exact hqid
            · have := hconf.cursor h.wellFormed h.cursor
              rwa [hidx, hcount, hconf.frame]
            · intro id' hid'
              rw [hconf.frame, hconf.windowOwner]
              exact h.owner id' (hcur' ▸ hid')
            · have hexists : (s.findPartition id).isSome := by rw [hfind]; rfl
              rw [hreq, hcur', hcur, ← isIdle_of_withMode hparts hexists]
              exact ⟨fun hidle => ⟨id, rfl, hidle⟩, fun ⟨_, rfl, hidle⟩ => hidle⟩
            · intro hnone
              rw [hcur', hcur] at hnone
              cases hnone
          split at hstep
          · rename_i hidle
            cases hstep
            exact key _ ⟨rfl, rfl, rfl⟩ (by rw [← hid]; rfl) rfl rfl rfl
              ⟨fun _ => hidle, fun _ => rfl⟩
          · rename_i hidle
            cases hstep
            exact key _ ⟨rfl, rfl, rfl⟩ (by rw [← hid]; rfl) rfl rfl rfl
              ⟨fun hf => absurd hf (by simp [hflag]), fun hm => absurd hm hidle⟩

/-! ## Runs -/

/-- The scheduler is in step with a tick from which the next call, at uptime `u`, is in reach. -/
def Ready (s : Kcb) (u : Nat) : Prop :=
  ∃ t, Synced s t ∧ t ≤ tickAt s.fTimer u
    ∧ ∀ w ∈ s.moduleScheduler.windowsPartition, tickAt s.fTimer u ≤ t + w.durationTick

/-- Started, the scheduler is in step with every tick of the first window. -/
theorem synced_of_start {boot s : Kcb} {t majorFrameTick : Nat} {windows : List WindowPartition}
    (hinit : boot.moduleScheduler = moduleSchedulerInit majorFrameTick windows)
    (hwf : WellFormedPlan boot.moduleScheduler) (hex : boot.PartitionsExist)
    (hstart : boot.arincStartScheduling = some s)
    (ht : ∀ w ∈ boot.moduleScheduler.windowsPartition.head?, t < w.durationTick) :
    Synced s t ∧ SameConf boot s := by
  have hpos := hwf.zero_lt_length
  obtain ⟨first, rest, hwindows⟩ := List.exists_cons_of_length_pos hpos
  have hhead : first ∈ boot.moduleScheduler.windowsPartition := by simp [hwindows]
  have hzero : first.startTick = 0 := by
    have := hwf.startsAtZero
    simpa [hwindows] using this
  have hlt : t < first.durationTick := ht first (by simp [hwindows])
  obtain ⟨hid, hp⟩ := hex first hhead
  obtain ⟨r, hr⟩ := krnlPartitionSwitch_of_exists hid hp
  rw [arincStartScheduling, hwindows] at hstart
  simp only [hr] at hstart
  split at hstart
  · cases hstart
  · rename_i hcur
    cases hstart
    have hc : (plan boot.moduleScheduler hwf).Cursor t 0 0 t := by
      refine CyclicPlan.Cursor.first ?_
      simpa [CyclicPlan.firstSlot, plan, hwindows, slotOf, Slot.stop, hzero] using hlt
    have hmod : t % boot.moduleScheduler.majorFrameTick = t := hc.mod_eq
    have hplanned : boot.plannedPartition t = boot.dispatched first.id := by
      rw [plannedPartition_in_window hwf hc hpos]
      · simp only [hwindows, List.getElem_cons_zero]
      · simpa [hwindows, hzero] using hlt
    have hc' : (plan boot.moduleScheduler hwf).Cursor t 0 0
        (t % boot.moduleScheduler.majorFrameTick) := by rwa [hmod]
    have hmoved := Synced.of_moved hwf hex hc'
    rw [hplanned] at hmoved
    refine ⟨?_, rfl, rfl, rfl⟩
    simpa [moved, setWindowsIdx, hinit, moduleSchedulerInit] using hmoved

/-- The run lemma: paced calls without overflow keep the next call in reach. -/
theorem Ready.run {s s' : Kcb} {es : List Action} {u : Nat}
    (hrun : Transition.run step s es = some s')
    (h : ∀ u' ∈ (callUptimes es ++ [u]).head?, Ready s u')
    (hpaced : ((callUptimes es ++ [u]).map (tickAt s.fTimer)).IsChain fun t t' =>
      t < t' ∧ ∀ w ∈ s.moduleScheduler.windowsPartition, t' ≤ t + w.durationTick)
    (hover : NoOverflow s (callUptimes es)) : Ready s' u ∧ SameConf s s' := by
  induction es generalizing s with
  | nil =>
      cases hrun
      exact ⟨h u rfl, rfl, rfl, rfl⟩
  | cons e es ih =>
      rw [Transition.run_cons] at hrun
      obtain ⟨s₁, hstep, hrest⟩ := Option.bind_eq_some_iff.mp hrun
      cases e with
      | schedule v =>
          obtain ⟨t, hsync, hle, hshort⟩ := h v rfl
          obtain ⟨s₂, r, heq, hconf, hsync', -⟩ :=
            hsync.schedule (hover v (List.mem_cons_self ..)) rfl hle hshort
          obtain rfl : s₂ = s₁ := by simpa [step, heq] using hstep
          simp only [callUptimes, List.cons_append, List.map_cons] at hpaced
          have htail := (List.isChain_cons.mp hpaced).2
          refine (ih hrest (fun u' hu' => ?_) ?_ fun u' hu' => ?_).imp_right hconf.trans
          · have hnext := (List.isChain_cons.mp hpaced).1 (tickAt s.fTimer u')
              (by rw [List.head?_map, Option.mem_def.mp hu']; rfl)
            rw [Ready, hconf.fTimer, hconf.windows]
            exact ⟨_, hsync', hnext.1.le, hnext.2⟩
          · simpa only [hconf.fTimer, hconf.windows] using htail
          · rw [hconf.fTimer]
            exact hover u' (List.mem_cons_of_mem _ hu')
      | setPartitionMode operatingMode =>
          have hhead : ∃ u', u' ∈ (callUptimes es ++ [u]).head? := by
            cases hes : callUptimes es <;> simp
          obtain ⟨u₁, hu₁⟩ := hhead
          obtain ⟨_, hsync₁, -⟩ := h u₁ hu₁
          obtain ⟨-, hconf⟩ := hsync₁.setPartitionMode hstep
          refine (ih hrest (fun u' hu' => ?_) ?_ fun u' hu' => ?_).imp_right hconf.trans
          · obtain ⟨t, hsync, hle, hshort⟩ := h u' hu'
            rw [Ready, hconf.fTimer, hconf.windows]
            exact ⟨t, (hsync.setPartitionMode hstep).1, hle, hshort⟩
          · simpa only [callUptimes, hconf.fTimer, hconf.windows] using hpaced
          · rw [hconf.fTimer]
            exact hover u' hu'

/-- A started scheduler can make the first of its calls. -/
theorem ready_of_start {boot s : Kcb} {u majorFrameTick : Nat} {windows : List WindowPartition}
    (hinit : boot.moduleScheduler = moduleSchedulerInit majorFrameTick windows)
    (hwf : WellFormedPlan boot.moduleScheduler) (hex : boot.PartitionsExist)
    (hstart : boot.arincStartScheduling = some s)
    (hu : ∀ w ∈ boot.moduleScheduler.windowsPartition.head?, tickAt boot.fTimer u < w.durationTick) :
    Ready s u ∧ SameConf boot s := by
  obtain ⟨hsync, hconf⟩ := synced_of_start hinit hwf hex hstart hu
  exact ⟨⟨_, hsync, by rw [hconf.fTimer], fun w _ => by rw [hconf.fTimer]; omega⟩, hconf⟩

/-- After any run whose calls are paced and do not overflow, the next call finds the scheduler in
    step. -/
theorem ready_of_run {boot s₀ s : Kcb} {majorFrameTick : Nat} {windows : List WindowPartition}
    {es : List Action} {u : Nat}
    (hinit : boot.moduleScheduler = moduleSchedulerInit majorFrameTick windows)
    (hwf : WellFormedPlan boot.moduleScheduler) (hex : boot.PartitionsExist)
    (hstart : boot.arincStartScheduling = some s₀) (hrun : Transition.run step s₀ es = some s)
    (hpaced : PacedCalls boot (callUptimes es ++ [u]))
    (hover : NoOverflow boot (callUptimes es)) : Ready s u ∧ SameConf boot s := by
  obtain ⟨u₀, hu₀⟩ : ∃ u', u' ∈ (callUptimes es ++ [u]).head? := by
    cases hes : callUptimes es <;> simp
  obtain ⟨-, hconf⟩ := ready_of_start hinit hwf hex hstart (hpaced.first u₀ hu₀)
  refine (Ready.run hrun (fun u' hu' => ?_) ?_ ?_).imp_right hconf.trans
  · exact (ready_of_start hinit hwf hex hstart (hpaced.first u' hu')).1
  · simpa only [hconf.fTimer, hconf.windows] using hpaced.paced
  · intro u' hu'
    rw [hconf.fTimer]
    exact hover u' hu'

/-- However the running partitions change their modes in between, every call of the scheduler
    leaves current exactly the partition whose window contains the call's tick, or none in a gap
    and in the window of a partition in `IDLE` mode. -/
theorem partitionScheduler_follows_plan (boot s₀ s : Kcb) (majorFrameTick : Nat)
    (windows : List WindowPartition) (es : List Action) (u : Nat)
    (hinit : boot.moduleScheduler = moduleSchedulerInit majorFrameTick windows)
    (hwf : WellFormedPlan boot.moduleScheduler) (hex : boot.PartitionsExist)
    (hstart : boot.arincStartScheduling = some s₀) (hrun : Transition.run step s₀ es = some s)
    (hpaced : PacedCalls boot (callUptimes es ++ [u]))
    (hover : NoOverflow boot (callUptimes es ++ [u])) :
    ∃ s' id, s.partitionScheduler u = some (s', id)
      ∧ s'.partitionCurrent = s'.plannedPartition (tickAt boot.fTimer u) := by
  obtain ⟨⟨t, hsync, hle, hshort⟩, hconf⟩ := ready_of_run hinit hwf hex hstart hrun hpaced
    fun u' hu' => hover u' (List.mem_append_left _ hu')
  have hover' : u * s.fTimer < 2 ^ 32 := by
    rw [hconf.fTimer]
    exact hover u (by simp)
  obtain ⟨s', r, heq, -, -, hcur⟩ := hsync.schedule hover' rfl hle hshort
  refine ⟨s', r, heq, ?_⟩
  rw [← hconf.fTimer]
  exact hcur

/-- With the default configuration: after the request of partition 1, the call at tick 3 leaves
    nobody current. -/
theorem partitionScheduler_follows_plan_default :
    ∃ s s' id, Transition.run step
        { defaultKcb 100 with partitionCurrent := some 1 }
        [.schedule 10, .schedule 20, .setPartitionMode .idle] = some s
      ∧ s.partitionScheduler 30 = some (s', id)
      ∧ s'.partitionCurrent = s'.plannedPartition (tickAt (defaultKcb 100).fTimer 30) := by
  obtain ⟨s', id, hcall, hcur⟩ := partitionScheduler_follows_plan (defaultKcb 100)
    { defaultKcb 100 with partitionCurrent := some 1 } _ _ _
    [.schedule 10, .schedule 20, .setPartitionMode .idle] 30 rfl
    ⟨by decide, by decide, by decide, by decide, by decide, by decide, by decide⟩
    (by decide) (by decide) (Option.some_get (by decide)).symm
    ⟨by decide, by decide⟩ (by decide)
  exact ⟨_, s', id, (Option.some_get (by decide)).symm, hcall, hcur⟩

end Kcb

end UcxArinc
