import UcxArinc.Implementation.Bootp

set_option autoImplicit false

/-! # Which BOOTP replies are handled safely

The walk over the options is bounded by nothing but their contents. It stays where it should if the options
do: one behind the other, none of them a pad, up to an end tag in what has been received of `bp_vend`. -/

namespace UcxArinc

namespace Bootp

variable {frame : Nat → UInt8} {tempXid : List UInt8} {addrs : Addrs} {limit ptr turns : Nat} {s s' : Walk}

/-- Options that lie before a limit, from an offset on: each has its length, none is a pad, a netmask and a
gateway have four bytes, and an end tag follows. -/
inductive OptionsInside (frame : Nat → UInt8) (limit : Nat) : Nat → Prop
  | tagEnd {ptr : Nat} (hptr : ptr < limit) (hend : frame ptr = 255) : OptionsInside frame limit ptr
  | option {ptr : Nat} (hptr : ptr + 1 < limit) (hend : frame ptr ≠ 255) (hpad : frame ptr ≠ 0)
      (haddr : frame ptr = 1 ∨ frame ptr = 3 → ptr + 5 < limit)
      (hnext : OptionsInside frame limit (ptr + (frame (ptr + 1)).toNat + 2)) : OptionsInside frame limit ptr

theorem OptionsInside.lt (h : OptionsInside frame limit ptr) : ptr < limit := by
  cases h with
  | tagEnd hptr _ => exact hptr
  | option hptr _ _ _ _ => omega

/-- What a walk is to do up to a limit. -/
structure Walk.Inside (frame : Nat → UInt8) (limit : Nat) (s : Walk) : Prop where
  /-- It reads only from `bp_vend`, and before the limit. -/
  read : ∀ o ∈ s.read, bpVend ≤ o ∧ o < limit
  /-- A pad has no length: the next option is the next byte. -/
  pad : ∀ p ∈ s.options, frame p.1 = 0 → p.2 = p.1 + 1
  /-- A netmask or a gateway is taken only if the whole option lies before the limit. -/
  addr : ∀ p ∈ s.options, frame p.1 = 1 ∨ frame p.1 = 3 →
    p.1 + 6 ≤ limit ∧ p.1 + 2 + (frame (p.1 + 1)).toNat ≤ limit

/-- A reply of `n` bytes is handled: the call returns, has walked where it should, and has not changed the
configuration if it returns 0. -/
def HandledSafely (n : Nat) (tempXid : List UInt8) (frame : Nat → UInt8) (addrs : Addrs) : Prop :=
  ∃ turns val s, bootpHandleReply turns tempXid frame addrs = some (val, s) ∧
    s.Inside frame (min bpVendEnd n) ∧ (val = 0 → s.addrs = addrs)

/-! ## One option -/

/-- What the walk has read when it has done with an option. -/
def optionReads (frame : Nat → UInt8) (ptr : Nat) : List Nat :=
  ptr :: ((if frame ptr = 1 ∨ frame ptr = 3 then [ptr + 2, ptr + 3, ptr + 4, ptr + 5] else []) ++ [ptr + 1])

theorem walk_tagEnd (hend : frame ptr = 255) (turns : Nat) (s : Walk) :
    walk frame (turns + 1) ptr s = some { s with read := s.read ++ [ptr] } := by
  rw [walk, if_pos hend]

/-- The walk goes on behind an option. -/
theorem walk_option (hend : frame ptr ≠ 255) (turns : Nat) (s : Walk) :
    walk frame (turns + 1) ptr s = walk frame turns (nextOption frame ptr)
      ⟨(applyOption frame ptr s).addrs, s.read ++ optionReads frame ptr,
        s.options ++ [(ptr, nextOption frame ptr)]⟩ := by
  simp only [walk, if_neg hend, applyOption, optionReads]
  by_cases hmask : frame ptr = 1
  · simp [hmask]
  · by_cases hgateway : frame ptr = 3
    · simp [hgateway]
    · simp [hmask, hgateway]

/-- What has been read and found stays so. -/
theorem walk_mono (h : walk frame turns ptr s = some s') :
    (∀ o ∈ s.read, o ∈ s'.read) ∧ ∀ p ∈ s.options, p ∈ s'.options := by
  induction turns generalizing ptr s with
  | zero => exact nomatch h
  | succ turns ih =>
      by_cases hend : frame ptr = 255
      · rw [walk_tagEnd hend, Option.some.injEq] at h
        rw [← h]
        exact ⟨fun o ho => List.mem_append_left _ ho, fun p hp => hp⟩
      · rw [walk_option hend] at h
        obtain ⟨hread, hoptions⟩ := ih h
        exact ⟨fun o ho => hread o (List.mem_append_left _ ho), fun p hp => hoptions p (List.mem_append_left _ hp)⟩

/-! ## The whole walk -/

/-- Over options that lie inside, the walk comes to its end and stays inside. -/
theorem OptionsInside.walk (h : OptionsInside frame limit ptr) (hptr : bpVend ≤ ptr) (hs : s.Inside frame limit) :
    ∃ turns s', Bootp.walk frame turns ptr s = some s' ∧ s'.Inside frame limit := by
  induction h generalizing s with
  | @tagEnd ptr hlt hend =>
      refine ⟨1, _, walk_tagEnd hend 0 s, ?_, hs.pad, hs.addr⟩
      intro o ho
      rcases List.mem_append.mp ho with hold | hnew
      · exact hs.read o hold
      · rw [List.mem_singleton.mp hnew]
        exact ⟨hptr, hlt⟩
  | @option ptr hlt hend hpad haddr hnext ih =>
      have hinside : ∀ addrs, Walk.Inside frame limit
          ⟨addrs, s.read ++ optionReads frame ptr, s.options ++ [(ptr, nextOption frame ptr)]⟩ := by
        intro addrs
        refine ⟨fun o ho => ?_, fun p hp hzero => ?_, fun p hp htaken => ?_⟩
        · rcases List.mem_append.mp ho with hold | hnew
          · exact hs.read o hold
          · unfold optionReads at hnew
            by_cases htaken : frame ptr = 1 ∨ frame ptr = 3
            · have hlast := haddr htaken
              rw [if_pos htaken] at hnew
              simp only [List.mem_cons, List.mem_append, List.not_mem_nil, or_false] at hnew
              omega
            · rw [if_neg htaken] at hnew
              simp only [List.mem_cons, List.mem_append, List.not_mem_nil, or_false, false_or] at hnew
              omega
        · rcases List.mem_append.mp hp with hold | hnew
          · exact hs.pad p hold hzero
          · rw [List.mem_singleton.mp hnew] at hzero
            exact absurd hzero hpad
        · rcases List.mem_append.mp hp with hold | hnew
          · exact hs.addr p hold htaken
          · rw [List.mem_singleton.mp hnew] at htaken ⊢
            have hlast := haddr htaken
            have hbehind := hnext.lt
            dsimp only
            omega
      have hbehind : bpVend ≤ nextOption frame ptr := by
        unfold nextOption
        omega
      obtain ⟨turns, s', hwalk, hs'⟩ := ih hbehind (hinside (applyOption frame ptr s).addrs)
      exact ⟨turns + 1, s', (walk_option hend turns s).trans hwalk, hs'⟩

/-- A walk that comes to its end and has stayed inside was over options that lie inside. -/
theorem optionsInside_of_walk (h : walk frame turns ptr s = some s') (hs' : s'.Inside frame limit) :
    OptionsInside frame limit ptr := by
  induction turns generalizing ptr s with
  | zero => exact nomatch h
  | succ turns ih =>
      by_cases hend : frame ptr = 255
      · rw [walk_tagEnd hend, Option.some.injEq] at h
        have hread := (hs'.read ptr (by simp [← h])).2
        exact .tagEnd hread hend
      · rw [walk_option hend] at h
        obtain ⟨hread, hoptions⟩ := walk_mono h
        have hfound := hoptions (ptr, nextOption frame ptr) (by simp)
        have hlength : ptr + 1 < limit := (hs'.read _ (hread (ptr + 1) (by simp [optionReads]))).2
        have hpad : frame ptr ≠ 0 := by
          intro hzero
          have hnext := hs'.pad _ hfound hzero
          simp only [nextOption] at hnext
          omega
        have haddr : frame ptr = 1 ∨ frame ptr = 3 → ptr + 5 < limit := by
          intro htaken
          have hwhole := (hs'.addr _ hfound htaken).1
          dsimp only at hwhole
          omega
        exact .option hlength hend hpad haddr (ih h)

/-! ## The whole call -/

theorem bootpHandleReply_rejected (h : accepts tempXid frame = false) (turns : Nat) :
    bootpHandleReply turns tempXid frame addrs = some (0, ⟨addrs, [], []⟩) := by
  simp [bootpHandleReply, h]

theorem bootpHandleReply_accepted (h : accepts tempXid frame = true) (turns : Nat) :
    bootpHandleReply turns tempXid frame addrs =
      (walk frame turns (bpVend + 4) ⟨{ addrs with ip := addrAt frame bpYiaddr }, [], []⟩).map fun s => (1, s) := by
  simp [bootpHandleReply, h]

theorem Walk.inside_start (addrs : Addrs) : Walk.Inside frame limit ⟨addrs, [], []⟩ := by
  constructor <;> simp

/-- An accepted reply that is handled safely has its options inside. -/
theorem HandledSafely.optionsInside {n : Nat} (h : HandledSafely n tempXid frame addrs)
    (haccepts : accepts tempXid frame = true) : OptionsInside frame (min bpVendEnd n) (bpVend + 4) := by
  obtain ⟨turns, val, s, hcall, hinside, -⟩ := h
  rw [bootpHandleReply_accepted haccepts, Option.map_eq_some_iff] at hcall
  obtain ⟨s', hwalk, heq⟩ := hcall
  obtain ⟨-, rfl⟩ := Prod.mk.inj heq
  exact optionsInside_of_walk hwalk hinside

/-- A reply is handled safely exactly if a check rejects it, or if the options behind the cookie lie inside
what has been received of `bp_vend` and none of them is a pad. -/
theorem handledSafely_iff (n : Nat) (tempXid : List UInt8) (frame : Nat → UInt8) (addrs : Addrs) :
    HandledSafely n tempXid frame addrs ↔
      accepts tempXid frame = false ∨ OptionsInside frame (min bpVendEnd n) (bpVend + 4) := by
  constructor
  · intro h
    cases haccepts : accepts tempXid frame with
    | false => exact .inl rfl
    | true => exact .inr (h.optionsInside haccepts)
  · intro h
    cases haccepts : accepts tempXid frame with
    | false =>
        exact ⟨0, 0, _, bootpHandleReply_rejected haccepts 0, Walk.inside_start addrs, fun _ => rfl⟩
    | true =>
        have hoptions := h.resolve_left (by simp [haccepts])
        obtain ⟨turns, s, hwalk, hs⟩ := hoptions.walk (Nat.le_add_right _ _)
          (Walk.inside_start { addrs with ip := addrAt frame bpYiaddr })
        refine ⟨turns, 1, s, ?_, hs, fun hzero => absurd hzero Nat.one_ne_zero⟩
        rw [bootpHandleReply_accepted haccepts, hwalk, Option.map_some]

/-- An accepted reply whose first option behind the cookie is a pad, with an end tag behind it. -/
def paddedReply (offset : Nat) : UInt8 :=
  if offset = bpOp then 2
  else if offset = bpHtype then 1
  else if offset = bpVend then 0x63
  else if offset = bpVend + 1 then 0x82
  else if offset = bpVend + 2 then 0x53
  else if offset = bpVend + 3 then 0x63
  else if offset = bpVend + 5 then 255
  else 0

/-- The walk goes past the end tag behind a pad. -/
theorem not_handledSafely :
    ¬ ∀ n tempXid frame addrs, HandledSafely n tempXid frame addrs := by
  intro h
  have haccepts : accepts [0, 0, 0, 0] paddedReply = true := by decide
  have hsafe := h 342 [0, 0, 0, 0] paddedReply ⟨⟨0, 0, 0, 0⟩, ⟨0, 0, 0, 0⟩, ⟨0, 0, 0, 0⟩⟩
  cases hsafe.optionsInside haccepts with
  | tagEnd _ hend => exact absurd hend (by decide)
  | option _ _ hpad _ _ => exact hpad (by decide)

end Bootp

end UcxArinc
