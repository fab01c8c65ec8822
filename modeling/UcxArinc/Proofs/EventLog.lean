import UcxArinc.Implementation.EventLog
import UcxArinc.Proofs.HeapMemory

set_option autoImplicit false

/-! # What the event log holds

`hm_log_event` copies up to the end of the slot or to a NUL, whichever comes first, and never looks at
`LENGTH`. So the log is the one the service promises, and independent of the memory behind the messages,
exactly if each message in it ends in a NUL of its own or fills its slot. -/

namespace UcxArinc

/-! ## Texts up to a NUL -/

/-- The first NUL of an area within `limit` bytes is at `n`, or there is none and `n` is `limit`. -/
structure Stops (a : Area) (limit n : Nat) : Prop where
  le : n ≤ limit
  text : ∀ i < n, a i ≠ 0
  stop : n < limit → a n = 0

theorem exists_stops (a : Area) (limit : Nat) : ∃ n, Stops a limit n := by
  induction limit with
  | zero => exact ⟨0, le_rfl, by simp, by simp⟩
  | succ limit ih =>
      obtain ⟨n, hle, htext, hstop⟩ := ih
      by_cases hend : n = limit ∧ a limit ≠ 0
      · obtain ⟨rfl, hne⟩ := hend
        refine ⟨n + 1, le_rfl, fun i hi => ?_, by simp⟩
        rcases Nat.lt_succ_iff_lt_or_eq.mp hi with hlt | rfl
        · exact htext i hlt
        · exact hne
      · refine ⟨n, by omega, htext, fun _ => ?_⟩
        by_cases hn : n = limit
        · subst hn
          simpa using hend
        · exact hstop (by omega)

variable {a : Area} {limit n : Nat}

/-- The text of an area up to its first NUL. -/
theorem Stops.takeWhile_eq (h : Stops a limit n) : (a.bytes limit).takeWhile (· ≠ 0) = a.bytes n := by
  obtain ⟨m, rfl⟩ := Nat.exists_eq_add_of_le h.le
  have hall : ∀ x ∈ a.bytes n, decide (x ≠ 0) = true := by
    intro x hx
    obtain ⟨i, hi, rfl⟩ := List.mem_map.mp hx
    exact decide_eq_true (h.text i (List.mem_range.mp hi))
  unfold Area.bytes at hall ⊢
  rw [List.range_add, List.map_append, List.takeWhile_append_of_pos hall]
  cases m with
  | zero => simp
  | succ m =>
      have hzero := h.stop (by omega)
      rw [List.range_succ_eq_map]
      simp [hzero]

@[simp] theorem bytes_length (a : Area) (n : Nat) : (a.bytes n).length = n := by
  simp [Area.bytes]

theorem bytes_congr {b : Area} (h : ∀ i < n, b i = a i) : b.bytes n = a.bytes n := by
  unfold Area.bytes
  exact List.map_congr_left fun i hi => h i (List.mem_range.mp hi)

namespace HmCb

variable {h h' : HmCb}

/-! ## One report -/

@[simp] theorem hmLogEvent_maxLogEntrySize (partitionId : Int) (msg : Option Area) :
    (h.hmLogEvent partitionId msg).maxLogEntrySize = h.maxLogEntrySize := rfl

@[simp] theorem hmLogEvent_maxLogEntries (partitionId : Int) (msg : Option Area) :
    (h.hmLogEvent partitionId msg).maxLogEntries = h.maxLogEntries := rfl

@[simp] theorem hmLogEvent_writeIndex (partitionId : Int) (msg : Option Area) :
    (h.hmLogEvent partitionId msg).writeIndex = (h.writeIndex + 1) % h.maxLogEntries := rfl

/-- The loop copies the text. -/
theorem copyLoop_spec {msg : Area} (dest : Nat) {space i n : Nat} (buffer : Area)
    (h : Stops (fun j => msg (i + j)) space n) :
    (copyLoop msg dest space i buffer).2 = i + n
      ∧ ∀ x, (copyLoop msg dest space i buffer).1 x
        = if dest + i ≤ x ∧ x < dest + i + n then msg (x - dest) else buffer x := by
  induction space generalizing i n buffer with
  | zero =>
      obtain rfl : n = 0 := by
        have := h.le
        omega
      simp only [copyLoop, Nat.add_zero, true_and]
      intro x
      rw [if_neg (by omega)]
  | succ space ih =>
      simp only [copyLoop]
      by_cases hzero : msg i = 0
      · obtain rfl : n = 0 := by
          by_contra hn
          exact h.text 0 (by omega) hzero
        rw [if_pos hzero]
        refine ⟨rfl, fun x => ?_⟩
        rw [if_neg (by omega)]
      · have hpos : n ≠ 0 := by
          rintro rfl
          exact hzero (h.stop (by omega))
        obtain ⟨m, rfl⟩ := Nat.exists_eq_succ_of_ne_zero hpos
        have hrest : Stops (fun j => msg (i + 1 + j)) space m := by
          refine ⟨by have := h.le; omega, fun j hj => ?_, fun hm => ?_⟩
          · have := h.text (j + 1) (by omega)
            rwa [show i + (j + 1) = i + 1 + j by omega] at this
          · have := h.stop (by omega)
            rwa [show i + (m + 1) = i + 1 + m by omega] at this
        rw [if_neg hzero]
        obtain ⟨hend, hcopied⟩ := ih (Function.update buffer (dest + i) (msg i)) hrest
        refine ⟨by rw [hend]; omega, fun x => ?_⟩
        rw [hcopied]
        by_cases hx : x = dest + i
        · subst hx
          rw [if_neg (by omega), if_pos (by omega), Function.update_self, Nat.add_sub_cancel_left]
        · rw [Function.update_of_ne hx]
          split_ifs <;> first | rfl | omega

/-- An event of a message whose text stops at `n` is written to its own slot: the partition, the text and a
    NUL. -/
theorem hmLogEvent_spec (partitionId : Int) {msg : Area} (hn : Stops msg (h.maxLogEntrySize - 5) n) (x : Nat) :
    (h.hmLogEvent partitionId (some msg)).logBuffer x
      = if h.writeIndex * h.maxLogEntrySize + 4 ≤ x ∧ x < h.writeIndex * h.maxLogEntrySize + 4 + n then
          msg (x - (h.writeIndex * h.maxLogEntrySize + 4))
        else if x = h.writeIndex * h.maxLogEntrySize + 4 + n then 0
        else h.logBuffer.setWord (h.writeIndex * h.maxLogEntrySize) (toU32 partitionId) x := by
  have hstops : Stops (fun j => msg (0 + j)) (h.maxLogEntrySize - headerSize - 1) n := by
    simpa [headerSize, Nat.sub_sub] using hn
  obtain ⟨hend, hcopied⟩ := copyLoop_spec (h.writeIndex * h.maxLogEntrySize + headerSize)
    (h.logBuffer.setWord (h.writeIndex * h.maxLogEntrySize) (toU32 partitionId)) hstops
  unfold hmLogEvent
  dsimp only
  rw [hend, Nat.zero_add]
  by_cases hx : x = h.writeIndex * h.maxLogEntrySize + headerSize + n
  · subst hx
    unfold headerSize
    rw [Function.update_self, if_neg (by omega), if_pos rfl]
  · rw [Function.update_of_ne hx, hcopied]
    unfold headerSize at hx ⊢
    rw [if_neg hx, Nat.add_zero]

/-- No write leaves the slot of the event. -/
theorem hmLogEvent_of_out (partitionId : Int) (msg : Area) {x : Nat}
    (hx : x < h.writeIndex * h.maxLogEntrySize ∨ (h.writeIndex + 1) * h.maxLogEntrySize ≤ x) :
    (h.hmLogEvent partitionId (some msg)).logBuffer x = h.logBuffer x := by
  obtain ⟨n, hn⟩ := exists_stops msg (h.maxLogEntrySize - 5)
  have hle := hn.le
  have hsize := h.five_le_maxLogEntrySize
  rw [Nat.succ_mul] at hx
  rw [hmLogEvent_spec partitionId hn, if_neg (by omega), if_neg (by omega)]
  exact setWord_of_out (by omega) _ _

/-- The entry of an event. -/
theorem entryAt_writeIndex (partitionId : Int) (msg : Area) :
    (h.hmLogEvent partitionId (some msg)).entryAt h.writeIndex
      = (toU32 partitionId, (msg.bytes (h.maxLogEntrySize - 5)).takeWhile (· ≠ 0)) := by
  obtain ⟨n, hn⟩ := exists_stops msg (h.maxLogEntrySize - 5)
  have hspec := hmLogEvent_spec partitionId hn
  have hle := hn.le
  have hsize := h.five_le_maxLogEntrySize
  simp only [entryAt, hmLogEvent_maxLogEntrySize, Prod.mk.injEq]
  constructor
  · have hsame : SameBytes (h.logBuffer.setWord (h.writeIndex * h.maxLogEntrySize) (toU32 partitionId))
        (h.hmLogEvent partitionId (some msg)).logBuffer (h.writeIndex * h.maxLogEntrySize) 4 := by
      intro x h₁ h₂
      rw [hspec, if_neg (by omega), if_neg (by omega)]
    have hword : toU32 partitionId < 2 ^ 32 := by
      unfold toU32
      omega
    rw [word_congr hsame]
    exact word_setWord_self hword _ _
  · have hslot : Stops (fun i => (h.hmLogEvent partitionId (some msg)).logBuffer
        (h.writeIndex * h.maxLogEntrySize + headerSize + i)) (h.maxLogEntrySize - headerSize) n := by
      unfold headerSize
      refine ⟨by omega, fun i hi => ?_, fun _ => ?_⟩
      · rw [hspec, if_pos (by omega), Nat.add_sub_cancel_left]
        exact hn.text i hi
      · rw [hspec, if_neg (by omega), if_pos rfl]
    refine hslot.takeWhile_eq.trans (Eq.trans (bytes_congr fun i hi => ?_) hn.takeWhile_eq.symm)
    unfold headerSize
    rw [hspec, if_pos (by omega), Nat.add_sub_cancel_left]

/-- The other entries stay. -/
theorem entryAt_of_ne (partitionId : Int) (msg : Area) {k : Nat} (hk : k ≠ h.writeIndex) :
    (h.hmLogEvent partitionId (some msg)).entryAt k = h.entryAt k := by
  have hsize := h.five_le_maxLogEntrySize
  have hout : ∀ x, k * h.maxLogEntrySize ≤ x → x < k * h.maxLogEntrySize + h.maxLogEntrySize →
      (h.hmLogEvent partitionId (some msg)).logBuffer x = h.logBuffer x := by
    intro x h₁ h₂
    refine hmLogEvent_of_out partitionId msg ?_
    rcases Nat.lt_or_gt_of_ne hk with hlt | hgt
    · have hle := Nat.mul_le_mul_right h.maxLogEntrySize hlt
      rw [Nat.succ_mul] at hle
      omega
    · have hle : (h.writeIndex + 1) * h.maxLogEntrySize ≤ k * h.maxLogEntrySize := Nat.mul_le_mul_right _ hgt
      omega
  simp only [entryAt, hmLogEvent_maxLogEntrySize, Prod.mk.injEq]
  constructor
  · exact word_congr fun x h₁ h₂ => hout x h₁ (by omega)
  · congr 1
    refine List.map_congr_left fun i hi => ?_
    have hi := List.mem_range.mp hi
    unfold headerSize at hi ⊢
    exact hout _ (by omega) (by omega)

/-! ## Sequences of reports -/

/-- A call of `REPORT_APPLICATION_MESSAGE` by the partition `identifier`. -/
structure Report where
  identifier : Int
  messageAddr : Area
  length : Int

namespace Report

variable {r r' : Report}

/-- What the log should hold of the message: its first `LENGTH` bytes, cut at the slot and at a NUL. -/
def text (limit : Nat) (r : Report) : List UInt8 :=
  (r.messageAddr.bytes (min r.length.toNat limit)).takeWhile (· ≠ 0)

/-- What `hm_log_event` copies: the bytes up to the slot's end or a NUL. -/
def copied (limit : Nat) (r : Report) : List UInt8 := (r.messageAddr.bytes limit).takeWhile (· ≠ 0)

/-- Two reports that differ at most in the memory behind the message. -/
structure Alike (r r' : Report) : Prop where
  identifier : r'.identifier = r.identifier
  length : r'.length = r.length
  message : ∀ i < r.length.toNat, r'.messageAddr i = r.messageAddr i

theorem Alike.refl (r : Report) : Alike r r := ⟨rfl, rfl, fun _ _ => rfl⟩

/-- The message fills the slot or has a NUL of its own. -/
def Bounded (limit : Nat) (r : Report) : Prop :=
  limit ≤ r.length.toNat ∨ ∃ i < r.length.toNat, r.messageAddr i = 0

/-- A message that is bounded is logged as it should be, whatever is behind it. -/
theorem Bounded.copied_eq (h : Bounded limit r) (halike : Alike r r') : r'.copied limit = r.text limit := by
  obtain ⟨n, hn⟩ := exists_stops r.messageAddr (min r.length.toNat limit)
  have hle := hn.le
  have hn' : Stops r'.messageAddr limit n := by
    refine ⟨by omega, fun i hi => ?_, fun hlt => ?_⟩
    · rw [halike.message i (by omega)]
      exact hn.text i hi
    · have hlen : n < r.length.toNat := by
        rcases h with hfull | ⟨i, hi, hzero⟩
        · omega
        · by_contra hge
          exact hn.text i (by omega) hzero
      rw [halike.message n hlen]
      exact hn.stop (by omega)
  unfold copied text
  rw [hn'.takeWhile_eq, hn.takeWhile_eq]
  exact bytes_congr fun i hi => halike.message i (by omega)

/-- The report with a byte that is no NUL right behind its message, and NULs behind that. -/
def followed (r : Report) : Report :=
  { r with messageAddr := fun i =>
      if i < r.length.toNat then r.messageAddr i else if i = r.length.toNat then 1 else 0 }

theorem followed_of_lt {i : Nat} (h : i < r.length.toNat) : r.followed.messageAddr i = r.messageAddr i :=
  if_pos h

theorem followed_self (r : Report) : r.followed.messageAddr r.length.toNat = 1 := by
  simp only [followed, lt_irrefl, if_false, if_true]

theorem followed_succ (r : Report) : r.followed.messageAddr (r.length.toNat + 1) = 0 := by
  have hlt : ¬ r.length.toNat + 1 < r.length.toNat := by omega
  have hne : r.length.toNat + 1 ≠ r.length.toNat := by omega
  simp only [followed, hlt, hne, if_false]

theorem alike_followed (r : Report) : Alike r r.followed := ⟨rfl, rfl, fun _ hi => followed_of_lt hi⟩

/-- Otherwise a byte behind the message may be logged with it. -/
theorem bounded_of_copied_eq (h : r.followed.copied limit = r.text limit) : Bounded limit r := by
  by_contra hb
  unfold Bounded at hb
  push Not at hb
  obtain ⟨hlt, htext⟩ := hb
  have hstops : Stops r.messageAddr (min r.length.toNat limit) r.length.toNat := by
    refine ⟨by omega, htext, fun hc => ?_⟩
    omega
  have hstops' : Stops r.followed.messageAddr limit (r.length.toNat + 1) := by
    refine ⟨hlt, fun i hi => ?_, fun _ => r.followed_succ⟩
    rcases Nat.lt_succ_iff_lt_or_eq.mp hi with hi | rfl
    · rw [followed_of_lt hi]
      exact htext i hi
    · rw [followed_self]
      decide
  unfold copied text at h
  rw [hstops.takeWhile_eq, hstops'.takeWhile_eq] at h
  have hlen := congrArg List.length h
  simp at hlen

end Report

/-- One report. -/
def report (h : HmCb) (r : Report) : HmCb :=
  (h.reportApplicationMessage r.identifier (some r.messageAddr) r.length).1

/-- A sequence of reports. -/
def logged (h : HmCb) (rs : List Report) : HmCb := rs.foldl report h

theorem report_eq {r : Report} (hlen : 1 ≤ r.length) :
    h.report r = h.hmLogEvent r.identifier (some r.messageAddr) := by
  unfold report reportApplicationMessage
  rw [if_neg (by omega)]

/-- A report writes its own slot only. -/
theorem report_of_out (r : Report) {x : Nat}
    (hx : x < h.writeIndex * h.maxLogEntrySize ∨ (h.writeIndex + 1) * h.maxLogEntrySize ≤ x) :
    (h.report r).logBuffer x = h.logBuffer x := by
  unfold report reportApplicationMessage
  split
  · rfl
  · exact hmLogEvent_of_out _ _ hx

/-- After a sequence of reports, the last of them are in the log, each in the slot of its number. -/
theorem logged_spec {rs : List Report} (hstart : h.writeIndex = 0) (hlen : ∀ r ∈ rs, 1 ≤ r.length) :
    (h.logged rs).maxLogEntrySize = h.maxLogEntrySize ∧ (h.logged rs).maxLogEntries = h.maxLogEntries
      ∧ (h.logged rs).writeIndex = rs.length % h.maxLogEntries
      ∧ ∀ (j : Nat) (hj : j < rs.length), rs.length ≤ j + h.maxLogEntries →
        (h.logged rs).entryAt (j % h.maxLogEntries)
          = (toU32 rs[j].identifier, rs[j].copied (h.maxLogEntrySize - 5)) := by
  have hpos := h.maxLogEntries_pos
  induction rs using List.reverseRecOn with
  | nil => exact ⟨rfl, rfl, by simp [logged, hstart], by simp⟩
  | append_singleton rs r ih =>
      obtain ⟨hsize, hmax, hindex, hentries⟩ := ih fun r hr => hlen r (List.mem_append_left _ hr)
      have hlast : h.logged (rs ++ [r])
          = (h.logged rs).hmLogEvent r.identifier (some r.messageAddr) := by
        unfold logged
        rw [List.foldl_append, List.foldl_cons, List.foldl_nil]
        exact report_eq (hlen r (by simp))
      rw [hlast]
      refine ⟨by simp [hsize], by simp [hmax], ?_, fun j hj hrecent => ?_⟩
      · simp [hindex, hmax, Nat.add_mod]
      · simp only [List.length_append, List.length_singleton] at hj hrecent
        rcases Nat.lt_succ_iff_lt_or_eq.mp hj with hlt | rfl
        · have hne : j % h.maxLogEntries ≠ (h.logged rs).writeIndex := by
            rw [hindex]
            intro heq
            have hzero := Nat.sub_mod_eq_zero_of_mod_eq heq.symm
            rw [Nat.mod_eq_of_lt (by omega)] at hzero
            omega
          rw [entryAt_of_ne _ _ hne, List.getElem_append_left hlt]
          exact hentries j hlt (by omega)
        · rw [← hindex, entryAt_writeIndex, hsize]
          simp [Report.copied]

/-- The log holds the last reports, whatever memory holds behind their messages, exactly if each of their
    messages fills its slot or has a NUL of its own; in any case a report writes its own slot only. -/
theorem log_faithful_iff (h : HmCb) (hstart : h.writeIndex = 0) (rs : List Report)
    (hlen : ∀ r ∈ rs, 1 ≤ r.length) :
    (h.logged rs).writeIndex = rs.length % h.maxLogEntries
      ∧ (∀ (r : Report) (x : Nat), x < (rs.length % h.maxLogEntries) * h.maxLogEntrySize
          ∨ (rs.length % h.maxLogEntries + 1) * h.maxLogEntrySize ≤ x →
        ((h.logged rs).report r).logBuffer x = (h.logged rs).logBuffer x)
      ∧ ((∀ rs', List.Forall₂ Report.Alike rs rs' →
          ∀ (j : Nat) (hj : j < rs.length), rs.length ≤ j + h.maxLogEntries →
            (h.logged rs').entryAt (j % h.maxLogEntries)
              = (toU32 rs[j].identifier, rs[j].text (h.maxLogEntrySize - 5)))
        ↔ ∀ (j : Nat) (hj : j < rs.length), rs.length ≤ j + h.maxLogEntries →
          rs[j].Bounded (h.maxLogEntrySize - 5)) := by
  obtain ⟨hsize, -, hindex, -⟩ := logged_spec hstart hlen
  refine ⟨hindex, fun r x hx => ?_, fun hall j hj hrecent => ?_, fun hbounded rs' halike j hj hrecent => ?_⟩
  · rw [← hindex, ← hsize] at hx
    exact report_of_out r hx
  · -- every report followed by a byte that is no NUL
    have halike : List.Forall₂ Report.Alike rs (rs.map Report.followed) := by
      rw [List.forall₂_map_right_iff]
      exact List.forall₂_same.mpr fun r _ => r.alike_followed
    have hlen' : ∀ r ∈ rs.map Report.followed, 1 ≤ r.length := by
      intro r' hr'
      obtain ⟨r, hr, rfl⟩ := List.mem_map.mp hr'
      exact hlen r hr
    have hentry := (logged_spec hstart hlen').2.2.2 j (by simpa using hj) (by simpa using hrecent)
    rw [hall _ halike j hj hrecent, List.getElem_map, Prod.mk.injEq] at hentry
    exact Report.bounded_of_copied_eq hentry.2.symm
  · have hlength := halike.length_eq
    have hget : ∀ (k : Nat) (hk : k < rs.length) (hk' : k < rs'.length), Report.Alike rs[k] rs'[k] :=
      fun k hk hk' => halike.get hk hk'
    have hlen' : ∀ r ∈ rs', 1 ≤ r.length := by
      intro r hr
      obtain ⟨k, hk, rfl⟩ := List.getElem_of_mem hr
      rw [(hget k (by omega) hk).length]
      exact hlen _ (List.getElem_mem _)
    have hj' : j < rs'.length := by omega
    rw [(logged_spec hstart hlen').2.2.2 j hj' (by omega), (hget j hj hj').identifier,
      (hbounded j hj hrecent).copied_eq (hget j hj hj')]

/-- Two messages with a NUL of their own. -/
def endedReports : List Report := [⟨1, fun i => if i = 0 then 65 else 0, 2⟩, ⟨2, fun _ => 0, 1⟩]

theorem log_faithful_ended :
    ((hmInit fun _ => 0).logged endedReports).entryAt 0 = (1, [65])
      ∧ ((hmInit fun _ => 0).logged endedReports).entryAt 1 = (2, []) := by
  have hbounded : ∀ (j : Nat) (hj : j < endedReports.length), endedReports.length ≤ j + 16 →
      endedReports[j].Bounded 251 := by
    intro j hj _
    have hnul : ∀ r ∈ endedReports, ∃ i < r.length.toNat, r.messageAddr i = 0 := by decide
    exact Or.inr (hnul _ (List.getElem_mem hj))
  have hentries := (log_faithful_iff (hmInit fun _ => 0) rfl endedReports (by decide)).2.2.mpr hbounded
    endedReports (List.forall₂_same.mpr fun r _ => Report.Alike.refl r)
  exact ⟨hentries 0 (by decide) (by decide), hentries 1 (by decide) (by decide)⟩

/-- A message of two bytes with a third byte behind it. -/
def unendedReport : Report := ⟨1, fun i => if i < 3 then 65 else 0, 2⟩

/-- The third byte is logged too. -/
theorem byte_behind_logged :
    ((hmInit fun _ => 0).logged [unendedReport]).entryAt 0 ≠ (1, unendedReport.text 251) := by
  have hentry := (@logged_spec (hmInit fun _ => 0) [unendedReport] rfl (by decide)).2.2.2 0 (by decide)
    (by decide)
  have hcopied : unendedReport.copied 251 ≠ unendedReport.text 251 := by decide
  intro h
  exact hcopied (Prod.mk.inj (hentry.symm.trans h)).2

end HmCb

end UcxArinc
