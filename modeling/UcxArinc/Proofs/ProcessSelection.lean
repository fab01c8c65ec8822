import UcxArinc.Implementation.StaticConf
import UcxArinc.Proofs.Primitives

set_option autoImplicit false

/-! # Which process runs

`process_schedule` keeps the best process found so far while it scans the list. `Decides` says what
the scan comes to, without the scan: the error handler if it is `READY`, otherwise the first in list
order of the `READY` processes of greatest priority. The scan starts below priority 0, so a process
of negative priority is never selected. -/

namespace UcxArinc

namespace Pcb

variable {s : Pcb}

/-! ## The scan -/

/-- The scan may select the process of this node. -/
def Selectable (s : Pcb) (n : Node) : Prop :=
  (s.proc n.data).processState = .ready ∧ (s.proc n.data).rtPrio = 0 ∧
    0 ≤ (s.proc n.data).currentPriority

/-- The first node, in the order of `nodes`, of the selectable processes of greatest priority. -/
structure FirstOfGreatest (s : Pcb) (nodes : List Node) (select : Node) : Prop where
  selectable : s.Selectable select
  first : ∃ before after, nodes = before ++ select :: after
    ∧ (∀ n ∈ before, s.Selectable n →
      (s.proc n.data).currentPriority < (s.proc select.data).currentPriority)
    ∧ ∀ n ∈ after, s.Selectable n →
      (s.proc n.data).currentPriority ≤ (s.proc select.data).currentPriority

theorem FirstOfGreatest.mem {nodes : List Node} {select : Node} (h : s.FirstOfGreatest nodes select) :
    select ∈ nodes := by
  obtain ⟨before, after, rfl, -, -⟩ := h.first
  simp

/-- No selectable process has a greater priority. -/
theorem FirstOfGreatest.greatest {nodes : List Node} {select : Node}
    (h : s.FirstOfGreatest nodes select) {n : Node} (hn : n ∈ nodes) (hsel : s.Selectable n) :
    (s.proc n.data).currentPriority ≤ (s.proc select.data).currentPriority := by
  obtain ⟨before, after, rfl, hbefore, hafter⟩ := h.first
  rcases List.mem_append.mp hn with hn | hn
  · exact (hbefore n hn hsel).le
  · rcases List.mem_cons.mp hn with rfl | hn
    · exact le_refl _
    · exact hafter n hn hsel

/-- The result of a scan of `nodes`. -/
def ScanResult (s : Pcb) (nodes : List Node) : Option Node → Prop
  | none => ∀ n ∈ nodes, ¬ s.Selectable n
  | some select => s.FirstOfGreatest nodes select

/-- The process scanned takes the lead. -/
theorem ScanResult.take {nodes : List Node} {best : Option Node} (h : s.ScanResult nodes best)
    {n : Node} (hn : s.Selectable n)
    (hgreater : ∀ b, best = some b →
      (s.proc b.data).currentPriority < (s.proc n.data).currentPriority) :
    s.FirstOfGreatest (nodes ++ [n]) n := by
  refine ⟨hn, nodes, [], rfl, fun m hm hsel => ?_, by simp⟩
  cases best with
  | none => exact absurd hsel (h m hm)
  | some b => exact (FirstOfGreatest.greatest h hm hsel).trans_lt (hgreater b rfl)

/-- The lead stays with the process found before. -/
theorem FirstOfGreatest.keep {nodes : List Node} {select n : Node} (h : s.FirstOfGreatest nodes select)
    (hn : s.Selectable n → (s.proc n.data).currentPriority ≤ (s.proc select.data).currentPriority) :
    s.FirstOfGreatest (nodes ++ [n]) select := by
  obtain ⟨before, after, rfl, hbefore, hafter⟩ := h.first
  refine ⟨h.selectable, before, after ++ [n], by simp, hbefore, fun m hm hsel => ?_⟩
  rcases List.mem_append.mp hm with hm | hm
  · exact hafter m hm hsel
  · rw [List.mem_singleton.mp hm] at hsel ⊢
    exact hn hsel

/-- One turn of the scan. -/
theorem scheduleCandidate_result {nodes : List Node} {best : Option Node}
    (h : s.ScanResult nodes best) (n : Node) :
    s.ScanResult (nodes ++ [n]) (s.scheduleCandidate best n) := by
  unfold scheduleCandidate
  cases best with
  | none =>
      dsimp only
      split_ifs with hc
      · exact h.take ⟨hc.1, hc.2.1, by have := hc.2.2; omega⟩ (by simp)
      · intro m hm hsel
        rcases List.mem_append.mp hm with hm | hm
        · exact h m hm hsel
        · rw [List.mem_singleton.mp hm] at hsel
          exact hc ⟨hsel.1, hsel.2.1, by have := hsel.2.2; omega⟩
  | some select =>
      have hfloor := h.selectable.2.2
      dsimp only
      split_ifs with hc
      · -- a greater priority than the leader's is not negative either
        refine h.take ⟨hc.1, hc.2.1, by have := hc.2.2; omega⟩ fun b hb => ?_
        cases hb
        exact hc.2.2
      · refine h.keep fun hn => ?_
        by_contra hlt
        exact hc ⟨hn.1, hn.2.1, by omega⟩

/-- The loop of `process_schedule`. -/
theorem foldl_scheduleCandidate_result (s : Pcb) (nodes : List Node) :
    s.ScanResult nodes (nodes.foldl s.scheduleCandidate none) := by
  induction nodes using List.reverseRecOn with
  | nil =>
      intro n hn
      simp at hn
  | append_singleton nodes n ih =>
      rw [List.foldl_append]
      exact scheduleCandidate_result ih n

/-! ## The decision -/

/-- The current process is `READY` again if it was `RUNNING`. -/
def demoted (s : Pcb) : Pcb :=
  { s with proc := fun p =>
      if s.processCurrent.map Node.data = some p ∧ (s.proc p).processState = .running then
        { s.proc p with processState := .ready }
      else s.proc p }

theorem requeueCurrent_eq_demoted (s : Pcb) : s.requeueCurrent = s.demoted := by
  have key : ∀ proc, (∀ p, proc p = s.demoted.proc p) → { s with proc := proc } = s.demoted := by
    intro proc hproc
    rw [funext hproc]
    rfl
  unfold requeueCurrent
  split
  · next hcurrent =>
      refine key s.proc fun p => ?_
      simp [demoted, hcurrent]
  · next node hcurrent =>
      split
      · next hrunning =>
          refine key _ fun p => ?_
          by_cases hp : p = node.data
          · subst hp
            simp [demoted, hcurrent, hrunning]
          · have hne : node.data ≠ p := fun h => hp h.symm
            simp [demoted, hcurrent, hp, hne]
      · next hrunning =>
          refine key s.proc fun p => ?_
          have hnot : ¬ (node.data = p ∧ (s.proc p).processState = .running) := by
            rintro ⟨rfl, h⟩
            exact hrunning h
          simp [demoted, hcurrent, hnot]

/-- What `process_schedule` decides once the running process is `READY` again: the process to run, and
    the node it runs on. -/
inductive Decides (t : Pcb) : Option Nat → Option Node → Prop
  /-- the error handler, on its first node -/
  | errorHandler {p : Nat} (hhandler : t.errorHandlerProcess = some p)
      (hready : (t.proc p).processState = .ready) :
      Decides t (some p) (t.processes.find? fun n => decide (n.data = p))
  /-- the first of the processes of greatest priority -/
  | process {select : Node}
      (hhandler : ∀ p, t.errorHandlerProcess = some p → (t.proc p).processState ≠ .ready)
      (hfirst : t.FirstOfGreatest t.processes select) : Decides t (some select.data) (some select)
  /-- nobody is selectable -/
  | nobody (hhandler : ∀ p, t.errorHandlerProcess = some p → (t.proc p).processState ≠ .ready)
      (hnone : ∀ n ∈ t.processes, ¬ t.Selectable n) : Decides t none none

/-- `selected` runs on `current`; nothing else changes. -/
def running (t : Pcb) (selected : Option Nat) (current : Option Node) : Pcb :=
  { t with
    processCurrent := current
    proc := fun p =>
      if selected = some p then { t.proc p with processState := .running } else t.proc p }

theorem dispatch_eq_running (t : Pcb) (p : Nat) (node : Option Node) :
    t.dispatch p node = t.running (some p) node := by
  unfold dispatch running modProc setCurrent
  congr 1
  funext p'
  by_cases hp : p' = p
  · subst hp
    simp
  · rw [Function.update_of_ne hp, if_neg]
    rintro h
    exact hp (Option.some.inj h).symm

theorem setCurrent_none_eq_running (t : Pcb) : t.setCurrent none = t.running none none := by
  unfold setCurrent running
  simp

/-- Process selection, for every process list and every state of it. -/
theorem processSchedule_decides (s : Pcb) : ∃ selected current,
    s.demoted.Decides selected current ∧ s.processSchedule = s.demoted.running selected current := by
  unfold processSchedule
  rw [requeueCurrent_eq_demoted]
  dsimp only
  have hresult := s.demoted.foldl_scheduleCandidate_result s.demoted.processes
  cases hhandler : s.demoted.readyErrorHandler with
  | some p =>
      obtain ⟨hsome, hready⟩ := Option.filter_eq_some_iff.mp hhandler
      exact ⟨_, _, .errorHandler hsome (of_decide_eq_true hready), dispatch_eq_running _ _ _⟩
  | none =>
      have hnot : ∀ p, s.demoted.errorHandlerProcess = some p →
          (s.demoted.proc p).processState ≠ .ready := by
        intro p hp hready
        unfold readyErrorHandler at hhandler
        rw [hp] at hhandler
        simp [hready] at hhandler
      cases hfound : s.demoted.processes.foldl s.demoted.scheduleCandidate none with
      | none =>
          rw [hfound] at hresult
          exact ⟨_, _, .nobody hnot hresult, setCurrent_none_eq_running _⟩
      | some select =>
          rw [hfound] at hresult
          exact ⟨_, _, .process hnot hresult, dispatch_eq_running _ _ _⟩

/-- One `READY` process whose priority is negative. -/
def negativePriority : Pcb :=
  { defaultPartition 1 with
    processes := [⟨0, 0⟩]
    proc := fun _ => { zeroProcess with processState := .ready, currentPriority := -1 } }

/-- Its process is the only one that is `READY`, and it is not selected. -/
theorem negative_priority_is_not_selected :
    negativePriority.processes = [⟨0, 0⟩] ∧ negativePriority.errorHandlerProcess = none
      ∧ (negativePriority.proc 0).processState = .ready ∧ (negativePriority.proc 0).rtPrio = 0
      ∧ negativePriority.processSchedule.processCurrent = none
      ∧ (negativePriority.processSchedule.proc 0).processState = .ready := by
  decide

end Pcb

end UcxArinc
