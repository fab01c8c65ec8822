import UcxArinc.Proofs.WaitingQueues

set_option autoImplicit false

/-! # The process list while a partition starts

While a partition starts only its entry point executes: no mutex is given back or handed over, and each process
is linked once. Afterwards a list may lose a process and hold another twice. -/

namespace UcxArinc

namespace Pcb

variable {A : Permit} {s s' : Pcb}

/-- While the partition starts no process is linked twice. -/
def OnceLinked (s : Pcb) : Prop := Starting s → (s.processes.map Node.data).Nodup

/-- A node that is moved to either end stays the only one of its process. -/
theorem nodup_erase {nodes : List Node} {node : Node} (hnode : node ∈ nodes)
    (hnodup : (nodes.map Node.data).Nodup) :
    node.data ∉ (nodes.erase node).map Node.data ∧ ((nodes.erase node).map Node.data).Nodup := by
  have hperm := (List.perm_cons_erase hnode).map Node.data
  rw [List.map_cons] at hperm
  exact List.nodup_cons.mp (hperm.nodup_iff.mp hnodup)

/-- No mutex changes hands. -/
def keepsMutexes : Permit :=
  { Permit.all with
    giveBack := fun _ => False
    grant := fun _ => False }

theorem OnceLinked.move (h : OnceLinked s) (hsound : Sound s) (hallocated : Allocated s)
    (hm : Move keepsMutexes s s') : OnceLinked s' := by
  intro hs'
  rcases hm.starting hs' with hs | hnil
  swap
  · rw [hnil]
    exact List.nodup_nil
  have hnone := (hsound.starting hs).1
  have hnodup := h hs
  have hcurrent : ∀ {p}, ¬ Calls s p := by
    rintro p ⟨-, node, hnode, -⟩
    rw [hnone] at hnode
    cases hnode
  cases hm with
  | frame hf =>
      rw [hf.processes]
      exact hnodup
  | moveNode node p front follow hmovable =>
      have hlinked := hmovable.linked.resolve_right fun hc => by rw [hnone] at hc; cases hc
      obtain ⟨hnot, hrest⟩ := nodup_erase hlinked hnodup
      rw [hmovable.data] at hnot
      have hprocesses : ((s.moveNode node p front follow).processes.map Node.data).Perm
          (p :: (s.processes.erase node).map Node.data) := by
        unfold moveNode
        cases front <;> cases follow
        -- at the head and at the end
        · exact (List.map_append (f := Node.data)) ▸ List.perm_append_singleton _ _
        · exact (List.map_append (f := Node.data)) ▸ List.perm_append_singleton _ _
        · exact List.Perm.refl _
        · exact List.Perm.refl _
      exact hprocesses.nodup_iff.mpr (List.nodup_cons.mpr ⟨hnot, hrest⟩)
  | block p q linked discipline timer k hcalls => exact absurd hcalls hcurrent
  | blockOnErrors p error k hcalls => exact absurd hcalls hcurrent
  | sleep p f k timer hcalls => exact absurd hcalls hcurrent
  | yield p k hcalls => exact absurd hcalls hcurrent
  | wake q cancel p hwake hq =>
      obtain ⟨rest, -, rfl⟩ := wakeFirst_eq_some hwake
      exact hnodup
  | handOver index mutexId hhand hidx hstate hA =>
      rcases handMutexOver_eq_some hhand with ⟨-, rfl⟩ | ⟨woken, t, node, hwake, -, -⟩
      · exact hnodup
      · obtain ⟨rest, hlist, -⟩ := wakeFirst_eq_some hwake
        exact absurd ⟨rest, hlist⟩ (hA woken)
  | acquire index p node mutexId hcalls => exact absurd hcalls hcurrent
  | takeBack index p node follow mutexId hrun hidx hown hmovable hA => exact hA.elim
  | stop node hnode hother hA =>
      obtain ⟨w, l, c, heq⟩ := stopped_eq s node.data
      rw [heq]
      exact hnodup
  | schedule hctl hmode => exact absurd hs hmode
  | release hctl =>
      rw [forEachProcess_eq]
      exact hnodup
  | timeOuts hctl =>
      rw [forEachProcess_eq]
      exact hnodup
  | spawn y node isErrorHandler hrun hmode hnode hfirst hy hA =>
      -- the cell is a new one
      show ((s.processes ++ [node]).map Node.data).Nodup
      rw [List.map_append, List.map_singleton, hnode]
      refine List.nodup_append.mpr ⟨hnodup, List.nodup_singleton _, ?_⟩
      rintro p hp q hq rfl
      obtain ⟨n, hn, hd⟩ := List.mem_map.mp hp
      have hlt := hallocated p (Or.inl ⟨n, hn, hd⟩)
      rw [List.mem_singleton.mp hq] at hlt
      exact absurd hlt (lt_irrefl _)
  | freshLists k i hmode =>
      obtain ⟨lists, counts, heq⟩ := freshLists_eq s (listsOf k i)
      rw [heq]
      exact hnodup
  | toStart mode hmode hA => exact List.nodup_nil
  | toNormal point hrun hmode hA =>
      rw [forEachProcess_eq]
      exact hnodup
  | _ => exact hnodup

/-- Only an action that gives no mutex back may have the partition start. -/
theorem GivesMutexBack.mode_kept {e : Action} (he : GivesMutexBack e) (hsound : Sound s) (hstep : s.step e = some s')
    (hnot : ¬ Starting s) : ¬ Starting s' := by
  have hpermits : Permits { Permit.all with mode := fun _ => False } s e := by
    refine ⟨fun _ _ _ _ _ => trivial, fun service hservice => ?_,
      fun _ _ _ _ => ⟨fun _ => trivial, fun _ => trivial⟩, fun _ _ _ _ _ _ => ⟨trivial, fun _ _ => trivial⟩,
      fun _ _ => ⟨trivial, fun _ => ⟨fun _ _ _ => trivial, fun _ _ _ => trivial, fun _ _ => trivial⟩⟩⟩
    subst hservice
    cases service with
    | stopSelf => exact fun _ _ _ _ => trivial
    | unlockPreemption | releaseMutex _ | resetMutex _ _ => trivial
    | _ => exact he.elim
  refine (Moves.keep (I := fun t => ¬ Starting t) ?_ (step_moves hsound.running hpermits hstep) hsound hnot).2
  intro t t' _ hnot hm hs'
  rcases hm.partition with hsame | ⟨y, node, isErrorHandler, rfl, -, -⟩ | ⟨hA, -⟩
  · rw [Starting, hsame.operatingMode] at hs'
    exact hnot hs'
  · exact hnot hs'
  · exact hA

theorem OnceLinked.step {e : Action} (h : OnceLinked s) (hsound : Sound s) (hallocated : Allocated s)
    (hstep : s.step e = some s') : OnceLinked s' := by
  by_cases he : GivesMutexBack e
  · intro hs'
    by_cases hs : Starting s
    · -- there is no current process to give it back
      have hnone := (hsound.starting hs).1
      have hprocesses : s'.processes = s.processes := by
        cases e with
        | call service =>
            obtain ⟨-, rfl⟩ := call_eq_some hstep
            cases service with
            | stopSelf =>
                show s.stopSelf.1.processes = _
                unfold stopSelf withCurrent
                rw [hnone]
                rfl
            | unlockPreemption =>
                show s.unlockPreemption.1.processes = _
                unfold unlockPreemption withCurrent
                rw [hnone]
                rfl
            | releaseMutex mutexId =>
                show (s.releaseMutex mutexId).1.processes = _
                unfold releaseMutex krnlReleaseMutex withCurrent
                rw [hnone]
                split
                · rfl
                · split <;> rfl
            | resetMutex mutexId processId =>
                show (s.resetMutex mutexId processId).1.processes = _
                unfold resetMutex withCurrent
                rw [hnone]
                rfl
            | _ => exact he.elim
        | _ => exact he.elim
      rw [hprocesses]
      exact h hs
    · exact absurd hs' (he.mode_kept hsound hstep hs)
  · have hpermits : Permits keepsMutexes s e :=
      MayAct.permits { giveBack := fun hgives => absurd hgives he, grant := fun hgives => absurd hgives he }
    exact (Moves.keep (I := fun t => Allocated t ∧ OnceLinked t)
      (fun _ _ hsound h hm => ⟨h.1.move hm, h.2.move hsound h.1 hm⟩)
      (step_moves hsound.running hpermits hstep) hsound ⟨hallocated, h⟩).2.2

end Pcb

end UcxArinc
