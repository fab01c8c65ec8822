import Mathlib.Data.List.Basic
import Mathlib.Data.List.Nodup

set_option autoImplicit false

/-! # Directories of named things

A directory hands out the identifiers 1, 2, … in the order in which names are entered, at most
`capacity` of them, and never enters a name twice. The rules of lookup follow from these three facts,
which its structure carries. -/

universe u

variable {ν : Type u}

/-- Names with their identifiers, in the order of entry. -/
structure Directory (ν : Type u) (capacity : Nat) where
  entries : List (ν × Int)
  nodup : (entries.map Prod.fst).Nodup
  ids : entries.map Prod.snd = (List.range entries.length).map fun i : Nat => (i : Int) + 1
  length_le : entries.length ≤ capacity

namespace Directory

variable {capacity : Nat}

/-- No name yet. -/
def empty (ν : Type u) (capacity : Nat) : Directory ν capacity where
  entries := []
  nodup := List.nodup_nil
  ids := rfl
  length_le := Nat.zero_le _

/-- Enter a new name while there is room. -/
def add (d : Directory ν capacity) (name : ν) (hnew : name ∉ d.entries.map Prod.fst)
    (hroom : d.entries.length < capacity) : Directory ν capacity where
  entries := d.entries ++ [(name, (d.entries.length : Int) + 1)]
  nodup := by
    rw [List.map_append, List.nodup_append]
    refine ⟨d.nodup, List.nodup_singleton _, ?_⟩
    rintro x hx y hy rfl
    rw [List.map_singleton, List.mem_singleton] at hy
    rw [hy] at hx
    exact hnew hx
  ids := by
    rw [List.map_append, d.ids, List.length_append, List.length_singleton, List.range_succ, List.map_append]
    rfl
  length_le := by
    rw [List.length_append, List.length_singleton]
    exact hroom

@[simp] theorem entries_add (d : Directory ν capacity) {name : ν} (hnew : name ∉ d.entries.map Prod.fst)
    (hroom : d.entries.length < capacity) :
    (d.add name hnew hroom).entries = d.entries ++ [(name, (d.entries.length : Int) + 1)] := rfl

/-- The identifier a name was entered with. -/
def lookup [DecidableEq ν] (d : Directory ν capacity) (name : ν) : Option Int :=
  (d.entries.find? fun e => decide (e.1 = name)).map Prod.snd

/-- A lookup finds exactly what was entered. -/
theorem lookup_eq_some [DecidableEq ν] (d : Directory ν capacity) {name : ν} {id : Int} :
    d.lookup name = some id ↔ (name, id) ∈ d.entries := by
  unfold lookup
  constructor
  · intro h
    obtain ⟨⟨name', id'⟩, hfind, rfl⟩ := Option.map_eq_some_iff.mp h
    have hname : name' = name := by simpa using List.find?_some hfind
    subst hname
    exact List.mem_of_find?_eq_some hfind
  · intro h
    have hsome : (d.entries.find? fun e => decide (e.1 = name)).isSome :=
      List.find?_isSome.mpr ⟨(name, id), h, decide_eq_true rfl⟩
    obtain ⟨⟨name', id'⟩, hfind⟩ := Option.isSome_iff_exists.mp hsome
    have hname : name' = name := by simpa using List.find?_some hfind
    subst hname
    -- a name stands in one entry only
    have heq : (name', id') = (name', id) :=
      List.inj_on_of_nodup_map d.nodup (List.mem_of_find?_eq_some hfind) h rfl
    rw [hfind, heq]
    rfl

/-- A lookup fails exactly for the names that were not entered. -/
theorem lookup_eq_none [DecidableEq ν] (d : Directory ν capacity) {name : ν} :
    d.lookup name = none ↔ ∀ id, (name, id) ∉ d.entries := by
  constructor
  · intro h id hmem
    rw [d.lookup_eq_some.mpr hmem] at h
    cases h
  · intro h
    cases hfind : d.lookup name with
    | none => rfl
    | some id => exact absurd (d.lookup_eq_some.mp hfind) (h id)

end Directory
