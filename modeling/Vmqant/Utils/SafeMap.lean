import Vmqant.Common.GoMap

/-!
# `BeeMap`

Reference: `utils/safemap.go`.

A Go map with a lock. Each method holds the lock for its whole body, so it is one atomic step on the
contents; a map keeps one value per key and no order, which `AList` gives with its order read as the
arbitrary iteration order of the moment.
-/

namespace Vmqant

/-- The contents `bm` of a `BeeMap`. -/
abbrev BeeMap (κ ν : Type) := AList fun _ : κ => ν

namespace BeeMap

variable {κ ν : Type} [DecidableEq κ]

/-- `NewBeeMap`. -/
def new : BeeMap κ ν := ∅

/-- The value of `k`, `nil` when there is none. -/
def get (m : BeeMap κ ν) (k : κ) : Option ν := m.lookup k

/-- Store `v` under `k`; `false` when it is there already and nothing changes. -/
def set [DecidableEq ν] (m : BeeMap κ ν) (k : κ) (v : ν) : BeeMap κ ν × Bool :=
  match m.lookup k with
  | none => (m.insert k v, true)
  | some val => if val ≠ v then (m.insert k v, true) else (m, false)

/-- Whether `k` is in the map. -/
def check (m : BeeMap κ ν) (k : κ) : Bool := (m.lookup k).isSome

/-- Delete `k` and its value. -/
def delete (m : BeeMap κ ν) (k : κ) : BeeMap κ ν := m.erase k

/-- A copy of the contents. -/
def items (m : BeeMap κ ν) : List (κ × ν) := m.entries.map fun e => (e.1, e.2)

@[simp] theorem get_new (k : κ) : (new : BeeMap κ ν).get k = none := rfl

theorem get_set [DecidableEq ν] (m : BeeMap κ ν) (k k' : κ) (v : ν) :
    (m.set k v).1.get k' = if k' = k then some v else m.get k' := by
  unfold set get
  split
  · exact GoMap.lookup_insert m k k' v
  · next val hval =>
    split
    · exact GoMap.lookup_insert m k k' v
    · next hsame =>
      -- the value is there already
      split
      · next h => rw [h, hval, not_not.mp hsame]
      · rfl

theorem get_delete (m : BeeMap κ ν) (k k' : κ) :
    (m.delete k).get k' = if k' = k then none else m.get k' :=
  GoMap.lookup_erase m k k'

theorem get_of_mem_items {m : BeeMap κ ν} {p : κ × ν} (hp : p ∈ m.items) : m.get p.1 = some p.2 := by
  obtain ⟨e, he, rfl⟩ := List.mem_map.mp hp
  exact AList.mem_lookup_iff.mpr he

/-- An entry that is left after a deletion was there before, under another key. -/
theorem get_delete_eq_some {m : BeeMap κ ν} {k k' : κ} {v : ν} :
    (m.delete k).get k' = some v ↔ k' ≠ k ∧ m.get k' = some v := by
  rw [get_delete]
  split
  · next h => simp [h]
  · next h => simp [h]

end BeeMap

end Vmqant
