import Mathlib.Data.List.Basic

/-!
# Shared ownership

A shared object has a count of its owners and is destroyed by the owner that
brings the count to zero.  The count does not say who the owners are, so the
list of them is kept beside it: while the two agree, an owner in the list is a
proof that the object is still there.
-/

namespace QuickApp.Ownership

universe u

/-- The count of a shared object, how often the object was destroyed, and who
its owners are. -/
structure Shared (α : Type u) where
  useCount : Nat
  destroyed : Nat := 0
  owners : List α

namespace Shared

variable {α : Type u} [DecidableEq α] (shared : Shared α)

/-- A copy of a shared pointer is made. -/
def gain (owner : α) : Shared α :=
  { shared with
    useCount := shared.useCount + 1
    owners := owner :: shared.owners }

/-- A shared pointer goes away; the last one takes the object along. -/
def lose (owner : α) : Shared α where
  useCount := shared.useCount - 1
  destroyed := shared.destroyed + if shared.useCount = 1 then 1 else 0
  owners := shared.owners.erase owner

/-- A shared pointer is moved to another owner. -/
def hand (owner other : α) : Shared α :=
  { shared with owners := other :: shared.owners.erase owner }

section Count

variable (owner other : α)

@[simp] theorem count_gain :
    (shared.gain owner).owners.count other =
      shared.owners.count other + if owner = other then 1 else 0 := by
  simp [gain, List.count_cons]

@[simp] theorem count_lose :
    (shared.lose owner).owners.count other =
      shared.owners.count other - if owner = other then 1 else 0 := by
  simp [lose, List.count_erase]

@[simp] theorem count_hand (from_ : α) :
    (shared.hand from_ owner).owners.count other =
      shared.owners.count other - (if from_ = other then 1 else 0) +
        if owner = other then 1 else 0 := by
  simp [hand, List.count_cons, List.count_erase]

end Count

/-- The owners are as many as are counted, and the object was destroyed once
if there is none left. -/
structure Counted (shared : Shared α) : Prop where
  useCount : shared.useCount = shared.owners.length
  destroyed : shared.destroyed = if shared.owners = [] then 1 else 0

variable {shared} {owner : α}

omit [DecidableEq α] in
theorem Counted.alive (counted : Counted shared)
    (member : owner ∈ shared.owners) : shared.destroyed = 0 := by
  rw [counted.destroyed, if_neg (List.ne_nil_of_mem member)]

omit [DecidableEq α] in
theorem Counted.destroyed_le (counted : Counted shared) :
    shared.destroyed ≤ 1 := by
  rw [counted.destroyed]
  split <;> simp

omit [DecidableEq α] in
theorem Counted.destroyed_iff (counted : Counted shared) :
    shared.destroyed = 1 ↔ shared.owners = [] := by
  rw [counted.destroyed]
  split <;> simp [*]

omit [DecidableEq α] in
theorem Counted.gain (counted : Counted shared) {other : α}
    (member : other ∈ shared.owners) (owner : α) :
    Counted (shared.gain owner) where
  useCount := by simp [Shared.gain, counted.useCount]
  destroyed := by simpa [Shared.gain] using counted.alive member

theorem Counted.lose (counted : Counted shared)
    (member : owner ∈ shared.owners) : Counted (shared.lose owner) := by
  have length := List.length_erase_of_mem member
  constructor
  · rw [Shared.lose, length, counted.useCount]
  · have one : shared.owners.erase owner = [] ↔ shared.useCount = 1 := by
      have positive := List.length_pos_of_mem member
      rw [← List.length_eq_zero_iff, length, counted.useCount]
      omega
    simp [Shared.lose, counted.alive member, one]

theorem Counted.hand (counted : Counted shared)
    (member : owner ∈ shared.owners) (other : α) :
    Counted (shared.hand owner other) where
  useCount := by
    have positive := List.length_pos_of_mem member
    rw [Shared.hand, List.length_cons, List.length_erase_of_mem member,
      counted.useCount]
    omega
  destroyed := by simpa [Shared.hand] using counted.alive member

end Shared

end QuickApp.Ownership
