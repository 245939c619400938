import Mathlib.Algebra.Ring.Nat
import Mathlib.Data.List.Basic

/-!
# Searching and cutting character strings

The operations of `std::string` on lists: `find` of an item from a position,
`find` of a pattern, and `substr`.  A position that is not found is `none`, so
`npos` needs no value.  Differences of positions are unsigned, and an operand
order that underflows wraps around at the width of `size_t`.
-/

namespace QuickApp.Strings

variable {α : Type}

/-- `text.substr(pos, count)`. -/
def substr (pos count : Nat) (text : List α) : List α :=
  (text.drop pos).take count

/-- `text.substr(pos)`. -/
def substrFrom (pos : Nat) (text : List α) : List α :=
  text.drop pos

/-- `left - right` on unsigned integers of `bits` bits. -/
def sizeSub (bits left right : Nat) : Nat :=
  if right ≤ left then left - right else 2 ^ bits - (right - left)

theorem sizeSub_of_le {bits left right : Nat} (ordered : right ≤ left) :
    sizeSub bits left right = left - right :=
  if_pos ordered

@[simp] theorem substrFrom_append_length (front tail : List α) (count : Nat) :
    substrFrom (front.length + count) (front ++ tail) = tail.drop count := by
  simp [substrFrom]

@[simp] theorem substr_append_length (front tail : List α)
    (pos count : Nat) :
    substr (front.length + pos) count (front ++ tail) =
      (tail.drop pos).take count := by
  simp [substr]

variable [DecidableEq α]

/-- `text.find(item, pos)`. -/
def find (item : α) (pos : Nat) (text : List α) : Option Nat :=
  ((text.drop pos).idxOf? item).map (pos + ·)

/-- `text.find(pattern)`. -/
def findPattern (pattern : List α) : List α → Option Nat
  | [] => if pattern = [] then some 0 else none
  | item :: text =>
      if pattern <+: item :: text then some 0
      else (findPattern pattern text).map (· + 1)

/-- `std::min` of two positions, where `npos` is beyond every position. -/
def nearer : Option Nat → Option Nat → Option Nat
  | none, right => right
  | some left, none => some left
  | some left, some right => some (min left right)

theorem idxOf?_append_cons {item : α} {before : List α}
    (absent : item ∉ before) (after : List α) :
    (before ++ item :: after).idxOf? item = some before.length := by
  induction before with
  | nil => simp [List.idxOf?_cons]
  | cons head before induction =>
      simp only [List.mem_cons, not_or] at absent
      obtain ⟨different, rest⟩ := absent
      simp [List.idxOf?_cons, Ne.symm different, induction rest]

theorem find_append (item : α) (front tail : List α) :
    find item front.length (front ++ tail) =
      (tail.idxOf? item).map (front.length + ·) := by
  simp [find]

theorem findPattern_eq_zero_iff (pattern text : List α) :
    findPattern pattern text = some 0 ↔ pattern <+: text := by
  cases text with
  | nil => simp [findPattern]
  | cons item text =>
      simp only [findPattern]
      split
      · rename_i isPrefix
        simp [isPrefix]
      · rename_i notPrefix
        simp [notPrefix]

theorem findPattern_some {pattern text : List α} {pos : Nat}
    (found : findPattern pattern text = some pos) :
    ∃ front back, text = front ++ pattern ++ back ∧ front.length = pos := by
  induction text generalizing pos with
  | nil =>
      simp only [findPattern] at found
      split at found
      · rename_i empty
        exact ⟨[], [], by simp [empty], by simpa using found⟩
      · contradiction
  | cons item text induction =>
      simp only [findPattern] at found
      split at found
      · rename_i isPrefix
        obtain ⟨back, split⟩ := isPrefix
        exact ⟨[], back, by simpa using split.symm, by simpa using found⟩
      · obtain ⟨inner, foundInner, rfl⟩ := Option.map_eq_some_iff.mp found
        obtain ⟨front, back, split, length⟩ := induction foundInner
        exact ⟨item :: front, back, by simp [split], by simp [length]⟩

private theorem nearer_map_succ (left right : Option Nat) :
    nearer (left.map (· + 1)) (right.map (· + 1)) =
      (nearer left right).map (· + 1) := by
  cases left with
  | none => simp [nearer]
  | some left =>
      cases right with
      | none => simp [nearer]
      | some right => simp [nearer, Nat.add_min_add_right]

/-- Cutting at the nearer of two items keeps what is free of both. -/
theorem take_nearer (left right : α) (text : List α) :
    (match nearer (find left 0 text) (find right 0 text) with
      | none => text
      | some pos => substr 0 pos text) =
      text.takeWhile fun item => item ≠ left ∧ item ≠ right := by
  simp only [find, substr, List.drop_zero, Nat.zero_add, Option.map_id']
  induction text with
  | nil => simp [nearer]
  | cons head text induction =>
      by_cases isLeft : head = left
      · subst isLeft
        cases position : (head :: text).idxOf? right with
        | none => simp [nearer, List.idxOf?_cons]
        | some pos => simp [nearer, List.idxOf?_cons]
      · by_cases isRight : head = right
        · subst isRight
          cases position : (head :: text).idxOf? left with
          | none => simp [nearer, List.idxOf?_cons]
          | some pos => simp [nearer, List.idxOf?_cons]
        · rw [List.takeWhile_cons_of_pos (by simp [isLeft, isRight]),
            ← induction]
          simp only [List.idxOf?_cons, beq_iff_eq, isLeft, isRight, if_false]
          rw [nearer_map_succ]
          cases nearer (text.idxOf? left) (text.idxOf? right) with
          | none => rfl
          | some pos => rfl

private theorem all_ne_of_not_mem {item : α} {text : List α}
    (absent : item ∉ text) :
    ∀ other, other ∈ text → decide (other ≠ item) = true := by
  intro other member
  have different : other ≠ item := fun same => absent (same ▸ member)
  simpa using different

theorem takeWhile_ne_append {item : α} {front : List α}
    (absent : item ∉ front) (tail : List α) :
    (front ++ tail).takeWhile (· ≠ item) =
      front ++ tail.takeWhile (· ≠ item) :=
  List.takeWhile_append_of_pos (all_ne_of_not_mem absent)

theorem takeWhile_ne_append_cons {item : α} {before after : List α}
    (absent : item ∉ before) :
    (before ++ item :: after).takeWhile (· ≠ item) = before := by
  rw [List.takeWhile_append_of_pos (all_ne_of_not_mem absent)]
  simp

theorem takeWhile_ne_of_not_mem {item : α} {text : List α}
    (absent : item ∉ text) : text.takeWhile (· ≠ item) = text := by
  have whole : (text ++ []).takeWhile (· ≠ item) =
      text ++ ([] : List α).takeWhile (· ≠ item) :=
    List.takeWhile_append_of_pos (all_ne_of_not_mem absent)
  simpa using whole

theorem prefix_takeWhile_ne_iff {pattern text : List α} {item : α}
    (absent : item ∉ pattern) :
    pattern <+: text.takeWhile (· ≠ item) ↔ pattern <+: text := by
  constructor
  · intro isPrefix
    exact isPrefix.trans (List.takeWhile_prefix _)
  · rintro ⟨rest, rfl⟩
    rw [List.takeWhile_append_of_pos (all_ne_of_not_mem absent)]
    exact List.prefix_append _ _

end QuickApp.Strings
