import Mathlib.Data.List.GetD
import Mathlib.Logic.Function.Basic

/-!
# Memory behind a character pointer

A buffer is the memory from a pointer on, without an end: a write past the end
of an array is then visible as a change at an index outside it.  Strings in
memory end at the first terminator.
-/

namespace QuickApp.Buffers

universe u

variable {α : Type u}

/-- The cells from a pointer on. -/
abbrev Buffer (α : Type u) := Nat → α

/-- `std::copy(text.begin(), text.end(), buffer)`. -/
def copy (text : List α) (buffer : Buffer α) : Buffer α :=
  fun index => if inside : index < text.length then text[index]
    else buffer index

/-- `buffer[index] = item`. -/
def store (index : Nat) (item : α) (buffer : Buffer α) : Buffer α :=
  Function.update buffer index item

/-- The first `size` cells. -/
def contents (size : Nat) (buffer : Buffer α) : List α :=
  (List.range size).map buffer

/-- A text and its terminator, written from the start of the buffer. -/
def copyTerminated (text : List α) (stop : α) (buffer : Buffer α) :
    Buffer α :=
  store text.length stop (copy text buffer)

/-- `strncpy(buffer, text, count)`: a shorter text is filled up with
terminators, a longer one gets none. -/
def strncpy (text : List α) (stop : α) (count : Nat) (buffer : Buffer α) :
    Buffer α :=
  fun index => if index < count then text.getD index stop else buffer index

theorem strncpy_outside {text : List α} {stop : α} {count : Nat}
    {buffer : Buffer α} {index : Nat} (outside : count ≤ index) :
    strncpy text stop count buffer index = buffer index :=
  if_neg (Nat.not_lt.mpr outside)

theorem strncpy_length (text : List α) (stop : α) (buffer : Buffer α) :
    strncpy text stop text.length buffer = copy text buffer := by
  funext index
  simp only [strncpy, copy]
  split
  · rename_i inside
    exact List.getD_eq_getElem text stop inside
  · rfl

theorem copyTerminated_outside {text : List α} {stop : α} {buffer : Buffer α}
    {index : Nat} (outside : text.length < index) :
    copyTerminated text stop buffer index = buffer index := by
  have different : index ≠ text.length := Nat.ne_of_gt outside
  have notInside : ¬index < text.length := by omega
  simp [copyTerminated, store, copy, different, notInside]

theorem contents_copyTerminated (text : List α) (stop : α)
    (buffer : Buffer α) :
    contents (text.length + 1) (copyTerminated text stop buffer) =
      text ++ [stop] := by
  have front : contents text.length (copyTerminated text stop buffer) =
      text := by
    apply List.ext_getElem
    · simp [contents]
    · intro index below _
      have inside : index < text.length := by simpa [contents] using below
      have different : index ≠ text.length := Nat.ne_of_lt inside
      simp [contents, copyTerminated, store, copy, inside, different]
  have last : copyTerminated text stop buffer text.length = stop := by
    simp [copyTerminated, store]
  simp only [contents] at front ⊢
  rw [List.range_succ, List.map_append, front]
  simp [last]

theorem copyTerminated_eq_self {text : List α} {stop : α} {buffer : Buffer α}
    (cells : ∀ index (inside : index < text.length),
      buffer index = text[index]) (last : buffer text.length = stop) :
    copyTerminated text stop buffer = buffer := by
  funext index
  simp only [copyTerminated, store, Function.update_apply, copy]
  split
  · rename_i same
    rw [same, last]
  · split
    · rename_i inside
      exact (cells index inside).symm
    · rfl

theorem mem_contents {size : Nat} {buffer : Buffer α} {item : α} :
    item ∈ contents size buffer ↔ ∃ index < size, buffer index = item := by
  simp [contents]

variable [DecidableEq α]

/-- The string at the start of an array of `size` cells. -/
def stringIn (size : Nat) (stop : α) (buffer : Buffer α) : List α :=
  (contents size buffer).takeWhile (· ≠ stop)

theorem stringIn_copyTerminated {text : List α} {stop : α}
    (buffer : Buffer α) {size : Nat} (fits : text.length < size)
    (absent : stop ∉ text) :
    stringIn size stop (copyTerminated text stop buffer) = text := by
  obtain ⟨rest, rfl⟩ : ∃ rest, size = text.length + 1 + rest :=
    ⟨size - (text.length + 1), by omega⟩
  have split : contents (text.length + 1 + rest)
      (copyTerminated text stop buffer) =
        text ++ stop :: ((List.range rest).map fun index =>
          copyTerminated text stop buffer (text.length + 1 + index)) := by
    have front := contents_copyTerminated text stop buffer
    simp only [contents] at front ⊢
    rw [List.range_add, List.map_append, front]
    simp
  have all : ∀ item, item ∈ text → decide (item ≠ stop) = true := by
    intro item member
    have different : item ≠ stop := fun same => absent (same ▸ member)
    simpa using different
  rw [stringIn, split, List.takeWhile_append_of_pos all]
  simp

end QuickApp.Buffers
