import QuickApp.Buffers
import QuickApp.Strings

/-!
# Permission names

`PermissionManager::validatePermissionName` accepts a name with either of two
prefixes, rewrites the application prefix to the system prefix and stores the
result in the caller's buffer.  The prefixes start with different letters, so
at most one of them is matched.
-/

namespace QuickApp.Permission

open QuickApp.Buffers QuickApp.Strings

/-- The terminator of a C string. -/
def nul : Char := Char.ofNat 0

/-- A C string: the characters before its terminator. -/
structure CString where
  chars : List Char
  nulFree : nul ∉ chars

instance : DecidableEq CString := fun left right =>
  decidable_of_iff (left.chars = right.chars) (by
    cases left
    cases right
    simp)

/-- `QAPP_JS_PERM_NAME_PREFIX`. -/
def jsPrefix : List Char := "hapjs.permission.".toList

/-- `QAPP_SYS_PERM_NAME_PREFIX`. -/
def sysPrefix : List Char := "vela.permission.".toList

theorem sysPrefix_nulFree : nul ∉ sysPrefix := by decide

/-- `result` in `validatePermissionName`, when the name has a prefix. -/
def canonicalName (name : List Char) : Option (List Char) :=
  if substr 0 jsPrefix.length name = jsPrefix then
    some (sysPrefix ++ substrFrom jsPrefix.length name)
  else if substr 0 sysPrefix.length name = sysPrefix then
    some name
  else none

/-- `PermissionManager::validatePermissionName`: whether the name is accepted
and the buffer afterwards. -/
def validatePermissionName (name : Option CString) (buffer : Buffer Char)
    (max : Nat) : Bool × Buffer Char :=
  match name with
  | none => (false, buffer)
  | some name =>
      if max = 0 then (false, buffer)
      else
        match canonicalName name.chars with
        | none => (false, buffer)
        | some result =>
            if result.length > max then (false, buffer)
            else (true, store result.length nul (copy result buffer))

/-- A name with an accepted prefix, and its spelling with the system prefix. -/
def Spells (name canonical : List Char) : Prop :=
  ∃ suffix, (name = jsPrefix ++ suffix ∨ name = sysPrefix ++ suffix) ∧
    canonical = sysPrefix ++ suffix

private theorem substr_eq_iff (front name : List Char) :
    substr 0 front.length name = front ↔ ∃ suffix, name = front ++ suffix := by
  constructor
  · intro same
    refine ⟨name.drop front.length, ?_⟩
    have whole := List.take_append_drop front.length name
    simp only [substr, List.drop_zero] at same
    rw [same] at whole
    exact whole.symm
  · rintro ⟨suffix, rfl⟩
    simp [substr]

private theorem prefixes_differ (left right : List Char) :
    jsPrefix ++ left ≠ sysPrefix ++ right := by
  intro same
  have heads := congrArg List.head? same
  have jsHead : jsPrefix.head? = some 'h' := by decide
  have sysHead : sysPrefix.head? = some 'v' := by decide
  rw [List.head?_append, List.head?_append, jsHead, sysHead] at heads
  simp at heads

private theorem canonicalName_js (suffix : List Char) :
    canonicalName (jsPrefix ++ suffix) = some (sysPrefix ++ suffix) := by
  have isJs : substr 0 jsPrefix.length (jsPrefix ++ suffix) = jsPrefix :=
    (substr_eq_iff _ _).mpr ⟨suffix, rfl⟩
  have cut : substrFrom jsPrefix.length (jsPrefix ++ suffix) = suffix :=
    substrFrom_append_length jsPrefix suffix 0
  rw [canonicalName, if_pos isJs, cut]

private theorem canonicalName_sys (suffix : List Char) :
    canonicalName (sysPrefix ++ suffix) = some (sysPrefix ++ suffix) := by
  have notJs : ¬substr 0 jsPrefix.length (sysPrefix ++ suffix) = jsPrefix := by
    rw [substr_eq_iff]
    rintro ⟨other, same⟩
    exact prefixes_differ _ _ same.symm
  have isSys : substr 0 sysPrefix.length (sysPrefix ++ suffix) = sysPrefix :=
    (substr_eq_iff _ _).mpr ⟨suffix, rfl⟩
  rw [canonicalName, if_neg notJs, if_pos isSys]

theorem canonicalName_eq_some_iff (name canonical : List Char) :
    canonicalName name = some canonical ↔ Spells name canonical := by
  constructor
  · intro found
    by_cases isJs : substr 0 jsPrefix.length name = jsPrefix
    · obtain ⟨suffix, rfl⟩ := (substr_eq_iff _ _).mp isJs
      rw [canonicalName_js, Option.some.injEq] at found
      exact ⟨suffix, Or.inl rfl, found.symm⟩
    · by_cases isSys : substr 0 sysPrefix.length name = sysPrefix
      · obtain ⟨suffix, rfl⟩ := (substr_eq_iff _ _).mp isSys
        rw [canonicalName_sys, Option.some.injEq] at found
        exact ⟨suffix, Or.inr rfl, found.symm⟩
      · rw [canonicalName, if_neg isJs, if_neg isSys] at found
        cases found
  · rintro ⟨suffix, rfl | rfl, rfl⟩
    · exact canonicalName_js suffix
    · exact canonicalName_sys suffix

theorem Spells.nulFree {name canonical : List Char}
    (spells : Spells name canonical) (nameFree : nul ∉ name) :
    nul ∉ canonical := by
  obtain ⟨suffix, named, rfl⟩ := spells
  have suffixFree : nul ∉ suffix := by
    intro member
    rcases named with rfl | rfl <;>
      exact nameFree (List.mem_append_right _ member)
  simp [sysPrefix_nulFree, suffixFree]

/-- The whole behaviour on an accepted name. -/
theorem validatePermissionName_of_spells {name : CString}
    {canonical : List Char} {max : Nat} (buffer : Buffer Char)
    (spells : Spells name.chars canonical) (fits : canonical.length ≤ max) :
    validatePermissionName (some name) buffer max =
      (true, copyTerminated canonical nul buffer) := by
  have found := (canonicalName_eq_some_iff _ _).mpr spells
  have notZero : max ≠ 0 := by
    obtain ⟨suffix, _, rfl⟩ := spells
    have long : 0 < sysPrefix.length := by decide
    rw [List.length_append] at fits
    omega
  have notTooLong : ¬canonical.length > max := by omega
  simp [validatePermissionName, notZero, found, notTooLong, copyTerminated]

/-- A name whose canonical spelling has at most `max` characters. -/
def Accepted (name : Option CString) (max : Nat) : Prop :=
  ∃ known canonical, name = some known ∧ Spells known.chars canonical ∧
    canonical.length ≤ max

private theorem accepted_of_validatePermissionName {name : Option CString}
    {max : Nat} {buffer : Buffer Char}
    (accepted : (validatePermissionName name buffer max).1 = true) :
    Accepted name max := by
  cases name with
  | none => simp [validatePermissionName] at accepted
  | some known =>
      simp only [validatePermissionName] at accepted
      split at accepted
      · simp at accepted
      · split at accepted
        · simp at accepted
        · rename_i result found
          split at accepted
          · simp at accepted
          · exact ⟨known, result, rfl,
              (canonicalName_eq_some_iff _ _).mp found, by omega⟩

theorem validatePermissionName_iff (name : Option CString)
    (buffer : Buffer Char) (max : Nat) :
    (validatePermissionName name buffer max).1 = true ↔
      Accepted name max := by
  constructor
  · exact accepted_of_validatePermissionName
  · rintro ⟨known, canonical, rfl, spells, fits⟩
    rw [validatePermissionName_of_spells buffer spells fits]

/-- A rejected name leaves the buffer as it was. -/
theorem validatePermissionName_of_rejected {name : Option CString}
    {max : Nat} (buffer : Buffer Char) (rejected : ¬Accepted name max) :
    validatePermissionName name buffer max = (false, buffer) := by
  have notAccepted := mt (validatePermissionName_iff name buffer max).mp rejected
  cases name with
  | none => rfl
  | some known =>
      simp only [validatePermissionName] at notAccepted ⊢
      split
      · rfl
      · split
        · rfl
        · split
          · rfl
          · simp_all

end QuickApp.Permission
