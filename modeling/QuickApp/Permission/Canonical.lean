import QuickApp.Permission.Manager

/-!
# Canonical permission names

Two prefixes of different length become one.  The test is on the length of
the rewritten name, and one more character than that is stored, so the caller
hands over one cell less than it has.
-/

namespace QuickApp.Permission

open QuickApp.Buffers

/-- What stands behind either of the two prefixes. -/
def HasSuffix (name suffix : List Char) : Prop :=
  name = jsPrefix ++ suffix ∨ name = sysPrefix ++ suffix

def canonical (suffix : List Char) : List Char :=
  sysPrefix ++ suffix

/-- The array of `verifyAuth` when `validatePermissionName` has returned. -/
def verifyAuthBuffer (platform : Platform) (permission : Option CString)
    (permissionBuf : Buffer Char) : Buffer Char :=
  (PermissionManagerImpl.validateForAuth platform permission permissionBuf).2

section

variable (name : CString) (buffer : Buffer Char) (max : Nat)

/-- The string a name is rewritten to, read from the buffer. -/
def validatedName : List Char :=
  stringIn (max + 1) nul (validatePermissionName (some name) buffer max).2

/-- The contract of `validatePermissionName`. -/
structure Canonicalises : Prop where
  accepts : (validatePermissionName (some name) buffer max).1 = true ↔
    ∃ suffix, HasSuffix name.chars suffix ∧ 0 < max ∧
      (canonical suffix).length ≤ max
  written : (validatePermissionName (some name) buffer max).1 = true →
    ∀ suffix, HasSuffix name.chars suffix →
      contents ((canonical suffix).length + 1)
        (validatePermissionName (some name) buffer max).2 =
          canonical suffix ++ [nul]
  kept : (validatePermissionName (some name) buffer max).1 = true →
    ∀ suffix, HasSuffix name.chars suffix →
      ∀ index, (canonical suffix).length < index →
        (validatePermissionName (some name) buffer max).2 index = buffer index
  untouched : (validatePermissionName (some name) buffer max).1 = false →
    (validatePermissionName (some name) buffer max).2 = buffer
  injective : (validatePermissionName (some name) buffer max).1 = true →
    ∀ otherName otherBuffer otherMax,
      (validatePermissionName (some otherName) otherBuffer otherMax).1 =
        true →
      (validatedName name buffer max =
          validatedName otherName otherBuffer otherMax ↔
        ∃ suffix, HasSuffix name.chars suffix ∧
          HasSuffix otherName.chars suffix)
  idempotent : (validatePermissionName (some name) buffer max).1 = true →
    ∀ again : CString, again.chars = validatedName name buffer max →
      ∀ otherBuffer,
        (validatePermissionName (some again) otherBuffer max).1 = true ∧
          validatedName again otherBuffer max = again.chars

end

variable {name : CString} {buffer : Buffer Char} {max : Nat}

theorem HasSuffix.spells {chars suffix : List Char}
    (has : HasSuffix chars suffix) : Spells chars (canonical suffix) :=
  ⟨suffix, has, rfl⟩

theorem canonical_injective {left right : List Char}
    (same : canonical left = canonical right) : left = right :=
  List.append_cancel_left same

/-- Neither prefix begins the other, so a name has one suffix only. -/
theorem HasSuffix.unique {chars left right : List Char}
    (first : HasSuffix chars left) (second : HasSuffix chars right) :
    left = right := by
  apply canonical_injective
  have firstFound := (canonicalName_eq_some_iff _ _).mpr first.spells
  have secondFound := (canonicalName_eq_some_iff _ _).mpr second.spells
  exact Option.some.inj (firstFound.symm.trans secondFound)

theorem accepted_iff_suffix :
    Accepted (some name) max ↔
      ∃ suffix, HasSuffix name.chars suffix ∧
        (canonical suffix).length ≤ max := by
  constructor
  · rintro ⟨known, _, same, ⟨suffix, has, rfl⟩, fits⟩
    cases same
    exact ⟨suffix, has, fits⟩
  · rintro ⟨suffix, has, fits⟩
    exact ⟨name, canonical suffix, rfl, has.spells, fits⟩

private theorem validated (buffer : Buffer Char)
    (accepted : (validatePermissionName (some name) buffer max).1 = true) :
    ∃ suffix, HasSuffix name.chars suffix ∧
      (canonical suffix).length ≤ max ∧
      (validatePermissionName (some name) buffer max).2 =
        copyTerminated (canonical suffix) nul buffer := by
  have isAccepted := (validatePermissionName_iff _ _ _).mp accepted
  obtain ⟨suffix, has, fits⟩ := accepted_iff_suffix.mp isAccepted
  refine ⟨suffix, has, fits, ?_⟩
  rw [validatePermissionName_of_spells buffer has.spells fits]

private theorem validatedName_of_suffix {suffix : List Char}
    (has : HasSuffix name.chars suffix)
    (accepted : (validatePermissionName (some name) buffer max).1 = true) :
    validatedName name buffer max = canonical suffix := by
  obtain ⟨other, otherHas, fits, result⟩ := validated buffer accepted
  obtain rfl := has.unique otherHas
  rw [validatedName, result]
  exact stringIn_copyTerminated buffer (Nat.lt_succ_of_le fits)
    (has.spells.nulFree name.nulFree)

private theorem canonical_length_pos (suffix : List Char) :
    0 < (canonical suffix).length := by
  have long : 0 < sysPrefix.length := by decide
  rw [canonical, List.length_append]
  omega

private theorem accepts_iff (name : CString) (buffer : Buffer Char)
    (max : Nat) :
    (validatePermissionName (some name) buffer max).1 = true ↔
      ∃ suffix, HasSuffix name.chars suffix ∧ 0 < max ∧
        (canonical suffix).length ≤ max := by
  rw [validatePermissionName_iff, accepted_iff_suffix]
  constructor
  · rintro ⟨suffix, has, fits⟩
    have positive := canonical_length_pos suffix
    exact ⟨suffix, has, by omega, fits⟩
  · rintro ⟨suffix, has, _, fits⟩
    exact ⟨suffix, has, fits⟩

private theorem validatedName_eq_iff {otherName : CString}
    {otherBuffer : Buffer Char} {otherMax : Nat}
    (accepted : (validatePermissionName (some name) buffer max).1 = true)
    (otherAccepted :
      (validatePermissionName (some otherName) otherBuffer otherMax).1 =
        true) :
    validatedName name buffer max =
        validatedName otherName otherBuffer otherMax ↔
      ∃ suffix, HasSuffix name.chars suffix ∧
        HasSuffix otherName.chars suffix := by
  obtain ⟨suffix, has, _, _⟩ := validated buffer accepted
  obtain ⟨other, otherHas, _, _⟩ := validated otherBuffer otherAccepted
  rw [validatedName_of_suffix has accepted,
    validatedName_of_suffix otherHas otherAccepted]
  constructor
  · intro same
    obtain rfl := canonical_injective same
    exact ⟨suffix, has, otherHas⟩
  · rintro ⟨common, left, right⟩
    rw [has.unique left, otherHas.unique right]

private theorem validated_again {again : CString}
    (accepted : (validatePermissionName (some name) buffer max).1 = true)
    (isName : again.chars = validatedName name buffer max)
    (otherBuffer : Buffer Char) :
    (validatePermissionName (some again) otherBuffer max).1 = true ∧
      validatedName again otherBuffer max = again.chars := by
  obtain ⟨suffix, has, fits, _⟩ := validated buffer accepted
  rw [validatedName_of_suffix has accepted] at isName
  have againHas : HasSuffix again.chars suffix := .inr isName
  have againAccepted :
      (validatePermissionName (some again) otherBuffer max).1 = true := by
    apply (validatePermissionName_iff _ _ _).mpr
    exact accepted_iff_suffix.mpr ⟨suffix, againHas, fits⟩
  constructor
  · exact againAccepted
  · rw [validatedName_of_suffix againHas againAccepted, isName]

theorem validatePermissionName_outside (permission : Option CString)
    (buffer : Buffer Char) {max index : Nat} (outside : max < index) :
    (validatePermissionName permission buffer max).2 index =
      buffer index := by
  by_cases accepted : Accepted permission max
  · obtain ⟨known, _, rfl, spells, fits⟩ := accepted
    rw [validatePermissionName_of_spells buffer spells fits]
    exact copyTerminated_outside (Nat.lt_of_le_of_lt fits outside)
  · rw [validatePermissionName_of_rejected buffer accepted]

/-- Permission names are canonicalised without collision or overflow, and the
array of `verifyAuth` is large enough for every name. -/
theorem validatePermissionName_canonicalises (name : CString)
    (buffer : Buffer Char) (max : Nat) :
    Canonicalises name buffer max ∧
      ∀ (platform : Platform) (permission : Option CString)
        (permissionBuf : Buffer Char) (index : Nat),
        0 < platform.permNameLen → platform.permNameLen ≤ index →
          verifyAuthBuffer platform permission permissionBuf index =
            permissionBuf index := by
  constructor
  · constructor
    case accepts => exact accepts_iff name buffer max
    case written =>
      intro accepted suffix has
      obtain ⟨other, otherHas, _, result⟩ := validated buffer accepted
      obtain rfl := has.unique otherHas
      rw [result]
      exact contents_copyTerminated _ _ _
    case kept =>
      intro accepted suffix has index behind
      obtain ⟨other, otherHas, _, result⟩ := validated buffer accepted
      obtain rfl := has.unique otherHas
      rw [result]
      exact copyTerminated_outside behind
    case untouched =>
      intro rejected
      have notAccepted : ¬Accepted (some name) max := by
        rw [← validatePermissionName_iff _ buffer, rejected]
        exact Bool.false_ne_true
      rw [validatePermissionName_of_rejected buffer notAccepted]
    case injective =>
      intro accepted otherName otherBuffer otherMax otherAccepted
      exact validatedName_eq_iff accepted otherAccepted
    case idempotent =>
      intro accepted again isName otherBuffer
      exact validated_again accepted isName otherBuffer
  · intro platform permission permissionBuf index positive outside
    apply validatePermissionName_outside
    omega

end QuickApp.Permission
