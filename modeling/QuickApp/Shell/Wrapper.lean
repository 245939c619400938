import QuickApp.Paths
import QuickApp.Permission.Name

/-!
# The platform wrapper

`qwrapper.cpp` exists once for each port.  Its functions store a path of the
platform in the caller's array of `max` cells, three of them by shortening
`max` to the length of the path and storing the terminator behind it, the
fourth by `strncpy` alone.
-/

namespace QuickApp.Shell.Wrapper

open QuickApp.Buffers QuickApp.Permission

/-- What the functions ask the platform for: `CONFIG_HAP_APP_PATH` or the
current directory, and `PackageManager::getPackageInfo`, which finds nothing
for a package that is not installed. -/
structure Platform where
  hapAppPath : CString
  installedPath : CString → Option CString

theorem nulFree_append {path other : List Char} (left : nul ∉ path)
    (right : nul ∉ other) : nul ∉ Paths.append path other := by
  have notSeparator : nul ≠ '/' := by decide
  simp only [Paths.append]
  split
  · exact right
  · split
    · simp [left, right, notSeparator]
    · simp [left, right]

/-- `path / other`. -/
def join (path other : CString) : CString :=
  { chars := Paths.append path.chars other.chars
    nulFree := nulFree_append path.nulFree other.nulFree }

/-- `get_app_path`. -/
def getAppPath (platform : Platform) : CString :=
  join platform.hapAppPath ⟨"app".toList, by decide⟩

/-- The idiom of three of the functions. -/
def clampedCopy (path_str : CString) (buf : Buffer Char) (max : Nat) :
    Buffer Char :=
  let max := min max path_str.chars.length
  store max nul (strncpy path_str.chars nul max buf)

/-- `QWrapperGetAppPath` of `shell/vapp`: whether it returns the buffer, and
the buffer afterwards. -/
def vappGetAppPath (platform : Platform) (buf : Buffer Char) (max : Nat) :
    Bool × Buffer Char :=
  (true, clampedCopy (getAppPath platform) buf max)

/-- `QWrapperGetBaseDataDir` of `shell/vapp`. -/
def vappGetBaseDataDir (platform : Platform) (package_name : CString)
    (buf : Buffer Char) (max : Nat) : Bool × Buffer Char :=
  (true, clampedCopy (join (getAppPath platform) package_name) buf max)

/-- `QWrapperGetAppPath` of `shell/xms`. -/
def xmsGetAppPath (platform : Platform) (buf : Buffer Char) (max : Nat) :
    Bool × Buffer Char :=
  (true, clampedCopy (getAppPath platform) buf max)

/-- `QWrapperGetBaseDataDir` of `shell/xms`. -/
def xmsGetBaseDataDir (platform : Platform) (package_name : Option CString)
    (buf : Buffer Char) (max : Nat) : Bool × Buffer Char :=
  match package_name with
  | none => (false, buf)
  | some package_name =>
      match platform.installedPath package_name with
      | none => (false, buf)
      | some installedPath =>
          (true, strncpy installedPath.chars nul (max - 1) buf)

inductive Call where
  | vappAppPath
  | vappBaseDataDir (package_name : CString)
  | xmsAppPath
  | xmsBaseDataDir (package_name : Option CString)

def perform (platform : Platform) (buf : Buffer Char) (max : Nat) :
    Call → Bool × Buffer Char
  | .vappAppPath => vappGetAppPath platform buf max
  | .vappBaseDataDir package_name =>
      vappGetBaseDataDir platform package_name buf max
  | .xmsAppPath => xmsGetAppPath platform buf max
  | .xmsBaseDataDir package_name =>
      xmsGetBaseDataDir platform package_name buf max

/-- The path a call is about, if it has one. -/
def pathOf (platform : Platform) : Call → Option CString
  | .vappAppPath => some (getAppPath platform)
  | .vappBaseDataDir package_name =>
      some (join (getAppPath platform) package_name)
  | .xmsAppPath => some (getAppPath platform)
  | .xmsBaseDataDir package_name =>
      package_name.bind platform.installedPath

/-- An array of `size` cells with the longest front of a path that fits. -/
structure HoldsFront (size : Nat) (path : CString) (buffer : Buffer Char) :
    Prop where
  terminated : nul ∈ contents size buffer
  text : stringIn size nul buffer = path.chars.take (size - 1)

structure RespectsBuffer (platform : Platform) (buf : Buffer Char)
    (max : Nat) (call : Call) : Prop where
  below : ∀ index, max ≤ index →
    (perform platform buf max call).2 index = buf index
  returned : (perform platform buf max call).1 = true →
    ∃ path, pathOf platform call = some path ∧
      HoldsFront max path (perform platform buf max call).2

/-- The path leaves room for what the call stores behind it: the terminator,
or with `strncpy` alone a terminator among the `max - 1` cells copied, unless
one stands behind these cells before the call. -/
def HasRoom (buf : Buffer Char) (max : Nat) (path : CString) : Call → Prop
  | .xmsBaseDataDir _ => path.chars.length < max - 1 ∨ buf (max - 1) = nul
  | _ => path.chars.length < max

def LeavesRoom (platform : Platform) (buf : Buffer Char) (max : Nat)
    (call : Call) : Prop :=
  ∀ path, pathOf platform call = some path → HasRoom buf max path call

variable {path : CString} {buf : Buffer Char} {max : Nat}

private theorem holdsFront_of_cells (count : Nat) {buffer : Buffer Char}
    (fits : count < max) (isFront : path.chars.take count =
      path.chars.take (max - 1)) (short : count ≤ path.chars.length)
    (cells : ∀ index (inside : index < path.chars.length), index < count →
      buffer index = path.chars[index]) (last : buffer count = nul) :
    HoldsFront max path buffer := by
  have length : (path.chars.take count).length = count :=
    List.length_take_of_le short
  have whole : copyTerminated (path.chars.take count) nul buffer =
      buffer := by
    apply copyTerminated_eq_self
    · intro index inside
      rw [List.getElem_take]
      rw [length] at inside
      exact cells index (by omega) inside
    · rw [length]
      exact last
  have free : nul ∉ path.chars.take count :=
    fun member => path.nulFree (List.mem_of_mem_take member)
  constructor
  · exact mem_contents.mpr ⟨count, fits, last⟩
  · rw [← whole, stringIn_copyTerminated buffer (by omega) free, isFront]

private theorem ne_nul_of_getD {index : Nat}
    (inside : index < path.chars.length) :
    path.chars.getD index nul ≠ nul := by
  rw [List.getD_eq_getElem _ _ inside]
  intro same
  exact path.nulFree (same ▸ List.getElem_mem inside)

theorem holdsFront_clampedCopy_iff :
    HoldsFront max path (clampedCopy path buf max) ↔
      path.chars.length < max := by
  constructor
  · intro holds
    by_contra long
    have clamped : min max path.chars.length = max := by omega
    obtain ⟨index, below, isNul⟩ := mem_contents.mp holds.terminated
    simp only [clampedCopy, clamped, store] at isNul
    rw [Function.update_of_ne (Nat.ne_of_lt below), strncpy,
      if_pos below] at isNul
    exact ne_nul_of_getD (by omega) isNul
  · intro short
    have clamped : min max path.chars.length = path.chars.length := by omega
    have copied : clampedCopy path buf max =
        copyTerminated path.chars nul buf := by
      simp only [clampedCopy, clamped, copyTerminated, strncpy_length]
    rw [copied]
    constructor
    · apply mem_contents.mpr
      exact ⟨path.chars.length, short, Function.update_self _ _ _⟩
    · rw [stringIn_copyTerminated buf short path.nulFree,
        List.take_of_length_le (by omega)]

theorem clampedCopy_outside (short : path.chars.length < max) {index : Nat}
    (outside : max ≤ index) : clampedCopy path buf max index = buf index := by
  have clamped : min max path.chars.length = path.chars.length := by omega
  have different : index ≠ path.chars.length := by omega
  simp only [clampedCopy, clamped, store]
  rw [Function.update_of_ne different]
  exact strncpy_outside (by omega)

theorem holdsFront_strncpy_iff (positive : 1 ≤ max) :
    HoldsFront max path (strncpy path.chars nul (max - 1) buf) ↔
      path.chars.length < max - 1 ∨ buf (max - 1) = nul := by
  constructor
  · intro holds
    by_contra neither
    obtain ⟨long, stale⟩ := not_or.mp neither
    obtain ⟨index, below, isNul⟩ := mem_contents.mp holds.terminated
    by_cases copied : index < max - 1
    · rw [strncpy, if_pos copied] at isNul
      exact ne_nul_of_getD (by omega) isNul
    · have isLast : index = max - 1 := by omega
      rw [strncpy_outside (by omega), isLast] at isNul
      exact stale isNul
  · intro room
    have cells : ∀ index (inside : index < path.chars.length),
        index < max - 1 →
          strncpy path.chars nul (max - 1) buf index =
            path.chars[index] := by
      intro index inside copied
      rw [strncpy, if_pos copied, List.getD_eq_getElem _ _ inside]
    by_cases short : path.chars.length < max - 1
    · apply holdsFront_of_cells path.chars.length
      · omega
      · rw [List.take_length, List.take_of_length_le (by omega)]
      · exact Nat.le_refl _
      · intro index inside _
        exact cells index inside (by omega)
      · rw [strncpy, if_pos short]
        exact List.getD_eq_default _ _ (Nat.le_refl _)
    · have stale := room.resolve_left short
      apply holdsFront_of_cells (max - 1)
      · omega
      · rfl
      · omega
      · exact cells
      · rw [strncpy_outside (Nat.le_refl _), stale]

private theorem respects_clamped_iff {platform : Platform} {call : Call}
    (performed : perform platform buf max call =
      (true, clampedCopy path buf max))
    (isPath : pathOf platform call = some path) :
    RespectsBuffer platform buf max call ↔ path.chars.length < max := by
  constructor
  · intro respects
    obtain ⟨other, isOther, holds⟩ :=
      respects.returned (by rw [performed])
    rw [performed] at holds
    obtain rfl : path = other := Option.some.inj (isPath.symm.trans isOther)
    exact holdsFront_clampedCopy_iff.mp holds
  · intro short
    constructor
    · intro index outside
      rw [performed]
      exact clampedCopy_outside short outside
    · intro _
      refine ⟨path, isPath, ?_⟩
      rw [performed]
      exact holdsFront_clampedCopy_iff.mpr short

private theorem respects_strncpy_iff {platform : Platform} {call : Call}
    (positive : 1 ≤ max)
    (performed : perform platform buf max call =
      (true, strncpy path.chars nul (max - 1) buf))
    (isPath : pathOf platform call = some path) :
    RespectsBuffer platform buf max call ↔
      path.chars.length < max - 1 ∨ buf (max - 1) = nul := by
  rw [← holdsFront_strncpy_iff positive]
  constructor
  · intro respects
    obtain ⟨other, isOther, holds⟩ :=
      respects.returned (by rw [performed])
    rw [performed] at holds
    obtain rfl : path = other := Option.some.inj (isPath.symm.trans isOther)
    exact holds
  · intro holds
    constructor
    · intro index outside
      rw [performed]
      exact strncpy_outside (by omega)
    · intro _
      refine ⟨path, isPath, ?_⟩
      rw [performed]
      exact holds

private theorem respects_nullptr {platform : Platform} {call : Call}
    (performed : perform platform buf max call = (false, buf)) :
    RespectsBuffer platform buf max call := by
  constructor
  · intro index _
    rw [performed]
  · intro returned
    rw [performed] at returned
    cases returned

private theorem leavesRoom_iff {platform : Platform} {call : Call}
    (isPath : pathOf platform call = some path) :
    LeavesRoom platform buf max call ↔ HasRoom buf max path call := by
  constructor
  · intro room
    exact room path isPath
  · intro room other isOther
    obtain rfl : path = other := Option.some.inj (isPath.symm.trans isOther)
    exact room

/-- A function of the wrapper respects an array of `max` cells if and only if
the path leaves room for what is stored behind it. -/
theorem perform_respectsBuffer_iff (platform : Platform) (buf : Buffer Char)
    (max : Nat) (call : Call) (positive : 1 ≤ max) :
    RespectsBuffer platform buf max call ↔
      LeavesRoom platform buf max call := by
  cases call with
  | vappAppPath =>
      rw [leavesRoom_iff rfl]
      exact respects_clamped_iff rfl rfl
  | vappBaseDataDir package_name =>
      rw [leavesRoom_iff rfl]
      exact respects_clamped_iff rfl rfl
  | xmsAppPath =>
      rw [leavesRoom_iff rfl]
      exact respects_clamped_iff rfl rfl
  | xmsBaseDataDir package_name =>
      cases isPath : pathOf platform (.xmsBaseDataDir package_name) with
      | none =>
          have performed : perform platform buf max
              (.xmsBaseDataDir package_name) = (false, buf) := by
            cases package_name with
            | none => rfl
            | some package_name =>
                rw [pathOf, Option.bind_some] at isPath
                simp only [perform, xmsGetBaseDataDir, isPath]
          constructor
          · intro _ path isSome
            rw [isPath] at isSome
            cases isSome
          · intro _
            exact respects_nullptr performed
      | some path =>
          have performed : perform platform buf max
              (.xmsBaseDataDir package_name) =
                (true, strncpy path.chars nul (max - 1) buf) := by
            obtain ⟨known, rfl, found⟩ := Option.bind_eq_some_iff.mp isPath
            simp only [perform, xmsGetBaseDataDir, found]
          rw [leavesRoom_iff isPath]
          exact respects_strncpy_iff positive performed isPath

/-- A platform with one installed package. -/
def smallPlatform : Platform :=
  { hapAppPath := ⟨"/data".toList, by decide⟩
    installedPath := fun _ => some ⟨"/data/app/com.a".toList, by decide⟩ }

/-- The path of nine characters and its terminator in ten cells. -/
theorem perform_respectsBuffer_ten :
    RespectsBuffer smallPlatform (fun _ => 'x') 10 .vappAppPath :=
  (perform_respectsBuffer_iff smallPlatform (fun _ => 'x') 10 .vappAppPath
    (by decide)).mpr fun _ isPath => by
      cases isPath
      exact Nat.lt_succ_self 9

/-- In nine cells the terminator lands behind the array, and `strncpy` alone
leaves no terminator among old contents. -/
theorem perform_overflows_and_unterminated :
    (perform smallPlatform (fun _ => 'x') 9 .vappAppPath).2 9 = nul ∧
      ¬RespectsBuffer smallPlatform (fun _ => 'x') 9 .vappAppPath ∧
      nul ∉ contents 9 (perform smallPlatform (fun _ => 'x') 9
        (.xmsBaseDataDir (some ⟨"com.a".toList, by decide⟩))).2 ∧
      ¬RespectsBuffer smallPlatform (fun _ => 'x') 9
        (.xmsBaseDataDir (some ⟨"com.a".toList, by decide⟩)) := by
  have behind : (perform smallPlatform (fun _ => 'x') 9 .vappAppPath).2 9 =
      nul := by
    decide
  have stale : nul ∉ contents 9 (perform smallPlatform (fun _ => 'x') 9
      (.xmsBaseDataDir (some ⟨"com.a".toList, by decide⟩))).2 := by
    decide
  refine ⟨behind, ?_, stale, ?_⟩
  · intro respects
    have same := respects.below 9 (Nat.le_refl 9)
    rw [behind] at same
    exact absurd same (by decide)
  · intro respects
    obtain ⟨_, _, holds⟩ := respects.returned rfl
    exact stale holds.terminated

end QuickApp.Shell.Wrapper
