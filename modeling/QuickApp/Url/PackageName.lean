import Mathlib.Data.List.TakeWhile
import QuickApp.Url.Navigation

/-!
# The package name of a URL

Three functions cut a package name out of the same URL: `ShellApp::initUrl`,
which the GUI context and the permission manager use, `handle_package_name`,
and `ActivityDelegate::onNavigateToApp`.  The first ends the name at a `/`
only, and keeps its length in an `int`.  They agree when no `?` comes before
the first `/`.
-/

namespace QuickApp.Url

open QuickApp.Strings

/-- A length or a difference of pointers, converted to `int`. -/
def toInt (length : Nat) : Int :=
  Int.bmod length (2 ^ 32)

/-- `std::string().append(text, length)`.  A negative `length` becomes a size
that no string has, and `append` throws. -/
def appendFront (text : List Char) (length : Int) : Option (List Char) :=
  if length < 0 then none else some (text.take length.toNat)

/-- `pkg_start`. -/
def pkgStart (url : List Char) : List Char :=
  if hapPrefix.isPrefixOf url then url.drop hapPrefix.length else url

/-- `pkg_len`. -/
def pkgLen (start : List Char) : Int :=
  match find '/' 0 start with
  | some path => toInt path
  | none => toInt start.length

/-- `ShellApp::initUrl`: `url_` and `package_name_`, or `none` when `append`
throws. -/
def initUrl (url : List Char) : Option (List Char × List Char) :=
  (appendFront (pkgStart url) (pkgLen (pkgStart url))).map fun packageName =>
    (hapPrefix ++ pkgStart url, packageName)

/-- `handle_package_name`. -/
def handlePackageName (pkg : List Char) : List Char :=
  let pkgName := match findPattern hapPrefix pkg with
    | some pos => pkg.drop (pos + hapPrefix.length)
    | none => pkg
  match nearer (find '/' 0 pkgName) (find '?' 0 pkgName) with
  | none => pkgName
  | some endPos => substr 0 endPos pkgName

/-- Up to the first `/`. -/
def pathCut (text : List Char) : List Char :=
  text.takeWhile (· ≠ '/')

/-- Up to the first `/` or `?`. -/
def delimiterCut (text : List Char) : List Char :=
  text.takeWhile fun item => item ≠ '/' ∧ item ≠ '?'

/-- The prefix occurs at most at the start. -/
def OnlyAsPrefix (url : List Char) : Prop :=
  ∀ front back, url = front ++ hapPrefix ++ back → front = []

/-- `package_name_`. -/
def packageName (url : List Char) : Option (List Char) :=
  (initUrl url).map Prod.snd

/-- All three cuts yield one name, and it ends at the first delimiter. -/
structure OnePackageName (bits : Nat) (url : List Char) : Prop where
  handled : OnlyAsPrefix url → packageName url = some (handlePackageName url)
  navigated : hapPrefix <+: url → ∀ querystring, ∃ intent,
    onNavigateToApp bits ⟨url, querystring⟩ = some intent ∧
      packageName url = some intent.target ∧
      handlePackageName url = intent.target
  cut : hapPrefix <+: url →
    packageName url = some (delimiterCut (pkgStart url))

/-- No `?` comes before the first `/`.  Where an `int` does not hold the length
up to that `/`, what it holds is the length up to the first delimiter. -/
structure CutsAgree (url : List Char) : Prop where
  noQuery : OnlyAsPrefix url ∨ hapPrefix <+: url →
    (pathCut (pkgStart url)).length < 2 ^ 31 → '?' ∉ pathCut (pkgStart url)
  wrapped : OnlyAsPrefix url ∨ hapPrefix <+: url →
    2 ^ 31 ≤ (pathCut (pkgStart url)).length →
      toInt (pathCut (pkgStart url)).length =
        (delimiterCut (pkgStart url)).length
  slash : hapPrefix <+: url → '/' ∈ pkgStart url →
    '?' ∉ pathCut (pkgStart url)

theorem pkgStart_append (rest : List Char) :
    pkgStart (hapPrefix ++ rest) = rest := by
  have isPrefix : hapPrefix.isPrefixOf (hapPrefix ++ rest) = true := by
    rw [List.isPrefixOf_iff_prefix]
    exact List.prefix_append _ _
  simp [pkgStart, isPrefix]

theorem pkgStart_of_otherStart {url : List Char}
    (absent : ¬hapPrefix <+: url) : pkgStart url = url := by
  have notPrefix : ¬hapPrefix.isPrefixOf url = true := by
    rw [List.isPrefixOf_iff_prefix]
    exact absent
  rw [pkgStart, if_neg notPrefix]

theorem pkgLen_eq (start : List Char) :
    pkgLen start = toInt (pathCut start).length := by
  by_cases slash : '/' ∈ start
  · obtain ⟨before, after, rfl, absent⟩ := List.eq_append_cons_of_mem slash
    have position : find '/' 0 (before ++ '/' :: after) =
        some before.length := by
      simp [find, idxOf?_append_cons absent]
    rw [pkgLen, position, pathCut, takeWhile_ne_append_cons absent]
  · have position : find '/' 0 start = none := by
      simp [find, slash]
    rw [pkgLen, position, pathCut, takeWhile_ne_of_not_mem slash]

theorem delimiterCut_front (text : List Char) : delimiterCut text <+: text :=
  List.takeWhile_prefix _

theorem pathCut_front (text : List Char) : pathCut text <+: text :=
  List.takeWhile_prefix _

/-- `append` copies a given front of the text exactly when the length it is
handed is the length of that front. -/
theorem appendFront_eq_iff {text front : List Char} {length : Int}
    (within : length ≤ text.length) (isFront : front <+: text) :
    appendFront text length = some front ↔ length = front.length := by
  have frontTake := List.prefix_iff_eq_take.mp isFront
  have frontWithin := isFront.length_le
  constructor
  · intro appended
    rw [appendFront] at appended
    split at appended
    · contradiction
    · rw [Option.some.injEq] at appended
      have lengths := congrArg List.length appended
      rw [List.length_take] at lengths
      omega
  · intro same
    rw [same, appendFront, if_neg (by omega), Int.toNat_natCast, ← frontTake]

private theorem bmod_le_self (length modulus : Nat) :
    Int.bmod length modulus ≤ length := by
  have remainder : (length : Int) % modulus ≤ length := by
    rw [← Int.natCast_emod]
    exact Int.ofNat_le.mpr (Nat.mod_le _ _)
  rw [Int.bmod]
  split
  · exact remainder
  · omega

theorem toInt_le (length : Nat) : toInt length ≤ length :=
  bmod_le_self length _

theorem toInt_of_lt {length : Nat} (fits : length < 2 ^ 31) :
    toInt length = length := by
  apply Int.bmod_eq_of_le_mul_two
  · omega
  · omega

theorem packageName_eq (url : List Char) :
    packageName url =
      appendFront (pkgStart url) (toInt (pathCut (pkgStart url)).length) := by
  rw [packageName, initUrl, pkgLen_eq]
  generalize appendFront _ _ = appended
  cases appended with
  | none => rfl
  | some name => rfl

theorem packageName_eq_iff (url : List Char) {front : List Char}
    (isFront : front <+: pkgStart url) :
    packageName url = some front ↔
      toInt (pathCut (pkgStart url)).length = front.length := by
  have within := (pathCut_front (pkgStart url)).length_le
  have copied := toInt_le (pathCut (pkgStart url)).length
  rw [packageName_eq]
  exact appendFront_eq_iff
    (Int.le_trans copied (Int.ofNat_le.mpr within)) isFront

theorem initUrl_of_fits {url : List Char}
    (fits : (pathCut (pkgStart url)).length < 2 ^ 31) :
    initUrl url = some (hapPrefix ++ pkgStart url, pathCut (pkgStart url)) := by
  have keeps := List.prefix_iff_eq_take.mp (pathCut_front (pkgStart url))
  have length := toInt_of_lt fits
  rw [initUrl, pkgLen_eq, length, appendFront, if_neg (by omega),
    Int.toNat_natCast, ← keeps]
  rfl

theorem handlePackageName_of_onlyAsPrefix {url : List Char}
    (placed : OnlyAsPrefix url) :
    handlePackageName url = delimiterCut (pkgStart url) := by
  have start : (match findPattern hapPrefix url with
      | some pos => url.drop (pos + hapPrefix.length)
      | none => url) = pkgStart url := by
    cases found : findPattern hapPrefix url with
    | none =>
        have absent : ¬hapPrefix <+: url := by
          rw [← findPattern_eq_zero_iff, found]
          simp
        exact (pkgStart_of_otherStart absent).symm
    | some pos =>
        obtain ⟨front, back, rfl, length⟩ := findPattern_some found
        have atStart := placed front back rfl
        subst atStart
        subst length
        simp [pkgStart_append]
  rw [handlePackageName, start]
  exact take_nearer '/' '?' (pkgStart url)

theorem handlePackageName_append (rest : List Char) :
    handlePackageName (hapPrefix ++ rest) = delimiterCut rest := by
  have found : findPattern hapPrefix (hapPrefix ++ rest) = some 0 :=
    (findPattern_eq_zero_iff _ _).mpr (List.prefix_append _ _)
  have start : (hapPrefix ++ rest).drop (0 + hapPrefix.length) = rest := by
    simp
  rw [handlePackageName, found]
  simp only [start]
  exact take_nearer '/' '?' rest

private theorem delimiterCut_of_noSlash {text : List Char}
    (noSlash : '/' ∉ text) :
    delimiterCut text = text.takeWhile (· ≠ '?') := by
  have both := List.takeWhile_takeWhile (· ≠ '?') (· ≠ '/') text
  rw [takeWhile_ne_of_not_mem noSlash] at both
  rw [both, delimiterCut]
  congr 1
  funext item
  simp [and_comm]

theorem onNavigateToApp_target (bits : Nat) (rest : List Char)
    (querystring : Option (List Char)) :
    ∃ intent, onNavigateToApp bits ⟨hapPrefix ++ rest, querystring⟩ =
        some intent ∧
      intent.target =
        if '/' ∈ rest then pathCut rest else delimiterCut rest := by
  refine ⟨_, onNavigateToApp_append bits rest querystring, ?_⟩
  by_cases slash : '/' ∈ rest
  · rw [if_pos slash]
    obtain ⟨pkg, path, rfl, absent⟩ := List.eq_append_cons_of_mem slash
    rw [idxOf?_append_cons absent]
    rw [pathCut, takeWhile_ne_append_cons absent]
    exact targetPackage_of_path bits pkg path
      (((pkg ++ '/' :: path).idxOf? '?').map (hapPrefix.length + ·))
  · rw [if_neg slash, idxOf?_absent slash, delimiterCut_of_noSlash slash]
    by_cases query : '?' ∈ rest
    · obtain ⟨pkg, data, rfl, absent⟩ := List.eq_append_cons_of_mem query
      rw [idxOf?_append_cons absent]
      rw [takeWhile_ne_append_cons absent]
      exact targetPackage_of_query
    · rw [idxOf?_absent query, takeWhile_ne_of_not_mem query]
      simp [targetPackage, substrFrom]

private theorem cut_of_domain {url : List Char}
    (domain : OnlyAsPrefix url ∨ hapPrefix <+: url) :
    handlePackageName url = delimiterCut (pkgStart url) := by
  cases domain with
  | inl placed => exact handlePackageName_of_onlyAsPrefix placed
  | inr isPrefix =>
      obtain ⟨rest, rfl⟩ := isPrefix
      rw [handlePackageName_append, pkgStart_append]

private theorem delimiterCut_of_pathCut (text : List Char) :
    delimiterCut text = (pathCut text).takeWhile (· ≠ '?') := by
  rw [pathCut, List.takeWhile_takeWhile, delimiterCut]
  congr 1
  funext item
  simp [and_comm]

/-- The first delimiter is the first `/`, or the end of the text, exactly when
no `?` comes before. -/
theorem length_pathCut_eq_iff (text : List Char) :
    (pathCut text).length = (delimiterCut text).length ↔
      '?' ∉ pathCut text := by
  rw [delimiterCut_of_pathCut]
  constructor
  · intro lengths query
    obtain ⟨before, after, split, absent⟩ := List.eq_append_cons_of_mem query
    rw [split, takeWhile_ne_append_cons absent] at lengths
    simp only [List.length_append, List.length_cons] at lengths
    omega
  · intro noQuery
    rw [takeWhile_ne_of_not_mem noQuery]

private theorem toInt_pathCut_iff (text : List Char) :
    toInt (pathCut text).length = (delimiterCut text).length ↔
      ((pathCut text).length < 2 ^ 31 → '?' ∉ pathCut text) ∧
        (2 ^ 31 ≤ (pathCut text).length →
          toInt (pathCut text).length = (delimiterCut text).length) := by
  by_cases fits : (pathCut text).length < 2 ^ 31
  · rw [toInt_of_lt fits, Int.ofNat_inj, length_pathCut_eq_iff]
    constructor
    · intro noQuery
      exact ⟨fun _ => noQuery, fun long => absurd fits (by omega)⟩
    · intro both
      exact both.1 fits
  · constructor
    · intro same
      exact ⟨fun short => absurd short fits, fun _ => same⟩
    · intro both
      exact both.2 (by omega)

/-- For every URL: the three cuts yield one name, and it ends at the first
delimiter, if and only if no `?` comes before the first `/`, but for lengths
that wrap around in the `int`. -/
theorem onePackageName_iff (bits : Nat) (url : List Char) :
    OnePackageName bits url ↔ CutsAgree url := by
  constructor
  · intro agrees
    have lengths (domain : OnlyAsPrefix url ∨ hapPrefix <+: url) :
        toInt (pathCut (pkgStart url)).length =
          (delimiterCut (pkgStart url)).length := by
      apply (packageName_eq_iff url (delimiterCut_front _)).mp
      cases domain with
      | inl placed =>
          rw [agrees.handled placed]
          exact congrArg some (handlePackageName_of_onlyAsPrefix placed)
      | inr isPrefix => exact agrees.cut isPrefix
    constructor
    · intro domain
      exact ((toInt_pathCut_iff _).mp (lengths domain)).1
    · intro domain
      exact ((toInt_pathCut_iff _).mp (lengths domain)).2
    · intro isPrefix slash
      obtain ⟨intent, returned, _, handled⟩ := agrees.navigated isPrefix none
      rw [cut_of_domain (.inr isPrefix)] at handled
      obtain ⟨rest, rfl⟩ := isPrefix
      obtain ⟨other, same, target⟩ := onNavigateToApp_target bits rest none
      rw [returned, Option.some.injEq] at same
      rw [pkgStart_append] at slash handled ⊢
      rw [if_pos slash, ← same] at target
      rw [← length_pathCut_eq_iff, ← target, handled]
  · intro cuts
    have named (domain : OnlyAsPrefix url ∨ hapPrefix <+: url) :
        packageName url = some (delimiterCut (pkgStart url)) := by
      apply (packageName_eq_iff url (delimiterCut_front _)).mpr
      exact (toInt_pathCut_iff _).mpr
        ⟨cuts.noQuery domain, cuts.wrapped domain⟩
    constructor
    · intro placed
      rw [named (.inl placed), cut_of_domain (.inl placed)]
    · intro isPrefix querystring
      have name := named (.inr isPrefix)
      have handled := cut_of_domain (.inr isPrefix)
      have slash := cuts.slash isPrefix
      obtain ⟨rest, rfl⟩ := isPrefix
      obtain ⟨intent, returned, target⟩ :=
        onNavigateToApp_target bits rest querystring
      rw [pkgStart_append] at name handled slash
      have same : intent.target = delimiterCut rest := by
        rw [target]
        split
        · rename_i present
          rw [delimiterCut_of_pathCut,
            takeWhile_ne_of_not_mem (slash present)]
        · rfl
      exact ⟨intent, returned, by rw [name, same], by rw [handled, same]⟩
    · intro isPrefix
      exact named (.inr isPrefix)

/-- A query behind the package: the permission manager checks the name with
the query in it, the other two use the name without it. -/
theorem onePackageName_query :
    packageName "hap://app/com.a?x=1".toList = some "com.a?x=1".toList ∧
      handlePackageName "hap://app/com.a?x=1".toList = "com.a".toList ∧
      onNavigateToApp 64 ⟨"hap://app/com.a?x=1".toList, none⟩ =
        some ⟨"com.a".toList, "?x=1".toList⟩ ∧
      ¬OnePackageName 64 "hap://app/com.a?x=1".toList := by
  have handled : handlePackageName "hap://app/com.a?x=1".toList =
      "com.a".toList := by decide
  have named : packageName "hap://app/com.a?x=1".toList =
      some "com.a?x=1".toList := by
    rw [packageName, initUrl_of_fits (by decide)]
    rfl
  refine ⟨named, handled, by decide, ?_⟩
  intro agrees
  obtain ⟨intent, _, target, same⟩ := agrees.navigated (by decide) none
  rw [named, ← same, handled] at target
  exact absurd target (by decide)

end QuickApp.Url
