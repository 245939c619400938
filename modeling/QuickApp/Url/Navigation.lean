import QuickApp.Strings

/-!
# Navigation to another application

`ActivityDelegate::onNavigateToApp` cuts a URI into the target package and the
data of an intent.  It searches the first `/` and the first `?` behind the
prefix independently; when the query comes first and carries a `/`, the cut at
the path takes part of the query into the package name.
-/

namespace QuickApp.Url

open QuickApp.Strings

/-- `HAP_PREFIX`. -/
def hapPrefix : List Char := "hap://app/".toList

/-- The fields of `QAppRouteInfo` the delegate reads. -/
structure QAppRouteInfo where
  uri : List Char
  querystring : Option (List Char)

/-- Target and data of an `os::app::Intent`. -/
structure Intent where
  target : List Char
  data : List Char
  deriving DecidableEq

/-- `info->querystring ? info->querystring : ""`. -/
def QAppRouteInfo.queryStr (info : QAppRouteInfo) : List Char :=
  info.querystring.getD []

/-- `pkg`, from the positions of the first `/` and the first `?`. -/
def targetPackage (bits : Nat) (uri : List Char) :
    Option Nat → Option Nat → List Char
  | none, none => substrFrom hapPrefix.length uri
  | none, some posQuery =>
      substr hapPrefix.length (sizeSub bits posQuery hapPrefix.length) uri
  | some posPath, _ =>
      substr hapPrefix.length (sizeSub bits posPath hapPrefix.length) uri

/-- `path_with_params` before the query is appended. -/
def targetPath (bits : Nat) (uri : List Char) :
    Option Nat → Option Nat → List Char
  | none, _ => []
  | some posPath, some posQuery =>
      substr posPath (sizeSub bits posQuery posPath) uri
  | some posPath, none => substrFrom posPath uri

/-- What is appended to the path. -/
def targetParams (queryStr uri : List Char) : Option Nat → List Char
  | none => if queryStr = [] then [] else '?' :: queryStr
  | some posQuery =>
      if queryStr = [] then substrFrom posQuery uri else '?' :: queryStr

/-- `ActivityDelegate::onNavigateToApp` with a `size_t` of `bits` bits: the
intent handed to `startActivity`, or `none` when it returns false. -/
def onNavigateToApp (bits : Nat) (info : QAppRouteInfo) : Option Intent :=
  if findPattern hapPrefix info.uri ≠ some 0 then none
  else
    let posPath := find '/' hapPrefix.length info.uri
    let posQuery := find '?' hapPrefix.length info.uri
    some
      { target := targetPackage bits info.uri posPath posQuery
        data := targetPath bits info.uri posPath posQuery ++
          targetParams info.queryStr info.uri posQuery }

/-- The URI a navigation asks for: its own query, or the part before the query
with the given query string in its place. -/
def requestedUri (info : QAppRouteInfo) : List Char :=
  if info.queryStr = [] then info.uri
  else info.uri.takeWhile (· ≠ '?') ++ '?' :: info.queryStr

/-- Nothing is lost or invented: the package has no delimiter, and prefix,
package and data spell the requested URI. -/
structure Faithful (info : QAppRouteInfo) (intent : Intent) : Prop where
  noSlash : '/' ∉ intent.target
  noQuery : '?' ∉ intent.target
  uri : hapPrefix ++ intent.target ++ intent.data = requestedUri info

/-- Behind the prefix, a first `/` and a first `?` come in this order. -/
def PathBeforeQuery (uri : List Char) : Prop :=
  ∀ posPath posQuery, find '/' hapPrefix.length uri = some posPath →
    find '?' hapPrefix.length uri = some posQuery → posPath < posQuery

/-- Which delimiters a text has, and which one comes first. -/
inductive Layout : List Char → Prop where
  | plain {pkg : List Char} (noSlash : '/' ∉ pkg) (noQuery : '?' ∉ pkg) :
      Layout pkg
  | query {pkg query : List Char} (noSlash : '/' ∉ pkg ++ '?' :: query)
      (noQuery : '?' ∉ pkg) : Layout (pkg ++ '?' :: query)
  | path {pkg path : List Char} (noSlash : '/' ∉ pkg)
      (noQuery : '?' ∉ pkg ++ '/' :: path) : Layout (pkg ++ '/' :: path)
  | pathQuery {pkg path query : List Char} (noSlash : '/' ∉ pkg)
      (noQuery : '?' ∉ pkg ++ '/' :: path) :
      Layout (pkg ++ '/' :: (path ++ '?' :: query))
  | queryPath {pkg query path : List Char} (noQuery : '?' ∉ pkg)
      (noSlash : '/' ∉ pkg ++ '?' :: query) :
      Layout (pkg ++ '?' :: (query ++ '/' :: path))

theorem layout (text : List Char) : Layout text := by
  by_cases slash : '/' ∈ text
  · obtain ⟨front, path, rfl, noSlash⟩ := List.eq_append_cons_of_mem slash
    by_cases query : '?' ∈ front
    · obtain ⟨pkg, rest, rfl, noQuery⟩ := List.eq_append_cons_of_mem query
      have shape : Layout (pkg ++ '?' :: (rest ++ '/' :: path)) :=
        .queryPath noQuery noSlash
      simpa using shape
    · by_cases later : '?' ∈ path
      · obtain ⟨before, rest, rfl, noQuery⟩ :=
          List.eq_append_cons_of_mem later
        exact .pathQuery noSlash (by simp [query, noQuery])
      · exact .path noSlash (by simp [query, later])
  · by_cases query : '?' ∈ text
    · obtain ⟨pkg, rest, rfl, noQuery⟩ := List.eq_append_cons_of_mem query
      exact .query slash noQuery
    · exact .plain slash query

private theorem find_behindPrefix (item : Char) (rest : List Char) :
    find item hapPrefix.length (hapPrefix ++ rest) =
      (rest.idxOf? item).map (hapPrefix.length + ·) :=
  find_append item hapPrefix rest

theorem idxOf?_absent {item : Char} {text : List Char}
    (absent : item ∉ text) : text.idxOf? item = none :=
  List.idxOf?_eq_none_iff.mpr absent

/-- The intent for a URI that starts with the prefix, from the cuts of what
comes behind it. -/
theorem onNavigateToApp_append (bits : Nat) (rest : List Char)
    (querystring : Option (List Char)) :
    onNavigateToApp bits ⟨hapPrefix ++ rest, querystring⟩ =
      some
        { target := targetPackage bits (hapPrefix ++ rest)
            ((rest.idxOf? '/').map (hapPrefix.length + ·))
            ((rest.idxOf? '?').map (hapPrefix.length + ·))
          data := targetPath bits (hapPrefix ++ rest)
              ((rest.idxOf? '/').map (hapPrefix.length + ·))
              ((rest.idxOf? '?').map (hapPrefix.length + ·)) ++
            targetParams (querystring.getD []) (hapPrefix ++ rest)
              ((rest.idxOf? '?').map (hapPrefix.length + ·)) } := by
  have found : findPattern hapPrefix (hapPrefix ++ rest) = some 0 :=
    (findPattern_eq_zero_iff _ _).mpr (List.prefix_append _ _)
  simp only [onNavigateToApp, found, find_behindPrefix,
    QAppRouteInfo.queryStr, ne_eq, not_true_eq_false, if_false]

theorem targetPackage_of_path (bits : Nat) (pkg path : List Char)
    (posQuery : Option Nat) :
    targetPackage bits (hapPrefix ++ (pkg ++ '/' :: path))
      (some (hapPrefix.length + pkg.length)) posQuery = pkg := by
  have ordered : hapPrefix.length ≤ hapPrefix.length + pkg.length := by omega
  have cut := substr_append_length hapPrefix (pkg ++ '/' :: path) 0
    (sizeSub bits (hapPrefix.length + pkg.length) hapPrefix.length)
  simp only [targetPackage]
  simpa [sizeSub_of_le ordered] using cut

theorem targetPackage_of_query {bits : Nat} {pkg query : List Char} :
    targetPackage bits (hapPrefix ++ (pkg ++ '?' :: query)) none
      (some (hapPrefix.length + pkg.length)) = pkg := by
  have ordered : hapPrefix.length ≤ hapPrefix.length + pkg.length := by omega
  have cut := substr_append_length hapPrefix (pkg ++ '?' :: query) 0
    (sizeSub bits (hapPrefix.length + pkg.length) hapPrefix.length)
  simp only [targetPackage]
  simpa [sizeSub_of_le ordered] using cut

private theorem hapPrefix_noQuery : '?' ∉ hapPrefix := by decide

private theorem requestedUri_of_noQuery {rest : List Char}
    (noQuery : '?' ∉ rest) (querystring : Option (List Char)) :
    requestedUri ⟨hapPrefix ++ rest, querystring⟩ =
      hapPrefix ++ rest ++ targetParams (querystring.getD [])
        (hapPrefix ++ rest) none := by
  have absent : '?' ∉ hapPrefix ++ rest := by
    simp [hapPrefix_noQuery, noQuery]
  simp only [requestedUri, QAppRouteInfo.queryStr, targetParams]
  by_cases given : querystring.getD [] = []
  · simp [given]
  · simp only [given, if_false]
    rw [takeWhile_ne_of_not_mem absent]

theorem requestedUri_of_query {before : List Char}
    (noQuery : '?' ∉ before) (query : List Char) (querystring : Option (List Char)) :
    requestedUri ⟨hapPrefix ++ (before ++ '?' :: query), querystring⟩ =
      hapPrefix ++ before ++ targetParams (querystring.getD [])
        (hapPrefix ++ (before ++ '?' :: query))
        (some (hapPrefix.length + before.length)) := by
  have absent : '?' ∉ hapPrefix ++ before := by
    simp [hapPrefix_noQuery, noQuery]
  simp only [requestedUri, QAppRouteInfo.queryStr, targetParams]
  by_cases given : querystring.getD [] = []
  · simp [given]
  · simp only [given, if_false]
    rw [← List.append_assoc, takeWhile_ne_append_cons absent]

private theorem targetPath_of_path {bits : Nat} {pkg path : List Char} :
    targetPath bits (hapPrefix ++ (pkg ++ '/' :: path))
      (some (hapPrefix.length + pkg.length)) none = '/' :: path := by
  simp [targetPath]

private theorem targetPath_of_pathQuery {bits : Nat}
    {pkg path query : List Char} :
    targetPath bits (hapPrefix ++ (pkg ++ '/' :: (path ++ '?' :: query)))
      (some (hapPrefix.length + pkg.length))
      (some (hapPrefix.length + (pkg ++ '/' :: path).length)) =
        '/' :: path := by
  have ordered : hapPrefix.length + pkg.length ≤
      hapPrefix.length + (pkg ++ '/' :: path).length := by simp
  have width : hapPrefix.length + (pkg ++ '/' :: path).length -
      (hapPrefix.length + pkg.length) = ('/' :: path).length := by
    simp only [List.length_append]
    omega
  rw [targetPath, sizeSub_of_le ordered, width, substr_append_length]
  simp

/-- The cuts of the good layouts put the URI together again. -/
private theorem faithful_of_cuts {bits : Nat} {rest before : List Char}
    {querystring : Option (List Char)} {pkg : List Char} (path : List Char)
    (posQuery : Option Nat) (noSlash : '/' ∉ pkg) (noQuery : '?' ∉ pkg)
    (package : targetPackage bits (hapPrefix ++ rest)
      ((rest.idxOf? '/').map (hapPrefix.length + ·))
      ((rest.idxOf? '?').map (hapPrefix.length + ·)) = pkg)
    (behind : targetPath bits (hapPrefix ++ rest)
      ((rest.idxOf? '/').map (hapPrefix.length + ·))
      ((rest.idxOf? '?').map (hapPrefix.length + ·)) = path)
    (position : (rest.idxOf? '?').map (hapPrefix.length + ·) = posQuery)
    (split : pkg ++ path = before)
    (requested : requestedUri ⟨hapPrefix ++ rest, querystring⟩ =
      hapPrefix ++ before ++ targetParams (querystring.getD [])
        (hapPrefix ++ rest) posQuery) :
    ∃ intent, onNavigateToApp bits ⟨hapPrefix ++ rest, querystring⟩ =
      some intent ∧ Faithful ⟨hapPrefix ++ rest, querystring⟩ intent := by
  have returned := onNavigateToApp_append bits rest querystring
  rw [package, behind, position] at returned
  refine ⟨_, returned, noSlash, noQuery, ?_⟩
  rw [requested, ← split]
  simp

theorem navigates_of_layout (bits : Nat) {rest : List Char}
    (querystring : Option (List Char)) (shape : Layout rest) :
    (∃ intent, onNavigateToApp bits ⟨hapPrefix ++ rest, querystring⟩ =
        some intent ∧ Faithful ⟨hapPrefix ++ rest, querystring⟩ intent) ↔
      PathBeforeQuery (hapPrefix ++ rest) := by
  simp only [PathBeforeQuery, find_behindPrefix]
  cases shape with
  | plain noSlash noQuery =>
      have slash := idxOf?_absent noSlash
      have query := idxOf?_absent noQuery
      refine iff_of_true ?_ (by simp [slash])
      refine faithful_of_cuts [] none noSlash noQuery ?_ ?_
        (by rw [query]; rfl) (List.append_nil _)
        (requestedUri_of_noQuery noQuery querystring)
      · simp [slash, query, targetPackage, substrFrom]
      · simp [slash, targetPath]
  | @query pkg query noSlash noQuery =>
      have slash := idxOf?_absent noSlash
      have position := idxOf?_append_cons noQuery query
      have pkgNoSlash : '/' ∉ pkg := fun member =>
        noSlash (List.mem_append_left _ member)
      refine iff_of_true ?_ (by simp [slash])
      refine faithful_of_cuts [] _ pkgNoSlash noQuery ?_ ?_
        (by rw [position]; rfl) (List.append_nil _)
        (requestedUri_of_query noQuery query querystring)
      · rw [slash, position]
        exact targetPackage_of_query
      · simp [slash, targetPath]
  | @path pkg path noSlash noQuery =>
      have slash := idxOf?_append_cons noSlash path
      have query := idxOf?_absent noQuery
      have pkgNoQuery : '?' ∉ pkg := fun member =>
        noQuery (List.mem_append_left _ member)
      refine iff_of_true ?_ (by simp [query])
      refine faithful_of_cuts _ none noSlash pkgNoQuery ?_ ?_
        (by rw [query]; rfl) rfl
        (requestedUri_of_noQuery noQuery querystring)
      · rw [slash]
        exact targetPackage_of_path _ _ _ _
      · rw [slash, query]
        exact targetPath_of_path
  | @pathQuery pkg path query noSlash noQuery =>
      have slash := idxOf?_append_cons noSlash (path ++ '?' :: query)
      have position : (pkg ++ '/' :: (path ++ '?' :: query)).idxOf? '?' =
          some (pkg ++ '/' :: path).length := by
        simpa using idxOf?_append_cons noQuery query
      have pkgNoQuery : '?' ∉ pkg := fun member =>
        noQuery (List.mem_append_left _ member)
      have requested := requestedUri_of_query noQuery query querystring
      apply iff_of_true
      · refine faithful_of_cuts ('/' :: path)
          (some (hapPrefix.length + (pkg ++ '/' :: path).length))
          noSlash pkgNoQuery ?_ ?_ (by simp [position]) rfl
          (by simpa using requested)
        · rw [slash]
          exact targetPackage_of_path _ _ _ _
        · rw [slash, position]
          exact targetPath_of_pathQuery
      · rw [slash, position]
        simp
  | @queryPath pkg query path noQuery noSlash =>
      have position := idxOf?_append_cons noQuery (query ++ '/' :: path)
      have slash : (pkg ++ '?' :: (query ++ '/' :: path)).idxOf? '/' =
          some (pkg ++ '?' :: query).length := by
        simpa using idxOf?_append_cons noSlash path
      apply iff_of_false
      · rintro ⟨intent, returned, faithful⟩
        rw [onNavigateToApp_append, slash, Option.some.injEq] at returned
        have package : intent.target = pkg ++ '?' :: query := by
          have cut := targetPackage_of_path bits (pkg ++ '?' :: query) path
            (((pkg ++ '?' :: (query ++ '/' :: path)).idxOf? '?').map
              (hapPrefix.length + ·))
          rw [← returned]
          simpa using cut
        exact faithful.noQuery (by simp [package])
      · rw [slash, position]
        simp

/-- For every URI with the prefix and every query string: the intent carries
exactly the requested URI, with a package name free of delimiters, if and only
if the URI does not have its first `?` before its first `/`. -/
theorem onNavigateToApp_faithful_iff (bits : Nat) (info : QAppRouteInfo)
    (prefixed : hapPrefix <+: info.uri) :
    (∃ intent, onNavigateToApp bits info = some intent ∧
        Faithful info intent) ↔ PathBeforeQuery info.uri := by
  obtain ⟨uri, querystring⟩ := info
  obtain ⟨rest, rfl⟩ := prefixed
  exact navigates_of_layout bits querystring (layout rest)

/-- A path and a query are both kept. -/
theorem onNavigateToApp_faithful_page :
    ∃ intent,
      onNavigateToApp 64 ⟨"hap://app/com.a/b?c".toList, none⟩ = some intent ∧
        Faithful ⟨"hap://app/com.a/b?c".toList, none⟩ intent :=
  (onNavigateToApp_faithful_iff 64 ⟨"hap://app/com.a/b?c".toList, none⟩
    (by decide)).mpr (by
      intro posPath posQuery path query
      have pathAt : posPath = 15 := by
        simpa using path.symm.trans (by decide : _ = some 15)
      have queryAt : posQuery = 17 := by
        simpa using query.symm.trans (by decide : _ = some 17)
      omega)

/-- A `/` inside the query is cut into the package name, and the query is
carried twice. -/
theorem onNavigateToApp_slash_in_query :
    onNavigateToApp 64 ⟨"hap://app/com.a?u=/b".toList, none⟩ =
        some ⟨"com.a?u=".toList, "/b?u=/b".toList⟩ ∧
      ¬∃ intent,
        onNavigateToApp 64 ⟨"hap://app/com.a?u=/b".toList, none⟩ =
          some intent ∧
        Faithful ⟨"hap://app/com.a?u=/b".toList, none⟩ intent := by
  have returned : onNavigateToApp 64 ⟨"hap://app/com.a?u=/b".toList, none⟩ =
      some ⟨"com.a?u=".toList, "/b?u=/b".toList⟩ := by decide
  refine ⟨returned, ?_⟩
  rintro ⟨intent, same, faithful⟩
  rw [returned, Option.some.injEq] at same
  exact faithful.noQuery (same ▸ by decide)

end QuickApp.Url
