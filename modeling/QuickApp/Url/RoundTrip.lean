import QuickApp.Url.PackageName

/-!
# URLs and intents

A navigation turns a URL into the target and the data of an intent; prefix,
target and data one after the other are a URL again.  The intents that come
back from it are those with a target free of delimiters and data that begin
with a path, or with a query that has no `/`.

A navigation leads to such an intent when the URL has no `?` before its first
`/` and a query string with a `/` has a path to stand behind.
-/

namespace QuickApp.Url

open QuickApp.Strings

/-- The URL an intent stands for. -/
def intentUri (intent : Intent) : List Char :=
  hapPrefix ++ (intent.target ++ intent.data)

/-- The data of an intent: nothing, a path with or without a query, or a query
without a `/`. -/
inductive DataShape : List Char → Prop where
  | empty : DataShape []
  | path (path : List Char) : DataShape ('/' :: path)
  | query {query : List Char} (noSlash : '/' ∉ query) :
      DataShape ('?' :: query)

structure Canonical (intent : Intent) : Prop where
  noSlash : '/' ∉ intent.target
  noQuery : '?' ∉ intent.target
  shape : DataShape intent.data

/-- A first `?` in front of the first `/` is the one thing to look for. -/
theorem pathBeforeQuery_iff (rest : List Char) :
    PathBeforeQuery (hapPrefix ++ rest) ↔
      ('/' ∈ rest → '?' ∉ pathCut rest) := by
  simp only [PathBeforeQuery, find_append]
  by_cases slash : '/' ∈ rest
  · obtain ⟨before, after, rfl, absent⟩ := List.eq_append_cons_of_mem slash
    have cut : pathCut (before ++ '/' :: after) = before :=
      takeWhile_ne_append_cons absent
    rw [idxOf?_append_cons absent, cut]
    by_cases query : '?' ∈ before
    · obtain ⟨front, back, rfl, noQuery⟩ := List.eq_append_cons_of_mem query
      have position : ((front ++ '?' :: back) ++ '/' :: after).idxOf? '?' =
          some front.length := by
        simpa using idxOf?_append_cons noQuery (back ++ '/' :: after)
      rw [position]
      simp
    · refine iff_of_true ?_ fun _ => query
      rintro _ posQuery ⟨rfl⟩ found
      by_cases later : '?' ∈ after
      · obtain ⟨front, back, rfl, noQuery⟩ := List.eq_append_cons_of_mem later
        have absentBefore : '?' ∉ before ++ '/' :: front := by
          simp [query, noQuery]
        have position :
            (before ++ '/' :: (front ++ '?' :: back)).idxOf? '?' =
              some (before ++ '/' :: front).length := by
          simpa using idxOf?_append_cons absentBefore back
        rw [position] at found
        simp only [Option.map_some, Option.some.injEq] at found
        have longer : before.length < (before ++ '/' :: front).length := by
          rw [List.length_append, List.length_cons]
          omega
        rw [← found]
        exact Nat.add_lt_add_left longer hapPrefix.length
      · have nowhere : '?' ∉ before ++ '/' :: after := by
          simp [query, later]
        rw [idxOf?_absent nowhere] at found
        cases found
  · rw [idxOf?_absent slash]
    simp [slash]

theorem delimiterCut_eq (text : List Char) :
    delimiterCut text = (pathCut text).takeWhile (· ≠ '?') := by
  rw [pathCut, List.takeWhile_takeWhile, delimiterCut]
  congr 1
  funext item
  simp [and_comm]

/-- The package of a URL whose path comes first ends at the first
delimiter. -/
private theorem navigated_of_pathBeforeQuery (bits : Nat) {rest : List Char}
    (querystring : Option (List Char))
    (kept : PathBeforeQuery (hapPrefix ++ rest)) :
    ∃ data, onNavigateToApp bits ⟨hapPrefix ++ rest, querystring⟩ =
        some ⟨delimiterCut rest, data⟩ ∧
      Faithful ⟨hapPrefix ++ rest, querystring⟩
        ⟨delimiterCut rest, data⟩ := by
  obtain ⟨intent, returned, faithful⟩ :=
    (navigates_of_layout bits querystring (layout rest)).mpr kept
  obtain ⟨other, same, target⟩ := onNavigateToApp_target bits rest querystring
  rw [returned, Option.some.injEq] at same
  rw [← same] at target
  have ends : intent.target = delimiterCut rest := by
    rw [target]
    split
    · rename_i slash
      have noQuery := (pathBeforeQuery_iff rest).mp kept slash
      rw [delimiterCut_eq, takeWhile_ne_of_not_mem noQuery]
    · rfl
  obtain ⟨pkg, data⟩ := intent
  simp only at ends
  subst ends
  exact ⟨data, returned, faithful⟩

private theorem dataShape_iff {rest data : List Char}
    {querystring : Option (List Char)}
    (kept : PathBeforeQuery (hapPrefix ++ rest))
    (spelled : hapPrefix ++ delimiterCut rest ++ data =
      requestedUri ⟨hapPrefix ++ rest, querystring⟩) :
    DataShape data ↔ ('/' ∈ querystring.getD [] → '/' ∈ rest) := by
  rw [requestedUri, QAppRouteInfo.queryStr] at spelled
  have prefixNoQuery : '?' ∉ hapPrefix := by decide
  by_cases slash : '/' ∈ rest
  · refine iff_of_true ?_ fun _ => slash
    have noQuery := (pathBeforeQuery_iff rest).mp kept slash
    obtain ⟨pkg, path, rfl, absent⟩ := List.eq_append_cons_of_mem slash
    have cut : pathCut (pkg ++ '/' :: path) = pkg :=
      takeWhile_ne_append_cons absent
    rw [cut] at noQuery
    have package : delimiterCut (pkg ++ '/' :: path) = pkg := by
      rw [delimiterCut_eq, cut, takeWhile_ne_of_not_mem noQuery]
    rw [package] at spelled
    split at spelled
    · have data' : data = '/' :: path := by simpa using spelled
      rw [data']
      exact .path path
    · have front : (hapPrefix ++ (pkg ++ '/' :: path)).takeWhile (· ≠ '?') =
          hapPrefix ++ pkg ++ '/' :: path.takeWhile (· ≠ '?') := by
        have absentBefore : '?' ∉ hapPrefix ++ pkg := by
          simp [prefixNoQuery, noQuery]
        rw [← List.append_assoc, takeWhile_ne_append absentBefore]
        simp
      rw [front] at spelled
      have data' : data = '/' :: (path.takeWhile (· ≠ '?') ++
          '?' :: querystring.getD []) := by simpa using spelled
      rw [data']
      exact .path _
  · have package : delimiterCut rest = rest.takeWhile (· ≠ '?') := by
      rw [delimiterCut_eq, pathCut, takeWhile_ne_of_not_mem slash]
    rw [package] at spelled
    split at spelled
    · rename_i none
      refine iff_of_true ?_ (by simp [none])
      by_cases query : '?' ∈ rest
      · obtain ⟨pkg, text, rfl, absent⟩ := List.eq_append_cons_of_mem query
        rw [takeWhile_ne_append_cons absent] at spelled
        have data' : data = '?' :: text := by simpa using spelled
        rw [data']
        exact .query fun member => slash (by simp [member])
      · rw [takeWhile_ne_of_not_mem query] at spelled
        have data' : data = [] := by simpa using spelled
        rw [data']
        exact .empty
    · rw [takeWhile_ne_append prefixNoQuery] at spelled
      have data' : data = '?' :: querystring.getD [] := by
        simpa using spelled
      rw [data']
      constructor
      · intro shape member
        cases shape with
        | query noSlash => exact absurd member noSlash
      · intro noSlash
        exact .query fun member => slash (noSlash member)

/-- For every URL with the prefix and every query string: the navigation leads
to an intent that spells a URL, and with that URL back to itself, if and only
if the path comes first and a query with a `/` stands behind one. -/
private theorem canonical_iff (bits : Nat) (rest : List Char)
    (querystring : Option (List Char)) :
    (∃ intent, onNavigateToApp bits ⟨hapPrefix ++ rest, querystring⟩ =
        some intent ∧ Canonical intent) ↔
      PathBeforeQuery (hapPrefix ++ rest) ∧
        ('/' ∈ querystring.getD [] → '/' ∈ rest) := by
  constructor
  · rintro ⟨intent, returned, canonical⟩
    have kept : PathBeforeQuery (hapPrefix ++ rest) := by
      rw [pathBeforeQuery_iff]
      intro slash query
      obtain ⟨other, same, target⟩ :=
        onNavigateToApp_target bits rest querystring
      rw [returned, Option.some.injEq] at same
      rw [if_pos slash, ← same] at target
      exact canonical.noQuery (target ▸ query)
    obtain ⟨data, again, faithful⟩ :=
      navigated_of_pathBeforeQuery bits querystring kept
    rw [returned, Option.some.injEq] at again
    subst again
    exact ⟨kept, (dataShape_iff kept faithful.uri).mp canonical.shape⟩
  · rintro ⟨kept, placed⟩
    obtain ⟨data, returned, faithful⟩ :=
      navigated_of_pathBeforeQuery bits querystring kept
    refine ⟨_, returned, faithful.noSlash, faithful.noQuery, ?_⟩
    exact (dataShape_iff kept faithful.uri).mpr placed

private theorem pathBeforeQuery_of_canonical {intent : Intent}
    (canonical : Canonical intent) :
    PathBeforeQuery (intentUri intent) ∧
      delimiterCut (intent.target ++ intent.data) = intent.target := by
  obtain ⟨target, data⟩ := intent
  obtain ⟨noSlash, noQuery, shape⟩ := canonical
  simp only at noSlash noQuery shape
  simp only [intentUri, pathBeforeQuery_iff, delimiterCut_eq]
  cases shape with
  | empty =>
      simp only [List.append_nil]
      have cut : pathCut target = target := takeWhile_ne_of_not_mem noSlash
      rw [cut, takeWhile_ne_of_not_mem noQuery]
      exact ⟨fun _ => noQuery, rfl⟩
  | path path =>
      have cut : pathCut (target ++ '/' :: path) = target :=
        takeWhile_ne_append_cons noSlash
      rw [cut, takeWhile_ne_of_not_mem noQuery]
      exact ⟨fun _ => noQuery, rfl⟩
  | @query query noSlashQuery =>
      have absent : '/' ∉ target ++ '?' :: query := by
        simp [noSlash, noSlashQuery]
      have cut : pathCut (target ++ '?' :: query) = target ++ '?' :: query :=
        takeWhile_ne_of_not_mem absent
      rw [cut, takeWhile_ne_append_cons noQuery]
      exact ⟨fun slash => absurd slash absent, rfl⟩

/-- A URL that comes back to its intent has its path first: otherwise the
query would be in the package and in the data. -/
private theorem pathBeforeQuery_of_returned {bits : Nat} {intent : Intent}
    (returned : onNavigateToApp bits ⟨intentUri intent, none⟩ =
      some intent) : PathBeforeQuery (intentUri intent) := by
  rw [intentUri, pathBeforeQuery_iff]
  intro slash query
  obtain ⟨front, path, split, noSlash⟩ := List.eq_append_cons_of_mem slash
  have cut : pathCut (intent.target ++ intent.data) = front := by
    rw [split]
    exact takeWhile_ne_append_cons noSlash
  rw [cut] at query
  obtain ⟨pkg, rest, rfl, noQuery⟩ := List.eq_append_cons_of_mem query
  have position : (intent.target ++ intent.data).idxOf? '?' =
      some pkg.length := by
    rw [split]
    simpa using idxOf?_append_cons noQuery (rest ++ '/' :: path)
  have built := onNavigateToApp_append bits (intent.target ++ intent.data) none
  rw [← intentUri, returned, position, Option.some.injEq] at built
  obtain ⟨other, same, target⟩ :=
    onNavigateToApp_target bits (intent.target ++ intent.data) none
  rw [← intentUri, returned, Option.some.injEq] at same
  rw [← same, if_pos slash, cut] at target
  -- The data hold everything from the `?` on, and stand behind the package.
  have params : (intentUri intent).length - (hapPrefix.length + pkg.length) ≤
      intent.data.length := by
    have lengths := congrArg (fun built => built.data.length) built
    simp only [Option.map_some, Option.getD_none, targetParams, if_true,
      substrFrom, List.length_append, List.length_drop] at lengths
    omega
  have whole : (intentUri intent).length =
      hapPrefix.length + (intent.target.length + intent.data.length) := by
    simp only [intentUri, List.length_append]
  rw [target, List.length_append, List.length_cons] at whole
  omega

/-- For every intent: navigating to the URL it stands for leads to the intent
again if and only if the target is free of delimiters and the data begin with
a path, or with a query that has no `/`. -/
theorem roundTrip_iff (bits : Nat) (intent : Intent) :
    onNavigateToApp bits ⟨intentUri intent, none⟩ = some intent ↔
      Canonical intent := by
  constructor
  · intro returned
    have kept := pathBeforeQuery_of_returned returned
    obtain ⟨other, again, canonical⟩ :=
      (canonical_iff bits (intent.target ++ intent.data) none).mpr
        ⟨kept, by simp⟩
    rw [← intentUri, returned, Option.some.injEq] at again
    rw [again]
    exact canonical
  · intro canonical
    obtain ⟨kept, package⟩ := pathBeforeQuery_of_canonical canonical
    obtain ⟨data, returned, faithful⟩ :=
      navigated_of_pathBeforeQuery bits none kept
    have spelled := faithful.uri
    rw [package] at returned spelled
    have same : data = intent.data := by
      simpa [requestedUri, QAppRouteInfo.queryStr] using spelled
    rw [same] at returned
    exact returned

/-- For every URL with the prefix and every query string: the navigation leads
to an intent whose URL leads to it again if and only if the path of the URL
comes before its query, and a given query string with a `/` stands behind a
path. -/
theorem stable_iff (bits : Nat) (info : QAppRouteInfo)
    (prefixed : hapPrefix <+: info.uri) :
    (∃ intent, onNavigateToApp bits info = some intent ∧
        onNavigateToApp bits ⟨intentUri intent, none⟩ = some intent) ↔
      PathBeforeQuery info.uri ∧
        ('/' ∈ info.queryStr → '/' ∈ pkgStart info.uri) := by
  obtain ⟨uri, querystring⟩ := info
  obtain ⟨rest, rfl⟩ := prefixed
  rw [pkgStart_append]
  have shape := canonical_iff bits rest querystring
  refine Iff.trans ?_ shape
  constructor
  · rintro ⟨intent, returned, again⟩
    exact ⟨intent, returned, (roundTrip_iff bits intent).mp again⟩
  · rintro ⟨intent, returned, canonical⟩
    exact ⟨intent, returned, (roundTrip_iff bits intent).mpr canonical⟩

/-- A query string with a `/` behind a package without a path: the intent is
`com.a` with `?u=/b`, and its URL leads to `com.a?u=` with `/b?u=/b`. -/
theorem stable_iff_slashInQuery :
    ¬∃ intent,
      onNavigateToApp 64 ⟨"hap://app/com.a".toList, some "u=/b".toList⟩ =
        some intent ∧
      onNavigateToApp 64 ⟨intentUri intent, none⟩ = some intent := by
  rw [stable_iff 64 _ (by decide)]
  rintro ⟨_, placed⟩
  have slash := placed (by decide)
  exact absurd slash (by decide)

end QuickApp.Url
