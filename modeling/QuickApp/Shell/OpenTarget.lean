import QuickApp.Shell.LaunchUrl
import QuickApp.Url.RoundTrip

/-!
# Opening the URL of another application

The application a URL asks for is started with the target of the intent as its
package name.  `onCreate` or `onResume` puts target and data together again,
and the result has to be the URL that was navigated to.
-/

namespace QuickApp.Shell.OpenTarget

open QuickApp.Strings QuickApp.Url QuickApp.Shell.LaunchUrl

private theorem hapPrefix_slash : '/' ∈ hapPrefix := by
  decide

private theorem hapPrefix_noQuery : '?' ∉ hapPrefix := by
  decide

private theorem pkgStart_of_noSlash {pkg : List Char}
    (noSlash : '/' ∉ pkg) : pkgStart pkg = pkg := by
  apply pkgStart_of_otherStart
  intro isPrefix
  exact noSlash (isPrefix.subset hapPrefix_slash)

private theorem warmUrl_of_noDelimiter {pkg : List Char} (data : List Char)
    (noSlash : '/' ∉ pkg) (noQuery : '?' ∉ pkg) :
    warmUrl pkg data = hapPrefix ++ pkg ++ data := by
  have start := pkgStart_of_noSlash noSlash
  have handled : handlePackageName pkg = pkg := by
    rw [handlePackageName_of_noDelimiter, start]
    · rw [start]
      exact noSlash
    · rw [start]
      exact noQuery
  rw [warmUrl_eq_intentUrl, Startup.QuickActivity.intentUrl, handled]

/-- The prefix has no `?`, so only what stands before one can begin with it. -/
private theorem prefix_query_iff (front query : List Char) :
    hapPrefix <+: front.takeWhile (· ≠ '?') ++ '?' :: query ↔
      hapPrefix <+: front := by
  have cut : (front.takeWhile (· ≠ '?') ++ '?' :: query).takeWhile
      (· ≠ '?') = front.takeWhile (· ≠ '?') := by
    apply takeWhile_ne_append_cons
    intro member
    have kept := List.mem_takeWhile_imp member
    simp at kept
  rw [← prefix_takeWhile_ne_iff hapPrefix_noQuery, cut,
    prefix_takeWhile_ne_iff hapPrefix_noQuery]

/-- Replacing the query does not touch a prefix. -/
private theorem requestedUri_nested_iff {rest opened : List Char}
    {querystring : Option (List Char)}
    (spelled : hapPrefix ++ opened =
      requestedUri ⟨hapPrefix ++ rest, querystring⟩) :
    hapPrefix <+: opened ↔ hapPrefix <+: rest := by
  rw [requestedUri] at spelled
  split at spelled
  · rw [List.append_cancel_left spelled]
  · rw [takeWhile_ne_append hapPrefix_noQuery, List.append_assoc] at spelled
    rw [List.append_cancel_left spelled]
    exact prefix_query_iff rest _

/-- The URL is kept: the intent spells it, and `initUrl` takes a second prefix
away. -/
private theorem opened_of_faithful {rest : List Char}
    {querystring : Option (List Char)} {intent : Intent}
    (fits : (requestedUri ⟨hapPrefix ++ rest, querystring⟩).length < 2 ^ 31)
    (faithful : Faithful ⟨hapPrefix ++ rest, querystring⟩ intent) :
    warmUrl intent.target intent.data =
        requestedUri ⟨hapPrefix ++ rest, querystring⟩ ∧
      (coldUrl intent.target intent.data =
          some (requestedUri ⟨hapPrefix ++ rest, querystring⟩) ↔
        ¬hapPrefix <+: rest) := by
  have spelled := faithful.uri
  constructor
  · rw [warmUrl_of_noDelimiter intent.data faithful.noSlash faithful.noQuery]
    exact spelled
  · rw [List.append_assoc] at spelled
    rw [← requestedUri_nested_iff spelled, ← spelled, coldUrl_eq]
    rw [← spelled, List.length_append] at fits
    have within := (pathCut_front
      (pkgStart (intent.target ++ intent.data))).length_le
    constructor
    · intro same isPrefix
      obtain ⟨behind, split⟩ := isPrefix
      rw [← split, pkgStart_append] at same
      split at same
      · have lengths := congrArg List.length (Option.some.inj same)
        have positive : 0 < hapPrefix.length := by decide
        simp only [List.length_append] at lengths
        omega
      · cases same
    · intro absent
      rw [pkgStart_of_otherStart absent] at within ⊢
      have small : (pathCut (intent.target ++ intent.data)).length < 2 ^ 31 := by
        omega
      rw [if_pos]
      rw [Nat.mod_eq_of_lt]
      · exact small
      · exact small.trans (by decide)

/-- The package ends behind a `?`, and between it and the query the path
stands, of which at least the `/` is copied. -/
private theorem navigated_of_queryBeforePath {bits : Nat} {rest : List Char}
    (querystring : Option (List Char))
    (fits : (hapPrefix ++ rest).length < 2 ^ bits)
    (cutShort : ¬PathBeforeQuery (hapPrefix ++ rest)) :
    ∃ pkg query path params,
      onNavigateToApp bits ⟨hapPrefix ++ rest, querystring⟩ =
        some ⟨pkg ++ '?' :: query, '/' :: path ++ params⟩ ∧
      '/' ∉ pkg ++ '?' :: query ∧ '?' ∉ pkg ∧
      requestedUri ⟨hapPrefix ++ rest, querystring⟩ =
        hapPrefix ++ pkg ++ params := by
  rw [pathBeforeQuery_iff, Classical.not_imp, not_not] at cutShort
  obtain ⟨slash, queried⟩ := cutShort
  obtain ⟨front, path, rfl, noSlash⟩ := List.eq_append_cons_of_mem slash
  rw [pathCut, takeWhile_ne_append_cons noSlash] at queried
  obtain ⟨pkg, query, rfl, noQuery⟩ := List.eq_append_cons_of_mem queried
  have position : (pkg ++ '?' :: query ++ '/' :: path).idxOf? '?' =
      some pkg.length := by
    simpa using idxOf?_append_cons noQuery (query ++ '/' :: path)
  have requested := requestedUri_of_query noQuery (query ++ '/' :: path)
    querystring
  have built := onNavigateToApp_append bits
    (pkg ++ '?' :: query ++ '/' :: path) querystring
  rw [idxOf?_append_cons noSlash, position] at built
  simp only [Option.map_some, targetPackage_of_path] at built
  -- The wrapped difference of the positions is still a positive count.
  obtain ⟨count, width⟩ : ∃ count, sizeSub bits
      (hapPrefix.length + pkg.length)
      (hapPrefix.length + (pkg ++ '?' :: query).length) = count + 1 := by
    simp only [List.length_append, List.length_cons] at fits ⊢
    rw [sizeSub, if_neg (by omega)]
    apply Nat.exists_eq_add_of_le'
    omega
  have copied : targetPath bits
      (hapPrefix ++ (pkg ++ '?' :: query ++ '/' :: path))
      (some (hapPrefix.length + (pkg ++ '?' :: query).length))
      (some (hapPrefix.length + pkg.length)) =
        '/' :: path.take count := by
    rw [targetPath, width, substr_append_length, List.drop_left,
      List.take_succ_cons]
  rw [copied] at built
  refine ⟨pkg, query, path.take count, _, built, noSlash, noQuery, ?_⟩
  simpa using requested

/-- The package is cut out of the address or doubles the query in it, and the
path is in front of the query as well. -/
private theorem opened_of_queryBeforePath {rest pkg query path params :
      List Char}
    {querystring : Option (List Char)}
    (noSlash : '/' ∉ pkg ++ '?' :: query) (noQuery : '?' ∉ pkg)
    (requested : requestedUri ⟨hapPrefix ++ rest, querystring⟩ =
      hapPrefix ++ pkg ++ params) :
    warmUrl (pkg ++ '?' :: query) ('/' :: path ++ params) ≠
        requestedUri ⟨hapPrefix ++ rest, querystring⟩ ∧
      coldUrl (pkg ++ '?' :: query) ('/' :: path ++ params) ≠
        some (requestedUri ⟨hapPrefix ++ rest, querystring⟩) := by
  constructor
  · intro same
    have placed : OnlyAsPrefix (pkg ++ '?' :: query) := by
      intro front back split
      rw [split] at noSlash
      exact absurd (List.mem_append_left back
        (List.mem_append_right front hapPrefix_slash)) noSlash
    have handled := handlePackageName_of_onlyAsPrefix placed
    rw [pkgStart_of_noSlash noSlash, delimiterCut_eq, pathCut,
      takeWhile_ne_of_not_mem noSlash, takeWhile_ne_append_cons noQuery]
      at handled
    rw [warmUrl_eq_intentUrl, Startup.QuickActivity.intentUrl, handled,
      requested] at same
    have lengths := congrArg List.length same
    simp only [List.length_append, List.length_cons] at lengths
    omega
  · intro same
    have otherStart : ¬hapPrefix <+:
        pkg ++ '?' :: query ++ ('/' :: path ++ params) := by
      intro isPrefix
      rw [← prefix_takeWhile_ne_iff hapPrefix_noQuery, List.append_assoc,
        List.cons_append, takeWhile_ne_append_cons noQuery] at isPrefix
      exact noSlash (List.mem_append_left _
        (isPrefix.subset hapPrefix_slash))
    rw [coldUrl_eq, pkgStart_of_otherStart otherStart, requested] at same
    split at same
    · have lengths := congrArg List.length (Option.some.inj same)
      simp only [List.length_append, List.length_cons] at lengths
      omega
    · cases same

/-- For every URL with the prefix and every query string that fit their types:
the application is routed to the requested URL when it runs already if and only
if the path comes before the query, and starts with that URL if and only if
moreover the prefix does not come twice. -/
theorem opened_iff (bits : Nat) (info : QAppRouteInfo)
    (prefixed : hapPrefix <+: info.uri) (fits : info.uri.length < 2 ^ bits)
    (short : (requestedUri info).length < 2 ^ 31) :
    ((∃ intent, onNavigateToApp bits info = some intent ∧
        warmUrl intent.target intent.data = requestedUri info) ↔
      PathBeforeQuery info.uri) ∧
    ((∃ intent, onNavigateToApp bits info = some intent ∧
        coldUrl intent.target intent.data = some (requestedUri info)) ↔
      PathBeforeQuery info.uri ∧ ¬hapPrefix <+: pkgStart info.uri) := by
  obtain ⟨uri, querystring⟩ := info
  obtain ⟨rest, rfl⟩ := prefixed
  rw [pkgStart_append]
  by_cases kept : PathBeforeQuery (hapPrefix ++ rest)
  · obtain ⟨intent, returned, faithful⟩ :=
      (navigates_of_layout bits querystring (layout rest)).mpr kept
    obtain ⟨warm, cold⟩ := opened_of_faithful short faithful
    constructor
    · exact iff_of_true ⟨intent, returned, warm⟩ kept
    · constructor
      · rintro ⟨other, again, opened⟩
        rw [returned, Option.some.injEq] at again
        subst again
        exact ⟨kept, cold.mp opened⟩
      · rintro ⟨_, once⟩
        exact ⟨intent, returned, cold.mpr once⟩
  · obtain ⟨pkg, query, path, params, returned, noSlash, noQuery,
      requested⟩ := navigated_of_queryBeforePath querystring fits kept
    obtain ⟨warm, cold⟩ := opened_of_queryBeforePath noSlash noQuery requested
    constructor
    · refine iff_of_false ?_ kept
      rintro ⟨intent, again, opened⟩
      rw [returned, Option.some.injEq] at again
      subst again
      exact warm opened
    · refine iff_of_false ?_ fun both => kept both.1
      rintro ⟨intent, again, opened⟩
      rw [returned, Option.some.injEq] at again
      subst again
      exact cold opened

/-- The prefix of the shell's own URL, handed over once more: an application
that runs is routed there, one that starts loses the second prefix. -/
theorem opened_iff_nested :
    (∃ intent, onNavigateToApp 64
        ⟨"hap://app/hap://app/com.a".toList, none⟩ = some intent ∧
      warmUrl intent.target intent.data =
        "hap://app/hap://app/com.a".toList) ∧
    ¬∃ intent, onNavigateToApp 64
        ⟨"hap://app/hap://app/com.a".toList, none⟩ = some intent ∧
      coldUrl intent.target intent.data =
        some "hap://app/hap://app/com.a".toList := by
  have opened := opened_iff 64
    ⟨"hap://app/hap://app/com.a".toList, none⟩ (by decide) (by decide)
    (by decide)
  constructor
  · apply opened.1.mpr
    rw [show "hap://app/hap://app/com.a".toList =
      hapPrefix ++ "hap://app/com.a".toList from rfl, pathBeforeQuery_iff]
    exact fun _ => by decide
  · intro cold
    exact (opened.2.mp cold).2 (by decide)

end QuickApp.Shell.OpenTarget
