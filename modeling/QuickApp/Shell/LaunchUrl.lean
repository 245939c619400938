import QuickApp.Shell.Startup

/-!
# Cold start and warm start

`QuickActivity::onCreate` hands the package name and the data of the intent to
the shell as one string, and `ShellApp::initUrl` takes a prefix off that.
`onResume` routes a running application to the data of a new intent and takes
the package name out of the package name first, by `handle_package_name`.

All strings are C strings here, without terminators inside.
-/

namespace QuickApp.Shell.LaunchUrl

open QuickApp.Url

/-- `uri` in `onCreate`. -/
def createUri (packageName data : List Char) : List Char :=
  if data ≠ [] then packageName ++ data else packageName

/-- `url_` of the shell that `onCreate` makes, unless its constructor
throws. -/
def coldUrl (packageName data : List Char) : Option (List Char) :=
  (Url.initUrl (createUri packageName data)).map Prod.fst

/-- `url` in `onResume`. -/
def warmUrl (packageName data : List Char) : List Char :=
  let url := hapPrefix ++ handlePackageName packageName
  if data ≠ [] then url ++ data else url

theorem warmUrl_eq_intentUrl (packageName data : List Char) :
    warmUrl packageName data =
      Startup.QuickActivity.intentUrl { packageName } data := by
  rw [warmUrl, Startup.QuickActivity.intentUrl]
  cases data with
  | nil => simp
  | cons head data => simp

/-- What the package name and the data have to be: behind the prefix the name
has no delimiter, the prefix does not reach into the data, and an `int` holds
the length up to the first `/`. -/
structure OneAddress (packageName data : List Char) : Prop where
  noPath : '/' ∉ pkgStart packageName
  noQuery : '?' ∉ pkgStart packageName
  prefixInName : hapPrefix <+: packageName ++ data →
    hapPrefix <+: packageName
  lengthFits :
    (pathCut (pkgStart (packageName ++ data))).length % 2 ^ 32 < 2 ^ 31

variable {packageName data : List Char}

theorem pkgStart_append_data
    (inName : hapPrefix <+: packageName ++ data → hapPrefix <+: packageName) :
    pkgStart (packageName ++ data) = pkgStart packageName ++ data := by
  by_cases isPrefix : hapPrefix <+: packageName
  · obtain ⟨rest, rfl⟩ := isPrefix
    rw [List.append_assoc, pkgStart_append, pkgStart_append]
  · rw [pkgStart_of_otherStart isPrefix,
      pkgStart_of_otherStart (mt inName isPrefix)]

theorem delimiter_not_mem_handlePackageName (pkg : List Char) {item : Char}
    (isDelimiter : item = '/' ∨ item = '?') :
    item ∉ handlePackageName pkg := by
  intro member
  obtain ⟨text, cut⟩ : ∃ text, handlePackageName pkg = delimiterCut text :=
    ⟨_, Strings.take_nearer '/' '?' _⟩
  rw [cut] at member
  have kept := List.mem_takeWhile_imp member
  rcases isDelimiter with rfl | rfl
  · simp at kept
  · simp at kept

private theorem delimiterCut_of_not_mem {text : List Char}
    (noPath : '/' ∉ text) (noQuery : '?' ∉ text) :
    delimiterCut text = text := by
  rw [delimiterCut, List.takeWhile_eq_self_iff]
  intro item member
  have notPath : item ≠ '/' := fun same => noPath (same ▸ member)
  have notQuery : item ≠ '?' := fun same => noQuery (same ▸ member)
  simp [notPath, notQuery]

theorem handlePackageName_of_noDelimiter
    (noPath : '/' ∉ pkgStart packageName)
    (noQuery : '?' ∉ pkgStart packageName) :
    handlePackageName packageName = pkgStart packageName := by
  by_cases isPrefix : hapPrefix <+: packageName
  · obtain ⟨rest, rfl⟩ := isPrefix
    rw [pkgStart_append] at noPath noQuery ⊢
    rw [handlePackageName_append]
    exact delimiterCut_of_not_mem noPath noQuery
  · have placed : OnlyAsPrefix packageName := by
      intro front back split
      rw [pkgStart_of_otherStart isPrefix, split] at noPath
      have inPrefix : '/' ∈ hapPrefix := by decide
      exact absurd (List.mem_append_left back
        (List.mem_append_right front inPrefix)) noPath
    rw [handlePackageName_of_onlyAsPrefix placed]
    exact delimiterCut_of_not_mem noPath noQuery

/-- A prefix that reaches into the data takes more than there was of it in the
name. -/
private theorem prefixInName_of_same
    (same : pkgStart (packageName ++ data) =
      handlePackageName packageName ++ data)
    (isPrefix : hapPrefix <+: packageName ++ data) :
    hapPrefix <+: packageName := by
  obtain ⟨rest, split⟩ := isPrefix
  have lengths := congrArg List.length same
  rw [← split, pkgStart_append, List.length_append] at lengths
  have whole := congrArg List.length split
  rw [List.length_append, List.length_append] at whole
  apply List.prefix_of_prefix_length_le ⟨rest, split⟩
    (List.prefix_append packageName data)
  omega

/-- Apart from the length, both addresses are one exactly when their pieces
are. -/
theorem pkgStart_eq_iff :
    pkgStart (packageName ++ data) = handlePackageName packageName ++ data ↔
      '/' ∉ pkgStart packageName ∧ '?' ∉ pkgStart packageName ∧
        (hapPrefix <+: packageName ++ data → hapPrefix <+: packageName) := by
  constructor
  · intro same
    have inName := prefixInName_of_same same
    rw [pkgStart_append_data inName] at same
    rw [List.append_cancel_right same]
    refine ⟨?_, ?_, inName⟩
    · exact delimiter_not_mem_handlePackageName packageName (.inl rfl)
    · exact delimiter_not_mem_handlePackageName packageName (.inr rfl)
  · rintro ⟨noPath, noQuery, inName⟩
    rw [pkgStart_append_data inName,
      handlePackageName_of_noDelimiter noPath noQuery]

theorem createUri_eq (packageName data : List Char) :
    createUri packageName data = packageName ++ data := by
  rw [createUri]
  split
  · rfl
  · rename_i empty
    rw [not_not.mp empty, List.append_nil]

private theorem bmod_nonneg_iff (length modulus : Nat)
    (positive : 0 < modulus) :
    0 ≤ Int.bmod length modulus ↔ length % modulus < (modulus + 1) / 2 := by
  have below := Nat.mod_lt length positive
  rw [Int.bmod, ← Int.natCast_emod]
  split
  · omega
  · omega

private theorem toInt_nonneg_iff (length : Nat) :
    0 ≤ toInt length ↔ length % 2 ^ 32 < 2 ^ 31 :=
  bmod_nonneg_iff length (2 ^ 32) (Nat.two_pow_pos 32)

/-- The constructor keeps everything behind the prefix, or throws. -/
theorem coldUrl_eq (packageName data : List Char) :
    coldUrl packageName data =
      if (pathCut (pkgStart (packageName ++ data))).length % 2 ^ 32 < 2 ^ 31
      then some (hapPrefix ++ pkgStart (packageName ++ data))
      else none := by
  rw [coldUrl, createUri_eq, Url.initUrl, pkgLen_eq, appendFront]
  by_cases fits : (pathCut (pkgStart (packageName ++ data))).length % 2 ^ 32 <
      2 ^ 31
  · have kept := (toInt_nonneg_iff _).mpr fits
    rw [if_pos fits, if_neg (by omega)]
    rfl
  · have negative := mt (toInt_nonneg_iff _).mp fits
    rw [if_neg fits, if_pos (by omega)]
    rfl

/-- For every package name and all data: a cold start opens the address a warm
start is routed to if and only if the two together spell one address. -/
theorem coldUrl_eq_warmUrl_iff (packageName data : List Char) :
    coldUrl packageName data = some (warmUrl packageName data) ↔
      OneAddress packageName data := by
  have warm : warmUrl packageName data =
      hapPrefix ++ (handlePackageName packageName ++ data) := by
    rw [warmUrl_eq_intentUrl, Startup.QuickActivity.intentUrl,
      List.append_assoc]
  rw [coldUrl_eq, warm]
  constructor
  · intro same
    split at same
    · rename_i fits
      have pieces := List.append_cancel_left (Option.some.inj same)
      obtain ⟨noPath, noQuery, inName⟩ := pkgStart_eq_iff.mp pieces
      exact ⟨noPath, noQuery, inName, fits⟩
    · cases same
  · intro address
    have pieces := pkgStart_eq_iff.mpr
      ⟨address.noPath, address.noQuery, address.prefixInName⟩
    rw [if_pos address.lengthFits, pieces]

/-- A path in the package name is kept by a cold start only. -/
theorem coldUrl_ne_warmUrl_path :
    coldUrl "com.a/page".toList "/x".toList =
        some "hap://app/com.a/page/x".toList ∧
      warmUrl "com.a/page".toList "/x".toList =
        "hap://app/com.a/x".toList ∧
      coldUrl "com.a/page".toList "/x".toList ≠
        some (warmUrl "com.a/page".toList "/x".toList) := by
  have cold : coldUrl "com.a/page".toList "/x".toList =
      some "hap://app/com.a/page/x".toList := by
    rw [coldUrl_eq]
    decide
  have warm : warmUrl "com.a/page".toList "/x".toList =
      "hap://app/com.a/x".toList := by
    decide
  refine ⟨cold, warm, ?_⟩
  rw [cold, warm]
  decide

end QuickApp.Shell.LaunchUrl
