import QuickApp.Paths

/-!
# The icon of a package

`ShellApp::getIconPath` joins the package path with the icon path of the
manifest, which it first makes relative to the root directory.  A manifest may
write the icon with or without a separator in front; either way it names a
file of the package, reached from the package directory as if that were the
root.
-/

namespace QuickApp.Splash

open Paths

/-- `ShellApp::getIconPath`; the buffers hold what
`QApplicationGetPackagePath` and `QAppManifestGetIconPath` have written. -/
def getIconPath (package_buf icon_buf : Path) : Path :=
  append package_buf (lexicallyRelative icon_buf ['/'])

/-- The names of a manifest path, normalised as if rooted. -/
def rootedStack (icon : Path) : List Filename :=
  (filenames icon).foldl (normalStep true) []

/-- The icon as a file of the package. -/
def iconInside (packagePath icon : Path) : Path :=
  render true (rootedStack icon ++ normalStack packagePath) (isDirectory icon)

structure ResolvesInside (packagePath icon : Path) : Prop where
  normal : lexicallyNormal (getIconPath packagePath icon) =
    iconInside packagePath icon
  spelling : lexicallyNormal (getIconPath packagePath ('/' :: icon)) =
    lexicallyNormal (getIconPath packagePath icon)
  inside : filenames (lexicallyNormal packagePath) <+:
    filenames (lexicallyNormal (getIconPath packagePath icon))

/-- No `..` of the icon path climbs above the package, unless the package is
the root directory itself; and the icon path is rooted, unless it names the
package itself. -/
structure KeepsToPackage (packagePath icon : Path) : Prop where
  below : staysInside 0 (filenames icon) = true ∨ normalStack packagePath = []
  rooted : isAbsolute icon = true ∨ rootedStack icon = []

variable {packagePath icon : Path}

private theorem rooted_rootedStack (icon : Path) :
    Rooted (rootedStack icon) :=
  rooted_foldl (fun _ => plain_of_mem_filenames) rooted_nil

theorem lexicallyNormal_getIconPath_rooted
    (absolute : isAbsolute packagePath = true)
    (named : filenames icon ≠ []) (isRooted : isAbsolute icon = true) :
    lexicallyNormal (getIconPath packagePath icon) =
      render true
        ((filenames icon).foldl (normalStep true) (normalStack packagePath))
        (isDirectory icon) := by
  have relative : isAbsolute (joined icon) = false := isAbsolute_joined
  have names : filenames (joined icon) = filenames icon := filenames_joined
  have isAbs : isAbsolute (append packagePath (joined icon)) = true := by
    rw [isAbsolute_append packagePath relative, absolute]
  have directory : isDirectory (append packagePath (joined icon)) =
      isDirectory icon := by
    rw [isDirectory_append packagePath relative (by rw [names]; exact named),
      isDirectory_joined named]
  rw [getIconPath, lexicallyRelative_root isRooted named,
    lexicallyNormal_of_absolute isAbs, directory, normalStack, isAbs,
    filenames_append packagePath relative, names, List.foldl_append,
    normalStack, absolute]

theorem lexicallyNormal_getIconPath_relative
    (absolute : isAbsolute packagePath = true)
    (isRelative : isAbsolute icon = false) :
    lexicallyNormal (getIconPath packagePath icon) =
      render true (normalStack packagePath) true := by
  have relative : isAbsolute [] = false := rfl
  have isAbs : isAbsolute (append packagePath []) = true := by
    rw [isAbsolute_append packagePath relative, absolute]
  have stack : normalStack (append packagePath []) =
      normalStack packagePath := by
    rw [normalStack, normalStack, isAbs, absolute,
      filenames_append packagePath relative, filenames_nil, List.append_nil]
  rw [getIconPath, lexicallyRelative_root_of_relative isRelative,
    lexicallyNormal_of_absolute isAbs, stack]
  by_cases named : filenames packagePath = []
  · have empty : normalStack packagePath = [] := by
      rw [normalStack, named]
      rfl
    rw [empty, render, render]
    simp
  · rw [isDirectory_append_nil named]

private theorem isDirectory_of_rootedStack_nil (named : filenames icon ≠ [])
    (empty : rootedStack icon = []) : isDirectory icon = true := by
  obtain ⟨front, last, names⟩ :=
    (List.eq_nil_or_concat' (filenames icon)).resolve_left named
  rw [rootedStack, names, List.foldl_append, List.foldl_cons,
    List.foldl_nil] at empty
  rw [isDirectory_eq, names]
  rcases filename_cases last with rfl | rfl | ⟨notDot, notDotDot⟩
  · simp
  · simp
  · rw [normalStep_name true _ notDot notDotDot] at empty
    cases empty

private theorem isDirectory_rooted (named : filenames icon ≠ []) :
    isDirectory ('/' :: icon) = isDirectory icon := by
  have nonempty : icon ≠ [] := by
    rintro rfl
    exact named filenames_nil
  rw [isDirectory_eq, isDirectory_eq, endsOpen, endsOpen, filenames_rooted,
    List.getLast?_cons_of_ne_nil nonempty]

private theorem normal_rooted_iff (absolute : isAbsolute packagePath = true)
    (named : filenames icon ≠ []) (isRooted : isAbsolute icon = true) :
    lexicallyNormal (getIconPath packagePath icon) =
        iconInside packagePath icon ↔
      staysInside 0 (filenames icon) = true ∨
        normalStack packagePath = [] := by
  have packageRooted := rooted_normalStack absolute
  have plain : ∀ name ∈ filenames icon, Plain name :=
    fun _ => plain_of_mem_filenames
  rw [lexicallyNormal_getIconPath_rooted absolute named isRooted, iconInside,
    ← foldl_eq_append_iff plain packageRooted]
  constructor
  · apply Rooted.eq_of_render (rooted_foldl plain packageRooted)
    exact List.forall_mem_append.mpr
      ⟨rooted_rootedStack icon, packageRooted⟩
  · intro same
    rw [same, rootedStack]

private theorem normal_relative_iff (absolute : isAbsolute packagePath = true)
    (named : filenames icon ≠ []) (isRelative : isAbsolute icon = false) :
    lexicallyNormal (getIconPath packagePath icon) =
      iconInside packagePath icon ↔ rootedStack icon = [] := by
  have packageRooted := rooted_normalStack absolute
  rw [lexicallyNormal_getIconPath_relative absolute isRelative, iconInside]
  constructor
  · intro same
    have sameStack := packageRooted.eq_of_render
      (List.forall_mem_append.mpr ⟨rooted_rootedStack icon, packageRooted⟩)
      same
    exact List.append_left_eq_self.mp sameStack.symm
  · intro empty
    rw [empty, isDirectory_of_rootedStack_nil named empty, List.nil_append]

private theorem iconInside_separator (named : filenames icon ≠ []) :
    iconInside packagePath ('/' :: icon) = iconInside packagePath icon := by
  rw [iconInside, iconInside, rootedStack, rootedStack, filenames_rooted,
    isDirectory_rooted named]

private theorem normal_separator_iff
    (absolute : isAbsolute packagePath = true)
    (named : filenames icon ≠ []) :
    lexicallyNormal (getIconPath packagePath ('/' :: icon)) =
        iconInside packagePath icon ↔
      staysInside 0 (filenames icon) = true ∨
        normalStack packagePath = [] := by
  have rootedNamed : filenames ('/' :: icon) ≠ [] := by
    rw [filenames_rooted]
    exact named
  have rule := normal_rooted_iff absolute rootedNamed rfl
  rw [iconInside_separator named, filenames_rooted] at rule
  exact rule

private theorem prefix_of_normal (absolute : isAbsolute packagePath = true)
    (normal : lexicallyNormal (getIconPath packagePath icon) =
      iconInside packagePath icon) :
    filenames (lexicallyNormal packagePath) <+:
      filenames (lexicallyNormal (getIconPath packagePath icon)) := by
  have packageRooted := rooted_normalStack absolute
  have plain : ∀ name ∈ rootedStack icon ++ normalStack packagePath,
      Plain name := by
    intro name member
    rcases List.mem_append.mp member with icons | packages
    · exact (rooted_rootedStack icon name icons).1
    · exact (packageRooted name packages).1
  rw [normal, filenames_lexicallyNormal absolute, iconInside,
    filenames_render true _ plain, List.reverse_append]
  exact List.prefix_append _ _

/-- The icon path resolves to the icon of the package, in both spellings, if
and only if the icon path keeps to the package. -/
theorem getIconPath_resolves_iff (packagePath icon : Path)
    (absolute : isAbsolute packagePath = true)
    (named : filenames icon ≠ []) :
    ResolvesInside packagePath icon ↔ KeepsToPackage packagePath icon := by
  have separator := normal_separator_iff absolute named
  constructor
  · intro resolves
    have below := separator.mp (resolves.spelling.trans resolves.normal)
    refine ⟨below, ?_⟩
    cases isRooted : isAbsolute icon with
    | true => exact .inl rfl
    | false =>
        right
        exact (normal_relative_iff absolute named isRooted).mp
          resolves.normal
  · intro keeps
    have normal : lexicallyNormal (getIconPath packagePath icon) =
        iconInside packagePath icon := by
      cases isRooted : isAbsolute icon with
      | true =>
          exact (normal_rooted_iff absolute named isRooted).mpr keeps.below
      | false =>
          apply (normal_relative_iff absolute named isRooted).mpr
          exact keeps.rooted.resolve_left (by simp [isRooted])
    exact ⟨normal, (separator.mpr keeps.below).trans normal.symm,
      prefix_of_normal absolute normal⟩

/-- A rooted icon path without `..` is found in the package. -/
theorem getIconPath_resolves_common :
    ResolvesInside "/data/app/com.a".toList "/Common/icon.png".toList :=
  (getIconPath_resolves_iff "/data/app/com.a".toList
    "/Common/icon.png".toList (by decide) (by decide)).mpr
    ⟨by decide, by decide⟩

/-- Without the separator in front the name of the icon is lost, and a `..`
in front leaves the package. -/
theorem getIconPath_loses_relative_and_escapes :
    getIconPath "/pkg".toList "a/b".toList = "/pkg/".toList ∧
      ¬ResolvesInside "/pkg".toList "a/b".toList ∧
      lexicallyNormal (getIconPath "/pkg".toList "/../x".toList) =
        "/x".toList ∧
      ¬ResolvesInside "/pkg".toList "/../x".toList := by
  refine ⟨by decide, ?_, by decide, ?_⟩
  · intro resolves
    exact absurd resolves.normal (by decide)
  · intro resolves
    exact absurd resolves.normal (by decide)

end QuickApp.Splash
