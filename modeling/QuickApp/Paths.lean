import Mathlib.Data.List.Basic
import Mathlib.Data.List.Induction

/-!
# Lexical paths

The part of `std::filesystem::path` that looks at the text of a path only, as
it is on POSIX: a path has no root name, and it is absolute when it starts
with a separator.  Between the elements of the iteration and the text stand
the filenames, the pieces between separators.

What a path means is read off its normal form: a stack of names from the root
on, which `.` leaves alone and `..` shortens.
-/

namespace QuickApp.Paths

abbrev Path := List Char
abbrev Filename := List Char

/-- The two filenames with a meaning of their own. -/
def dot : Filename := ['.']

def dotDot : Filename := ['.', '.']

def isAbsolute (path : Path) : Bool :=
  path.head? == some '/'

def filenames (path : Path) : List Filename :=
  (path.splitOn '/').filter fun name => !name.isEmpty

/-- The text ends with a separator behind a filename; the iteration then has
an empty element at its end. -/
def endsOpen (path : Path) : Bool :=
  !(filenames path).isEmpty && path.getLast? == some '/'

/-- The elements from `begin()` to `end()`. -/
def elements (path : Path) : List Filename :=
  (if isAbsolute path then [['/']] else []) ++ filenames path ++
    (if endsOpen path then [[]] else [])

def hasFilename (path : Path) : Bool :=
  !path.isEmpty && path.getLast? != some '/'

/-- `operator/=`. -/
def append (path other : Path) : Path :=
  if isAbsolute other then other
  else if hasFilename path then path ++ '/' :: other
  else path ++ other

/-- The remaining elements from the first mismatch on. -/
def mismatch : List Filename → List Filename →
    List Filename × List Filename
  | left :: lefts, right :: rights =>
      if left = right then mismatch lefts rights
      else (left :: lefts, right :: rights)
  | lefts, rights => (lefts, rights)

/-- How many directories the elements descend. -/
def depth (names : List Filename) : Int :=
  (names.countP fun name => name != dot && name != dotDot && name != []) -
    names.countP (· == dotDot)

def lexicallyRelative (path base : Path) : Path :=
  if isAbsolute path ≠ isAbsolute base then []
  else
    match mismatch (elements path) (elements base) with
    | ([], []) => dot
    | (rest, baseRest) =>
        if depth baseRest < 0 then []
        else if depth baseRest = 0 ∧ rest.headD [] = [] then dot
        else
          rest.foldl append
            ((List.replicate (depth baseRest).toNat dotDot).foldl append [])

/-- One filename of the normalisation; the stack has its top first. -/
def normalStep (absolute : Bool) (stack : List Filename) (name : Filename) :
    List Filename :=
  if name = dot then stack
  else if name = dotDot then
    match stack with
    | [] => if absolute then [] else [dotDot]
    | top :: rest => if top = dotDot then dotDot :: top :: rest else rest
  else name :: stack

/-- The names of the normal form, the last one first. -/
def normalStack (path : Path) : List Filename :=
  (filenames path).foldl (normalStep (isAbsolute path)) []

/-- The last element of the iteration names a directory. -/
def isDirectory (path : Path) : Bool :=
  match (elements path).getLast? with
  | some name => name == [] || name == dot || name == dotDot
  | none => false

/-- The text of a normal form. -/
def render (absolute : Bool) (stack : List Filename) (directory : Bool) :
    Path :=
  (if absolute then ['/'] else []) ++ ['/'].intercalate stack.reverse ++
    (if directory && !stack.isEmpty && stack.head? != some dotDot then ['/']
      else [])

def lexicallyNormal (path : Path) : Path :=
  if path = [] then []
  else
    match render (isAbsolute path) (normalStack path) (isDirectory path) with
    | [] => dot
    | text => text

/-- What a filename can be. -/
def Plain (name : Filename) : Prop :=
  name ≠ [] ∧ '/' ∉ name

theorem filenames_separator (left right : Path) :
    filenames (left ++ '/' :: right) = filenames left ++ filenames right := by
  rw [filenames, List.splitOn_append_cons_self, List.filter_append]
  rfl

theorem filenames_nil : filenames [] = [] := by
  simp [filenames]

theorem filenames_rooted (path : Path) :
    filenames ('/' :: path) = filenames path := by
  have split := filenames_separator [] path
  rw [filenames_nil, List.nil_append, List.nil_append] at split
  exact split

theorem filenames_of_plain {name : Filename} (plain : Plain name) :
    filenames name = [name] := by
  rw [filenames, List.splitOn_eq_singleton plain.2]
  simp [plain.1]

private theorem not_mem_of_mem_splitOn {path : Path} {piece : Filename}
    (member : piece ∈ path.splitOn '/') : '/' ∉ piece := by
  induction path generalizing piece with
  | nil =>
      rw [List.splitOn_nil, List.mem_singleton] at member
      simp [member]
  | cons head path induction =>
      rw [List.splitOn_cons_eq_if_modifyHead] at member
      split at member
      · rcases List.mem_cons.mp member with rfl | later
        · simp
        · exact induction later
      · rename_i different
        cases pieces : path.splitOn '/' with
        | nil => simp [pieces] at member
        | cons first others =>
            rw [pieces, List.modifyHead_cons] at member
            rw [pieces] at induction
            rcases List.mem_cons.mp member with rfl | later
            · have firstPlain := induction List.mem_cons_self
              have headPlain : '/' ≠ head := by
                intro same
                apply different
                rw [← same]
                rfl
              simp [headPlain, firstPlain]
            · exact induction (List.mem_cons_of_mem _ later)

theorem plain_of_mem_filenames {path : Path} {name : Filename}
    (member : name ∈ filenames path) : Plain name := by
  obtain ⟨piece, nonempty⟩ := List.mem_filter.mp member
  exact ⟨by simpa using nonempty, not_mem_of_mem_splitOn piece⟩

theorem isAbsolute_of_plain {name : Filename} (plain : Plain name) :
    isAbsolute name = false := by
  cases name with
  | nil => rfl
  | cons head name =>
      have notSeparator : head ≠ '/' := by
        intro same
        exact plain.2 (same ▸ List.mem_cons_self)
      simpa [isAbsolute] using notSeparator

theorem filenames_append (path : Path) {other : Path}
    (relative : isAbsolute other = false) :
    filenames (append path other) = filenames path ++ filenames other := by
  rw [append, if_neg (by simp [relative])]
  split
  · exact filenames_separator path other
  · rename_i noFilename
    cases path using List.reverseRecOn with
    | nil => rw [filenames_nil, List.nil_append, List.nil_append]
    | append_singleton front last =>
        have isSeparator : last = '/' := by
          simpa [hasFilename] using noFilename
        subst isSeparator
        have before := filenames_separator front []
        rw [filenames_nil, List.append_nil] at before
        rw [List.append_assoc, List.singleton_append, before]
        exact filenames_separator front other

theorem isAbsolute_append (path : Path) {other : Path}
    (relative : isAbsolute other = false) :
    isAbsolute (append path other) = isAbsolute path := by
  rw [append, if_neg (by simp [relative])]
  cases path with
  | nil => simpa [hasFilename, isAbsolute] using relative
  | cons first rest => split <;> rfl

/-- Whether a path names a directory is seen from its last filename and from
a separator behind it. -/
theorem isDirectory_eq (path : Path) :
    isDirectory path = (endsOpen path ||
      (filenames path).getLast?.any fun name =>
        name == dot || name == dotDot) := by
  rw [isDirectory, elements]
  cases isOpen : endsOpen path with
  | true => simp
  | false =>
      rw [if_neg Bool.false_ne_true, List.append_nil, Bool.false_or]
      cases last : (filenames path).getLast? with
      | none =>
          rw [List.getLast?_eq_none_iff.mp last, List.append_nil]
          cases isAbsolute path with
          | true => rfl
          | false => rfl
      | some name =>
          have plain := plain_of_mem_filenames (List.mem_of_getLast? last)
          rw [List.getLast?_append, last]
          simp [List.isEmpty_eq_false_iff.mpr plain.1]

private theorem nonempty_of_named {path : Path} (named : filenames path ≠ []) :
    path ≠ [] := by
  intro empty
  rw [empty] at named
  exact named filenames_nil

theorem endsOpen_append (path : Path) {other : Path}
    (relative : isAbsolute other = false) (named : filenames other ≠ []) :
    endsOpen (append path other) = endsOpen other := by
  have nonempty := nonempty_of_named named
  have sameLast : (append path other).getLast? = other.getLast? := by
    rw [append, if_neg (by simp [relative])]
    split
    · rw [List.getLast?_append_cons, List.getLast?_cons_of_ne_nil nonempty]
    · exact List.getLast?_append_of_ne_nil path nonempty
  have bothNamed : filenames path ++ filenames other ≠ [] :=
    List.append_ne_nil_of_right_ne_nil _ named
  rw [endsOpen, endsOpen, sameLast, filenames_append path relative,
    List.isEmpty_eq_false_iff.mpr bothNamed,
    List.isEmpty_eq_false_iff.mpr named]

theorem isDirectory_append (path : Path) {other : Path}
    (relative : isAbsolute other = false) (named : filenames other ≠ []) :
    isDirectory (append path other) = isDirectory other := by
  rw [isDirectory_eq, isDirectory_eq, endsOpen_append path relative named,
    filenames_append path relative, List.getLast?_append_of_ne_nil _ named]

theorem isDirectory_append_nil {path : Path} (named : filenames path ≠ []) :
    isDirectory (append path []) = true := by
  have relative : isAbsolute [] = false := rfl
  have isOpen : endsOpen (append path []) = true := by
    rw [endsOpen, filenames_append path relative, filenames_nil,
      List.append_nil]
    have nonempty := nonempty_of_named named
    rw [append, if_neg (by simp [relative])]
    split
    · simp [named]
    · rename_i noFilename
      simpa [named, hasFilename, nonempty] using noFilename
  rw [isDirectory_eq, isOpen, Bool.true_or]

theorem isAbsolute_foldl {names : List Filename}
    (plain : ∀ name ∈ names, Plain name) (start : Path) :
    isAbsolute (names.foldl append start) = isAbsolute start := by
  induction names generalizing start with
  | nil => rfl
  | cons name names induction =>
      obtain ⟨head, rest⟩ := List.forall_mem_cons.mp plain
      rw [List.foldl_cons, induction rest,
        isAbsolute_append start (isAbsolute_of_plain head)]

theorem filenames_foldl {names : List Filename}
    (plain : ∀ name ∈ names, Plain name) (start : Path) :
    filenames (names.foldl append start) = filenames start ++ names := by
  induction names generalizing start with
  | nil => exact (List.append_nil _).symm
  | cons name names induction =>
      obtain ⟨head, rest⟩ := List.forall_mem_cons.mp plain
      rw [List.foldl_cons, induction rest,
        filenames_append start (isAbsolute_of_plain head),
        filenames_of_plain head, List.append_assoc, List.singleton_append]

theorem endsOpen_foldl {names : List Filename}
    (plain : ∀ name ∈ names, Plain name) (start : Path)
    (named : names ≠ []) :
    endsOpen (names.foldl append start) = false := by
  obtain ⟨front, last, rfl⟩ :=
    (List.eq_nil_or_concat' names).resolve_left named
  have lastPlain := plain last (by simp)
  have closed : endsOpen last = false := by
    rw [endsOpen, Bool.and_eq_false_iff]
    right
    rw [beq_eq_false_iff_ne]
    intro separator
    exact lastPlain.2 (List.mem_of_getLast? separator)
  rw [List.foldl_append, List.foldl_cons, List.foldl_nil,
    endsOpen_append _ (isAbsolute_of_plain lastPlain)]
  · exact closed
  · rw [filenames_of_plain lastPlain]
    exact List.cons_ne_nil _ _

/-- The elements behind the root directory, joined again. -/
def joined (path : Path) : Path :=
  (filenames path ++ if endsOpen path then [[]] else []).foldl append []

section Joined

variable {path : Path}

private theorem plain_filenames (path : Path) :
    ∀ name ∈ filenames path, Plain name :=
  fun _ => plain_of_mem_filenames

theorem isAbsolute_joined : isAbsolute (joined path) = false := by
  rw [joined, List.foldl_append]
  have front := isAbsolute_foldl (plain_filenames path) []
  split
  · rw [List.foldl_cons, List.foldl_nil, isAbsolute_append _ rfl, front]
    rfl
  · exact front

theorem filenames_joined : filenames (joined path) = filenames path := by
  rw [joined, List.foldl_append]
  have front := filenames_foldl (plain_filenames path) []
  rw [filenames_nil, List.nil_append] at front
  split
  · rw [List.foldl_cons, List.foldl_nil, filenames_append _ rfl, front,
      filenames_nil, List.append_nil]
  · exact front

theorem isDirectory_joined (named : filenames path ≠ []) :
    isDirectory (joined path) = isDirectory path := by
  have names : filenames (joined path) = filenames path := filenames_joined
  rw [joined, List.foldl_append] at names ⊢
  cases isOpen : endsOpen path with
  | true =>
      have front := filenames_foldl (plain_filenames path) []
      rw [filenames_nil, List.nil_append] at front
      rw [isDirectory_eq path, isOpen, Bool.true_or]
      exact isDirectory_append_nil (by rw [front]; exact named)
  | false =>
      rw [isOpen] at names
      have closed := endsOpen_foldl (plain_filenames path) [] named
      rw [isDirectory_eq, isDirectory_eq, isOpen]
      simp only [Bool.false_eq_true, if_false, List.foldl_nil] at names ⊢
      rw [names, closed]

/-- Relative to the root directory a rooted path loses its separators in
front, and all that are doubled. -/
theorem lexicallyRelative_root (absolute : isAbsolute path = true)
    (named : filenames path ≠ []) :
    lexicallyRelative path ['/'] = joined path := by
  have base : elements ['/'] = [['/']] := by decide
  have notRelative : ¬isAbsolute path ≠ isAbsolute ['/'] := by
    rw [absolute]
    exact fun different => different rfl
  obtain ⟨first, others, split⟩ := List.exists_cons_of_ne_nil named
  have firstPlain : Plain first :=
    plain_filenames path first (by rw [split]; exact List.mem_cons_self)
  have rest : elements path =
      ['/'] :: first :: (others ++ if endsOpen path then [[]] else []) := by
    rw [elements, absolute, split]
    rfl
  have flat : depth [] = 0 := rfl
  have behind : mismatch (elements path) (elements ['/']) =
      (first :: (others ++ if endsOpen path then [[]] else []), []) := by
    rw [rest, base]
    rfl
  rw [lexicallyRelative, if_neg notRelative, behind, joined, split]
  simp only [flat, List.headD_cons, firstPlain.1]
  rfl

/-- A path without root directory has no relation to the root directory. -/
theorem lexicallyRelative_root_of_relative
    (relative : isAbsolute path = false) :
    lexicallyRelative path ['/'] = [] := by
  rw [lexicallyRelative, if_pos]
  rw [relative]
  exact Bool.false_ne_true

end Joined

private theorem filenames_intercalate {names : List Filename}
    (plain : ∀ name ∈ names, Plain name) :
    filenames (['/'].intercalate names) = names := by
  induction names with
  | nil => exact filenames_nil
  | cons name names induction =>
      obtain ⟨head, rest⟩ := List.forall_mem_cons.mp plain
      cases names with
      | nil =>
          rw [List.intercalate_singleton]
          exact filenames_of_plain head
      | cons second others =>
          rw [List.intercalate_cons_cons, List.append_assoc,
            List.singleton_append, filenames_separator,
            filenames_of_plain head, induction rest]
          rfl

theorem filenames_render (absolute directory : Bool)
    {stack : List Filename} (plain : ∀ name ∈ stack, Plain name) :
    filenames (render absolute stack directory) = stack.reverse := by
  have inner : ∀ {text : Path}, text = [] ∨ text = ['/'] →
      filenames (['/'].intercalate stack.reverse ++ text) =
        stack.reverse := by
    intro text ending
    have names := filenames_intercalate fun name member =>
      plain name (List.mem_reverse.mp member)
    rcases ending with rfl | rfl
    · rw [List.append_nil]
      exact names
    · rw [filenames_separator, names, filenames_nil, List.append_nil]
  rw [render, List.append_assoc]
  have ending : ∀ condition : Bool,
      (if condition then ['/'] else []) = [] ∨
        (if condition then ['/'] else []) = ['/'] := by
    intro condition
    cases condition with
    | false => exact .inl rfl
    | true => exact .inr rfl
  cases absolute with
  | false => exact inner (ending _)
  | true =>
      rw [if_pos rfl, List.singleton_append, filenames_rooted]
      exact inner (ending _)

/-- No `..` comes when all names since a point `depth` names down from there
are gone. -/
def staysInside : Nat → List Filename → Bool
  | _, [] => true
  | depth, name :: names =>
      if name = dot then staysInside depth names
      else if name = dotDot then
        depth != 0 && staysInside (depth - 1) names
      else staysInside (depth + 1) names

/-- A stack on which `..` was never pushed. -/
def Rooted (stack : List Filename) : Prop :=
  ∀ name ∈ stack, Plain name ∧ name ≠ dotDot

theorem rooted_nil : Rooted [] := by
  intro name member
  cases member

theorem normalStep_dot (absolute : Bool) (stack : List Filename) :
    normalStep absolute stack dot = stack := by
  simp [normalStep]

theorem normalStep_name (absolute : Bool) (stack : List Filename)
    {name : Filename} (notDot : name ≠ dot) (notDotDot : name ≠ dotDot) :
    normalStep absolute stack name = name :: stack := by
  simp [normalStep, notDot, notDotDot]

theorem normalStep_dotDot {stack : List Filename} (rooted : Rooted stack) :
    normalStep true stack dotDot = stack.tail := by
  cases stack with
  | nil => rfl
  | cons top rest =>
      have different := (rooted top List.mem_cons_self).2
      have notDot : dotDot ≠ dot := by decide
      simp [normalStep, different, notDot]

theorem filename_cases (name : Filename) :
    name = dot ∨ name = dotDot ∨ name ≠ dot ∧ name ≠ dotDot := by
  by_cases isDot : name = dot
  · exact .inl isDot
  · by_cases isDotDot : name = dotDot
    · exact .inr (.inl isDotDot)
    · exact .inr (.inr ⟨isDot, isDotDot⟩)

theorem rooted_normalStep {stack : List Filename} (rooted : Rooted stack)
    {name : Filename} (plain : Plain name) :
    Rooted (normalStep true stack name) := by
  rcases filename_cases name with rfl | rfl | ⟨notDot, notDotDot⟩
  · rw [normalStep_dot]
    exact rooted
  · rw [normalStep_dotDot rooted]
    intro other member
    exact rooted other (List.mem_of_mem_tail member)
  · rw [normalStep_name true stack notDot notDotDot]
    exact List.forall_mem_cons.mpr ⟨⟨plain, notDotDot⟩, rooted⟩

theorem rooted_foldl {names : List Filename}
    (plain : ∀ name ∈ names, Plain name) {stack : List Filename}
    (rooted : Rooted stack) :
    Rooted (names.foldl (normalStep true) stack) := by
  induction names generalizing stack with
  | nil => exact rooted
  | cons name names induction =>
      obtain ⟨head, rest⟩ := List.forall_mem_cons.mp plain
      exact induction rest (rooted_normalStep rooted head)

private theorem length_foldl_le {names : List Filename}
    (plain : ∀ name ∈ names, Plain name) {long short : List Filename}
    (longRooted : Rooted long) (shortRooted : Rooted short) {gap : Nat}
    (lengths : long.length ≤ short.length + gap) :
    (names.foldl (normalStep true) long).length ≤
      (names.foldl (normalStep true) short).length + gap := by
  induction names generalizing long short with
  | nil => exact lengths
  | cons name names induction =>
      obtain ⟨head, rest⟩ := List.forall_mem_cons.mp plain
      apply induction rest (rooted_normalStep longRooted head)
        (rooted_normalStep shortRooted head)
      rcases filename_cases name with rfl | rfl | ⟨notDot, notDotDot⟩
      · rw [normalStep_dot, normalStep_dot]
        exact lengths
      · rw [normalStep_dotDot longRooted, normalStep_dotDot shortRooted,
          List.length_tail, List.length_tail]
        omega
      · rw [normalStep_name true long notDot notDotDot,
          normalStep_name true short notDot notDotDot, List.length_cons,
          List.length_cons]
        omega

section StaysInside

variable {names : List Filename} {count : Nat}

theorem staysInside_dot :
    staysInside count (dot :: names) = staysInside count names := by
  rw [staysInside, if_pos rfl]

theorem staysInside_dotDot : staysInside count (dotDot :: names) =
    (count != 0 && staysInside (count - 1) names) := by
  have notDot : dotDot ≠ dot := by decide
  rw [staysInside, if_neg notDot, if_pos rfl]

theorem staysInside_name {name : Filename} (notDot : name ≠ dot)
    (notDotDot : name ≠ dotDot) :
    staysInside count (name :: names) = staysInside (count + 1) names := by
  rw [staysInside, if_neg notDot, if_neg notDotDot]

end StaysInside

theorem foldl_of_staysInside {names : List Filename}
    (plain : ∀ name ∈ names, Plain name) {stack : List Filename}
    (rooted : Rooted stack) {base : List Filename} (baseRooted : Rooted base)
    (inside : staysInside stack.length names = true) :
    names.foldl (normalStep true) (stack ++ base) =
      names.foldl (normalStep true) stack ++ base := by
  induction names generalizing stack with
  | nil => rfl
  | cons name names induction =>
      obtain ⟨head, rest⟩ := List.forall_mem_cons.mp plain
      have nextRooted := rooted_normalStep rooted head
      have both : Rooted (stack ++ base) :=
        List.forall_mem_append.mpr ⟨rooted, baseRooted⟩
      rw [List.foldl_cons, List.foldl_cons]
      rcases filename_cases name with rfl | rfl | ⟨notDot, notDotDot⟩
      · rw [staysInside_dot] at inside
        rw [normalStep_dot, normalStep_dot]
        exact induction rest rooted inside
      · rw [staysInside_dotDot] at inside
        rw [normalStep_dotDot rooted] at nextRooted ⊢
        rw [normalStep_dotDot both]
        cases stack with
        | nil => simp at inside
        | cons top others =>
            apply induction rest nextRooted
            simpa using inside
      · rw [staysInside_name notDot notDotDot] at inside
        rw [normalStep_name true stack notDot notDotDot] at nextRooted ⊢
        rw [normalStep_name true (stack ++ base) notDot notDotDot]
        exact induction rest nextRooted inside

theorem length_foldl_lt {names : List Filename}
    (plain : ∀ name ∈ names, Plain name) {stack : List Filename}
    (rooted : Rooted stack) {base : List Filename} (baseRooted : Rooted base)
    (nonempty : base ≠ []) (outside : staysInside stack.length names = false) :
    (names.foldl (normalStep true) (stack ++ base)).length <
      (names.foldl (normalStep true) stack).length + base.length := by
  induction names generalizing stack with
  | nil => cases outside
  | cons name names induction =>
      obtain ⟨head, rest⟩ := List.forall_mem_cons.mp plain
      have nextRooted := rooted_normalStep rooted head
      have both : Rooted (stack ++ base) :=
        List.forall_mem_append.mpr ⟨rooted, baseRooted⟩
      rw [List.foldl_cons, List.foldl_cons]
      rcases filename_cases name with rfl | rfl | ⟨notDot, notDotDot⟩
      · rw [staysInside_dot] at outside
        rw [normalStep_dot, normalStep_dot]
        exact induction rest rooted outside
      · rw [staysInside_dotDot] at outside
        have bothNext := rooted_normalStep both head
        rw [normalStep_dotDot rooted] at nextRooted ⊢
        rw [normalStep_dotDot both] at bothNext ⊢
        cases stack with
        | nil =>
            have shorter : ([] ++ base).tail.length ≤
                ([] : List Filename).tail.length + (base.length - 1) := by
              simp
            have bound := length_foldl_le rest bothNext nextRooted shorter
            have positive := List.length_pos_of_ne_nil nonempty
            omega
        | cons top others =>
            apply induction rest nextRooted
            simpa using outside
      · rw [staysInside_name notDot notDotDot] at outside
        rw [normalStep_name true stack notDot notDotDot] at nextRooted ⊢
        rw [normalStep_name true (stack ++ base) notDot notDotDot]
        exact induction rest nextRooted outside

/-- Names behind a stack of names leave it alone exactly when they stay above
it, or when there is nothing to leave alone. -/
theorem foldl_eq_append_iff {names : List Filename}
    (plain : ∀ name ∈ names, Plain name) {base : List Filename}
    (baseRooted : Rooted base) :
    names.foldl (normalStep true) base =
        names.foldl (normalStep true) [] ++ base ↔
      staysInside 0 names = true ∨ base = [] := by
  constructor
  · intro same
    by_contra neither
    obtain ⟨outside, nonempty⟩ := not_or.mp neither
    have shorter := length_foldl_lt plain rooted_nil baseRooted nonempty
      (Bool.eq_false_iff.mpr outside)
    rw [List.nil_append, same, List.length_append] at shorter
    exact Nat.lt_irrefl _ shorter
  · rintro (inside | rfl)
    · exact foldl_of_staysInside plain rooted_nil baseRooted inside
    · exact (List.append_nil _).symm

section Absolute

variable {path : Path}

theorem rooted_normalStack (absolute : isAbsolute path = true) :
    Rooted (normalStack path) := by
  rw [normalStack, absolute]
  exact rooted_foldl (fun _ => plain_of_mem_filenames) rooted_nil

theorem lexicallyNormal_of_absolute (absolute : isAbsolute path = true) :
    lexicallyNormal path =
      render true (normalStack path) (isDirectory path) := by
  have nonempty : path ≠ [] := by
    rintro rfl
    cases absolute
  rw [lexicallyNormal, if_neg nonempty, absolute]
  rfl

theorem filenames_lexicallyNormal (absolute : isAbsolute path = true) :
    filenames (lexicallyNormal path) = (normalStack path).reverse := by
  rw [lexicallyNormal_of_absolute absolute]
  apply filenames_render
  intro name member
  exact (rooted_normalStack absolute name member).1

end Absolute

/-- Two normal forms have one text only if they have the same names. -/
theorem Rooted.eq_of_render {left right : List Filename}
    (leftRooted : Rooted left) (rightRooted : Rooted right)
    {leftDirectory rightDirectory : Bool}
    (same : render true left leftDirectory =
      render true right rightDirectory) : left = right := by
  have names := congrArg filenames same
  rw [filenames_render true _ fun name member => (leftRooted name member).1,
    filenames_render true _ fun name member => (rightRooted name member).1]
    at names
  exact List.reverse_inj.mp names

end QuickApp.Paths
