import Mathlib.Data.List.Count
import QuickApp.Transition

/-!
# The splash screen

`SplashScreen` shows the icon in a child of the root widget and lets it fade
out.  Three owners share the objects: the widget tree deletes children with
their parent, the animation engine keeps an animation until `anim_remove`, and
the screen has a pointer to one of each.

Objects are named after the point of the trace at which they are created.
-/

namespace QuickApp.Splash

abbrev Widget := Nat
abbrev Image := Nat
abbrev AnimationID := Nat

/-- What happens to widgets and animations. -/
inductive Effect where
  | imageCreated (image : Image) (parent : Option Widget)
  | imageDeleted (image : Image)
  | animCreated (animation : AnimationID) (target : Image)
  | animRemoved (animation : AnimationID)
  | rootDeleted (root : Widget)
  deriving DecidableEq

/-- `SplashScreen::FadeOutAnimation`. -/
structure FadeOutAnimation where
  animationID : AnimationID
  target : Image
  deriving DecidableEq

/-- The fields of `SplashScreen`; `anim_engine_` and `container_root_` have no
part in what is owned. -/
structure SplashScreen where
  rootWidget : Option Widget
  imageRoot : Option Image := none
  fadeoutAnimation : Option FadeOutAnimation := none
  deriving DecidableEq

/-- The images created and not deleted. -/
def liveImages (trace : List Effect) : List Image :=
  trace.foldl (fun live effect =>
    match effect with
    | .imageCreated image _ => live ++ [image]
    | .imageDeleted image => live.erase image
    | _ => live) []

/-- The animations created and not removed. -/
def registered (trace : List Effect) : List AnimationID :=
  trace.foldl (fun animations effect =>
    match effect with
    | .animCreated animation _ => animations ++ [animation]
    | .animRemoved animation => animations.erase animation
    | _ => animations) []

/-- `lv_obj_del(root)`: the images still under the root go with it. -/
def deleteRoot (trace : List Effect) (root : Widget) : List Effect :=
  ((liveImages trace).filter fun image =>
      Effect.imageCreated image (some root) ∈ trace).map .imageDeleted ++
    [.rootDeleted root]

namespace SplashScreen

variable (screen : SplashScreen) (trace : List Effect)

/-- `exists` is what `fs::exists` finds out about the icon. -/
def «show» (isFile : Bool) : SplashScreen × List Effect :=
  if isFile then
    ({ screen with imageRoot := some trace.length },
      [.imageCreated trace.length screen.rootWidget])
  else
    (screen, [])

/-- The new `FadeOutAnimation` takes the place of the old one, and nothing is
removed from the engine then. -/
def finish : SplashScreen × List Effect :=
  match screen.imageRoot with
  | none => (screen, [])
  | some image =>
      ({ screen with
          fadeoutAnimation := some
            { animationID := trace.length
              target := image } },
        [.animCreated trace.length image])

/-- `~SplashScreen`. -/
def destructor : SplashScreen × List Effect :=
  let stopped :=
    match screen.fadeoutAnimation with
    | none => []
    | some animation => [Effect.animRemoved animation.animationID]
  let deleted :=
    match screen.imageRoot with
    | none => []
    | some image => [Effect.imageDeleted image]
  let rest :=
    match screen.rootWidget with
    | none => []
    | some root => deleteRoot (trace ++ stopped ++ deleted) root
  ({ screen with rootWidget := none, imageRoot := none },
    stopped ++ deleted ++ rest)

end SplashScreen

inductive Operation where
  | «show» (isFile : Bool)
  | finish
  | destructor
  deriving DecidableEq

structure Session where
  screen : SplashScreen
  destructed : Bool := false
  trace : List Effect := []
  deriving DecidableEq

namespace Session

variable (session : Session)

def perform : Operation → SplashScreen × List Effect
  | .show isFile => session.screen.show session.trace isFile
  | .finish => session.screen.finish session.trace
  | .destructor => session.screen.destructor session.trace

def next (operation : Operation) : Session where
  screen := (session.perform operation).1
  destructed := session.destructed || operation == .destructor
  trace := session.trace ++ (session.perform operation).2

end Session

/-- The runs of a new splash screen; nothing follows the destructor. -/
def system (rootWidget : Option Widget) : System Session Operation where
  start := { screen := { rootWidget } }
  enabled session _ := session.destructed = false
  next := Session.next

/-- At the end every animation has been removed once, before its target was
deleted, and every image has been deleted once. -/
structure Released (trace : List Effect) : Prop where
  removedOnce : ∀ animation target,
    Effect.animCreated animation target ∈ trace →
      trace.count (.animRemoved animation) = 1
  removedFirst : ∀ animation target front back,
    Effect.animCreated animation target ∈ trace →
      trace = front ++ .imageDeleted target :: back →
        Effect.animRemoved animation ∈ front
  deletedOnce : ∀ image parent,
    Effect.imageCreated image parent ∈ trace →
      trace.count (.imageDeleted image) = 1

/-- The screen has a pointer to all there is. -/
structure Tidy (session : Session) : Prop where
  images : liveImages session.trace = session.screen.imageRoot.toList
  animations : (registered session.trace).Sublist
    (session.screen.fadeoutAnimation.toList.map
      FadeOutAnimation.animationID)
  released : session.destructed = true → Released session.trace

/-- An icon is shown where none is, and fades out where it does not already. -/
def Orderly (session : Session) : Operation → Prop
  | .show isFile => isFile = true → session.screen.imageRoot = none
  | .finish => session.screen.imageRoot = none ∨
      session.screen.fadeoutAnimation = none
  | .destructor => True

/-- The trace with an icon, before and after it begins to fade. -/
def shownTrace (rootWidget : Option Widget) : List Effect :=
  [.imageCreated 0 rootWidget]

def fadingTrace (rootWidget : Option Widget) : List Effect :=
  [.imageCreated 0 rootWidget, .animCreated 1 0]

inductive Stage (rootWidget : Option Widget) : Session → Prop where
  | blank : Stage rootWidget { screen := { rootWidget } }
  | shown : Stage rootWidget
      { screen := { rootWidget, imageRoot := some 0 }
        trace := shownTrace rootWidget }
  | fading : Stage rootWidget
      { screen :=
          { rootWidget
            imageRoot := some 0
            fadeoutAnimation := some { animationID := 1, target := 0 } }
        trace := fadingTrace rootWidget }

section Steps

variable {rootWidget : Option Widget} {session : Session}
  {operation : Operation}

theorem stage_open (stage : Stage rootWidget session) :
    session.destructed = false := by
  cases stage with
  | _ => rfl

theorem stage_next (stage : Stage rootWidget session)
    (orderly : Orderly session operation)
    (goesOn : operation ≠ .destructor) :
    Stage rootWidget (session.next operation) := by
  cases operation with
  | destructor => exact absurd rfl goesOn
  | «show» isFile =>
      cases isFile with
      | false =>
          cases stage with
          | blank => exact .blank
          | shown => exact .shown
          | fading => exact .fading
      | true =>
          cases stage with
          | blank => exact .shown
          | shown => cases orderly rfl
          | fading => cases orderly rfl
  | finish =>
      cases stage with
      | blank => exact .blank
      | shown => exact .fading
      | fading => simp [Orderly] at orderly

theorem tidy_of_stage (stage : Stage rootWidget session) : Tidy session := by
  have isOpen := stage_open stage
  constructor
  case images =>
    cases stage with
    | _ => rfl
  case animations =>
    cases stage with
    | _ => exact List.Sublist.refl _
  case released =>
    intro destructed
    rw [isOpen] at destructed
    cases destructed

private theorem mem_front {item other : Effect}
    {early late front back : List Effect}
    (same : early ++ other :: late = front ++ other :: back)
    (absent : other ∉ early) (member : item ∈ early) : item ∈ front := by
  rcases List.append_eq_append_iff.mp same with
    ⟨middle, rfl, _⟩ | ⟨middle, rfl, tails⟩
  · exact List.mem_append_left _ member
  · cases middle with
    | nil => simpa using member
    | cons first middle =>
        obtain ⟨rfl, _⟩ := List.cons_eq_cons.mp tails
        simp at absent

private theorem released_shown (rootWidget rest : Option Widget) :
    Released (shownTrace rootWidget ++
      .imageDeleted 0 :: rest.toList.map .rootDeleted) := by
  constructor
  case removedOnce =>
    intro animation target created
    simp [shownTrace] at created
  case removedFirst =>
    intro animation target front back created
    simp [shownTrace] at created
  case deletedOnce =>
    intro image parent created
    simp only [shownTrace, List.cons_append, List.nil_append,
      List.mem_cons] at created
    rcases created with isFirst | isDeleted | inRest
    · cases isFirst
      cases rest with
      | none => rfl
      | some root => rfl
    · cases isDeleted
    · simp at inRest

private theorem released_fading (rootWidget rest : Option Widget) :
    Released (fadingTrace rootWidget ++
      .animRemoved 1 :: .imageDeleted 0 :: rest.toList.map .rootDeleted) := by
  constructor
  case removedOnce =>
    intro animation target created
    have isFirst : animation = 1 ∧ target = 0 := by
      simpa [fadingTrace] using created
    obtain ⟨rfl, rfl⟩ := isFirst
    cases rest with
    | none => rfl
    | some root => rfl
  case removedFirst =>
    intro animation target front back created same
    have isFirst : animation = 1 ∧ target = 0 := by
      simpa [fadingTrace] using created
    obtain ⟨rfl, rfl⟩ := isFirst
    rw [← List.singleton_append, ← List.append_assoc] at same
    apply mem_front same
    · simp [fadingTrace]
    · simp
  case deletedOnce =>
    intro image parent created
    have isFirst : image = 0 ∧ parent = rootWidget := by
      simpa [fadingTrace] using created
    obtain ⟨rfl, rfl⟩ := isFirst
    cases rest with
    | none => rfl
    | some root => rfl

private theorem released_blank (rest : Option Widget) :
    Released (rest.toList.map .rootDeleted) := by
  constructor
  case removedOnce =>
    intro animation target created
    simp at created
  case removedFirst =>
    intro animation target front back created
    simp at created
  case deletedOnce =>
    intro image parent created
    simp at created

/-- The destructor finds every image and every animation. -/
theorem tidy_destructor (stage : Stage rootWidget session) :
    Tidy (session.next .destructor) := by
  constructor
  case images =>
    cases stage with
    | _ => cases rootWidget <;> rfl
  case animations =>
    cases stage with
    | _ => cases rootWidget <;> exact List.nil_sublist _
  case released =>
    intro _
    cases stage with
    | blank =>
        have released := released_blank rootWidget
        cases rootWidget <;> exact released
    | shown =>
        have released := released_shown rootWidget rootWidget
        cases rootWidget <;> exact released
    | fading =>
        have released := released_fading rootWidget rootWidget
        cases rootWidget <;> exact released

/-- A second icon has no pointer to the first, and a second animation none to
the first. -/
theorem orderly_of_tidy (stage : Stage rootWidget session)
    (tidy : Tidy (session.next operation)) : Orderly session operation := by
  cases operation with
  | destructor => trivial
  | «show» isFile =>
      rintro rfl
      cases stage with
      | blank => rfl
      | shown => cases tidy.images
      | fading => cases tidy.images
  | finish =>
      cases stage with
      | blank => exact .inl rfl
      | shown => exact .inr rfl
      | fading =>
          have short := tidy.animations.length_le
          cases short with
          | step shorter => cases shorter

theorem tidy_next_iff (stage : Stage rootWidget session) :
    Tidy (session.next operation) ↔ Orderly session operation := by
  constructor
  · exact orderly_of_tidy stage
  · intro orderly
    by_cases goesOn : operation = .destructor
    · rw [goesOn]
      exact tidy_destructor stage
    · exact tidy_of_stage (stage_next stage orderly goesOn)

end Steps

/-- Every state of a run is tidy if and only if no icon is shown over another
and no animation replaces another. -/
theorem splashScreen_tidy_iff (rootWidget : Option Widget)
    (operations : List Operation)
    (run : (system rootWidget).Run (system rootWidget).start operations) :
    (Tidy (system rootWidget).start ∧
        (system rootWidget).AllSteps
          (fun session operation => Tidy (session.next operation))
          (system rootWidget).start operations) ↔
      (system rootWidget).AllSteps Orderly (system rootWidget).start
        operations := by
  have startTidy : Tidy (system rootWidget).start := tidy_of_stage .blank
  rw [and_iff_right startTidy]
  have kept : ∀ session operation,
      (session.destructed = false → Stage rootWidget session) →
        session.destructed = false → Orderly session operation →
          (session.next operation).destructed = false →
            Stage rootWidget (session.next operation) := by
    intro session operation stage isOpen orderly stillOpen
    apply stage_next (stage isOpen) orderly
    rintro rfl
    rw [Session.next, Bool.or_eq_false_iff] at stillOpen
    cases stillOpen.2
  have agree : ∀ session operation,
      (session.destructed = false → Stage rootWidget session) →
        session.destructed = false →
          (Tidy (session.next operation) ↔ Orderly session operation) := by
    intro session operation stage isOpen
    exact tidy_next_iff (stage isOpen)
  exact run.allSteps_congr kept agree fun _ => .blank

/-- An icon that is shown, fades out and goes with the screen. -/
theorem splashScreen_tidy_once :
    Tidy (system (some 7)).start ∧
      (system (some 7)).AllSteps
        (fun session operation => Tidy (session.next operation))
        (system (some 7)).start [.show true, .finish, .destructor] :=
  (splashScreen_tidy_iff (some 7) [.show true, .finish, .destructor]
    ⟨rfl, rfl, rfl, trivial⟩).mpr
    ⟨fun _ => rfl, .inr rfl, trivial, trivial⟩

/-- A second `Show` forgets an image, a second `Finish` an animation. -/
theorem splashScreen_orphans :
    ¬(system (some 7)).AllSteps
        (fun session operation => Tidy (session.next operation))
        (system (some 7)).start [.show true, .show true] ∧
      ¬(system (some 7)).AllSteps
        (fun session operation => Tidy (session.next operation))
        (system (some 7)).start [.show true, .finish, .finish] := by
  constructor
  · rintro ⟨_, second, _⟩
    cases second.images
  · rintro ⟨_, _, third, _⟩
    cases third.animations.length_le with
    | step shorter => cases shorter

end QuickApp.Splash
