import Mathlib.Data.Prod.Lex
import Mathlib.Data.String.Basic
import Nanoclaw.Lib.FileTree

/-!
# Paths

Paths are compared, ordered and decomposed by the list of their components, a `PathBuf` here. The
system sees more of a path: a trailing separator or `.` can only be passed at a directory. A
`Path` keeps them, and a `PlainPath` has none. A file name is not empty, has no separator in it
and is neither `.` nor `..`; so a component is determined by its text.
-/

namespace Nanoclaw

open List

/-- The text can be the name of a file. -/
def isFileName (text : String) : Bool :=
  text != "" && text != "." && text != ".." && !text.toList.contains '/'

/-- A name that a directory can have an entry under. -/
def FileName : Type :=
  { text : String // isFileName text = true }

instance : DecidableEq FileName :=
  inferInstanceAs (DecidableEq { text : String // isFileName text = true })

inductive Component where
  | rootDir
  | curDir
  | parentDir
  | normal (name : FileName)
  deriving DecidableEq

abbrev PathBuf : Type :=
  List Component

namespace Component

def asOsStr : Component → String
  | rootDir => "/"
  | curDir => "."
  | parentDir => ".."
  | normal name => name.1

theorem asOsStr_injective : Function.Injective asOsStr := by
  have hname : ∀ (name : FileName) text, ¬isFileName text = true → name.1 ≠ text :=
    fun name _ htext heq => htext (heq ▸ name.2)
  intro c c' h
  cases c <;> cases c' <;> simp only [asOsStr] at h
  all_goals first
    | rfl
    | exact absurd h (by decide)
    | exact congrArg normal (Subtype.ext h)
    | exact absurd h (hname _ _ (by decide))
    | exact absurd h.symm (hname _ _ (by decide))

/-- Components are ordered by kind, names by their text. -/
def rank : Component → ℕ ×ₗ String
  | rootDir => toLex (0, "")
  | curDir => toLex (1, "")
  | parentDir => toLex (2, "")
  | normal name => toLex (3, name.1)

theorem rank_injective : Function.Injective rank := by
  intro c c' h
  cases c <;> cases c' <;> simp [rank] at h <;> first | rfl | exact congrArg normal (Subtype.ext h)

instance : LinearOrder Component :=
  LinearOrder.lift' rank rank_injective

end Component

/-! ### Texts -/

def pathComponents (path : PathBuf) : List String :=
  path.map Component.asOsStr

theorem pathComponents_injective : Function.Injective pathComponents :=
  map_injective_iff.mpr Component.asOsStr_injective

theorem pathComponents_prefix_iff {path path' : PathBuf} :
    pathComponents path <+: pathComponents path' ↔ path <+: path' := by
  constructor
  · intro h
    rw [prefix_iff_eq_take] at h ⊢
    apply pathComponents_injective
    simpa [pathComponents, map_take] using h
  · exact fun h => h.map _

/-- The text of a path that is put together from components. -/
def pathText (components : List String) : String :=
  components.foldl (fun text component =>
    if component = "/" then component
    else if text = "" || text = "/" then text ++ component
    else text ++ "/" ++ component) ""

/-! ### Paths as they are given -/

/-- A path as it is given to the system, up to repeated separators. -/
abbrev Path : Type :=
  FileTree.Route FileName

namespace Path

def stepComponent : FileTree.Step FileName → Component
  | .dot => .curDir
  | .up => .parentDir
  | .name name => .normal name

/-- `Path::components`: a `.` shows only at the beginning of a relative path. -/
def components (path : Path) : PathBuf :=
  let body := (FileTree.undotted path.steps).map stepComponent
  if path.absolute then .rootDir :: body
  else
    match path.steps with
    | .dot :: _ => .curDir :: body
    | _ => body

def display (path : Path) : String :=
  pathText (pathComponents path.components)

end Path

/-- A path with no `.` and no trailing separator. -/
def PlainPath : Type :=
  { path : Path // FileTree.undotted path.steps = path.steps }

instance : DecidableEq PlainPath :=
  inferInstanceAs (DecidableEq { path : Path // FileTree.undotted path.steps = path.steps })

namespace PlainPath

/-- The canonical path of a location. -/
def ofLocation (location : List FileName) : PlainPath :=
  ⟨{ absolute := true, steps := location.map .name }, FileTree.undotted_names location⟩

def components (path : PlainPath) : PathBuf :=
  path.1.components

def display (path : PlainPath) : String :=
  path.1.display

/-- `Path::starts_with`. -/
def startsWith (path root : PlainPath) : Bool :=
  root.components.isPrefixOf path.components

/-- A plain path has no `.` to show. -/
theorem components_eq (path : PlainPath) : path.components =
    if path.1.absolute then .rootDir :: path.1.steps.map Path.stepComponent
    else path.1.steps.map Path.stepComponent := by
  obtain ⟨⟨absolute, steps⟩, h⟩ := path
  cases steps with
  | nil => cases absolute <;> rfl
  | cons step steps =>
    cases step with
    | dot =>
      have hmem : FileTree.Step.dot ∈ FileTree.undotted (FileTree.Step.dot :: steps) := by
        rw [h]
        exact mem_cons_self
      simp [FileTree.undotted] at hmem
    | up | name => simp [components, Path.components, h]

theorem components_injective : Function.Injective components := by
  have hinj : Function.Injective Path.stepComponent := by
    intro step step' h
    cases step <;> cases step' <;> simp_all [Path.stepComponent]
  have hhead : ∀ (steps steps' : List (FileTree.Step FileName)),
      Component.rootDir :: steps.map Path.stepComponent ≠ steps'.map Path.stepComponent := by
    intro steps steps' hne
    have hmem : Component.rootDir ∈ steps'.map Path.stepComponent := hne ▸ mem_cons_self
    obtain ⟨step, -, hstep⟩ := mem_map.mp hmem
    cases step <;> cases hstep
  intro path path' heq
  rw [components_eq, components_eq] at heq
  refine Subtype.ext ?_
  cases ha : path.1.absolute <;> cases ha' : path'.1.absolute <;>
    simp only [ha, ha', if_true, cons.injEq, true_and] at heq
  · exact FileTree.Route.ext (ha.trans ha'.symm) (map_injective_iff.mpr hinj heq)
  · exact absurd heq.symm (hhead _ _)
  · exact absurd heq (hhead _ _)
  · exact FileTree.Route.ext (ha.trans ha'.symm) (map_injective_iff.mpr hinj heq)

theorem components_ofLocation (location : List FileName) :
    (ofLocation location).components = .rootDir :: location.map .normal := by
  simp [ofLocation, components, Path.components, Path.stepComponent]

theorem ofLocation_injective : Function.Injective ofLocation := by
  intro location location' h
  have hinj : Function.Injective (FileTree.Step.name : FileName → _) :=
    fun _ _ h => FileTree.Step.name.inj h
  exact map_injective_iff.mpr hinj (congrArg (fun path => path.1.steps) h)

theorem startsWith_ofLocation {location root : List FileName} :
    (ofLocation location).startsWith (ofLocation root) = true ↔ root <+: location := by
  have hinj : Function.Injective Component.normal := fun _ _ h => Component.normal.inj h
  simp only [startsWith, components_ofLocation, isPrefixOf_cons_cons_self, isPrefixOf_iff_prefix]
  constructor
  · rintro ⟨rest, hrest⟩
    obtain ⟨pre, post, rfl, hpre, -⟩ := map_eq_append_iff.mp hrest.symm
    exact ⟨post, by rw [map_injective_iff.mpr hinj hpre]⟩
  · exact fun h => h.map _

end PlainPath

end Nanoclaw
