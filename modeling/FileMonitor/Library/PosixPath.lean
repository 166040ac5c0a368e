import Mathlib.Data.List.Basic

/-!
# POSIX paths

A pure path is a root flag and a list of components.  No component is empty, is `.`, or contains a
slash: those are dropped or split off when a path is parsed, and `PathComponent` carries the fact.
The component `..` is an ordinary one, nothing is resolved.

* `parse` reads a path from text, `str` prints it (`.` for the path without root and components).
* `join` is the `/` operator: an absolute right operand replaces the left one.
* `relativeTo` strips a prefix of components; `relativeTo_eq_some_iff` says that it inverts `join`.
* `parse_chars`: reading a printed path gives the path back.
* `AtOrBelow` is where a path without `..` stays under a directory; `atOrBelow_join`.
-/

/-- A path component: not empty, not `.`, and without a slash. -/
def PathComponent : Type := { s : List Char // s ≠ [] ∧ s ≠ ['.'] ∧ '/' ∉ s }

instance : DecidableEq PathComponent := inferInstanceAs (DecidableEq (Subtype _))

/-- A pure path: absolute or not, and its components. -/
@[ext]
structure PosixPath where
  /-- Whether the path starts at the root. -/
  absolute : Bool
  /-- The components after the root. -/
  components : List PathComponent
deriving DecidableEq

namespace PosixPath

/-- The component `..`. -/
def dotDot : PathComponent := ⟨['.', '.'], by decide⟩

/-- Whether `..` is among the components. -/
def hasDotDot (p : PosixPath) : Bool := dotDot ∈ p.components

/-! ### Text -/

/-- The component a piece of text between slashes stands for, if any. -/
def component? (s : List Char) : Option PathComponent :=
  if h : s ≠ [] ∧ s ≠ ['.'] ∧ '/' ∉ s then some ⟨s, h⟩ else none

/-- The path a text denotes: empty pieces and `.` are dropped. -/
def parse (text : List Char) : PosixPath where
  absolute := text.head? = some '/'
  components := (text.splitOn '/').filterMap component?

/-- The text of a path, with `.` for the path that has neither root nor components. -/
def chars (p : PosixPath) : List Char :=
  if p.absolute then '/' :: ['/'].intercalate (p.components.map Subtype.val)
  else if p.components = [] then ['.']
  else ['/'].intercalate (p.components.map Subtype.val)

/-- `str(path)`, which on POSIX is `path.as_posix()` too. -/
def str (p : PosixPath) : String := String.ofList p.chars

/-! ### Joining and stripping -/

/-- `p / q`: an absolute `q` replaces `p`. -/
def join (p q : PosixPath) : PosixPath :=
  if q.absolute then q else ⟨p.absolute, p.components ++ q.components⟩

/-- `path.relative_to(other)`: the rest of `path` after `other`, or `none` (a `ValueError`) where
`path` is neither `other` nor below it. -/
def relativeTo (path other : PosixPath) : Option PosixPath :=
  if path.absolute = other.absolute then
    (path.components.dropPrefix? other.components).map (⟨false, ·⟩)
  else none

/-- **`relativeTo` inverts `join`.** -/
theorem relativeTo_eq_some_iff {path other rest : PosixPath} :
    path.relativeTo other = some rest ↔ rest.absolute = false ∧ other.join rest = path := by
  unfold relativeTo
  constructor
  · intro h
    split_ifs at h with habs
    obtain ⟨l, hl, rfl⟩ := Option.map_eq_some_iff.mp h
    obtain ⟨pre, hpre, heq⟩ := List.dropPrefix?_eq_some_iff.mp hl
    obtain rfl := eq_of_beq heq
    refine ⟨rfl, ?_⟩
    ext1
    · exact habs.symm
    · exact hpre.symm
  · rintro ⟨hrel, rfl⟩
    have hjoin : other.join rest = ⟨other.absolute, other.components ++ rest.components⟩ := by
      simp [join, hrel]
    rw [hjoin, if_pos rfl, List.dropPrefix?_append_of_beq _ (by simp), Option.map_some, ← hrel]

/-! ### Reading what was printed -/

/-- A component between slashes stands for itself. -/
theorem component?_val (c : PathComponent) : component? c.val = some c := dif_pos c.property

theorem filterMap_component? (cs : List PathComponent) :
    (cs.map Subtype.val).filterMap component? = cs := by
  induction cs with
  | nil => rfl
  | cons c cs ih =>
    show (c.val :: cs.map Subtype.val).filterMap component? = c :: cs
    rw [List.filterMap_cons_some (component?_val c), ih]

/-- The components of a printed list of components. -/
theorem splitOn_intercalate_components {cs : List PathComponent} (hne : cs ≠ []) :
    ((['/'].intercalate (cs.map Subtype.val)).splitOn '/').filterMap component? = cs := by
  rw [List.splitOn_intercalate, filterMap_component?]
  · intro l hl
    obtain ⟨c, -, rfl⟩ := List.mem_map.mp hl
    exact c.property.2.2
  · exact fun h => hne (List.map_eq_nil_iff.mp h)

/-- The text of a list of components starts with its first component, not with a slash. -/
theorem head?_intercalate_components {cs : List PathComponent} (hne : cs ≠ []) :
    (['/'].intercalate (cs.map Subtype.val)).head? ≠ some '/' := by
  obtain ⟨⟨s, hs, hdot, hslash⟩, cs, rfl⟩ := List.exists_cons_of_ne_nil hne
  obtain ⟨x, s, rfl⟩ := List.exists_cons_of_ne_nil hs
  have hhead : (['/'].intercalate
      ((⟨x :: s, hs, hdot, hslash⟩ :: cs : List PathComponent).map Subtype.val)).head? = some x := by
    cases cs <;> rfl
  rw [hhead]
  rintro ⟨⟩
  exact hslash List.mem_cons_self

/-- **Round trip.** -/
theorem parse_chars (p : PosixPath) : parse p.chars = p := by
  obtain ⟨_ | _, cs⟩ := p
  · by_cases hcs : cs = []
    · subst hcs
      decide
    · have hchars : (⟨false, cs⟩ : PosixPath).chars = ['/'].intercalate (cs.map Subtype.val) := by
        simp [chars, hcs]
      rw [hchars]
      unfold parse
      rw [splitOn_intercalate_components hcs, decide_eq_false (head?_intercalate_components hcs)]
  · have hchars : (⟨true, cs⟩ : PosixPath).chars = '/' :: ['/'].intercalate (cs.map Subtype.val) := rfl
    rw [hchars]
    unfold parse
    -- the leading slash gives an empty component, which is dropped
    have hsplit : (('/' :: ['/'].intercalate (cs.map Subtype.val)).splitOn '/').filterMap component?
        = cs := by
      by_cases hcs : cs = []
      · subst hcs
        decide
      · rw [List.splitOn_cons_eq_if_modifyHead, if_pos (by decide), List.filterMap_cons_none (by decide),
          splitOn_intercalate_components hcs]
    rw [hsplit]
    rfl

@[simp] theorem parse_str (p : PosixPath) : parse p.str.toList = p := by
  unfold str
  rw [String.toList_ofList, parse_chars]

/-! ### Staying under a directory -/

/-- The path starts with the components of the directory and never goes up again. -/
def AtOrBelow (p directory : PosixPath) : Prop :=
  p.absolute = directory.absolute ∧ directory.components <+: p.components ∧ p.hasDotDot = false

/-- What is joined onto a directory stays under it, unless it is absolute or goes up. -/
theorem atOrBelow_join {directory p : PosixPath} (hdirectory : directory.hasDotDot = false)
    (habs : p.absolute = false) (hp : p.hasDotDot = false) : (directory.join p).AtOrBelow directory := by
  unfold hasDotDot at hdirectory hp
  unfold AtOrBelow hasDotDot join
  rw [if_neg (by simp [habs])]
  refine ⟨rfl, List.prefix_append _ _, ?_⟩
  rw [decide_eq_false_iff_not] at hdirectory hp ⊢
  rw [List.mem_append, not_or]
  exact ⟨hdirectory, hp⟩

end PosixPath
