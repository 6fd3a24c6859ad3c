import PairedSource.Text.Split

namespace PairedSource

structure Path where
  text : String
  deriving Repr, DecidableEq, Inhabited

namespace Path

inductive Component where
  | root
  | current
  | parent
  | name (name : String)
  deriving Repr, DecidableEq

variable (p : Path)

def isAbsolute : Bool :=
  p.text.toList.head? == some '/'

/-- What stands between the slashes. An absolute path starts with an empty segment. -/
def segments : List String :=
  Text.split '/' p.text

def Component.ofSegment? (segment : String) : Option Component :=
  if segment = "" ∨ segment = "." then none
  else if segment = ".." then some .parent
  else some (.name segment)

/-- The steps of a path. Repeated slashes and inner dots are no steps, a leading dot is one. -/
def components : List Component :=
  match p.segments with
  | [] => []
  | first :: rest =>
    let lead :=
      if p.isAbsolute then [Component.root]
      else if first = "." then [.current]
      else (Component.ofSegment? first).toList
    lead ++ rest.filterMap Component.ofSegment?

def Same (q : Path) : Prop :=
  p.components = q.components

instance : DecidableRel Path.Same := fun p q ↦
  inferInstanceAs (Decidable (p.components = q.components))

theorem same_refl : p.Same p := rfl

theorem Same.symm {p q : Path} (h : p.Same q) : q.Same p := Eq.symm h

theorem Same.trans {p q r : Path} (h : p.Same q) (h' : q.Same r) : p.Same r := Eq.trans h h'

def join (q : Path) : Path :=
  if q.isAbsolute then q
  else if p.text.isEmpty || p.text.toList.getLast? == some '/' then ⟨p.text ++ q.text⟩
  else ⟨p.text ++ "/" ++ q.text⟩

def dropIdle : List String → List String
  | s :: t :: rest => if s = "" ∨ s = "." then dropIdle (t :: rest) else s :: t :: rest
  | l => l

theorem length_dropIdle_le (l : List String) : (dropIdle l).length ≤ l.length := by
  fun_induction dropIdle l with
  | case1 s t rest _ ih => exact Nat.le_trans ih (Nat.le_succ _)
  | case2 => exact Nat.le_refl _
  | case3 => exact Nat.le_refl _

/-- Takes the last step off reversed segments. Neither the empty path nor the root has one. -/
def dropStep? : List String → Option (List String)
  | [] => none
  | [s] => if s = "" then none else some []
  | _ :: rest => some (dropIdle rest)

theorem length_lt_of_dropStep? {l r : List String} (h : dropStep? l = some r) :
    r.length < l.length := by
  match l with
  | [] => simp [dropStep?] at h
  | [s] =>
    simp only [dropStep?, Option.ite_none_left_eq_some, Option.some.injEq] at h
    simp [← h.2]
  | s :: t :: rest =>
    simp only [dropStep?, Option.some.injEq] at h
    rw [← h]
    exact Nat.lt_succ_of_le (length_dropIdle_le _)

/-- The path with the given reversed segments; the empty segment alone is the root. -/
def ofReversed : List String → Path
  | [""] => ⟨"/"⟩
  | l => ⟨"/".intercalate l.reverse⟩

def parent? : Option Path :=
  (dropStep? (dropIdle p.segments.reverse)).map ofReversed

def ancestorsOf (l : List String) : List Path :=
  match _h : dropStep? l with
  | none => []
  | some r => ofReversed l :: ancestorsOf r
termination_by l.length
decreasing_by exact length_lt_of_dropStep? ‹_›

/-- A path and the paths above it, from the longest on, without the empty path and the root. -/
def ancestors : List Path :=
  ancestorsOf (dropIdle p.segments.reverse)

def fileName? : Option String :=
  match p.components.getLast? with
  | some (.name name) => some name
  | _ => none

/-- What follows the last dot of the file name, if something stands before that dot. -/
def extension? : Option String := do
  let name ← p.fileName?
  match (Text.split '.' name).reverse with
  | _ :: [] => none
  | [_, ""] => none
  | last :: _ => some last
  | [] => none

end Path

end PairedSource
