import PairedSource.CodeBuilder

namespace PairedSource.CodeBuilder

/-- The steps of a program that do not cancel each other, as a step to the right and a later one to
the left do: those to the left, and after them those to the right. -/
structure Drift where
  left : Nat
  right : Nat
  deriving Repr, DecidableEq

namespace Drift

def none : Drift := ⟨0, 0⟩

def andThen (d e : Drift) : Drift :=
  ⟨d.left + (e.left - d.right), e.right + (d.right - e.left)⟩

def all (ds : List Drift) : Drift :=
  ds.foldr andThen none

/-- The level behind a program that starts at the given one. There is none to the left of the
outermost. -/
def apply (d : Drift) (level : Nat) : Nat :=
  level - d.left + d.right

theorem apply_none (level : Nat) : none.apply level = level := rfl

theorem apply_andThen (d e : Drift) (level : Nat) :
    (d.andThen e).apply level = e.apply (d.apply level) := by
  simp only [andThen, apply]
  omega

theorem all_cons (d : Drift) (ds : List Drift) : all (d :: ds) = d.andThen (all ds) := rfl

theorem all_none {α : Type} (items : List α) : all (items.map fun _ ↦ none) = none := by
  induction items with
  | nil => rfl
  | cons item items ih =>
    rw [List.map_cons, all_cons, ih]
    rfl

end Drift

inductive Program : Type 1 where
  | done
  | line (s : String)
  | blank
  | text (s : String)
  | comment (leader s : String)
  | indent
  | dedent
  | andThen (first second : Program)
  | when (condition : Bool) (body : Program)
  | each {α : Type} (items : List α) (body : α → Program)
  | block (opening closing : String) (body : Program)

namespace Program

def run : Program → CodeBuilder → CodeBuilder
  | done, b => b
  | line s, b => b.line s
  | blank, b => b.blank
  | text s, b => b.paragraph s
  | comment leader s, b => b.comment leader s
  | indent, b => b.indented
  | dedent, b => b.dedented
  | andThen first second, b => second.run (first.run b)
  | when condition body, b => b.when condition body.run
  | each items body, b => b.each items fun b item ↦ (body item).run b
  | block opening closing body, b => b.block opening closing body.run

def drift : Program → Drift
  | indent => ⟨0, 1⟩
  | dedent => ⟨1, 0⟩
  | andThen first second => first.drift.andThen second.drift
  | when condition body => if condition then body.drift else .none
  | each items body => .all (items.map fun item ↦ (body item).drift)
  | block _ _ body => (Drift.andThen ⟨0, 1⟩ body.drift).andThen ⟨1, 0⟩
  | _ => .none

/-- Every step to the left goes back on a step to the right of the same program, and every step to
the right is gone back on. -/
def IsBalanced (p : Program) : Prop :=
  p.drift = .none

instance (p : Program) : Decidable p.IsBalanced :=
  inferInstanceAs (Decidable (p.drift = .none))

def IsPlain (s : String) : Prop :=
  s ≠ "" ∧ '\n' ∉ s.toList

instance (s : String) : Decidable (IsPlain s) :=
  inferInstanceAs (Decidable (_ ∧ _))

/-- All lines that a program is given are plain. A text may be any. -/
def HasPlainLines : Program → Prop
  | line s => IsPlain s
  | comment leader s => IsPlain leader ∧ '\n' ∉ s.toList
  | andThen first second => first.HasPlainLines ∧ second.HasPlainLines
  | when condition body => condition = true → body.HasPlainLines
  | each items body => ∀ item ∈ items, (body item).HasPlainLines
  | block opening closing body => IsPlain opening ∧ IsPlain closing ∧ body.HasPlainLines
  | _ => True

end Program

variable {α : Type} {b : CodeBuilder}

theorem level_each {body : CodeBuilder → α → CodeBuilder} {drift : α → Drift}
    (hbody : ∀ b item, (body b item).level = (drift item).apply b.level) (items : List α) :
    (b.each items body).level = (Drift.all (items.map drift)).apply b.level := by
  induction items generalizing b with
  | nil => rfl
  | cons item items ih =>
    rw [List.map_cons, Drift.all_cons, Drift.apply_andThen, ← hbody, ← ih]
    rfl

theorem level_paragraph (s : String) : (b.paragraph s).level = b.level := by
  have hline : ∀ (b : CodeBuilder) (l : String),
      (if l.isEmpty then b.blank else b.line l).level = Drift.none.apply b.level := by
    intro b l
    split <;> rfl
  have heach := level_each (b := b) hline (Text.lines s)
  rwa [Drift.all_none, Drift.apply_none] at heach

theorem level_run (p : Program) (b : CodeBuilder) :
    (p.run b).level = p.drift.apply b.level := by
  induction p generalizing b with
  | done | line | blank | comment | indent | dedent => rfl
  | text s => exact level_paragraph s
  | andThen first second hfirst hsecond =>
    rw [Program.run, hsecond, hfirst, Program.drift, Drift.apply_andThen]
  | when condition body ih =>
    cases condition with
    | true => exact ih b
    | false => rfl
  | each items body ih => exact level_each (fun b item ↦ ih item b) items
  | block opening closing body ih =>
    rw [Program.drift, Drift.apply_andThen, Drift.apply_andThen]
    exact congrArg (· - 1) (ih _)

end PairedSource.CodeBuilder
