import Mathlib.Data.List.Lex
import PairedSource.Path

namespace PairedSource.Path

variable {p q : Path} {name other : String}

def Component.rank : Component → Nat
  | .root => 0
  | .current => 1
  | .parent => 2
  | .name _ => 3

/-- The root comes first, then a dot, then two dots, then names by their characters. -/
def Component.Before (c d : Component) : Prop :=
  c.rank < d.rank ∨ ∃ s t, c = .name s ∧ d = .name t ∧ s < t

def Before (p q : Path) : Prop :=
  List.Lex Component.Before p.components q.components

instance : Std.Asymm Component.Before where
  asymm c d h h' := by
    rcases h with h | ⟨s, t, rfl, rfl, h⟩
    · rcases h' with h' | ⟨s, t, rfl, rfl, -⟩
      · exact Nat.lt_asymm h h'
      · exact Nat.lt_irrefl _ h
    · rcases h' with h' | ⟨t', s', heq, heq', h'⟩
      · exact Nat.lt_irrefl _ h'
      · obtain ⟨rfl, rfl⟩ := And.intro (Component.name.inj heq) (Component.name.inj heq')
        exact String.lt_asymm h h'

theorem Before.asymm (h : p.Before q) : ¬q.Before p :=
  Std.Asymm.asymm (r := List.Lex Component.Before) _ _ h

theorem before_of_components (l : List Component) (hp : p.components = l ++ [.name name])
    (hq : q.components = l ++ [.name other]) (h : name < other) : p.Before q := by
  rw [Before, hp, hq]
  clear hp hq
  induction l with
  | nil => exact .rel (.inr ⟨name, other, rfl, rfl, h⟩)
  | cons _ _ ih => exact .cons ih

end PairedSource.Path
