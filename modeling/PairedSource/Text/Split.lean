namespace PairedSource.Text

/-- The pieces between the separators of a list; one more piece than there are separators. -/
def pieces {α : Type} (isSep : α → Bool) : List α → List (List α)
  | [] => [[]]
  | a :: l =>
    if isSep a then [] :: pieces isSep l
    else match pieces isSep l with
      | [] => [[a]]
      | p :: ps => (a :: p) :: ps

def split (sep : Char) (s : String) : List String :=
  (pieces (· == sep) s.toList).map String.ofList

theorem pieces_ne_nil {α : Type} (isSep : α → Bool) (l : List α) : pieces isSep l ≠ [] := by
  cases l with
  | nil => simp [pieces]
  | cons a l =>
    simp only [pieces]
    split
    · simp
    · split <;> simp

theorem intercalate_pieces {α : Type} [BEq α] [LawfulBEq α] (sep : α) (l : List α) :
    [sep].intercalate (pieces (· == sep) l) = l := by
  induction l with
  | nil => rfl
  | cons a l ih =>
    rcases hp : pieces (· == sep) l with _ | ⟨p, ps⟩
    · exact absurd hp (pieces_ne_nil _ _)
    rw [hp] at ih
    by_cases ha : a = sep
    · rw [pieces, if_pos (by simpa using ha), hp, ha]
      simpa [List.intercalate, List.intersperse] using ih
    · simp only [pieces, beq_iff_eq, ha, if_false, hp]
      cases ps with
      | nil => simpa [List.intercalate, List.intersperse] using ih
      | cons q qs => simpa [List.intercalate, List.intersperse] using ih

def dropReturn (line : List Char) : List Char :=
  if line.getLast? = some '\r' then line.dropLast else line

/-- The lines of a text. A line ends at a line feed or at a carriage return and line feed; a last
line that is empty is no line, and a carriage return that no line feed follows stays. -/
def lines (s : String) : List String :=
  let ps := pieces (· == '\n') s.toList
  let last := ps.getLast?.getD []
  (ps.dropLast.map dropReturn ++ if last.isEmpty then [] else [last]).map String.ofList

end PairedSource.Text
