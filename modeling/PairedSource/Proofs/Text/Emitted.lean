import PairedSource.Proofs.Text.Lines

namespace PairedSource.Text

variable {s : String} {cs p t : List Char}

def dropReturns : List Char → List Char
  | [] => []
  | '\r' :: '\n' :: cs => '\n' :: dropReturns cs
  | c :: cs => c :: dropReturns cs

def missingEnd (s : String) : String :=
  if s.toList.getLast?.all (· == '\n') then "" else "\n"

/-- A text as whole lines, each ended by a line feed alone. -/
def wholeLines (s : String) : String :=
  String.ofList (dropReturns s.toList) ++ missingEnd s

theorem dropReturns_cons {c : Char} (h : c ≠ '\r' ∨ cs.head? ≠ some '\n') :
    dropReturns (c :: cs) = c :: dropReturns cs := by
  rw [dropReturns]
  rintro rest rfl rfl
  simp at h

theorem dropReturns_of_notMem (h : '\n' ∉ cs) : dropReturns cs = cs := by
  induction cs with
  | nil => rfl
  | cons c cs ih =>
    rw [List.mem_cons, not_or] at h
    have hhead : cs.head? ≠ some '\n' := fun hc ↦ h.2 (List.mem_of_head? hc)
    rw [dropReturns_cons (.inr hhead), ih h.2]

theorem dropReturns_append_cons (h : '\n' ∉ p) (t : List Char) :
    dropReturns (p ++ '\n' :: t) = dropReturn p ++ '\n' :: dropReturns t := by
  induction p with
  | nil => exact dropReturns_cons (.inl (by decide))
  | cons c p ih =>
    rw [List.mem_cons, not_or] at h
    cases p with
    | nil =>
      by_cases hc : c = '\r'
      · rw [hc]
        rfl
      · have hkept : dropReturn [c] = [c] := by simp [dropReturn, hc]
        rw [List.singleton_append, dropReturns_cons (.inl hc), dropReturns_cons (.inl (by decide)),
          hkept]
        rfl
    | cons d p =>
      have hhead : (d :: p ++ '\n' :: t).head? ≠ some '\n' := by
        simp only [List.cons_append, List.head?_cons, ne_eq, Option.some.injEq]
        exact fun hd ↦ h.2 (hd ▸ List.mem_cons_self)
      have hreturn : dropReturn (c :: d :: p) = c :: dropReturn (d :: p) := by
        rw [dropReturn, dropReturn, List.getLast?_cons_cons]
        split <;> rfl
      rw [List.cons_append, dropReturns_cons (.inr hhead), ih h.2, hreturn, List.cons_append]

theorem dropReturns_eq_self_iff : dropReturns cs = cs ↔ ¬['\r', '\n'] <:+: cs := by
  fun_induction dropReturns cs with
  | case1 => simp
  | case2 cs ih => simp [List.infix_cons_iff]
  | case3 c cs hc ih =>
    have hfront : ¬['\r', '\n'] <+: c :: cs := by
      rintro ⟨rest, hrest⟩
      exact hc rest (List.cons.inj hrest).1.symm (List.cons.inj hrest).2.symm
    rw [List.cons.injEq, ih, List.infix_cons_iff]
    simp [hfront]

theorem missingEnd_append (s t : String) : missingEnd (s ++ "\n" ++ t) = missingEnd t := by
  have hlist : (s ++ "\n" ++ t).toList = s.toList ++ '\n' :: t.toList := by simp
  rw [missingEnd, missingEnd, hlist]
  cases t.toList with
  | nil => simp
  | cons c cs => simp [List.getLast?_append, List.getLast?_cons]

theorem missingEnd_of_notMem (h : '\n' ∉ s.toList) (hne : s ≠ "") : missingEnd s = "\n" := by
  rw [missingEnd, if_neg]
  intro hall
  cases hlast : s.toList.getLast? with
  | none => exact hne (by simpa using hlast)
  | some c =>
    rw [hlast, Option.all_some, beq_iff_eq] at hall
    exact h (List.mem_of_getLast? (hall ▸ hlast))

theorem wholeLines_append (h : '\n' ∉ s.toList) (t : String) :
    wholeLines (s ++ "\n" ++ t) = String.ofList (dropReturn s.toList) ++ "\n" ++ wholeLines t := by
  have hlist : (s ++ "\n" ++ t).toList = s.toList ++ '\n' :: t.toList := by simp
  rw [wholeLines, hlist, dropReturns_append_cons h, missingEnd_append, wholeLines]
  simp [String.ofList_append, String.ofList_cons, String.append_assoc]

/-- The lines of a text, each with its end, are the text itself but for returns before line feeds
and for the end of the last line. -/
theorem join_lines (s : String) : String.join ((lines s).map (· ++ "\n")) = wholeLines s := by
  by_cases h : '\n' ∈ s.toList
  · obtain ⟨before, after, hs, hbefore⟩ := List.eq_append_cons_of_mem h
    have hsplit : s = String.ofList before ++ "\n" ++ String.ofList after := by
      rw [← String.toList_inj, hs]
      simp
    have hbefore : '\n' ∉ (String.ofList before).toList := by simpa using hbefore
    have hrest := join_lines (String.ofList after)
    rw [hsplit, lines_append_of_notMem hbefore, wholeLines_append hbefore, List.map_cons,
      String.join_cons, hrest]
  · by_cases hempty : s = ""
    · rw [hempty]
      rfl
    · rw [lines_of_notMem h hempty, wholeLines, dropReturns_of_notMem h,
        missingEnd_of_notMem h hempty, String.ofList_toList, List.map_singleton]
      simp
termination_by s.toList.length
decreasing_by
  rw [hs, String.toList_ofList, List.length_append, List.length_cons]
  omega

theorem wholeLines_eq_iff : wholeLines s = s ++ missingEnd s ↔ ¬['\r', '\n'] <:+: s.toList := by
  rw [wholeLines, String.append_left_inj, ← String.toList_inj, String.toList_ofList,
    dropReturns_eq_self_iff]

end PairedSource.Text
