import PairedSource.Inputs

namespace PairedSource.Inputs

variable {seen before l all : List Path} {p q : Path}

def isFirstSpelling (all : List Path) (entry : Path × Nat) : Bool :=
  !(all.take entry.2).any (·.Same entry.1)

def firstSpellings (all : List Path) : List Path :=
  (all.zipIdx.filter (isFirstSpelling all)).map Prod.fst

theorem any_same_of_same (h : p.Same q) : seen.any (·.Same p) = seen.any (·.Same q) := by
  have hiff : ∀ r : Path, decide (r.Same p) = decide (r.Same q) := fun r ↦
    decide_eq_decide.2 ⟨fun hr ↦ hr.trans h, fun hr ↦ hr.trans h.symm⟩
  simp only [hiff]

theorem dropRepeats_eq_of_seen (hseen : ∀ p, seen.any (·.Same p) = before.any (·.Same p)) :
    dropRepeats seen l =
      ((l.zipIdx before.length).filter (isFirstSpelling (before ++ l))).map Prod.fst := by
  induction l generalizing seen before with
  | nil => rfl
  | cons p l ih =>
    have hsplit : before ++ p :: l = before ++ [p] ++ l := by simp
    have hlength : before.length + 1 = (before ++ [p]).length := by simp
    have hfirst : isFirstSpelling (before ++ p :: l) (p, before.length) = !seen.any (·.Same p) := by
      simp [isFirstSpelling, hseen]
    rw [List.zipIdx_cons, List.filter_cons, hfirst, dropRepeats, hlength, hsplit]
    by_cases hp : seen.any (·.Same p) = true
    · have hkept : ∀ q, seen.any (·.Same q) = (before ++ [p]).any (·.Same q) := by
        intro q
        rw [List.any_append, ← hseen q]
        by_cases hq : p.Same q
        · simp [← any_same_of_same hq, hp]
        · simp [hq]
      simp only [hp, if_true, Bool.not_true, Bool.false_eq_true, if_false]
      exact ih hkept
    · have hmore : ∀ q, (p :: seen).any (·.Same q) = (before ++ [p]).any (·.Same q) := by
        intro q
        rw [List.any_append, ← hseen q, List.any_cons, Bool.or_comm]
        simp
      simp only [Bool.eq_false_iff.2 hp, Bool.false_eq_true, if_false, Bool.not_false, if_true,
        List.map_cons]
      rw [ih hmore]

theorem dropRepeats_eq_firstSpellings (all : List Path) :
    dropRepeats [] all = firstSpellings all := by
  have hseen : ∀ q, ([] : List Path).any (·.Same q) = ([] : List Path).any (·.Same q) :=
    fun _ ↦ rfl
  exact dropRepeats_eq_of_seen hseen

theorem dropRepeats_sublist (seen l : List Path) : (dropRepeats seen l).Sublist l := by
  fun_induction dropRepeats seen l with
  | case1 => exact .slnil
  | case2 seen p l _ ih => exact ih.cons p
  | case3 seen p l _ ih => exact ih.cons_cons p

theorem not_same_of_mem_dropRepeats (h : p ∈ dropRepeats seen l) (hq : q ∈ seen) :
    ¬q.Same p := by
  fun_induction dropRepeats seen l with
  | case1 => cases h
  | case2 seen r l _ ih => exact ih h hq
  | case3 seen r l hr ih =>
    rcases List.mem_cons.1 h with rfl | h
    · intro hsame
      exact hr (List.any_eq_true.2 ⟨q, hq, decide_eq_true hsame⟩)
    · exact ih h (List.mem_cons_of_mem r hq)

theorem pairwise_dropRepeats (seen l : List Path) :
    (dropRepeats seen l).Pairwise fun p q ↦ ¬p.Same q := by
  fun_induction dropRepeats seen l with
  | case1 => exact .nil
  | case2 seen p l _ ih => exact ih
  | case3 seen p l _ ih =>
    exact .cons (fun q hq ↦ not_same_of_mem_dropRepeats hq List.mem_cons_self) ih

theorem dropRepeats_eq_self (hl : l.Pairwise fun p q ↦ ¬p.Same q)
    (hseen : ∀ q ∈ seen, ∀ p ∈ l, ¬q.Same p) : dropRepeats seen l = l := by
  induction l generalizing seen with
  | nil => rfl
  | cons p l ih =>
    obtain ⟨hp, hl⟩ := List.pairwise_cons.1 hl
    have hany : ¬seen.any (·.Same p) = true := by
      intro h
      obtain ⟨q, hq, hsame⟩ := List.any_eq_true.1 h
      exact hseen q hq p List.mem_cons_self (of_decide_eq_true hsame)
    rw [dropRepeats, if_neg hany, ih hl]
    intro q hq r hr
    rcases List.mem_cons.1 hq with rfl | hq
    · exact hp r hr
    · exact hseen q hq r (List.mem_cons_of_mem p hr)

end PairedSource.Inputs
