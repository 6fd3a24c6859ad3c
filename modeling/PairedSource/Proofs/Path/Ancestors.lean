import PairedSource.Proofs.Path.Segments

namespace PairedSource.Path

variable {p q : Path} {l r rest : List String}

theorem dropIdle_dropIdle (l : List String) : dropIdle (dropIdle l) = dropIdle l := by
  fun_induction dropIdle l with
  | case1 s t rest _ ih => exact ih
  | case2 s t rest hs => rw [dropIdle, if_neg hs]
  | case3 l hl =>
    rcases l with _ | ⟨s, _ | ⟨t, rest⟩⟩
    · rfl
    · rfl
    · exact absurd rfl (hl s t rest)

theorem exists_of_dropStep? (h : dropStep? l = some r) :
    ∃ s rest, l = s :: rest ∧ l ≠ [""] ∧ dropIdle rest = r := by
  rcases l with _ | ⟨s, _ | ⟨t, rest⟩⟩
  · cases h
  · simp only [dropStep?, Option.ite_none_left_eq_some, Option.some.injEq] at h
    obtain ⟨hs, rfl⟩ := h
    exact ⟨s, [], rfl, by simpa using hs, rfl⟩
  · exact ⟨s, t :: rest, rfl, by simp, Option.some.inj h⟩

theorem dropStep?_eq_none_iff : dropStep? l = none ↔ l = [] ∨ l = [""] := by
  rcases l with _ | ⟨s, _ | ⟨t, rest⟩⟩
  · simp [dropStep?]
  · simp [dropStep?]
  · simp [dropStep?]

theorem ancestorsOf_of_dropStep?_eq_none (h : dropStep? l = none) : ancestorsOf l = [] := by
  rw [ancestorsOf]
  split
  · rfl
  · simp_all

theorem ancestorsOf_of_dropStep? (h : dropStep? l = some r) :
    ancestorsOf l = ofReversed l :: ancestorsOf r := by
  rw [ancestorsOf]
  split
  · simp_all
  · simp_all

theorem ancestorsOf_eq (l : List String) :
    ancestorsOf l = [] ∨ ∃ above, ancestorsOf l = ofReversed l :: above := by
  cases h : dropStep? l with
  | none => exact .inl (ancestorsOf_of_dropStep?_eq_none h)
  | some r => exact .inr ⟨_, ancestorsOf_of_dropStep? h⟩

theorem ancestors_ofReversed (hslash : ∀ s ∈ l, '/' ∉ s.toList) (hl : dropIdle l = l)
    (hne : l ≠ []) : (ofReversed l).ancestors = ancestorsOf l := by
  rcases segments_ofReversed hslash with hseg | hseg
  · rw [ancestors, hseg, List.reverse_reverse, hl]
  · rw [ancestors, hseg, List.reverse_append, List.reverse_reverse, List.reverse_singleton,
      List.singleton_append]
    cases l with
    | nil => exact absurd rfl hne
    | cons s l => rw [dropIdle, if_pos (.inl rfl), hl]

theorem ancestors_dot : (Path.mk ".").ancestors = [⟨"."⟩] := by
  have hstep : dropStep? ["."] = some [] := rfl
  change ancestorsOf ["."] = _
  rw [ancestorsOf_of_dropStep? hstep, ancestorsOf_of_dropStep?_eq_none rfl]
  rfl

theorem mem_ancestorsOf (h : q ∈ ancestorsOf l) (hl : dropIdle l = l) :
    ∃ r, q = ofReversed r ∧ r ≠ [] ∧ r <:+ l ∧ dropIdle r = r := by
  fun_induction ancestorsOf l with
  | case1 => cases h
  | case2 l r hr ih =>
    obtain ⟨s, rest, rfl, -, rfl⟩ := exists_of_dropStep? hr
    rcases List.mem_cons.1 h with rfl | h
    · exact ⟨_, rfl, List.cons_ne_nil _ _, List.suffix_refl _, hl⟩
    · obtain ⟨r, rfl, hne, hsuffix, hr⟩ := ih h (dropIdle_dropIdle rest)
      exact ⟨r, rfl, hne, (hsuffix.trans (dropIdle_suffix rest)).trans (List.suffix_cons _ _), hr⟩

/-- A path that ends in one more step than another is spelled like it up to there. -/
structure IsUpper (p : Path) (l : List String) : Prop where
  segments : ∃ rest, rest ≠ [] ∧ p.segments = l.reverse ++ rest
  dropIdle : dropIdle l = l

namespace IsUpper

theorem of_dropStep? (h : dropStep? (Path.dropIdle p.segments.reverse) = some l) : IsUpper p l := by
  obtain ⟨s, rest, heq, -, rfl⟩ := exists_of_dropStep? h
  refine ⟨?_, dropIdle_dropIdle rest⟩
  obtain ⟨idle, hidle⟩ := dropIdle_suffix p.segments.reverse
  obtain ⟨more, hmore⟩ := dropIdle_suffix rest
  refine ⟨more.reverse ++ s :: idle.reverse, by simp, ?_⟩
  have hrest : rest.reverse = (Path.dropIdle rest).reverse ++ more.reverse := by
    rw [← List.reverse_append, hmore]
  rw [← List.reverse_reverse p.segments, ← hidle, heq, List.reverse_append, List.reverse_cons,
    hrest]
  simp only [List.append_assoc, List.singleton_append]

theorem dropIdle_reverse {front : List String} (h : p.segments = front ++ rest)
    (hrest : rest ≠ []) : IsUpper p (Path.dropIdle front.reverse) := by
  refine ⟨?_, dropIdle_dropIdle _⟩
  obtain ⟨more, hmore⟩ := dropIdle_suffix front.reverse
  refine ⟨more.reverse ++ rest, by simp [hrest], ?_⟩
  rw [h, ← List.append_assoc, ← List.reverse_append, hmore, List.reverse_reverse]

variable (h : IsUpper p l)

include h

theorem of_suffix (hr : r <:+ l) (hidle : Path.dropIdle r = r) : IsUpper p r := by
  refine ⟨?_, hidle⟩
  obtain ⟨rest, hrest, hseg⟩ := h.segments
  obtain ⟨more, rfl⟩ := hr
  exact ⟨more.reverse ++ rest, by simp [hrest], by simp [hseg]⟩

theorem slash_notMem : ∀ s ∈ l, '/' ∉ s.toList := by
  intro s hs
  obtain ⟨rest, -, hseg⟩ := h.segments
  exact slash_notMem_of_mem_segments (p := p) (by simp [hseg, hs])

theorem exists_text_eq_append : ∃ tail, p.text = (ofReversed l).text ++ tail := by
  obtain ⟨rest, hrest, hseg⟩ := h.segments
  have htext := exists_text_eq_ofReversed_append hseg hrest
  rwa [List.reverse_reverse, h.dropIdle] at htext

theorem isAbsolute_eq (hne : l ≠ []) : (ofReversed l).isAbsolute = p.isAbsolute := by
  obtain ⟨rest, hrest, hseg⟩ := h.segments
  have habs := isAbsolute_ofReversed hseg (by simpa using hne) hrest
  rwa [List.reverse_reverse, h.dropIdle] at habs

theorem segments_eq (hne : l ≠ []) (hroot : l ≠ [""]) : (ofReversed l).segments = l.reverse := by
  have hspelled : ofReversed l = ⟨"/".intercalate l.reverse⟩ := by
    unfold ofReversed
    split
    · exact absurd rfl hroot
    · rfl
  rw [hspelled]
  exact segments_intercalate (by simpa using hne) (by simpa using h.slash_notMem)

end IsUpper

end PairedSource.Path
