import PairedSource.Proofs.Naming.Members
import PairedSource.Proofs.Text.Blank

namespace PairedSource

namespace Identifier

open Text

variable {s : String}

theorem words_eq (s : String) :
    words s = (solidPieces (!Char.isAlphanum ·) s.toList).map String.ofList := rfl

/-- What is around a text is in none of its words. -/
theorem words_trim (s : String) : words (trim s) = words s := by
  obtain ⟨before, after, hs, hbefore, hafter⟩ := exists_eq_dropAround isBlank s.toList
  have hsep : ∀ cs : List Char, (∀ c ∈ cs, isBlank c = true) →
      ∀ c ∈ cs, (!c.isAlphanum) = true := by
    intro cs hcs c hc
    rw [(of_isBlank (hcs c hc)).1, Bool.not_false]
  rw [words_eq, words_eq, toList_trim, hs, solidPieces_append_right (hsep after hafter),
    solidPieces_append_left (hsep before hbefore), ← hs]

theorem flatMap_words (s : String) :
    (words s).flatMap String.toList = s.toList.filter Char.isAlphanum := by
  have hsolid : ∀ ps : List (List Char),
      ((ps.filter (!·.isEmpty)).map String.ofList).flatMap String.toList = ps.flatten := by
    intro ps
    induction ps with
    | nil => rfl
    | cons p ps ih =>
      cases p with
      | nil => simpa using ih
      | cons c cs => simpa using ih
  rw [words, hsolid, flatten_pieces]
  simp only [Bool.not_not]

theorem words_ne_nil_iff : words s ≠ [] ↔ ∃ c ∈ s.toList, c.isAlphanum = true := by
  have hflat := flatMap_words s
  constructor
  · intro h
    obtain ⟨w, ws, hw⟩ := List.exists_cons_of_ne_nil h
    have hmem : w ∈ words s := by simp [hw]
    obtain ⟨c, cs, hc⟩ := List.exists_cons_of_ne_nil (l := w.toList)
      (by simpa using ne_empty_of_mem_words hmem)
    have hfilter : c ∈ (words s).flatMap String.toList :=
      List.mem_flatMap.2 ⟨w, hmem, by simp [hc]⟩
    rw [hflat] at hfilter
    exact ⟨c, List.mem_filter.1 hfilter⟩
  · intro h hwords
    obtain ⟨c, hc, hletter⟩ := h
    have hfilter : c ∈ s.toList.filter Char.isAlphanum := List.mem_filter.2 ⟨hc, hletter⟩
    rw [← hflat, hwords] at hfilter
    cases hfilter

theorem words_of_isAlphanum (h : ∀ c ∈ s.toList, c.isAlphanum = true) (hs : s ≠ "") :
    words s = [s] := by
  have hpieces : pieces (!Char.isAlphanum ·) s.toList = [s.toList] :=
    pieces_eq_singleton fun c hc ↦ by simp [h c hc]
  simp [words, hpieces, hs]

theorem pascalCase_of_isAlphanum (h : ∀ c ∈ s.toList, c.isAlphanum = true) (hs : s ≠ "") :
    pascalCase s = upperFirst s := by
  rw [pascalCase, words_of_isAlphanum h hs]
  simp [String.join]

theorem pascalCase_trim (s : String) : pascalCase (trim s) = pascalCase s := by
  rw [pascalCase, words_trim, pascalCase]

/-- A text in pascal case starts with what its first word starts with. -/
theorem upperFirst_pascalCase (h : words s ≠ []) : upperFirst (pascalCase s) = pascalCase s := by
  obtain ⟨w, ws, hw⟩ := List.exists_cons_of_ne_nil h
  have hmem : w ∈ words s := by simp [hw]
  obtain ⟨c, cs, hcs⟩ := List.exists_cons_of_ne_nil (l := w.toList)
    (by simpa using ne_empty_of_mem_words hmem)
  have hc : c.isAlphanum = true := isAlphanum_of_mem_words hmem (by simp [hcs])
  have hpascal : (pascalCase s).toList =
      c.toUpper :: (cs ++ (ws.map upperFirst).flatMap String.toList) := by
    rw [pascalCase, String.toList_join, hw, List.map_cons, List.flatMap_cons,
      toList_upperFirst hcs hc, List.cons_append]
  rw [← String.toList_inj, toList_upperFirst hpascal (isAlphanum_toUpper hc), toUpper_toUpper hc,
    hpascal]

theorem pascalCase_pascalCase (h : words s ≠ []) : pascalCase (pascalCase s) = pascalCase s := by
  rw [pascalCase_of_isAlphanum (fun c hc ↦ isAlphanum_of_mem_pascalCase hc) (pascalCase_ne_empty h),
    upperFirst_pascalCase h]

theorem IsMemberName.camelCase_eq (h : IsMemberName s) : camelCase s = s := by
  have hall : ∀ c ∈ s.toList, c.isAlphanum = true := fun c hc ↦ h.isAlphanum_of_mem hc
  obtain ⟨c, cs, hs, hc, hupper⟩ := h.toList_upperFirst
  have hne : s ≠ "" := by
    rintro rfl
    cases hs
  have hlt := toNat_lt_of_isAlphanum (isAlphanum_toUpper (isAlphanum_of_isLower hc))
  rw [← String.toList_inj, camelCase, pascalCase_of_isAlphanum hall hne, lowerFirst,
    String.toList_ofList, hupper, mapFirst, Text.toLower, if_pos hlt, toLower_toUpper hc,
    List.singleton_append, hs]

end Identifier

end PairedSource
