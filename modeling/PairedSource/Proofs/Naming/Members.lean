import PairedSource.Proofs.Naming.Identifiers

namespace PairedSource

namespace Identifier

open Text

variable {s t : String} {c : Char}

/-- A lower-case ASCII letter followed by ASCII letters and digits. -/
def IsMemberName (s : String) : Prop :=
  ∃ c cs, s.toList = c :: cs ∧ c.isLower = true ∧ ∀ d ∈ cs, d.isAlphanum = true

namespace IsMemberName

theorem isAlphanum_of_mem (h : IsMemberName s) (hc : c ∈ s.toList) : c.isAlphanum = true := by
  obtain ⟨d, ds, hs, hd, hds⟩ := h
  rw [hs, List.mem_cons] at hc
  rcases hc with rfl | hc
  · exact isAlphanum_of_isLower hd
  · exact hds c hc

theorem isIdentifier (h : IsMemberName s) : Identifier.isIdentifier s = true := by
  obtain ⟨d, ds, hs, hd, hds⟩ := h
  refine isIdentifier_iff.2 ⟨d, ds, hs, ?_, fun c hc ↦ isContinuation_of_isAlphanum (hds c hc)⟩
  simp [isStart, isAlpha_of_isLower hd]

theorem toList_upperFirst (h : IsMemberName s) :
    ∃ c cs, s.toList = c :: cs ∧ c.isLower = true ∧
      (upperFirst s).toList = c.toUpper :: cs := by
  obtain ⟨c, cs, hs, hc, -⟩ := h
  exact ⟨c, cs, hs, hc, Text.toList_upperFirst hs (isAlphanum_of_isLower hc)⟩

theorem upperFirst_injective (hs : IsMemberName s) (ht : IsMemberName t)
    (h : upperFirst s = upperFirst t) : s = t := by
  obtain ⟨c, cs, hs, hc, hcs⟩ := hs.toList_upperFirst
  obtain ⟨d, ds, ht, hd, hds⟩ := ht.toList_upperFirst
  rw [h, hds, List.cons.injEq] at hcs
  obtain ⟨hcd, rfl⟩ := hcs
  have heq : d = c := by rw [← toLower_toUpper hc, ← hcd, toLower_toUpper hd]
  rw [← String.toList_inj, hs, ht, heq]

end IsMemberName

theorem isMemberName_of_toLower {cs : List Char} (hs : s.toList = c.toLower :: cs)
    (hc : c.isAlphanum = true) (hcs : ∀ d ∈ cs, d.isAlphanum = true)
    (hdigit : s.toList.head?.any Char.isDigit = false) : IsMemberName s := by
  rw [hs] at hdigit
  exact ⟨c.toLower, cs, hs, isLower_toLower hc (by simpa using hdigit), hcs⟩

theorem isMemberName_camelCase (hwords : words s ≠ [])
    (hdigit : (camelCase s).toList.head?.any Char.isDigit = false) :
    IsMemberName (camelCase s) := by
  obtain ⟨c, cs, hcs⟩ := List.exists_cons_of_ne_nil (l := (pascalCase s).toList)
    (by simpa using pascalCase_ne_empty hwords)
  have hall : ∀ d ∈ c :: cs, d.isAlphanum = true := by
    intro d hd
    exact isAlphanum_of_mem_pascalCase (hcs ▸ hd)
  have hc := hall c List.mem_cons_self
  have hlist : (camelCase s).toList = c.toLower :: cs := by
    rw [camelCase, lowerFirst, String.toList_ofList, hcs, mapFirst, Text.toLower,
      if_pos (toNat_lt_of_isAlphanum hc)]
    rfl
  exact isMemberName_of_toLower hlist hc (fun d hd ↦ hall d (List.mem_cons_of_mem c hd)) hdigit

theorem isMemberName_lowerCase {joined : String}
    (hjoined : joined = String.join ((words s).map String.toLower)) (hwords : words s ≠ [])
    (hdigit : joined.toList.head?.any Char.isDigit = false) : IsMemberName joined := by
  have hlower : ∀ w : String, w.toLower.toList = w.toList.map Char.toLower := by
    intro w
    exact String.toList_map
  obtain ⟨w, ws, hw⟩ := List.exists_cons_of_ne_nil hwords
  have hmem : w ∈ words s := by simp [hw]
  obtain ⟨c, cs, hcs⟩ := List.exists_cons_of_ne_nil (l := w.toList)
    (by simpa using ne_empty_of_mem_words hmem)
  have hlist : joined.toList = c.toLower :: (cs.map Char.toLower ++
      (ws.map String.toLower).flatMap String.toList) := by
    rw [hjoined, String.toList_join, hw, List.map_cons, List.flatMap_cons, hlower, hcs]
    rfl
  have hall : ∀ v ∈ words s, ∀ d ∈ v.toLower.toList, d.isAlphanum = true := by
    intro v hv d hd
    rw [hlower, List.mem_map] at hd
    obtain ⟨e, he, rfl⟩ := hd
    exact isAlphanum_toLower (isAlphanum_of_mem_words hv he)
  apply isMemberName_of_toLower hlist (isAlphanum_of_mem_words hmem (by simp [hcs])) _ hdigit
  intro d hd
  rcases List.mem_append.1 hd with hd | hd
  · apply hall w hmem d
    rw [hlower, hcs]
    exact List.mem_cons_of_mem _ hd
  · obtain ⟨_, hmap, hd⟩ := List.mem_flatMap.1 hd
    obtain ⟨v, hv, rfl⟩ := List.mem_map.1 hmap
    exact hall v (by simp [hw, hv]) d hd

end Identifier

namespace NamingPolicy

open Identifier

variable {policy : NamingPolicy} {key namePrefix name : String}

theorem isReserved_of_typeName (h : policy.typeName key namePrefix = .ok name) :
    policy.isReserved name = false := by
  obtain ⟨-, -, -, -, -, hreserved⟩ := typeName_eq_ok_iff.1 h
  exact hreserved

theorem isAlphanum_getLast?_typeName (hcase : policy.keyToType = pascalCase)
    (h : policy.typeName key namePrefix = .ok name) :
    name.toList.getLast?.any Char.isAlphanum = true := by
  obtain ⟨-, -, hwords, rfl, -⟩ := typeName_eq_ok_iff.1 h
  rw [hcase]
  have hne : (pascalCase (Text.trim key)).toList ≠ [] := by simpa using pascalCase_ne_empty hwords
  rw [String.toList_append, List.getLast?_append, List.getLast?_eq_some_getLast hne,
    Option.some_or, Option.any_some]
  exact isAlphanum_of_mem_pascalCase (List.getLast_mem hne)

end NamingPolicy

namespace ObjectiveC

open Identifier

variable {key name : String}

theorem isMemberName_of_memberName (h : naming.memberName key = .ok name) :
    IsMemberName name := by
  obtain ⟨-, hwords, heq, hdigit, -⟩ := NamingPolicy.memberName_eq_ok_iff.1 h
  have hcase : naming.keyToMember = memberCase := rfl
  rw [hcase, memberCase] at heq
  split at heq
  · exact isMemberName_lowerCase heq hwords hdigit
  · rw [heq] at hdigit ⊢
    exact isMemberName_camelCase hwords hdigit

end ObjectiveC

end PairedSource
