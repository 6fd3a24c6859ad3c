import PairedSource.ObjectiveC.Language
import PairedSource.Proofs.Except
import PairedSource.Proofs.Text.LetterCase
import PairedSource.Proofs.Text.Split

namespace PairedSource

namespace Identifier

open Text

variable {s w : String} {c : Char}

theorem isAlphanum_of_mem_words (hw : w ∈ words s) (hc : c ∈ w.toList) : c.isAlphanum = true := by
  obtain ⟨p, hp, rfl⟩ := List.mem_map.1 hw
  rw [String.toList_ofList] at hc
  have h := (not_sep_of_mem_pieces (List.mem_filter.1 hp).1 c hc).1
  simpa using h

theorem ne_empty_of_mem_words (hw : w ∈ words s) : w ≠ "" := by
  obtain ⟨p, hp, rfl⟩ := List.mem_map.1 hw
  have h := (List.mem_filter.1 hp).2
  simpa using h

theorem isAlphanum_of_mem_pascalCase (hc : c ∈ (pascalCase s).toList) : c.isAlphanum = true := by
  rw [pascalCase, String.toList_join, List.mem_flatMap] at hc
  obtain ⟨_, hmap, hc⟩ := hc
  obtain ⟨w, hw, rfl⟩ := List.mem_map.1 hmap
  exact isAlphanum_of_mem_upperFirst (fun d hd ↦ isAlphanum_of_mem_words hw hd) hc

theorem pascalCase_ne_empty (h : words s ≠ []) : pascalCase s ≠ "" := by
  obtain ⟨w, ws, hw⟩ := List.exists_cons_of_ne_nil h
  have hmem : w ∈ words s := by simp [hw]
  have hne := upperFirst_ne_empty (fun d hd ↦ isAlphanum_of_mem_words hmem hd)
    (ne_empty_of_mem_words hmem)
  rw [ne_eq, ← String.toList_inj] at hne ⊢
  simp_all [pascalCase, String.toList_join]

theorem isContinuation_of_isAlphanum (h : c.isAlphanum = true) : isContinuation c = true := by
  simp [isContinuation, h]

theorem isContinuation_of_isStart (h : isStart c = true) : isContinuation c = true := by
  simp only [isStart, Bool.or_eq_true] at h
  rcases h with h | h
  · exact isContinuation_of_isAlphanum (by simp [Char.isAlphanum, h])
  · simp [isContinuation, h]

theorem isIdentifier_iff : isIdentifier s = true ↔
    ∃ c cs, s.toList = c :: cs ∧ isStart c = true ∧ ∀ d ∈ cs, isContinuation d = true := by
  unfold isIdentifier
  cases s.toList with
  | nil => simp
  | cons c cs =>
    simp only [Bool.and_eq_true, List.all_eq_true, List.cons.injEq]
    constructor
    · intro h
      obtain ⟨hc, hcs⟩ := h
      exact ⟨c, cs, ⟨rfl, rfl⟩, hc, hcs⟩
    · intro h
      obtain ⟨_, _, ⟨rfl, rfl⟩, hc, hcs⟩ := h
      exact ⟨hc, hcs⟩

theorem isContinuation_of_mem (h : isIdentifier s = true) (hc : c ∈ s.toList) :
    isContinuation c = true := by
  obtain ⟨d, ds, hs, hd, hds⟩ := isIdentifier_iff.1 h
  rw [hs, List.mem_cons] at hc
  rcases hc with rfl | hc
  · exact isContinuation_of_isStart hd
  · exact hds c hc

theorem isIdentifier_append (h : isIdentifier s = true)
    (hw : ∀ c ∈ w.toList, isContinuation c = true) : isIdentifier (s ++ w) = true := by
  obtain ⟨d, ds, hs, hd, hds⟩ := isIdentifier_iff.1 h
  refine isIdentifier_iff.2 ⟨d, ds ++ w.toList, by simp [hs], hd, fun c hc ↦ ?_⟩
  exact (List.mem_append.1 hc).elim (hds c) (hw c)

end Identifier

namespace NamingPolicy

open Identifier

variable {policy : NamingPolicy} {key namePrefix name : String}

theorem checkPrefix_eq_ok_iff : policy.checkPrefix namePrefix = .ok ⟨⟩ ↔
    namePrefix = "" ∨ isIdentifier namePrefix = true ∧ policy.isReserved namePrefix = false := by
  unfold checkPrefix
  by_cases hempty : namePrefix = ""
  · simp [hempty]
  · by_cases hid : isIdentifier namePrefix = true
    · by_cases hreserved : policy.isReserved namePrefix = true
      · simp [hempty, hid, hreserved]
      · simp [hempty, hid, hreserved]
    · simp [hempty, hid]

theorem derive_eq_ok_iff {casing : String → String} : policy.derive key casing = .ok name ↔
    policy.isReserved (Text.trim key) = false ∧ words (Text.trim key) ≠ [] ∧
      name = casing (Text.trim key) := by
  unfold derive
  by_cases hempty : Text.trim key = ""
  · have hwords : words "" = [] := rfl
    simp [hempty, hwords]
  · by_cases hreserved : policy.isReserved (Text.trim key) = true
    · simp [hempty, hreserved]
    · by_cases hwords : words (Text.trim key) = []
      · simp [hempty, hreserved, hwords]
      · simp only [String.isEmpty_iff, hempty, hreserved, List.isEmpty_iff, hwords,
          Bool.false_eq_true, if_false, Except.ok.injEq, ne_eq, not_false_eq_true, true_and]
        exact eq_comm

variable (policy name) in
/-- Whether a name can stand where names are declared: it starts with no digit and is no reserved
word. -/
def IsFree : Prop :=
  name.toList.head?.any Char.isDigit = false ∧ policy.isReserved name = false

theorem checkDerived_eq_ok_iff {derived : String} :
    policy.checkDerived derived = .ok name ↔ name = derived ∧ policy.IsFree derived := by
  unfold checkDerived IsFree
  by_cases hdigit : derived.toList.head?.any Char.isDigit = true
  · simp [hdigit]
  · by_cases hreserved : policy.isReserved derived = true
    · simp [hdigit, hreserved]
    · simp only [hdigit, hreserved, Bool.false_eq_true, if_false, Except.ok.injEq, and_self,
        and_true]
      exact eq_comm

theorem typeName_eq_ok_iff : policy.typeName key namePrefix = .ok name ↔
    (namePrefix = "" ∨ isIdentifier namePrefix = true ∧ policy.isReserved namePrefix = false) ∧
      policy.isReserved (Text.trim key) = false ∧ words (Text.trim key) ≠ [] ∧
      name = namePrefix ++ policy.keyToType (Text.trim key) ∧ policy.IsFree name := by
  simp only [typeName, Except.bind_eq_ok_iff, checkDerived_eq_ok_iff, derive_eq_ok_iff]
  constructor
  · intro h
    obtain ⟨⟨⟩, haccepted, _, ⟨hreserved, hwords, rfl⟩, rfl, hfree⟩ := h
    exact ⟨checkPrefix_eq_ok_iff.1 haccepted, hreserved, hwords, rfl, hfree⟩
  · intro h
    obtain ⟨haccepted, hreserved, hwords, rfl, hfree⟩ := h
    exact ⟨⟨⟩, checkPrefix_eq_ok_iff.2 haccepted, _, ⟨hreserved, hwords, rfl⟩, rfl, hfree⟩

theorem memberName_eq_ok_iff : policy.memberName key = .ok name ↔
    policy.isReserved (Text.trim key) = false ∧ words (Text.trim key) ≠ [] ∧
      name = policy.keyToMember (Text.trim key) ∧ policy.IsFree name := by
  simp only [memberName, Except.bind_eq_ok_iff, checkDerived_eq_ok_iff, derive_eq_ok_iff]
  constructor
  · intro h
    obtain ⟨_, ⟨hreserved, hwords, rfl⟩, rfl, hfree⟩ := h
    exact ⟨hreserved, hwords, rfl, hfree⟩
  · intro h
    obtain ⟨hreserved, hwords, rfl, hfree⟩ := h
    exact ⟨_, ⟨hreserved, hwords, rfl⟩, rfl, hfree⟩

theorem isIdentifier_typeName (hcase : policy.keyToType = pascalCase)
    (h : policy.typeName key namePrefix = .ok name) : isIdentifier name = true := by
  obtain ⟨haccepted, -, hwords, rfl, hdigit, -⟩ := typeName_eq_ok_iff.1 h
  rw [hcase] at hdigit ⊢
  have hall : ∀ c ∈ (pascalCase (Text.trim key)).toList, c.isAlphanum = true :=
    fun c hc ↦ isAlphanum_of_mem_pascalCase hc
  rcases haccepted with rfl | ⟨hid, -⟩
  · rw [String.empty_append] at hdigit ⊢
    have hne := pascalCase_ne_empty hwords
    obtain ⟨c, cs, hcs⟩ :=
      List.exists_cons_of_ne_nil (l := (pascalCase (Text.trim key)).toList) (by simpa using hne)
    have hc := hall c (by simp [hcs])
    have hletter : c.isAlpha = true := by
      simp only [hcs, List.head?_cons, Option.any_some] at hdigit
      simpa [Char.isAlphanum, hdigit] using hc
    refine isIdentifier_iff.2 ⟨c, cs, hcs, by simp [isStart, hletter], fun d hd ↦ ?_⟩
    exact isContinuation_of_isAlphanum (hall d (by simp [hcs, hd]))
  · exact isIdentifier_append hid fun c hc ↦ isContinuation_of_isAlphanum (hall c hc)

end NamingPolicy

end PairedSource
