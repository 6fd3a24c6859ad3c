import PairedSource.Proofs.Naming.Words

namespace PairedSource.ObjectiveC

open Identifier Text

variable {key namePrefix name : String}

theorem isReserved_eq_false_iff : naming.isReserved name = false ↔ name ∉ reservedWords := by
  have hwords : naming.isReserved name = reservedWords.contains name := rfl
  rw [hwords, Bool.eq_false_iff, ne_eq, List.contains_iff_mem]

theorem isFree_iff : naming.IsFree name ↔
    name.toList.head?.any Char.isDigit = false ∧ name ∉ reservedWords :=
  and_congr_right fun _ ↦ isReserved_eq_false_iff

/-- Whether a key is an abbreviation does not depend on what is around it. -/
theorem memberCase_trim (key : String) : memberCase (trim key) = memberCase key := by
  have hupper : (trim key).toList.any isUppercase = key.toList.any isUppercase := by
    rw [toList_trim, any_dropAround fun c hc ↦ (of_isBlank hc).2.1]
  have hlower : (trim key).toList.any isLowercase = key.toList.any isLowercase := by
    rw [toList_trim, any_dropAround fun c hc ↦ (of_isBlank hc).2.2]
  rw [memberCase, memberCase, hupper, hlower, words_trim, camelCase, camelCase, pascalCase_trim]

theorem typeName_eq_ok_iff : naming.typeName key namePrefix = .ok name ↔
    (namePrefix = "" ∨ isIdentifier namePrefix = true ∧ namePrefix ∉ reservedWords) ∧
      trim key ∉ reservedWords ∧ (∃ c ∈ key.toList, c.isAlphanum = true) ∧
      name = namePrefix ++ pascalCase key ∧ naming.IsFree name := by
  have hcase : naming.keyToType = pascalCase := rfl
  rw [NamingPolicy.typeName_eq_ok_iff, hcase, isReserved_eq_false_iff, isReserved_eq_false_iff,
    words_trim, words_ne_nil_iff, pascalCase_trim]

theorem memberName_eq_ok_iff : naming.memberName key = .ok name ↔
    trim key ∉ reservedWords ∧ (∃ c ∈ key.toList, c.isAlphanum = true) ∧
      name = memberCase key ∧ naming.IsFree name := by
  have hcase : naming.keyToMember = memberCase := rfl
  rw [NamingPolicy.memberName_eq_ok_iff, hcase, isReserved_eq_false_iff, words_trim,
    words_ne_nil_iff, memberCase_trim]

theorem typeName_typeName (h : naming.typeName key "" = .ok name) :
    naming.typeName name "" = .ok name := by
  obtain ⟨-, -, hkey, rfl, hfree⟩ := typeName_eq_ok_iff.1 h
  rw [String.empty_append] at hfree ⊢
  have hwords := words_ne_nil_iff.2 hkey
  have hall : ∀ c ∈ (pascalCase key).toList, c.isAlphanum = true :=
    fun c hc ↦ isAlphanum_of_mem_pascalCase hc
  obtain ⟨c, cs, hcs⟩ := List.exists_cons_of_ne_nil (l := (pascalCase key).toList)
    (by simpa using pascalCase_ne_empty hwords)
  have hmem : c ∈ (pascalCase key).toList := by simp [hcs]
  refine typeName_eq_ok_iff.2 ⟨.inl rfl, ?_, ⟨c, hmem, hall c hmem⟩, ?_, hfree⟩
  · rw [trim_eq_self hall]
    exact isReserved_eq_false_iff.1 hfree.2
  · rw [String.empty_append, pascalCase_pascalCase hwords]

theorem memberCase_of_isMemberName (h : IsMemberName name) : memberCase name = name := by
  obtain ⟨c, cs, hcs, hc, -⟩ := id h
  have hlt := toNat_lt_of_isAlphanum (isAlphanum_of_isLower hc)
  have hlower : name.toList.any isLowercase = true := by
    rw [hcs, List.any_cons, isLowercase, if_pos hlt, hc, Bool.true_or]
  rw [memberCase, hlower, Bool.not_true, Bool.and_false, if_neg (by decide), h.camelCase_eq]

theorem memberName_memberName (h : naming.memberName key = .ok name) :
    naming.memberName name = .ok name := by
  have hmember := isMemberName_of_memberName h
  obtain ⟨-, -, -, hfree⟩ := memberName_eq_ok_iff.1 h
  obtain ⟨c, cs, hcs, hc, -⟩ := id hmember
  have hmem : c ∈ name.toList := by simp [hcs]
  refine memberName_eq_ok_iff.2
    ⟨?_, ⟨c, hmem, hmember.isAlphanum_of_mem hmem⟩, (memberCase_of_isMemberName hmember).symm,
      hfree⟩
  rw [trim_eq_self fun d hd ↦ hmember.isAlphanum_of_mem hd]
  exact isReserved_eq_false_iff.1 hfree.2

/-- Which keys have names under which prefixes, and what the names look like. Names stay as they are
when they are used as keys. -/
theorem naming_canonical (key namePrefix name : String) :
    (naming.typeName key namePrefix = .ok name ↔
      (namePrefix = "" ∨ isIdentifier namePrefix = true ∧ namePrefix ∉ reservedWords) ∧
        trim key ∉ reservedWords ∧ (∃ c ∈ key.toList, c.isAlphanum = true) ∧
        name = namePrefix ++ pascalCase key ∧
        name.toList.head?.any Char.isDigit = false ∧ name ∉ reservedWords) ∧
    (naming.memberName key = .ok name ↔
      trim key ∉ reservedWords ∧ (∃ c ∈ key.toList, c.isAlphanum = true) ∧
        name = memberCase key ∧
        name.toList.head?.any Char.isDigit = false ∧ name ∉ reservedWords) ∧
    (naming.typeName key namePrefix = .ok name →
      isIdentifier name = true ∧ name ∉ reservedWords ∧ namePrefix.toList <+: name.toList) ∧
    (naming.memberName key = .ok name →
      isIdentifier name = true ∧ name ∉ reservedWords ∧
        ∃ c ∈ name.toList.head?, c.isLower = true) ∧
    (naming.typeName key "" = .ok name → naming.typeName name "" = .ok name) ∧
    (naming.memberName key = .ok name → naming.memberName name = .ok name) := by
  have htype : naming.typeName key namePrefix = .ok name →
      isIdentifier name = true ∧ name ∉ reservedWords ∧ namePrefix.toList <+: name.toList := by
    intro h
    refine ⟨NamingPolicy.isIdentifier_typeName rfl h,
      isReserved_eq_false_iff.1 (NamingPolicy.isReserved_of_typeName h), ?_⟩
    obtain ⟨-, -, -, rfl, -⟩ := typeName_eq_ok_iff.1 h
    rw [String.toList_append]
    exact List.prefix_append _ _
  have hmember : naming.memberName key = .ok name →
      isIdentifier name = true ∧ name ∉ reservedWords ∧
        ∃ c ∈ name.toList.head?, c.isLower = true := by
    intro h
    obtain ⟨-, -, -, hfree⟩ := memberName_eq_ok_iff.1 h
    obtain ⟨c, cs, hcs, hc, -⟩ := isMemberName_of_memberName h
    exact ⟨(isMemberName_of_memberName h).isIdentifier, (isFree_iff.1 hfree).2,
      c, by rw [hcs]; rfl, hc⟩
  rw [← isFree_iff]
  exact ⟨typeName_eq_ok_iff, memberName_eq_ok_iff, htype, hmember, typeName_typeName,
    memberName_memberName⟩

/-- A key with a letter outside ASCII that is still an abbreviation, and one that needs its
prefix. -/
theorem naming_canonical_keys :
    (naming.memberName "\u00a0É-CRAN 2\u2003" = .ok "cran2" ∧
      naming.memberName "cran2" = .ok "cran2") ∧
    naming.typeName "3d shapes" "ACME" = .ok "ACME3dShapes" ∧
      isIdentifier "ACME3dShapes" = true ∧ "ACME".toList <+: "ACME3dShapes".toList := by
  have hmember : naming.memberName "\u00a0É-CRAN 2\u2003" = .ok "cran2" := by decide +kernel
  have htype : naming.typeName "3d shapes" "ACME" = .ok "ACME3dShapes" := by decide +kernel
  obtain ⟨-, -, -, -, -, hagain⟩ := naming_canonical "\u00a0É-CRAN 2\u2003" "" "cran2"
  obtain ⟨-, -, hprefixed, -⟩ := naming_canonical "3d shapes" "ACME" "ACME3dShapes"
  obtain ⟨hid, -, hstart⟩ := hprefixed htype
  exact ⟨⟨hmember, hagain hmember⟩, htype, hid, hstart⟩

end PairedSource.ObjectiveC
