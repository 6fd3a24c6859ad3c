import PairedSource.Proofs.Assembly.Layout

namespace PairedSource

/-- Two errors are the same, or in both the same unit claims a symbol that is taken. -/
def Error.AgreesWith (e e' : Error) : Prop :=
  e = e' ∨ ∃ symbol first symbol' first' second,
    e = .duplicateSymbol symbol first second ∧ e' = .duplicateSymbol symbol' first' second

theorem Error.agreesWith_refl (e : Error) : e.AgreesWith e :=
  .inl rfl

open Except

namespace Assembly

variable {engine : Engine} {language : Language} {config : RunConfig} {naming : NamingPolicy}
  {unit unit' : SourceUnit} {units units' : List SourceUnit} {names : List String}
  {taken taken' : List (String × String)} {a a' : AssembledUnit}
  {assembled assembled' : List AssembledUnit}

section Names

theorem map_key_of_same (h : List.Forall₂ SourceUnit.Same units units') :
    units.map SourceUnit.key = units'.map SourceUnit.key :=
  h.map_eq_map fun _ _ hunit ↦ hunit.1

theorem resolveNames_of_keys (h : units.map SourceUnit.key = units'.map SourceUnit.key) :
    resolveNames naming config taken units = resolveNames naming config taken units' := by
  induction units generalizing units' taken with
  | nil =>
    obtain rfl := List.map_eq_nil_iff.1 h.symm
    rfl
  | cons unit units ih =>
    obtain ⟨unit', units', rfl, hkey, hkeys⟩ := List.map_eq_cons_iff.1 h.symm
    simp only [resolveNames, hkey, ih hkeys.symm]

theorem second_of_firstRepeat?_claimsOf {clash : Repeat} (hnodup : (taken.map Prod.fst).Nodup)
    (h : firstRepeat? taken (claimsOf unit) = some clash) : clash.second = unit.key := by
  obtain ⟨index, hclaim, -, -⟩ := (firstRepeat?_eq_some_iff hnodup).1 h
  obtain ⟨symbol, -, heq⟩ := List.mem_map.1 (List.mem_of_getElem? hclaim)
  exact (congrArg Prod.snd heq).symm

/-- Where the symbols of each unit are the same in some order, the same unit is the first to claim
one that is taken. -/
theorem second_firstRepeat? (h : List.Forall₂ SourceUnit.Same units units')
    (htaken : (taken.map Prod.fst).Perm (taken'.map Prod.fst))
    (hnodup : (taken.map Prod.fst).Nodup) :
    (firstRepeat? taken (symbolClaims units)).map Repeat.second =
      (firstRepeat? taken' (symbolClaims units')).map Repeat.second := by
  induction h generalizing taken taken' with
  | nil => rfl
  | @cons unit unit' units units' hunit _ ih =>
    have hnodup' := htaken.nodup_iff.1 hnodup
    obtain ⟨hkey, -, -, -, hsymbols⟩ := hunit
    have hall : ((taken ++ claimsOf unit).map Prod.fst).Perm
        ((taken' ++ claimsOf unit').map Prod.fst) := by
      rw [List.map_append, List.map_append]
      refine htaken.append ?_
      simpa [claimsOf, Function.comp_def] using hsymbols.perm
    have hfree : firstRepeat? taken (claimsOf unit) = none ↔
        ((taken ++ claimsOf unit).map Prod.fst).Nodup := firstRepeat?_eq_none_iff hnodup
    have hfree' : firstRepeat? taken' (claimsOf unit') = none ↔
        ((taken' ++ claimsOf unit').map Prod.fst).Nodup := firstRepeat?_eq_none_iff hnodup'
    rw [← hall.nodup_iff, ← hfree] at hfree'
    rw [symbolClaims, symbolClaims, List.flatMap_cons, List.flatMap_cons, firstRepeat?_append,
      firstRepeat?_append, ← symbolClaims, ← symbolClaims]
    cases hclash : firstRepeat? taken (claimsOf unit) with
    | none =>
      rw [hfree'.2 hclash, Option.none_or, Option.none_or]
      exact ih hall (hfree.1 hclash)
    | some clash =>
      obtain ⟨clash', hclash'⟩ := Option.ne_none_iff_exists'.1 fun hnone ↦ by
        rw [hfree'.1 hnone] at hclash
        cases hclash
      rw [hclash', Option.some_or, Option.some_or, Option.map_some, Option.map_some,
        second_of_firstRepeat?_claimsOf hnodup hclash,
        second_of_firstRepeat?_claimsOf hnodup' hclash', hkey]

theorem checkSymbols_matches (h : List.Forall₂ SourceUnit.Same units units')
    (hlength : names.length = units.length) (hnodup : names.Nodup) :
    Matches Error.AgreesWith (fun _ _ ↦ True) (checkSymbols units names)
      (checkSymbols units' names) := by
  have hkeys : typeClaims units names = typeClaims units' names := by
    rw [typeClaims, typeClaims, map_key_of_same h]
  have hnames : ((typeClaims units' names).map Prod.fst).Nodup := by
    rwa [← hkeys, map_fst_typeClaims hlength]
  have hsecond := second_firstRepeat? h (.refl _) hnames
  rw [checkSymbols_eq, checkSymbols_eq, hkeys]
  cases hclash : firstRepeat? (typeClaims units' names) (symbolClaims units) with
  | none =>
    rw [hclash, Option.map_none, eq_comm, Option.map_eq_none_iff] at hsecond
    rw [hsecond]
    exact .ok trivial
  | some clash =>
    rw [hclash, Option.map_some, eq_comm, Option.map_eq_some_iff] at hsecond
    obtain ⟨clash', hclash', heq⟩ := hsecond
    rw [hclash']
    exact .error (.inr ⟨_, _, _, _, _, rfl, by rw [heq]⟩)

end Names

/-- Two assembled units with the same text, which import the same in some order. -/
structure SameText (a a' : AssembledUnit) : Prop where
  name : a.name = a'.name
  declaration : a.declaration = a'.declaration
  definition : a.definition = a'.definition
  imports : a.imports.toList.Perm a'.imports.toList

theorem assembleUnit_matches (h : unit.Same unit') (mode : TargetMode) (name : String) :
    Matches Error.AgreesWith SameText (assembleUnit engine mode unit name)
      (assembleUnit engine mode unit' name) := by
  obtain ⟨-, himports, hdeclarations, hdefinitions, -⟩ := h
  rw [assembleUnit, assembleUnit, hdeclarations, hdefinitions]
  refine (Matches.self Error.agreesWith_refl (fun _ ↦ rfl) _).bind ?_
  rintro declarations _ - - rfl
  refine (Matches.self Error.agreesWith_refl (fun _ ↦ rfl) _).bind ?_
  rintro definitions _ - - rfl
  exact .ok ⟨rfl, rfl, rfl, himports.perm⟩

theorem assemble_matches (h : List.Forall₂ SourceUnit.Same units units') :
    Matches Error.AgreesWith (List.Forall₂ SameText) (engine.assemble config units)
      (engine.assemble config units') := by
  rw [Engine.assemble, Engine.assemble, resolveNames_of_keys (map_key_of_same h)]
  refine (Matches.self Error.agreesWith_refl (fun _ ↦ rfl) _).bind ?_
  rintro ⟨⟩ ⟨⟩ - - -
  refine (Matches.self Error.agreesWith_refl (fun _ ↦ rfl) _).bind ?_
  rintro names _ hnames - rfl
  obtain ⟨hcanonical, hnodup⟩ := resolveNames_eq_ok_iff.1 hnames
  have hlength := hcanonical.length_eq.symm.trans h.length_eq.symm
  refine (checkSymbols_matches h hlength hnodup).bind ?_
  rintro ⟨⟩ ⟨⟩ - - -
  refine Matches.mapM ((h.zip_right names).imp ?_)
  rintro ⟨unit, name⟩ ⟨unit', _⟩ ⟨hunit, rfl⟩
  exact assembleUnit_matches hunit config.targetMode name

variable (engine config) in
/-- Two pairs of files over units that are the same up to the order of their imports. Each import
block has the directives as the units of its own side list them, each at its first place, and all
else is the same. The pairs are the same if their import blocks are the same text. -/
def ReordersImports (units units' : List SourceUnit) (left right : ArtifactPair) : Prop :=
  ∃ own own' stem names directives directives' declaration definition,
    own.Sublist units ∧ own'.Sublist units' ∧ List.Forall₂ SourceUnit.Same own own' ∧
    List.Forall₂ (IsCanonical engine.language.naming config) own names ∧
    directives = (own.flatMap (·.imports.toList)).eraseDups ∧
    directives' = (own'.flatMap (·.imports.toList)).eraseDups ∧ directives.Perm directives' ∧
    IsLaidOut engine.language config stem names directives declaration definition left ∧
    IsLaidOut engine.language config stem names directives' declaration definition right ∧
    (left = right ↔
      importText engine.language directives = importText engine.language directives')

theorem IsLaidOut.eq_iff {stem declaration definition : String}
    {names directives directives' : List String} {left right : ArtifactPair}
    (h : IsLaidOut language config stem names directives declaration definition left)
    (h' : IsLaidOut language config stem names directives' declaration definition right) :
    left = right ↔ importText language directives = importText language directives' := by
  constructor
  · rintro rfl
    cases hskip : config.skipDeclaration with
    | true =>
      have hcontent := congrArg Artifact.content (h.definition.symm.trans h'.definition)
      simpa [hskip] using hcontent
    | false =>
      have hcontent := h.declaration.symm.trans h'.declaration
      simpa [hskip] using hcontent
  · intro htext
    have hdeclaration : left.declaration = right.declaration := by
      rw [h.declaration, h'.declaration, htext]
    have hdefinition : left.definition = right.definition := by
      rw [h.definition, h'.definition, htext]
    have hname := h.name.trans h'.name.symm
    have hunits := h.units.trans h'.units.symm
    cases left
    cases right
    rw [ArtifactPair.mk.injEq]
    exact ⟨hname, hunits, hdeclaration, hdefinition⟩

theorem perm_directives (h : List.Forall₂ SourceUnit.Same units units') :
    (units.flatMap (·.imports.toList)).eraseDups.Perm
      (units'.flatMap (·.imports.toList)).eraseDups :=
  (h.imp fun _ _ hunit ↦ hunit.2.1.perm).perm_flatMap.eraseDups

section Pairs

variable {own own' : List SourceUnit}

theorem reordersImports_pair (hown : own.Sublist units) (hown' : own'.Sublist units')
    (hsame : List.Forall₂ SourceUnit.Same own own')
    (hleft : List.Forall₂ (Assembles engine config) own assembled)
    (hright : List.Forall₂ (Assembles engine config) own' assembled')
    (h : List.Forall₂ SameText assembled assembled') (stem : String) :
    ReordersImports engine config units units' (pair engine.language config stem assembled)
      (pair engine.language config stem assembled') := by
  have hlaid := isLaidOut_pair engine.language config stem assembled
  have hlaid' := isLaidOut_pair engine.language config stem assembled'
  rw [directives_eq hleft] at hlaid
  rw [directives_eq hright, ← h.map_eq_map fun _ _ ha ↦ ha.name,
    ← h.map_eq_map fun _ _ ha ↦ ha.declaration, ← h.map_eq_map fun _ _ ha ↦ ha.definition] at hlaid'
  have hnames : List.Forall₂ (IsCanonical engine.language.naming config) own
      (assembled.map AssembledUnit.name) :=
    List.forall₂_map_right_iff.2 (hleft.imp fun _ _ ha ↦ ha.1)
  exact ⟨own, own', stem, _, _, _, _, _, hown, hown', hsame, hnames, rfl, rfl,
    perm_directives hsame, hlaid, hlaid', hlaid.eq_iff hlaid'⟩

theorem reordersImports_singletons (h : List.Forall₂ SourceUnit.Same own own')
    (hleft : List.Forall₂ (Assembles engine config) own assembled)
    (hright : List.Forall₂ (Assembles engine config) own' assembled')
    (htext : List.Forall₂ SameText assembled assembled') (hown : own.Sublist units)
    (hown' : own'.Sublist units') :
    List.Forall₂ (fun a a' ↦ ReordersImports engine config units units'
      (pair engine.language config a.name [a]) (pair engine.language config a'.name [a']))
        assembled assembled' := by
  induction h generalizing assembled assembled' with
  | nil =>
    cases hleft
    cases hright
    exact .nil
  | @cons unit unit' own own' hunit hsame ih =>
    obtain ⟨a, others, ha, hothers, rfl⟩ := List.forall₂_cons_left_iff.1 hleft
    obtain ⟨a', others', ha', hothers', rfl⟩ := List.forall₂_cons_left_iff.1 hright
    obtain ⟨hhead, htail⟩ := List.forall₂_cons.1 htext
    have hfirst : [unit].Sublist units :=
      (List.singleton_sublist.2 List.mem_cons_self).trans hown
    have hfirst' : [unit'].Sublist units' :=
      (List.singleton_sublist.2 List.mem_cons_self).trans hown'
    refine .cons ?_ (ih hothers hothers' htail ((List.sublist_cons_self _ _).trans hown)
      ((List.sublist_cons_self _ _).trans hown'))
    rw [← hhead.name]
    exact reordersImports_pair hfirst hfirst' (.cons hunit .nil) (.cons ha .nil) (.cons ha' .nil)
      (.cons hhead .nil) a.name

theorem layOut_matches (hsame : List.Forall₂ SourceUnit.Same units units')
    (hleft : List.Forall₂ (Assembles engine config) units assembled)
    (hright : List.Forall₂ (Assembles engine config) units' assembled')
    (h : List.Forall₂ SameText assembled assembled') :
    Matches Error.AgreesWith (fun left right : Generation ↦ left.aggregate = right.aggregate ∧
        List.Forall₂ (ReordersImports engine config units units') left.pairs right.pairs)
      (layOut engine.language config assembled) (layOut engine.language config assembled') := by
  unfold layOut
  cases config.aggregate with
  | true =>
    cases Identifier.isIdentifier config.aggregateName with
    | true =>
      exact .ok ⟨rfl, .cons (reordersImports_pair (.refl _) (.refl _) hsame hleft hright h
        config.aggregateName) .nil⟩
    | false => exact .error (Error.agreesWith_refl _)
  | false =>
    refine .ok ⟨rfl, ?_⟩
    rw [List.forall₂_map_left_iff, List.forall₂_map_right_iff]
    exact reordersImports_singletons hsame hleft hright h (.refl _) (.refl _)

end Pairs

theorem map_imports_of_assemble (h : engine.assemble config units = .ok assembled) :
    assembled.map (·.imports.toList) = units.map (·.imports.toList) := by
  obtain ⟨-, hunits, -⟩ := Engine.assemble_eq_ok_iff.1 h
  exact (hunits.map_eq_map fun unit a ha ↦ by rw [ha.imports_eq]).symm

theorem eq_of_sameText (h : List.Forall₂ SameText assembled assembled')
    (himports : assembled.map (·.imports.toList) = assembled'.map (·.imports.toList)) :
    assembled = assembled' := by
  induction h with
  | nil => rfl
  | @cons a a' _ _ ha _ ih =>
    obtain ⟨hhead, htail⟩ := List.cons.inj himports
    obtain ⟨name, ⟨imports, hnodup⟩, declaration, definition⟩ := a
    obtain ⟨hname, hdeclaration, hdefinition, -⟩ := ha
    dsimp only at hname hdeclaration hdefinition hhead
    subst hname hdeclaration hdefinition hhead
    rw [ih htail]

end Assembly

open Assembly

section Reordered

variable (engine : Engine) (config : RunConfig) {units units' : List SourceUnit}

/-- Units that differ in the order of their imports and symbols alone generate files that differ in
the order of their imports alone, and the same files if they import in one order. Where they fail
they fail alike, for a symbol that is taken at the same unit. -/
theorem equal_units_reorder_imports (h : List.Forall₂ SourceUnit.Same units units') :
    Matches Error.AgreesWith (fun left right : Generation ↦ left.aggregate = right.aggregate ∧
        List.Forall₂ (ReordersImports engine config units units') left.pairs right.pairs)
      (engine.generate config units) (engine.generate config units') ∧
    (units.map (·.imports.toList) = units'.map (·.imports.toList) → ∀ generation,
      engine.generate config units = .ok generation →
        engine.generate config units' = .ok generation) := by
  have hassemble : Matches Error.AgreesWith (List.Forall₂ SameText) (engine.assemble config units)
      (engine.assemble config units') := assemble_matches h
  rw [Engine.generate_eq, Engine.generate_eq]
  refine ⟨hassemble.bind fun assembled assembled' hassembled hassembled' htext ↦ ?_,
    fun himports generation hok ↦ ?_⟩
  · exact layOut_matches h (Engine.assemble_eq_ok_iff.1 hassembled).2.1
      (Engine.assemble_eq_ok_iff.1 hassembled').2.1 htext
  obtain ⟨assembled, hassembled, hlayout⟩ := bind_eq_ok_iff.1 hok
  rw [hassembled] at hassemble
  obtain ⟨assembled', hassembled', htext⟩ := hassemble.exists_ok
  have hsame : assembled = assembled' := by
    apply eq_of_sameText htext
    rw [map_imports_of_assemble hassembled, map_imports_of_assemble hassembled', himports]
  rw [hassembled', ok_bind, ← hsame, hlayout]

end Reordered

namespace ObjectiveC

def frameworkFirst : SourceUnit :=
  (({ key := "panel" } : SourceUnit).addImport "<UIKit/UIKit.h>").addImport "\"Theme.h\""

def themeFirst : SourceUnit :=
  (({ key := "panel" } : SourceUnit).addImport "\"Theme.h\"").addImport "<UIKit/UIKit.h>"

theorem same_frameworkFirst_themeFirst :
    List.Forall₂ SourceUnit.Same [frameworkFirst] [themeFirst] := by
  refine .cons ⟨rfl, ?_, rfl, rfl, ?_⟩ .nil
  · decide
  · decide

theorem exists_generate_frameworkFirst :
    ∃ generation, engine.generate panelsConfig [frameworkFirst] = .ok generation := by
  have hsome : (engine.generate panelsConfig [frameworkFirst]).toOption.isSome = true := by decide
  obtain ⟨generation, h⟩ := Option.isSome_iff_exists.1 hsome
  exact ⟨generation, toOption_eq_some_iff.1 h⟩

theorem equal_units_reorder_imports_panel :
    List.Forall₂ SourceUnit.Same [frameworkFirst] [themeFirst] ∧ ∃ left right,
      engine.generate panelsConfig [frameworkFirst] = .ok left ∧
      engine.generate panelsConfig [themeFirst] = .ok right ∧
      List.Forall₂ (ReordersImports engine panelsConfig [frameworkFirst] [themeFirst])
        left.pairs right.pairs := by
  obtain ⟨left, hleft⟩ := exists_generate_frameworkFirst
  obtain ⟨hmatches, -⟩ := equal_units_reorder_imports engine panelsConfig
    same_frameworkFirst_themeFirst
  rw [hleft] at hmatches
  obtain ⟨right, hright, -, hpairs⟩ := hmatches.exists_ok
  exact ⟨same_frameworkFirst_themeFirst, left, right, hleft, hright, hpairs⟩

/-- Units that are equal up to the order of their imports do not generate equal files. -/
theorem equal_units_generate_apart :
    List.Forall₂ SourceUnit.Same [frameworkFirst] [themeFirst] ∧ ∃ left right,
      engine.generate panelsConfig [frameworkFirst] = .ok left ∧
      engine.generate panelsConfig [themeFirst] = .ok right ∧ left.artifacts ≠ right.artifacts := by
  have happart : (engine.generate panelsConfig [frameworkFirst]).toOption.map
      Generation.artifacts ≠ (engine.generate panelsConfig [themeFirst]).toOption.map
        Generation.artifacts := by
    decide +kernel
  have hsome : (engine.generate panelsConfig [themeFirst]).toOption.isSome = true := by decide
  obtain ⟨left, hleft⟩ := exists_generate_frameworkFirst
  obtain ⟨right, hright⟩ := Option.isSome_iff_exists.1 hsome
  have hright := toOption_eq_some_iff.1 hright
  refine ⟨same_frameworkFirst_themeFirst, left, right, hleft, hright, fun heq ↦ happart ?_⟩
  rw [hleft, hright]
  exact congrArg some heq

end ObjectiveC

end PairedSource
