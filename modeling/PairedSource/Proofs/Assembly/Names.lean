import PairedSource.Proofs.Assembly.Repeats
import PairedSource.Proofs.Except

namespace PairedSource.Assembly

variable {naming : NamingPolicy} {config : RunConfig} {taken owners : List (String × String)}
  {key : String} {unit : SourceUnit} {units : List SourceUnit} {names symbols : List String}

variable (naming config unit) in
def IsCanonical (name : String) : Prop :=
  naming.typeName unit.key config.namePrefix = .ok name

def typeClaims (units : List SourceUnit) (names : List String) : List (String × String) :=
  names.zip (units.map SourceUnit.key)

def claimsOf (unit : SourceUnit) : List (String × String) :=
  unit.symbols.toList.map (·, unit.key)

def symbolClaims (units : List SourceUnit) : List (String × String) :=
  units.flatMap claimsOf

theorem typeClaims_cons (unit : SourceUnit) (units : List SourceUnit) (name : String)
    (names : List String) :
    typeClaims (unit :: units) (name :: names) = (name, unit.key) :: typeClaims units names := rfl

theorem map_fst_typeClaims (h : names.length = units.length) :
    (typeClaims units names).map Prod.fst = names :=
  List.map_fst_zip (by simp [h])

theorem map_fst_symbolClaims (units : List SourceUnit) :
    (symbolClaims units).map Prod.fst = units.flatMap (·.symbols.toList) := by
  simp [symbolClaims, claimsOf, List.map_flatMap, Function.comp_def]

/-- Naming units is looking for a name that was given before. -/
theorem resolveNames_eq (h : List.Forall₂ (IsCanonical naming config) units names) :
    resolveNames naming config taken units =
      match firstRepeat? taken (typeClaims units names) with
      | none => .ok names
      | some clash => .error (.duplicateUnitName clash.name clash.first clash.second) := by
  induction h generalizing taken with
  | nil => rfl
  | @cons unit name units names hname _ ih =>
    rw [IsCanonical] at hname
    rw [resolveNames, typeClaims_cons, firstRepeat?]
    cases hlookup : taken.lookup name with
    | some first => simp only [hname, hlookup]
    | none =>
      simp only [hname, hlookup, ih]
      cases firstRepeat? (taken ++ [(name, unit.key)]) (typeClaims units names) <;> rfl

theorem resolveNames_congr {other : RunConfig} (h : other.namePrefix = config.namePrefix)
    (taken : List (String × String)) (units : List SourceUnit) :
    resolveNames naming other taken units = resolveNames naming config taken units := by
  induction units generalizing taken with
  | nil => rfl
  | cons unit units ih => simp only [resolveNames, h, ih]

theorem isCanonical_of_resolveNames (h : resolveNames naming config taken units = .ok names) :
    List.Forall₂ (IsCanonical naming config) units names := by
  induction units generalizing taken names with
  | nil =>
    obtain rfl : [] = names := Except.ok.inj h
    exact .nil
  | cons unit units ih =>
    rw [resolveNames] at h
    cases hname : naming.typeName unit.key config.namePrefix with
    | error reason => simp [hname] at h
    | ok name =>
      cases hlookup : taken.lookup name with
      | some first => simp [hname, hlookup] at h
      | none =>
        simp only [hname, hlookup] at h
        obtain ⟨rest, hrest, rfl⟩ := Except.map_eq_ok_iff.1 h
        exact .cons hname (ih hrest)

theorem resolveNames_eq_ok_iff : resolveNames naming config [] units = .ok names ↔
    List.Forall₂ (IsCanonical naming config) units names ∧ names.Nodup := by
  have hscan (hnames : List.Forall₂ (IsCanonical naming config) units names) :
      firstRepeat? [] (typeClaims units names) = none ↔ names.Nodup := by
    rw [firstRepeat?_eq_none_iff (by simp), List.nil_append,
      map_fst_typeClaims hnames.length_eq.symm]
  constructor
  · intro h
    have hnames := isCanonical_of_resolveNames h
    refine ⟨hnames, (hscan hnames).1 ?_⟩
    rw [resolveNames_eq hnames] at h
    cases hclash : firstRepeat? [] (typeClaims units names) with
    | none => rfl
    | some clash => simp [hclash] at h
  · intro h
    obtain ⟨hnames, hnodup⟩ := h
    rw [resolveNames_eq hnames, (hscan hnames).2 hnodup]

theorem claimSymbols_eq : claimSymbols key owners symbols =
    match firstRepeat? owners (symbols.map (·, key)) with
    | none => .ok (owners ++ symbols.map (·, key))
    | some clash => .error (.duplicateSymbol clash.name clash.first clash.second) := by
  induction symbols generalizing owners with
  | nil => simp [claimSymbols, firstRepeat?]
  | cons symbol symbols ih =>
    rw [claimSymbols, List.map_cons, firstRepeat?]
    cases owners.lookup symbol with
    | some first => rfl
    | none =>
      simp only [ih]
      rw [List.append_assoc, List.singleton_append]

theorem foldlM_claimSymbols_eq :
    units.foldlM (fun owners unit ↦ claimSymbols unit.key owners unit.symbols.toList) owners =
      match firstRepeat? owners (symbolClaims units) with
      | none => .ok (owners ++ symbolClaims units)
      | some clash => .error (.duplicateSymbol clash.name clash.first clash.second) := by
  induction units generalizing owners with
  | nil =>
    rw [symbolClaims, List.flatMap_nil, List.append_nil]
    rfl
  | cons unit units ih =>
    rw [List.foldlM_cons, claimSymbols_eq, symbolClaims, List.flatMap_cons, ← symbolClaims,
      firstRepeat?_append, ← claimsOf]
    cases firstRepeat? owners (claimsOf unit) with
    | some clash => rfl
    | none => simp only [Except.ok_bind, ih, Option.none_or, List.append_assoc]

theorem checkSymbols_eq : checkSymbols units names =
    match firstRepeat? (typeClaims units names) (symbolClaims units) with
    | none => .ok ⟨⟩
    | some clash => .error (.duplicateSymbol clash.name clash.first clash.second) := by
  rw [checkSymbols, foldlM_claimSymbols_eq, ← typeClaims]
  cases firstRepeat? (typeClaims units names) (symbolClaims units) <;> rfl

theorem checkSymbols_eq_ok_iff (hlength : names.length = units.length) (hnodup : names.Nodup) :
    checkSymbols units names = .ok ⟨⟩ ↔
      (names ++ units.flatMap (·.symbols.toList)).Nodup := by
  have hfst := map_fst_typeClaims hlength
  have hscan : firstRepeat? (typeClaims units names) (symbolClaims units) = none ↔
      (names ++ units.flatMap (·.symbols.toList)).Nodup := by
    rw [firstRepeat?_eq_none_iff (by rwa [hfst]), List.map_append, hfst, map_fst_symbolClaims]
  rw [checkSymbols_eq, ← hscan]
  cases firstRepeat? (typeClaims units names) (symbolClaims units) <;> simp

end PairedSource.Assembly
