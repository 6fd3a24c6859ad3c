import PairedSource.ObjectiveC
import PairedSource.Proofs.Assembly.Stages

namespace PairedSource

open Except Assembly

def Error.IsCollision : Error → Prop
  | .duplicateUnitName .. | .duplicateSymbol .. => True
  | _ => False

namespace Assembly

variable {units : List SourceUnit} {names : List String} {name symbol first second : String}
  {taken : List (String × String)} {clash : Repeat} {e : Error}

/-- Two units have one name. -/
def SharesName (names : List String) : Prop :=
  ∃ (i j : Nat) (name : String), i ≠ j ∧ names[i]? = some name ∧ names[j]? = some name

variable (units names) in
/-- A symbol of a unit is the name of a unit, be it the same one, or a symbol of another unit. -/
def SymbolTaken : Prop :=
  ∃ (i : Nat) (unit : SourceUnit), units[i]? = some unit ∧ ∃ symbol ∈ unit.symbols,
    symbol ∈ names ∨
      ∃ (j : Nat) (other : SourceUnit), j ≠ i ∧ units[j]? = some other ∧ symbol ∈ other.symbols

variable (units names name first second) in
def IsFirstSharing : Prop :=
  ∃ (i j : Nat) (holder taker : SourceUnit), i < j ∧ (names.take j).Nodup ∧ names[i]? = some name ∧
    names[j]? = some name ∧ units[i]? = some holder ∧ units[j]? = some taker ∧
    holder.key = first ∧ taker.key = second

variable (units names symbol first second) in
def IsSharedSymbol : Prop :=
  ∃ (i j : Nat) (holder taker : SourceUnit), units[i]? = some holder ∧ units[j]? = some taker ∧
    holder.key = first ∧ taker.key = second ∧ symbol ∈ taker.symbols ∧
    (names[i]? = some symbol ∨ i < j ∧ symbol ∈ holder.symbols)

theorem sharesName_iff : SharesName names ↔ ¬names.Nodup := by
  rw [List.Nodup, List.pairwise_iff_getElem]
  constructor
  · intro h hnodup
    obtain ⟨i, j, name, hne, hi, hj⟩ := h
    obtain ⟨hilt, hi⟩ := List.getElem?_eq_some_iff.1 hi
    obtain ⟨hjlt, hj⟩ := List.getElem?_eq_some_iff.1 hj
    rcases Nat.lt_or_gt_of_ne hne with hlt | hlt
    · exact hnodup i j hilt hjlt hlt (hi.trans hj.symm)
    · exact hnodup j i hjlt hilt hlt (hj.trans hi.symm)
  · intro h
    push Not at h
    obtain ⟨i, j, hi, hj, hlt, heq⟩ := h
    refine ⟨i, j, names[i], Nat.ne_of_lt hlt, List.getElem?_eq_getElem hi, ?_⟩
    rw [heq, List.getElem?_eq_getElem hj]

theorem symbolTaken_iff (hnodup : names.Nodup) :
    SymbolTaken units names ↔ ¬(names ++ units.flatMap (·.symbols.toList)).Nodup := by
  constructor
  · intro h hall
    obtain ⟨i, unit, hunit, symbol, hsymbol, htaken⟩ := h
    obtain ⟨-, hsymbols, hdisjoint⟩ := List.nodup_append.1 hall
    rcases htaken with hname | ⟨j, other, hne, hother, hsymbol'⟩
    · refine hdisjoint symbol hname symbol ?_ rfl
      exact List.mem_flatMap.2 ⟨unit, List.mem_of_getElem? hunit, hsymbol⟩
    · have hpairwise := List.pairwise_iff_getElem.1 (List.nodup_flatMap.1 hsymbols).2
      obtain ⟨hi, rfl⟩ := List.getElem?_eq_some_iff.1 hunit
      obtain ⟨hj, rfl⟩ := List.getElem?_eq_some_iff.1 hother
      rcases Nat.lt_or_gt_of_ne hne with hlt | hlt
      · exact hpairwise j i hj hi hlt hsymbol' hsymbol
      · exact hpairwise i j hi hj hlt hsymbol hsymbol'
  · intro h
    by_contra hfree
    refine h (List.nodup_append.2 ⟨hnodup, List.nodup_flatMap.2 ⟨fun unit _ ↦ unit.symbols.nodup,
      List.pairwise_iff_getElem.2 fun i j hi hj hlt symbol hsymbol hsymbol' ↦ ?_⟩, ?_⟩)
    · exact hfree ⟨i, _, List.getElem?_eq_getElem hi, symbol, hsymbol, .inr ⟨j, _,
        Nat.ne_of_gt hlt, List.getElem?_eq_getElem hj, hsymbol'⟩⟩
    · intro name hname symbol hsymbol
      rintro rfl
      obtain ⟨unit, hunit, hsymbol⟩ := List.mem_flatMap.1 hsymbol
      obtain ⟨i, hi⟩ := List.mem_iff_getElem?.1 hunit
      exact hfree ⟨i, unit, hi, name, hsymbol, .inl hname⟩

theorem getElem?_typeClaims_eq_some_iff {i : Nat} :
    (typeClaims units names)[i]? = some (name, first) ↔
      names[i]? = some name ∧ ∃ unit, units[i]? = some unit ∧ unit.key = first := by
  rw [typeClaims, List.getElem?_zip_eq_some, List.getElem?_map, Option.map_eq_some_iff]

theorem isFirstRepeat_typeClaims_iff (hlength : names.length = units.length) :
    IsFirstRepeat [] (typeClaims units names) ⟨name, first, second⟩ ↔
      IsFirstSharing units names name first second := by
  have hbefore (j : Nat) : (([] ++ (typeClaims units names).take j).map Prod.fst).Nodup ↔
      (names.take j).Nodup := by
    rw [List.nil_append, List.map_take, map_fst_typeClaims hlength]
  constructor
  · intro h
    obtain ⟨j, hagain, hnodup, hmem⟩ := h
    obtain ⟨i, hclaim⟩ := List.mem_iff_getElem?.1 hmem
    rw [List.nil_append, List.getElem?_take] at hclaim
    obtain ⟨hlt, hclaim⟩ := Option.ite_none_right_eq_some.1 hclaim
    obtain ⟨hj, taker, htaker, rfl⟩ := getElem?_typeClaims_eq_some_iff.1 hagain
    obtain ⟨hi, holder, hholder, rfl⟩ := getElem?_typeClaims_eq_some_iff.1 hclaim
    exact ⟨i, j, holder, taker, hlt, (hbefore j).1 hnodup, hi, hj, hholder, htaker, rfl, rfl⟩
  · intro h
    obtain ⟨i, j, holder, taker, hlt, hnodup, hi, hj, hholder, htaker, rfl, rfl⟩ := h
    refine ⟨j, getElem?_typeClaims_eq_some_iff.2 ⟨hj, taker, htaker, rfl⟩, (hbefore j).2 hnodup,
      List.mem_iff_getElem?.2 ⟨i, ?_⟩⟩
    rw [List.nil_append, List.getElem?_take, if_pos hlt]
    exact getElem?_typeClaims_eq_some_iff.2 ⟨hi, holder, hholder, rfl⟩

theorem mem_claimsOf_iff {unit : SourceUnit} :
    (name, first) ∈ claimsOf unit ↔ name ∈ unit.symbols ∧ unit.key = first := by
  simp [claimsOf, OrderedSet.mem_toList]

theorem exists_taker_of_firstRepeat? (hnodup : (taken.map Prod.fst).Nodup)
    (h : firstRepeat? taken (symbolClaims units) = some clash) :
    ∃ (j : Nat) (taker : SourceUnit), units[j]? = some taker ∧ taker.key = clash.second ∧
      clash.name ∈ taker.symbols ∧
      (clash.name, clash.first) ∈ taken ++ symbolClaims (units.take j) := by
  induction units generalizing taken with
  | nil => cases h
  | cons unit units ih =>
    rw [symbolClaims, List.flatMap_cons, ← symbolClaims, firstRepeat?_append,
      Option.or_eq_some_iff] at h
    rcases h with h | ⟨hown, h⟩
    · have hrepeat := (firstRepeat?_eq_some_iff hnodup).1 h
      have hset : ((claimsOf unit).map Prod.fst).Nodup := by
        simpa [claimsOf, Function.comp_def] using unit.symbols.nodup
      have hmem := hrepeat.mem_taken hset
      obtain ⟨index, hclaim, -⟩ := hrepeat
      obtain ⟨hsymbol, hkey⟩ := mem_claimsOf_iff.1 (List.mem_of_getElem? hclaim)
      exact ⟨0, unit, rfl, hkey, hsymbol, List.mem_append_left _ hmem⟩
    · have htaken := (firstRepeat?_eq_none_iff hnodup).1 hown
      obtain ⟨j, taker, htaker, hkey, hsymbol, hmem⟩ := ih htaken h
      refine ⟨j + 1, taker, htaker, hkey, hsymbol, ?_⟩
      rwa [List.append_assoc] at hmem

theorem isSharedSymbol_of_firstRepeat? (hlength : names.length = units.length)
    (hnodup : names.Nodup)
    (h : firstRepeat? (typeClaims units names) (symbolClaims units) = some clash) :
    IsSharedSymbol units names clash.name clash.first clash.second := by
  obtain ⟨j, taker, htaker, hkey, hsymbol, hmem⟩ :=
    exists_taker_of_firstRepeat? (by rwa [map_fst_typeClaims hlength]) h
  rcases List.mem_append.1 hmem with hmem | hmem
  · obtain ⟨i, hclaim⟩ := List.mem_iff_getElem?.1 hmem
    obtain ⟨hname, holder, hholder, hfirst⟩ := getElem?_typeClaims_eq_some_iff.1 hclaim
    exact ⟨i, j, holder, taker, hholder, htaker, hfirst, hkey, hsymbol, .inl hname⟩
  · obtain ⟨holder, hholder, hclaim⟩ := List.mem_flatMap.1 hmem
    obtain ⟨hsymbol', hfirst⟩ := mem_claimsOf_iff.1 hclaim
    obtain ⟨i, hi⟩ := List.mem_iff_getElem?.1 hholder
    rw [List.getElem?_take] at hi
    obtain ⟨hlt, hi⟩ := Option.ite_none_right_eq_some.1 hi
    exact ⟨i, j, holder, taker, hi, htaker, hfirst, hkey, hsymbol, .inr ⟨hlt, hsymbol'⟩⟩

variable (units names) in
/-- What is reported of the names of a run: a clash of type names before one of symbols. -/
def collision? : Option Error :=
  match firstRepeat? [] (typeClaims units names) with
  | some clash => some (.duplicateUnitName clash.name clash.first clash.second)
  | none => (firstRepeat? (typeClaims units names) (symbolClaims units)).map fun clash ↦
      .duplicateSymbol clash.name clash.first clash.second

theorem isCollision_of_collision? (h : collision? units names = some e) : e.IsCollision := by
  unfold collision? at h
  split at h
  · obtain rfl := Option.some.inj h
    trivial
  · obtain ⟨clash, -, rfl⟩ := Option.map_eq_some_iff.1 h
    trivial

theorem firstRepeat?_typeClaims_eq_none_iff (hlength : names.length = units.length) :
    firstRepeat? [] (typeClaims units names) = none ↔ ¬SharesName names := by
  rw [firstRepeat?_eq_none_iff (by simp), List.nil_append, map_fst_typeClaims hlength,
    sharesName_iff, not_not]

theorem collision?_eq_duplicateUnitName_iff (hlength : names.length = units.length) :
    collision? units names = some (.duplicateUnitName name first second) ↔
      IsFirstSharing units names name first second := by
  rw [← isFirstRepeat_typeClaims_iff hlength, ← firstRepeat?_eq_some_iff (by simp), collision?]
  cases firstRepeat? [] (typeClaims units names) with
  | none => simp
  | some clash =>
    obtain ⟨name', first', second'⟩ := clash
    simp

theorem exists_isFirstSharing_iff (hlength : names.length = units.length) :
    (∃ name first second, IsFirstSharing units names name first second) ↔ SharesName names := by
  rw [← not_iff_not, ← firstRepeat?_typeClaims_eq_none_iff hlength,
    Option.eq_none_iff_forall_ne_some]
  simp only [← isFirstRepeat_typeClaims_iff hlength, not_exists]
  constructor
  · intro h clash hclash
    exact h clash.name clash.first clash.second ((firstRepeat?_eq_some_iff (by simp)).1 hclash)
  · intro h name first second hfirst
    exact h _ ((firstRepeat?_eq_some_iff (by simp)).2 hfirst)

theorem collision?_of_not_sharesName (hlength : names.length = units.length)
    (h : ¬SharesName names) :
    collision? units names = (firstRepeat? (typeClaims units names) (symbolClaims units)).map
      fun clash ↦ .duplicateSymbol clash.name clash.first clash.second := by
  rw [collision?, (firstRepeat?_typeClaims_eq_none_iff hlength).2 h]

theorem collision?_eq_none_iff (hlength : names.length = units.length) :
    collision? units names = none ↔ ¬SharesName names ∧ ¬SymbolTaken units names := by
  by_cases hshares : SharesName names
  · simp only [hshares, not_true, false_and, iff_false]
    intro h
    refine (firstRepeat?_typeClaims_eq_none_iff hlength).1 ?_ hshares
    unfold collision? at h
    split at h
    · cases h
    · assumption
  · have hnodup : names.Nodup := by rwa [sharesName_iff, not_not] at hshares
    have hfst := map_fst_typeClaims hlength
    rw [collision?_of_not_sharesName hlength hshares, Option.map_eq_none_iff,
      firstRepeat?_eq_none_iff (by rwa [hfst]), List.map_append, hfst, map_fst_symbolClaims,
      symbolTaken_iff hnodup, not_not]
    simp only [hshares, not_false_iff, true_and]

theorem exists_duplicateSymbol_iff (hlength : names.length = units.length)
    (h : ¬SharesName names) :
    (∃ symbol first second,
      collision? units names = some (.duplicateSymbol symbol first second)) ↔
      SymbolTaken units names := by
  constructor
  · intro hclash
    obtain ⟨symbol, first, second, hclash⟩ := hclash
    by_contra htaken
    rw [(collision?_eq_none_iff hlength).2 ⟨h, htaken⟩] at hclash
    cases hclash
  · intro htaken
    have hsome : collision? units names ≠ none :=
      fun hnone ↦ ((collision?_eq_none_iff hlength).1 hnone).2 htaken
    obtain ⟨e, he⟩ := Option.ne_none_iff_exists'.1 hsome
    rw [collision?_of_not_sharesName hlength h] at he
    obtain ⟨clash, hclash, -⟩ := Option.map_eq_some_iff.1 he
    refine ⟨clash.name, clash.first, clash.second, ?_⟩
    rw [collision?_of_not_sharesName hlength h, hclash, Option.map_some]

theorem isSharedSymbol_of_collision? (hlength : names.length = units.length)
    (h : collision? units names = some (.duplicateSymbol symbol first second)) :
    ¬SharesName names ∧ IsSharedSymbol units names symbol first second := by
  cases hnames : firstRepeat? [] (typeClaims units names) with
  | some clash => simp [collision?, hnames] at h
  | none =>
    have hshares := (firstRepeat?_typeClaims_eq_none_iff hlength).1 hnames
    have hnodup : names.Nodup := by rwa [sharesName_iff, not_not] at hshares
    rw [collision?_of_not_sharesName hlength hshares] at h
    obtain ⟨clash, hclash, heq⟩ := Option.map_eq_some_iff.1 h
    obtain ⟨rfl, rfl, rfl⟩ := Error.duplicateSymbol.inj heq
    exact ⟨hshares, isSharedSymbol_of_firstRepeat? hlength hnodup hclash⟩

end Assembly

section Reports

variable {engine : Engine} {config : RunConfig} {units : List SourceUnit} {names : List String}
  {e : Error}

theorem generate_eq_of_canonical
    (haccepted : checkPrefix engine.language.naming config = .ok ⟨⟩)
    (hnames : List.Forall₂ (IsCanonical engine.language.naming config) units names) :
    engine.generate config units =
      match collision? units names with
      | some e => .error e
      | none => ((units.zip names).mapM fun (unit, name) ↦
          assembleUnit engine config.targetMode unit name) >>= layOut engine.language config := by
  rw [Engine.generate_eq, Engine.assemble, haccepted, resolveNames_eq hnames, collision?]
  cases firstRepeat? [] (typeClaims units names) with
  | some clash => rfl
  | none =>
    simp only [ok_bind, checkSymbols_eq]
    cases firstRepeat? (typeClaims units names) (symbolClaims units) <;> rfl

/-- A collision is reported whatever else is wrong with the run. -/
theorem generate_eq_error_iff (haccepted : checkPrefix engine.language.naming config = .ok ⟨⟩)
    (hnames : List.Forall₂ (IsCanonical engine.language.naming config) units names)
    (he : e.IsCollision) :
    engine.generate config units = .error e ↔ collision? units names = some e := by
  rw [generate_eq_of_canonical haccepted hnames]
  cases collision? units names with
  | some e' => simp
  | none =>
    have hrest : FailsWith (¬·.IsCollision) (((units.zip names).mapM fun (unit, name) ↦
        assembleUnit engine config.targetMode unit name) >>= layOut engine.language config) := by
      refine .bind (.mapM ?_ _) ?_
      · intro named e h
        obtain ⟨kind, rfl⟩ := failsWith_assembleUnit engine config.targetMode named.1 named.2 e h
        exact not_false
      · intro assembled e h
        obtain rfl := failsWith_layOut engine.language config assembled e h
        exact not_false
    simp only [reduceCtorEq, iff_false]
    exact fun h ↦ hrest e h he

/-- Names that clash are found, whatever else is wrong with the run and whatever files it would
have: of two units with one name the first that takes it again is reported, of two claims to a
symbol both are real. -/
theorem collisions_exact (haccepted : checkPrefix engine.language.naming config = .ok ⟨⟩)
    (hnames : List.Forall₂ (IsCanonical engine.language.naming config) units names) :
    ((∃ name first second, engine.generate config units =
        .error (.duplicateUnitName name first second)) ↔ SharesName names) ∧
    (∀ name first second, engine.generate config units =
        .error (.duplicateUnitName name first second) ↔
      IsFirstSharing units names name first second) ∧
    (¬SharesName names →
      ((∃ symbol first second, engine.generate config units =
        .error (.duplicateSymbol symbol first second)) ↔ SymbolTaken units names)) ∧
    (∀ symbol first second, engine.generate config units =
        .error (.duplicateSymbol symbol first second) →
      ¬SharesName names ∧ IsSharedSymbol units names symbol first second) ∧
    (∀ e, engine.generate config units = .error e →
      e.IsCollision ∨ ¬SharesName names ∧ ¬SymbolTaken units names) ∧
    ∀ (rules : RuleTable) (other : RunConfig), other.namePrefix = config.namePrefix →
      ∀ e, e.IsCollision → ({ engine with rules }.generate other units = .error e ↔
        engine.generate config units = .error e) := by
  have hlength := hnames.length_eq.symm
  have hname (name first second : String) :=
    generate_eq_error_iff (e := .duplicateUnitName name first second) haccepted hnames trivial
  have hsymbol (symbol first second : String) :=
    generate_eq_error_iff (e := .duplicateSymbol symbol first second) haccepted hnames trivial
  simp only [hname, hsymbol, collision?_eq_duplicateUnitName_iff hlength, implies_true, true_and]
  refine ⟨exists_isFirstSharing_iff hlength, exists_duplicateSymbol_iff hlength,
    fun symbol first second ↦ isSharedSymbol_of_collision? hlength, fun e h ↦ ?_,
    fun rules other hother e he ↦ ?_⟩
  · rw [or_iff_not_imp_left, ← collision?_eq_none_iff hlength]
    intro he
    cases hclash : collision? units names with
    | none => rfl
    | some e' =>
      rw [generate_eq_of_canonical haccepted hnames, hclash] at h
      obtain rfl := Except.error.inj h
      exact absurd (isCollision_of_collision? hclash) he
  · have haccepted' : checkPrefix engine.language.naming other = .ok ⟨⟩ := by
      rwa [checkPrefix, hother]
    have hnames' : List.Forall₂ (IsCanonical engine.language.naming other) units names := by
      unfold IsCanonical
      rwa [hother]
    rw [generate_eq_error_iff haccepted hnames he]
    exact generate_eq_error_iff haccepted' hnames' he

end Reports

namespace ObjectiveC

def cells : List SourceUnit :=
  [({ key := "widget" } : SourceUnit).addSymbol "WidgetCell", { key := "widget cell" }]

def cellsConfig : RunConfig where
  input := ⟨"units.toml"⟩

theorem collisions_exact_cells :
    checkPrefix engine.language.naming cellsConfig = .ok ⟨⟩ ∧
      List.Forall₂ (IsCanonical engine.language.naming cellsConfig) cells
        ["Widget", "WidgetCell"] ∧
      ∃ symbol first second,
        engine.generate cellsConfig cells = .error (.duplicateSymbol symbol first second) ∧
          IsSharedSymbol cells ["Widget", "WidgetCell"] symbol first second := by
  have haccepted : checkPrefix engine.language.naming cellsConfig = .ok ⟨⟩ := rfl
  have hnames : List.Forall₂ (IsCanonical engine.language.naming cellsConfig) cells
      ["Widget", "WidgetCell"] := by
    refine .cons ?_ (.cons ?_ .nil)
    · unfold IsCanonical
      decide
    · unfold IsCanonical
      decide
  have hshares : ¬SharesName ["Widget", "WidgetCell"] := by
    rw [sharesName_iff]
    decide
  have htaken : SymbolTaken cells ["Widget", "WidgetCell"] :=
    ⟨0, _, rfl, "WidgetCell", by decide, .inl (by decide)⟩
  obtain ⟨-, -, hexists, hgenuine, -⟩ := collisions_exact haccepted hnames
  obtain ⟨symbol, first, second, h⟩ := (hexists hshares).2 htaken
  exact ⟨haccepted, hnames, symbol, first, second, h, (hgenuine symbol first second h).2⟩

end ObjectiveC

end PairedSource
