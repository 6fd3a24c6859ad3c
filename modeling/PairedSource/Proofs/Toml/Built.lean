import PairedSource.Proofs.Association
import PairedSource.Proofs.Except
import PairedSource.Toml.Document

namespace PairedSource.Toml

open Except

variable {P : Lexeme → Prop}

inductive Written.Each (P : Lexeme → Prop) : Written → Prop
  | scalar (lexeme : Lexeme) (h : P lexeme) : Each P (.scalar lexeme)
  | array (items : List Written) (span : Span) (h : ∀ item ∈ items, Each P item) :
    Each P (.array items span)
  | table (entries : List (KeyPath × Written)) (span : Span)
    (h : ∀ entry ∈ entries, Each P entry.2) : Each P (.table entries span)

def Statement.Each (P : Lexeme → Prop) : Statement → Prop
  | .assignment _ written => written.Each P
  | .table .. | .arrayElement .. => True

/-- A value whose scalars were read from lexemes with a property, where they stand, and whose tables
have every key once. -/
inductive Built (P : Lexeme → Prop) : Located Value → Prop
  | scalar (lexeme : Lexeme) (value : Value) (h : lexeme.value = .ok value) (hP : P lexeme) :
    Built P ⟨value, lexeme.span⟩
  | array (items : List (Located Value)) (span : Span) (h : ∀ item ∈ items, Built P item) :
    Built P ⟨.array items, span⟩
  | table (table : Table) (span : Span) (hkeys : (table.fields.map Prod.fst).Nodup)
    (h : ∀ entry ∈ table.fields, Built P entry.2.toLocated) : Built P ⟨.table table, span⟩
  | tables (elements : List (Located Table)) (span : Span)
    (h : ∀ element ∈ elements, Built P ⟨.table element.value, element.span⟩) :
    Built P ⟨.tables elements, span⟩

variable (P) in
structure TableOf.Built (table : Table) : Prop where
  nodup : (table.fields.map Prod.fst).Nodup
  field : ∀ entry ∈ table.fields, Toml.Built P entry.2.toLocated

section Scalars

def Value.isScalar : Value → Bool
  | .array _ | .tables _ | .table _ => false
  | _ => true

namespace Scalar

variable {cs : List Char} {value : Value}

theorem isScalar_integer (base : Nat) (negative : Bool) (digits : List Char) :
    (integer base negative digits).isScalar = true := by
  unfold integer
  split
  · dsimp only
    split <;> rfl
  · rfl

theorem yields_based (base : Nat) (baseName : String) :
    Yields (·.isScalar = true) (based base baseName cs) := by
  unfold based
  split
  · split
    · exact .ok (isScalar_integer _ _ _)
    · exact .error _
  · exact .error _

theorem yields_decimal : Yields (·.isScalar = true) (decimal cs) := by
  unfold decimal
  split
  · exact .error _
  · split
    · exact .ok (isScalar_integer _ _ _)
    · exact .error _

theorem yields_dateTime : Yields (·.isScalar = true) (dateTime cs) := by
  unfold dateTime
  split
  · exact .ok rfl
  · exact .error _

theorem yields_float : Yields (·.isScalar = true) (float cs) := by
  refine .bind fun ⟨whole, rest⟩ _ ↦ .bind fun ⟨places, rest⟩ _ ↦
    .bind fun ⟨exponent, rest⟩ _ ↦ ?_
  dsimp only
  split
  · exact .error _
  · split
    · exact .error _
    · split
      · exact .ok rfl
      · exact .ok rfl

theorem yields_numeric : Yields (·.isScalar = true) (numeric cs) := by
  unfold numeric
  dsimp only
  split
  · exact yields_dateTime
  · exact yields_dateTime
  · split
    · exact .error _
    · split
      · exact yields_float
      · split
        · exact yields_decimal
        · exact yields_decimal
        · exact .error _

theorem yields_decode : Yields (·.isScalar = true) (decode cs) := by
  unfold decode
  dsimp only
  split
  · exact .ok rfl
  · split
    · exact .ok rfl
    · split
      · exact .ok rfl
      · split
        · exact .ok rfl
        · split
          · exact yields_based _ _
          · exact yields_based _ _
          · exact yields_based _ _
          · split
            · exact yields_numeric
            · split
              · exact .error _
              · exact .error _
          · exact .error _

end Scalar

variable {lexeme : Lexeme} {value : Value}

theorem Lexeme.isScalar_of_value (h : lexeme.value = .ok value) : value.isScalar = true := by
  unfold Lexeme.value at h
  split at h
  · exact Scalar.yields_decode value h
  · obtain ⟨text, -, rfl⟩ := map_eq_ok_iff.1 h
    rfl

end Scalars

section Parts

variable {items : List (Located Value)} {elements : List (Located Table)} {table : Table}
  {span : Span} {given : Located Value}

theorem Built.item (h : Built P ⟨.array items, span⟩) : ∀ item ∈ items, Built P item := by
  cases h with
  | scalar lexeme _ hvalue => cases lexeme.isScalar_of_value hvalue
  | array _ _ h => exact h

theorem Built.toTable (h : Built P ⟨.table table, span⟩) : table.Built P := by
  cases h with
  | scalar lexeme _ hvalue => cases lexeme.isScalar_of_value hvalue
  | table _ _ hkeys h => exact ⟨hkeys, h⟩

theorem TableOf.Built.ofTable (h : table.Built P) : Toml.Built P ⟨.table table, span⟩ :=
  .table table span h.nodup h.field

theorem Built.element (h : Built P ⟨.tables elements, span⟩) :
    ∀ element ∈ elements, element.value.Built P := by
  cases h with
  | scalar lexeme _ hvalue => cases lexeme.isScalar_of_value hvalue
  | tables _ _ h => exact fun element helement ↦ (h element helement).toTable

theorem Built.ofElements (h : ∀ element ∈ elements, element.value.Built P) :
    Built P ⟨.tables elements, span⟩ :=
  .tables elements span fun element helement ↦ (h element helement).ofTable

theorem Built.exists_lexeme (h : Built P given) (hscalar : given.value.isScalar = true) :
    ∃ lexeme, lexeme.value = .ok given.value ∧ lexeme.span = given.span ∧ P lexeme := by
  cases h with
  | scalar lexeme value hvalue hP => exact ⟨lexeme, hvalue, rfl, hP⟩
  | array | table | tables => cases hscalar

end Parts

namespace Document

variable {table changed : Table} {key : Key} {keys parents : List Key} {value : Located Value}
  {span : Span} {dotted : Bool} {change : Table → Except SyntaxError Table}

theorem built_empty (form : TableForm) : ({ form } : Table).Built P :=
  ⟨List.nodup_nil, fun _ h ↦ absurd h List.not_mem_nil⟩

theorem built_put (h : table.Built P) (key : Key) (hvalue : Built P value) :
    (put table key value).Built P := by
  refine ⟨Association.nodup_keys_alter _ h.nodup, fun entry hentry ↦ ?_⟩
  rcases Association.mem_alter hentry with hentry | ⟨present, rfl⟩
  · exact h.field entry hentry
  · exact hvalue

theorem built_of_lookup {field : Keyed Value} (h : table.Built P)
    (hfield : table.fields.lookup key.name = some field) : Built P field.toLocated :=
  h.field _ (Association.mem_of_lookup_eq_some hfield)

theorem built_within (hchange : ∀ table, table.Built P → Yields (TableOf.Built P) (change table))
    (h : table.Built P) : Yields (TableOf.Built P) (within dotted change keys table) := by
  induction keys generalizing table with
  | nil => exact hchange table h
  | cons key keys ih =>
    rw [within]
    split
    · exact .bind fun made hmade ↦ .ok (built_put h key (ih (built_empty _) made hmade).ofTable)
    · rename_i field hfield
      have hbuilt := built_of_lookup h hfield
      obtain ⟨⟨given, span⟩, keySpan⟩ := field
      dsimp only at hbuilt ⊢
      split
      · split
        · exact .error _
        · split
          · exact .error _
          · exact .bind fun changed hchanged ↦
              .ok (built_put h key (ih hbuilt.toTable changed hchanged).ofTable)
      · rename_i elements
        split
        · exact .error _
        · rename_i last hlast
          refine .bind fun changed hchanged ↦ .ok (built_put h key (Built.ofElements ?_))
          intro element helement
          rcases List.mem_append.1 helement with helement | helement
          · exact hbuilt.element element (List.dropLast_subset _ helement)
          · obtain rfl := List.mem_singleton.1 helement
            exact ih (hbuilt.element last (List.mem_of_getLast? hlast)) changed hchanged
      · exact .error _

theorem built_bind (h : table.Built P) (hvalue : Built P value) :
    Yields (TableOf.Built P) (bind dotted key value table) := by
  unfold bind
  split
  · exact .error _
  · split
    · exact .error _
    · exact .ok (built_put h key hvalue)

theorem built_assign (h : table.Built P) (hvalue : Built P value) :
    Yields (TableOf.Built P) (assign parents key value table) :=
  built_within (fun _ h ↦ built_bind h hvalue) h

theorem built_openTable (h : table.Built P) :
    Yields (TableOf.Built P) (openTable key span table) := by
  unfold openTable
  split
  · exact .ok (built_put h key (built_empty _).ofTable)
  · rename_i field hfield
    have hbuilt := built_of_lookup h hfield
    obtain ⟨⟨given, span⟩, keySpan⟩ := field
    dsimp only at hbuilt ⊢
    split
    · split
      · have hinner := hbuilt.toTable
        have hothers : ({ table with fields := Association.erase key.name table.fields } :
            Table).Built P :=
          ⟨Association.nodup_keys_erase h.nodup, fun entry hentry ↦
            h.field entry ((Association.erase_sublist _ _).subset hentry)⟩
        have hopened : ({ form := .explicit, fields := _ } : Table).Built P :=
          ⟨hinner.nodup, hinner.field⟩
        exact .ok (built_put hothers key hopened.ofTable)
      · exact .error _
    · exact .error _

theorem built_openElement (h : table.Built P) :
    Yields (TableOf.Built P) (openElement key span table) := by
  unfold openElement
  dsimp only
  split
  · refine .ok (built_put h key (Built.ofElements fun element helement ↦ ?_))
    obtain rfl := List.mem_singleton.1 helement
    exact built_empty _
  · rename_i field hfield
    have hbuilt := built_of_lookup h hfield
    obtain ⟨⟨given, span⟩, keySpan⟩ := field
    dsimp only at hbuilt ⊢
    split
    · refine .ok (built_put h key (Built.ofElements fun element helement ↦ ?_))
      rcases List.mem_append.1 helement with helement | helement
      · exact hbuilt.element element helement
      · obtain rfl := List.mem_singleton.1 helement
        exact built_empty _
    · exact .error _

theorem built_decodeItems {items : List Written}
    (h : ∀ item ∈ items, Yields (Built P) (decode item)) :
    Yields (fun values ↦ ∀ value ∈ values, Built P value) (decodeItems items) := by
  induction items with
  | nil => exact .ok fun _ h ↦ absurd h List.not_mem_nil
  | cons item items ih =>
    rw [decodeItems]
    refine .bind fun first hfirst ↦ .bind fun rest hrest ↦ .ok fun value hvalue ↦ ?_
    rcases List.mem_cons.1 hvalue with rfl | hvalue
    · exact h item List.mem_cons_self value hfirst
    · exact ih (fun item hitem ↦ h item (List.mem_cons_of_mem _ hitem)) rest hrest value hvalue

theorem built_decodeEntries {entries : List (KeyPath × Written)}
    (h : ∀ entry ∈ entries, Yields (Built P) (decode entry.2)) (htable : table.Built P) :
    Yields (TableOf.Built P) (decodeEntries table entries) := by
  induction entries generalizing table with
  | nil => exact .ok htable
  | cons entry entries ih =>
    obtain ⟨path, written⟩ := entry
    rw [decodeEntries]
    refine .bind fun ⟨parents, key⟩ _ ↦ .bind fun value hvalue ↦ .bind fun table' htable' ↦ ?_
    exact ih (fun entry hentry ↦ h entry (List.mem_cons_of_mem _ hentry))
      (built_assign htable (h (path, written) List.mem_cons_self value hvalue) table' htable')

theorem built_decode {written : Written} (h : written.Each P) :
    Yields (Built P) (decode written) := by
  induction h with
  | scalar lexeme hP =>
    rw [decode]
    exact .bind fun value hvalue ↦ .ok (.scalar lexeme value hvalue hP)
  | array items span _ ih =>
    rw [decode]
    exact .bind fun values hvalues ↦ .ok (.array values span (built_decodeItems ih values hvalues))
  | table entries span _ ih =>
    rw [decode]
    exact .bind fun table htable ↦
      .ok (built_decodeEntries ih (built_empty _) table htable).ofTable

theorem built_step {statement : Statement} {progress : Progress} (h : progress.root.Built P)
    (hstatement : statement.Each P) :
    Yields (fun after ↦ after.root.Built P) (progress.step statement) := by
  cases statement with
  | assignment path written =>
    refine .bind fun ⟨parents, key⟩ _ ↦ .bind fun value hvalue ↦ .bind fun root hroot ↦ .ok ?_
    exact built_within (fun _ h ↦ built_assign h (built_decode hstatement value hvalue)) h
      root hroot
  | table path span =>
    exact .bind fun ⟨parents, key⟩ _ ↦ .bind fun root hroot ↦
      .ok (built_within (fun _ h ↦ built_openTable h) h root hroot)
  | arrayElement path span =>
    exact .bind fun ⟨parents, key⟩ _ ↦ .bind fun root hroot ↦
      .ok (built_within (fun _ h ↦ built_openElement h) h root hroot)

theorem built_foldlM {statements : List Statement}
    (h : ∀ statement ∈ statements, statement.Each P) :
    Yields (fun progress : Progress ↦ progress.root.Built P)
      (statements.foldlM Progress.step {}) :=
  .foldlM (built_empty _) fun _ statement hstatement hprogress ↦
    built_step hprogress (h statement hstatement)

end Document

end PairedSource.Toml
