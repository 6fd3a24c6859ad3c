import PairedSource.Proofs.Settings.Layers
import PairedSource.Proofs.Toml.Standing
import PairedSource.Proofs.Toml.Typed

namespace PairedSource

open Except

def Toml.Value.text? : Value → Option String
  | .text s => some s
  | _ => none

def Toml.Value.boolean? : Value → Option Bool
  | .boolean b => some b
  | _ => none

theorem FileTree.readSource_eq_ok {tree : FileTree} {path : Path} {source : SourceText}
    (h : tree.readSource path = .ok source) : ∃ l content,
      tree.file? path = some (l, content) ∧ String.fromUTF8? content = some source.text := by
  unfold FileTree.readSource at h
  split at h
  · rename_i l content hfile
    unfold SourceText.ofBytes at h
    split at h
    · rename_i text htext
      obtain rfl := Except.ok.inj h
      exact ⟨l, content, hfile, htext⟩
    · cases h
  · cases h

namespace Settings

open Toml (Keyed Located Typed Value)

variable {fields : List (String × Keyed Value)} {key : String} {field : Keyed Value}
  {settings settings' start : Settings}

def textUnder (key : String) (fields : List (String × Keyed Value)) : Option String :=
  (fields.lookup key).bind (·.value.text?)

def booleanUnder (key : String) (fields : List (String × Keyed Value)) : Option Bool :=
  (fields.lookup key).bind (·.value.boolean?)

/-- What the table of a settings file says, by its keys. -/
def ofFields (fields : List (String × Keyed Value)) : Settings where
  outputDir := (textUnder "output-dir" fields).map Path.mk
  searchPath := (textUnder "search-path" fields).map Path.mk
  namePrefix := textUnder "prefix" fields
  legacyTarget := booleanUnder "legacy-target" fields
  skipDeclaration := booleanUnder "skip-declaration" fields
  aggregate := booleanUnder "aggregate" fields
  aggregateName := textUnder "aggregate-name" fields

theorem readField_eq_ok (h : readField settings (key, field) = .ok settings') :
    settings' = settings.merge (ofFields [(key, field)]) := by
  have hone : ∀ other, [(key, field)].lookup other = if other = key then some field else none := by
    intro other
    by_cases hother : other = key
    · rw [hother, List.lookup_cons_self, if_pos rfl]
    · rw [List.lookup_cons, beq_false_of_ne hother, if_neg hother, List.lookup_nil]
  unfold readField at h
  dsimp only at h
  split at h
  -- paths
  case h_1 | h_2 =>
    obtain ⟨given, hgiven, rfl⟩ := bind_ok_eq_ok_iff.1 h
    simp [merge, ofFields, textUnder, booleanUnder, hone, Typed.path_eq_ok hgiven, Value.text?]
  -- texts
  case h_3 | h_7 =>
    obtain ⟨given, hgiven, rfl⟩ := bind_ok_eq_ok_iff.1 h
    simp [merge, ofFields, textUnder, booleanUnder, hone, Typed.string_eq_ok hgiven, Value.text?]
  -- switches
  case h_4 | h_5 | h_6 =>
    obtain ⟨given, hgiven, rfl⟩ := bind_ok_eq_ok_iff.1 h
    simp [merge, ofFields, textUnder, booleanUnder, hone, Typed.boolean_eq_ok hgiven,
      Value.boolean?]
  case h_8 => cases h

theorem lookup_bind_cons {α : Type} {g : Keyed Value → Option α} (other : String)
    (hkey : key ∉ fields.map Prod.fst) : (((key, field) :: fields).lookup other).bind g =
      ((fields.lookup other).bind g <|> ([(key, field)].lookup other).bind g) := by
  by_cases h : other = key
  · subst h
    rw [Association.lookup_eq_none_iff_notMem.2 hkey]
    simp
  · rw [List.lookup_cons, List.lookup_cons, beq_false_of_ne h]
    simp

/-- Where no key comes twice the fields are layers of their own. -/
theorem ofFields_cons (hkey : key ∉ fields.map Prod.fst) :
    ofFields ((key, field) :: fields) = (ofFields [(key, field)]).merge (ofFields fields) := by
  simp only [ofFields, merge, textUnder, booleanUnder, lookup_bind_cons _ hkey,
    Option.orElse_eq_orElse, Option.orElse_eq_or, Option.map_or]

theorem foldlM_readField_eq_ok (hkeys : (fields.map Prod.fst).Nodup)
    (h : fields.foldlM readField start = .ok settings) :
    settings = start.merge (ofFields fields) := by
  induction fields generalizing start with
  | nil =>
    obtain rfl := Except.ok.inj h
    exact (merge_empty start).symm
  | cons entry fields ih =>
    obtain ⟨key, field⟩ := entry
    obtain ⟨hkey, hkeys⟩ := List.nodup_cons.1 hkeys
    rw [List.foldlM_cons, bind_eq_ok_iff] at h
    obtain ⟨next, hnext, h⟩ := h
    rw [ih hkeys h, readField_eq_ok hnext, merge_assoc, ofFields_cons hkey]

variable (tree : FileTree) (path : Path) (explicit : Bool) in
/-- The entries of the settings file. One that nobody asked for may be missing. -/
inductive FileHolds : List (String × Keyed Value) → Prop
  | absent (h : explicit = false) (habsent : tree.pathExists path = false) : FileHolds []
  | read (l : Location) (content : ByteArray) (text : String) (document : Toml.Document)
    (hasked : explicit = true ∨ tree.pathExists path = true)
    (hfile : tree.file? path = some (l, content)) (htext : String.fromUTF8? content = some text)
    (hdocument : Toml.Document.read text = .ok document) : FileHolds document.root.fields

theorem load_eq_ok {tree : FileTree} {path : Path} {explicit : Bool}
    (h : load tree path explicit = .ok settings) : ∃ fields,
      FileHolds tree path explicit fields ∧
        settings = (ofFields fields).relativeTo (path.parent?.getD ⟨""⟩) := by
  unfold load at h
  split at h
  · rename_i hasked
    simp only [Bool.and_eq_true, Bool.not_eq_true'] at hasked
    obtain rfl := Except.ok.inj h
    exact ⟨[], .absent hasked.1 hasked.2, rfl⟩
  · rename_i hasked
    obtain ⟨source, hsource, h⟩ := bind_eq_ok_iff.1 h
    obtain ⟨read, hread, rfl⟩ := bind_ok_eq_ok_iff.1 h
    obtain ⟨l, content, hfile, htext⟩ := FileTree.readSource_eq_ok hsource
    obtain ⟨document, hdocument, hread⟩ := Toml.decode_eq_ok_iff.1 hread
    have hkeys := (Toml.Document.built_read hdocument).nodup
    rw [foldlM_readField_eq_ok hkeys hread, empty_merge]
    refine ⟨_, .read l content source.text document ?_ hfile htext hdocument, rfl⟩
    cases explicit
    · exact .inr (by simpa using hasked)
    · exact .inl rfl

end Settings

end PairedSource
