import PairedSource.Proofs.Assembly.Bodies
import PairedSource.Proofs.Assembly.Layout
import PairedSource.Proofs.Text.Emitted

namespace PairedSource

open Except Text

namespace Assembly

variable {engine : Engine} {language : Language} {config : RunConfig} {unit : SourceUnit}
  {units : List SourceUnit} {generation : Generation} {assembled : List AssembledUnit}
  {a : AssembledUnit} {s : String} {l : List String}

/-- What stands around the texts of a type: its first line, what follows each text, what follows
them all, and its last line. -/
structure Frame where
  opening : String
  gap : String
  ending : String
  closing : String

def declarationFrame (language : Language) (name : String) : Frame where
  opening := language.openDeclaration name
  gap := ""
  ending := "\n"
  closing := language.closeDeclaration name

def definitionFrame (language : Language) (name : String) : Frame where
  opening := language.openDefinition name
  gap := "\n"
  ending := ""
  closing := language.closeDefinition name

namespace Frame

variable (frame : Frame)

def join (texts : List String) : String :=
  String.join (texts.map (wholeLines · ++ frame.gap))

def front (texts : List String) : String :=
  frame.opening ++ "\n" ++ "\n" ++ frame.join texts

def back (texts : List String) : String :=
  frame.gap ++ frame.join texts ++ frame.ending ++ frame.closing ++ "\n"

theorem front_append_back (texts : List String) (text : String) (texts' : List String) :
    frame.front texts ++ wholeLines text ++ frame.back texts' =
      frame.opening ++ "\n" ++ ("\n" ++ frame.join (texts ++ text :: texts') ++ frame.ending) ++
        frame.closing ++ "\n" := by
  simp only [front, back, join, List.map_append, List.map_cons, String.join_append,
    String.join_cons, String.append_assoc]

end Frame

theorem join_flatMap_lines (blank texts : List String) :
    String.join ((texts.flatMap (lines · ++ blank)).map (· ++ "\n")) =
      String.join (texts.map (wholeLines · ++ String.join (blank.map (· ++ "\n")))) := by
  induction texts with
  | nil => rfl
  | cons text texts ih =>
    rw [List.flatMap_cons, List.map_append, List.map_append, String.join_append, String.join_append,
      join_lines, ih, List.map_cons, String.join_cons]

theorem join_enclosed (opening closing : String) (ls : List String) :
    String.join ((opening :: ls ++ [closing]).map (· ++ "\n")) =
      opening ++ "\n" ++ String.join (ls.map (· ++ "\n")) ++ closing ++ "\n" := by
  simp only [List.cons_append, List.map_cons, List.map_append, List.map_nil, String.join_cons,
    String.join_append, String.join_nil, String.append_empty, String.append_assoc]

theorem declarationBody_append (language : Language) (name : String) (texts : List String)
    (text : String) (texts' : List String) :
    declarationBody language name (texts ++ text :: texts') =
      (declarationFrame language name).front texts ++ wholeLines text ++
        (declarationFrame language name).back texts' := by
  have hjoin : String.join (((texts ++ text :: texts').flatMap lines).map (· ++ "\n")) =
      (declarationFrame language name).join (texts ++ text :: texts') := by
    have h := join_flatMap_lines [] (texts ++ text :: texts')
    simp only [List.append_nil] at h
    exact h
  have hlines : String.join ((declarationLines (texts ++ text :: texts')).map (· ++ "\n")) =
      "\n" ++ (declarationFrame language name).join (texts ++ text :: texts') ++ "\n" := by
    rw [declarationLines, if_neg (by simp), List.cons_append, List.map_cons, List.map_append,
      String.join_cons, String.join_append, hjoin, String.append_assoc]
    rfl
  rw [declarationBody_eq, join_enclosed, hlines, Frame.front_append_back]
  rfl

theorem definitionBody_append (language : Language) (name : String) (texts : List String)
    (text : String) (texts' : List String) :
    definitionBody language name (texts ++ text :: texts') =
      (definitionFrame language name).front texts ++ wholeLines text ++
        (definitionFrame language name).back texts' := by
  have hlines : String.join ((definitionLines (texts ++ text :: texts')).map (· ++ "\n")) =
      "\n" ++ (definitionFrame language name).join (texts ++ text :: texts') ++ "" := by
    rw [definitionLines, List.map_cons, String.join_cons, join_flatMap_lines, String.append_empty]
    rfl
  rw [definitionBody_eq, join_enclosed, hlines, Frame.front_append_back]
  rfl

def Encloses (content part : String) : Prop :=
  ∃ head tail, content = head ++ part ++ tail

theorem encloses_intercalate (h : s ∈ l) : Encloses ("\n".intercalate l) s := by
  obtain ⟨before, after, rfl⟩ := List.append_of_mem h
  have htail : ∃ tail, "\n".intercalate (s :: after) = s ++ tail := by
    by_cases hafter : after = []
    · exact ⟨"", by simp [hafter]⟩
    · exact ⟨_, by rw [String.intercalate_cons_of_ne_nil hafter, String.append_assoc]⟩
  obtain ⟨tail, htail⟩ := htail
  by_cases hbefore : before = []
  · exact ⟨"", tail, by simp [hbefore, htail]⟩
  · refine ⟨"\n".intercalate before ++ "\n", tail, ?_⟩
    rw [String.intercalate_append_of_ne_nil hbefore (List.cons_ne_nil s after), htail]
    simp only [String.append_assoc]

theorem Encloses.append_left {content part : String} (h : Encloses content part) (head : String) :
    Encloses (head ++ content) part := by
  obtain ⟨head', tail, rfl⟩ := h
  exact ⟨head ++ head', tail, by simp only [String.append_assoc]⟩

theorem exists_pair_of_layOut (h : layOut engine.language config assembled = .ok generation)
    (ha : a ∈ assembled) : ∃ stem units, a ∈ units ∧
      pair engine.language config stem units ∈ generation.pairs := by
  rcases layOut_eq_ok_iff.1 h with ⟨-, -, rfl⟩ | ⟨-, rfl⟩
  · exact ⟨_, assembled, ha, List.mem_singleton_self _⟩
  · exact ⟨a.name, [a], List.mem_singleton_self a, List.mem_map_of_mem ha⟩

variable (config) in
/-- A pair of files has a unit in it, the declaration of which may be skipped. -/
structure Contains (files : ArtifactPair) (a : AssembledUnit) : Prop where
  name_mem : a.name ∈ files.units
  declaration_eq_none_iff : files.declaration = none ↔ config.skipDeclaration = true
  declaration : ∀ artifact, files.declaration = some artifact →
    Encloses artifact.content a.declaration
  definition : Encloses files.definition.content a.definition

theorem contains_pair {stem : String} (h : a ∈ assembled) :
    Contains config (pair language config stem assembled) a := by
  have hlaidOut := isLaidOut_pair language config stem assembled
  have hdeclaration := encloses_intercalate (List.mem_map_of_mem (f := AssembledUnit.declaration) h)
  have hdefinition := encloses_intercalate (List.mem_map_of_mem (f := AssembledUnit.definition) h)
  refine ⟨?_, ?_, ?_, ?_⟩
  · rw [hlaidOut.units]
    exact List.mem_map_of_mem h
  · rw [hlaidOut.declaration]
    simp
  · intro artifact hartifact
    rw [hlaidOut.declaration] at hartifact
    split at hartifact
    · cases hartifact
    · obtain rfl := Option.some.inj hartifact
      exact hdeclaration.append_left _
  · rw [hlaidOut.definition]
    exact hdefinition.append_left _

theorem exists_files_of_generate (h : engine.generate config units = .ok generation)
    (hunit : unit ∈ units) : ∃ a, Assembles engine config unit a ∧
      ∃ files ∈ generation.pairs, Contains config files a := by
  obtain ⟨assembled, hassembled, hlayout⟩ := Engine.generate_eq_ok_iff.1 h
  obtain ⟨-, hunits, -⟩ := Engine.assemble_eq_ok_iff.1 hassembled
  obtain ⟨a, ha, hassembles⟩ := hunits.exists_of_mem_left hunit
  obtain ⟨stem, others, hmem, hpair⟩ := exists_pair_of_layOut hlayout ha
  exact ⟨a, hassembles, _, hpair, contains_pair hmem⟩

variable (engine config) in
/-- A text of a unit is in its place in a file: between the markers of the type, behind what the
fragments before it become and in front of what those after it become. -/
def Places (name : String) (frame : Frame) (before : List Fragment) (text : String)
    (after : List Fragment) (content : String) : Prop :=
  ∃ texts texts',
    before.mapM (resolve engine.rules config.targetMode name) = .ok texts ∧
    after.mapM (resolve engine.rules config.targetMode name) = .ok texts' ∧
    Encloses content (frame.front texts ++ wholeLines text ++ frame.back texts')

theorem Encloses.places {name content text : String} {frame : Frame}
    {fragments before after : List Fragment} {body : List String → String} {all : List String}
    (hbody : ∀ texts text texts', body (texts ++ text :: texts') =
      frame.front texts ++ wholeLines text ++ frame.back texts')
    (hall : fragments.mapM (resolve engine.rules config.targetMode name) = .ok all)
    (h : Encloses content (body all)) (hsplit : fragments = before ++ .text text :: after) :
    Places engine config name frame before text after content := by
  rw [hsplit, mapM_append_cons_eq_ok_iff] at hall
  obtain ⟨texts, written, texts', htexts, hwritten, htexts', rfl⟩ := hall
  obtain rfl := Except.ok.inj hwritten
  rw [hbody] at h
  exact ⟨texts, texts', htexts, htexts', h⟩

end Assembly

open Assembly

section Emitted

variable {engine : Engine} {config : RunConfig} {unit : SourceUnit} {units : List SourceUnit}
  {generation : Generation}

/-- The texts that a unit is given are in its files, each in its place, without the returns that end
lines and with an end of the last line where that has none. A text with no such return is there as
it was written. -/
theorem texts_emitted (h : engine.generate config units = .ok generation) (hunit : unit ∈ units) :
    (∃ name, IsCanonical engine.language.naming config unit name ∧
      ∃ files ∈ generation.pairs, name ∈ files.units ∧
        (files.declaration = none ↔ config.skipDeclaration = true) ∧
        (∀ before text after, unit.declarations = before ++ .text text :: after →
          ∀ artifact, files.declaration = some artifact →
            Places engine config name (declarationFrame engine.language name) before text after
              artifact.content) ∧
        ∀ before text after, unit.definitions = before ++ .text text :: after →
          Places engine config name (definitionFrame engine.language name) before text after
            files.definition.content) ∧
    ∀ text, wholeLines text = text ++ missingEnd text ↔ ¬['\r', '\n'] <:+: text.toList := by
  refine ⟨?_, fun text ↦ wholeLines_eq_iff⟩
  obtain ⟨a, ⟨hname, hassemble⟩, files, hfiles, hcontains⟩ := exists_files_of_generate h hunit
  obtain ⟨declarations, definitions, hdeclarations, hdefinitions, heq⟩ :=
    assembleUnit_eq_ok_iff.1 hassemble
  refine ⟨a.name, hname, files, hfiles, hcontains.name_mem, hcontains.declaration_eq_none_iff,
    ?_, ?_⟩
  · intro before text after hsplit artifact hartifact
    have henclosed := hcontains.declaration artifact hartifact
    rw [heq] at henclosed
    exact henclosed.places (declarationBody_append engine.language a.name) hdeclarations hsplit
  · intro before text after hsplit
    have henclosed := hcontains.definition
    rw [heq] at henclosed
    exact henclosed.places (definitionBody_append engine.language a.name) hdefinitions hsplit

end Emitted

namespace ObjectiveC

def returned : String :=
  "+ (void)show;\r\n+ (void)hide;"

def returnedPanel : SourceUnit :=
  ({ key := "panel" } : SourceUnit).addDeclaration (.text returned)

theorem texts_emitted_panel : ∃ generation,
    engine.generate panelsConfig [returnedPanel] = .ok generation ∧
      ∃ files ∈ generation.pairs, ∃ artifact, files.declaration = some artifact ∧
        Places engine panelsConfig "Panel" (declarationFrame language "Panel") [] returned []
          artifact.content := by
  have hsome : (engine.generate panelsConfig [returnedPanel]).toOption.isSome = true := by decide
  obtain ⟨generation, h⟩ := Option.isSome_iff_exists.1 hsome
  have h := Except.toOption_eq_some_iff.1 h
  obtain ⟨⟨name, hname, files, hfiles, -, hskipped, hplaced, -⟩, -⟩ :=
    texts_emitted h List.mem_cons_self
  have hpanel : naming.typeName "panel" panelsConfig.namePrefix = .ok "Panel" := by decide
  obtain rfl : name = "Panel" := Except.ok.inj (hname.symm.trans hpanel)
  obtain ⟨artifact, hartifact⟩ := Option.ne_none_iff_exists'.1 fun hnone ↦ by
    cases hskipped.1 hnone
  exact ⟨generation, h, files, hfiles, artifact, hartifact,
    hplaced [] returned [] rfl artifact hartifact⟩

/-- No file of the run has the text in it as it was written. -/
theorem text_not_emitted_verbatim : .text returned ∈ returnedPanel.declarations ∧ ∃ generation,
    engine.generate panelsConfig [returnedPanel] = .ok generation ∧
      ∀ artifact ∈ generation.artifacts, ¬Encloses artifact.content returned := by
  -- Bytes are enough here, and cheaper to come by than characters.
  have hreturns : (engine.generate panelsConfig [returnedPanel]).toOption.map
      (fun generation ↦ generation.artifacts.all fun artifact ↦
        !artifact.content.toByteArray.data.toList.contains 13) = some true := by
    decide +kernel
  obtain ⟨generation, h, hnone⟩ := Option.map_eq_some_iff.1 hreturns
  refine ⟨List.mem_singleton_self _, generation, Except.toOption_eq_some_iff.1 h, ?_⟩
  intro artifact hmem hencloses
  obtain ⟨head, tail, hcontent⟩ := hencloses
  have hnone := List.all_eq_true.1 hnone artifact hmem
  rw [Bool.not_eq_true', ← Bool.not_eq_true, List.contains_iff_mem] at hnone
  have hreturn : 13 ∈ returned.toByteArray.data.toList := by decide
  apply hnone
  rw [hcontent, String.toByteArray_append, String.toByteArray_append, ByteArray.data_append,
    ByteArray.data_append, Array.toList_append, Array.toList_append, List.mem_append,
    List.mem_append]
  exact .inl (.inr hreturn)

end ObjectiveC

end PairedSource
