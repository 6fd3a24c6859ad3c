import PairedSource.Proofs.Assembly.Contents
import PairedSource.Proofs.Assembly.Layout
import PairedSource.Proofs.Concurrent.Running
import PairedSource.Proofs.ObjectiveC.Markers

namespace PairedSource.ObjectiveC

open Assembly Identifier Text

variable {config : RunConfig} {unit : SourceUnit} {units own : List SourceUnit} {a : AssembledUnit}
  {assembled : List AssembledUnit} {directives ls : List String} {generation : Generation}
  {files : ArtifactPair} {artifact : Artifact} {l name body directive : String}

def isMarker (l : String) : Bool :=
  "@interface ".toList.isPrefixOf l.toList || "@implementation ".toList.isPrefixOf l.toList

def isComment (l : String) : Bool :=
  "//".toList.isPrefixOf l.toList

def isImport (l : String) : Bool :=
  "#import ".toList.isPrefixOf l.toList

/-- The lines of a file before the first class. -/
def headOf (content : String) : List String :=
  (split '\n' content).takeWhile fun l ↦ !isMarker l

def bannerLines (config : RunConfig) : List String :=
  ["//", s!"// This file is generated from {config.inputFileName} by {config.toolName}.",
    "// Please do not edit.", "//"]

/-- The lines that a file with some directives has in front of its classes. -/
def headLines (config : RunConfig) (directives : List String) : List String :=
  bannerLines config ++ [""] ++ directives.map language.importLine ++
    if directives.isEmpty then [] else [""]

def StartsMarked (body : String) : Prop :=
  ∃ l rest, body = l ++ "\n" ++ rest ∧ '\n' ∉ l.toList ∧ isMarker l = true

section Lines

theorem mem_headLines (h : l ∈ headLines config directives) : l = "" ∨ l ∈ bannerLines config ∨
    ∃ directive ∈ directives, l = language.importLine directive := by
  simp only [headLines, List.mem_append, List.mem_singleton, List.mem_map] at h
  rcases h with ((h | h) | ⟨directive, hmem, rfl⟩) | h
  · exact .inr (.inl h)
  · exact .inl h
  · exact .inr (.inr ⟨directive, hmem, rfl⟩)
  · split at h
    · cases h
    · exact .inl (List.mem_singleton.1 h)

theorem isComment_of_mem_bannerLines (h : l ∈ bannerLines config) : isComment l = true := by
  simp only [bannerLines, List.mem_cons, List.not_mem_nil, or_false] at h
  rcases h with rfl | rfl | rfl | rfl <;> simp [isComment]

theorem isMarker_eq_false_of_isComment (h : isComment l = true) : isMarker l = false := by
  obtain ⟨t, ht⟩ := List.isPrefixOf_iff_prefix.1 h
  simp [isMarker, ← ht, List.isPrefixOf]

theorem isImport_eq_false_of_isComment (h : isComment l = true) : isImport l = false := by
  obtain ⟨t, ht⟩ := List.isPrefixOf_iff_prefix.1 h
  simp [isImport, ← ht, List.isPrefixOf]

theorem isImport_importLine (directive : String) :
    isImport (language.importLine directive) = true := by
  simp [isImport, language]

theorem isComment_importLine (directive : String) :
    isComment (language.importLine directive) = false := by
  simp [isComment, language, List.isPrefixOf]

theorem isMarker_importLine (directive : String) :
    isMarker (language.importLine directive) = false := by
  simp [isMarker, language, List.isPrefixOf]

theorem notMem_of_mem_bannerLines (hfile : '\n' ∉ config.inputFileName.toList)
    (htool : '\n' ∉ config.toolName.toList) (h : l ∈ bannerLines config) : '\n' ∉ l.toList := by
  simp only [bannerLines, List.mem_cons, List.not_mem_nil, or_false] at h
  rcases h with rfl | rfl | rfl | rfl <;> simp [hfile, htool]

theorem notMem_of_isIdentifier (h : isIdentifier name = true) : '\n' ∉ name.toList :=
  fun hc ↦ (isLine_of_isIdentifier h _ hc).1 rfl

theorem notMem_importLine (h : '\n' ∉ directive.toList) :
    '\n' ∉ (language.importLine directive).toList := by
  simpa [language] using h

end Lines

theorem bannerText_eq (config : RunConfig) :
    bannerText language config = String.join ((bannerLines config ++ [""]).map (· ++ "\n")) := by
  rw [← String.toList_inj]
  simp [bannerText, bannerLines, language]

theorem importText_file (file : String) :
    importText language ["\"" ++ file ++ "\""] = language.localImportLine file ++ "\n\n" := by
  rw [← String.toList_inj]
  simp [importText, language]

theorem bannerText_append_importText (config : RunConfig) (directives : List String) :
    bannerText language config ++ importText language directives =
      String.join ((headLines config directives).map (· ++ "\n")) := by
  rw [bannerText_eq, importText, headLines]
  cases directives.isEmpty <;> simp [String.append_assoc, Function.comp_def]

section Heads

theorem headOf_join_append (h : ∀ l ∈ ls, '\n' ∉ l.toList ∧ isMarker l = false) (body : String) :
    headOf (String.join (ls.map (· ++ "\n")) ++ body) = ls ++ headOf body := by
  rw [headOf, split_join_append, flatMap_split fun l hl ↦ (h l hl).1,
    List.takeWhile_append_of_pos fun l hl ↦ by rw [(h l hl).2]; rfl]
  rfl

theorem mem_headOf_join_append (h : l ∈ headOf (String.join (ls.map (· ++ "\n")) ++ body)) :
    l ∈ ls.flatMap (split '\n') ∨ l ∈ headOf body := by
  rw [headOf, split_join_append, List.takeWhile_append] at h
  split at h
  · exact List.mem_append.1 h
  · exact .inl (List.takeWhile_subset _ h)

theorem eq_of_mem_headOf (hbody : body = "" ∨ StartsMarked body) (h : l ∈ headOf body) :
    l = "" := by
  rcases hbody with rfl | ⟨marker, rest, rfl, hline, hmarker⟩
  · exact List.mem_singleton.1 h
  · rw [headOf, split_newline, split_eq_singleton hline, List.singleton_append,
      List.takeWhile_cons_of_neg (by simp [hmarker])] at h
    cases h

variable (config directives) in
/-- A head with nothing but the banner, the directives and blank lines. Each directive has its own
line. -/
structure IsPlainHead (head : List String) : Prop where
  lines : ∀ l ∈ head, l = "" ∨ isComment l = true ∨
    ∃ directive ∈ directives, l = language.importLine directive
  comments : head.filter isComment = bannerLines config
  imports : head.filter isImport = directives.map language.importLine
  nodup : (head.filter isImport).Nodup

theorem filter_headLines_append {p : String → Bool} {tail : List String} (hp : p "" = false)
    (htail : ∀ l ∈ tail, l = "") : (headLines config directives ++ tail).filter p =
      (bannerLines config).filter p ++ (directives.map language.importLine).filter p := by
  have hblank : ∀ ls : List String, (∀ l ∈ ls, l = "") → ls.filter p = [] := by
    intro ls hls
    rw [List.filter_eq_nil_iff]
    intro l hl
    rw [hls l hl, hp]
    decide
  have hend : ∀ l ∈ (if directives.isEmpty then [] else [""]), l = "" := by
    intro l hl
    split at hl
    · cases hl
    · exact List.mem_singleton.1 hl
  rw [headLines, List.filter_append, List.filter_append, List.filter_append, List.filter_append,
    hblank [""] (by simp), hblank _ hend, hblank tail htail, List.append_nil, List.append_nil,
    List.append_nil]

theorem isPlainHead_headLines {tail : List String} (hnodup : directives.Nodup)
    (htail : ∀ l ∈ tail, l = "") :
    IsPlainHead config directives (headLines config directives ++ tail) := by
  have hcomments : (headLines config directives ++ tail).filter isComment =
      bannerLines config := by
    have hbanner : (bannerLines config).filter isComment = bannerLines config :=
      List.filter_eq_self.2 fun l ↦ isComment_of_mem_bannerLines
    have hdirectives : (directives.map language.importLine).filter isComment = [] := by
      simp [List.filter_eq_nil_iff, isComment_importLine]
    rw [filter_headLines_append rfl htail, hbanner, hdirectives, List.append_nil]
  have himports : (headLines config directives ++ tail).filter isImport =
      directives.map language.importLine := by
    have hbanner : (bannerLines config).filter isImport = [] := by
      rw [List.filter_eq_nil_iff]
      intro l hl
      rw [isImport_eq_false_of_isComment (isComment_of_mem_bannerLines hl)]
      decide
    have hdirectives : (directives.map language.importLine).filter isImport =
        directives.map language.importLine := by
      simp [List.filter_eq_self, isImport_importLine]
    rw [filter_headLines_append rfl htail, hbanner, hdirectives, List.nil_append]
  refine ⟨fun l hl ↦ ?_, hcomments, himports, ?_⟩
  · rcases List.mem_append.1 hl with hl | hl
    · exact (mem_headLines hl).imp_right (Or.imp_left isComment_of_mem_bannerLines)
    · exact .inl (htail l hl)
  · rw [himports]
    refine hnodup.map fun directive directive' heq ↦ ?_
    simpa [language] using heq

end Heads

section Bodies

theorem startsMarked_join (hline : '\n' ∉ l.toList) (hmarker : isMarker l = true)
    (ls : List String) : StartsMarked (String.join ((l :: ls).map (· ++ "\n"))) :=
  ⟨l, _, by rw [List.map_cons, String.join_cons], hline, hmarker⟩

theorem StartsMarked.append (h : StartsMarked body) (t : String) : StartsMarked (body ++ t) := by
  obtain ⟨l, rest, rfl, hline, hmarker⟩ := h
  exact ⟨l, rest ++ t, String.append_assoc, hline, hmarker⟩

theorem startsMarked_intercalate {bodies : List String} (h : ∀ b ∈ bodies, StartsMarked b) :
    "\n".intercalate bodies = "" ∨ StartsMarked ("\n".intercalate bodies) := by
  cases bodies with
  | nil => exact .inl rfl
  | cons b bodies =>
    have hb := h b List.mem_cons_self
    cases bodies with
    | nil => exact .inr (by rwa [String.intercalate_singleton])
    | cons b' bodies =>
      rw [String.intercalate_cons_cons, String.append_assoc]
      exact .inr (hb.append _)

theorem startsMarked_of_assembles (h : Assembles engine config unit a) :
    StartsMarked a.declaration ∧ StartsMarked a.definition := by
  obtain ⟨declarations, definitions, -, -, heq⟩ := assembleUnit_eq_ok_iff.1 h.2
  have hname := notMem_of_isIdentifier (NamingPolicy.isIdentifier_typeName rfl h.1)
  rw [heq]
  constructor
  · rw [declarationBody_eq]
    refine startsMarked_join ?_ ?_ _
    · simpa [engine, language] using hname
    · simp [engine, language, isMarker]
  · rw [definitionBody_eq]
    refine startsMarked_join ?_ ?_ _
    · simpa [engine, language] using hname
    · simp [engine, language, isMarker]

end Bodies

section Artifacts

variable (config) in
/-- What a file imports: what its units do, but only its declaration where it has one. -/
def headImports (stem : String) (directives : List String) : ArtifactKind → List String
  | .declaration => directives
  | .definition =>
    if config.skipDeclaration then directives
    else ["\"" ++ language.declarationFile stem ++ "\""]

theorem exists_own_of_generate (h : engine.generate config units = .ok generation)
    (hfiles : files ∈ generation.pairs) : ∃ stem own assembled, own.Sublist units ∧
      List.Forall₂ (Assembles engine config) own assembled ∧ isIdentifier stem = true ∧
      files = pair language config stem assembled := by
  obtain ⟨assembled, hassembled, hlayout⟩ := Engine.generate_eq_ok_iff.1 h
  obtain ⟨-, hunits, -⟩ := Engine.assemble_eq_ok_iff.1 hassembled
  rcases layOut_eq_ok_iff.1 hlayout with ⟨-, hid, rfl⟩ | ⟨-, rfl⟩
  · obtain rfl := List.mem_singleton.1 hfiles
    exact ⟨_, units, assembled, .refl units, hunits, hid, rfl⟩
  · obtain ⟨a, ha, rfl⟩ := List.mem_map.1 hfiles
    obtain ⟨unit, hunit, hassembles⟩ := hunits.exists_of_mem_right ha
    exact ⟨a.name, [unit], [a], List.singleton_sublist.2 hunit, .cons hassembles .nil,
      NamingPolicy.isIdentifier_typeName rfl hassembles.1, rfl⟩

theorem exists_content_eq {stem declaration definition : String} {names : List String}
    (h : IsLaidOut language config stem names directives declaration definition files)
    (hmem : artifact ∈ files.artifacts) :
    ∃ body, (body = declaration ∨ body = definition) ∧ artifact.content =
      String.join ((headLines config (headImports config stem directives artifact.kind)).map
        (· ++ "\n")) ++ body := by
  rw [ArtifactPair.artifacts, List.mem_append, Option.mem_toList, List.mem_singleton] at hmem
  rcases hmem with hmem | rfl
  · rw [h.declaration] at hmem
    split at hmem
    · cases hmem
    · obtain rfl := Option.some.inj hmem
      exact ⟨declaration, .inl rfl, by rw [← bannerText_append_importText]; rfl⟩
  · refine ⟨definition, .inr rfl, ?_⟩
    rw [h.definition, ← bannerText_append_importText, headImports]
    split
    · rfl
    · rw [importText_file]

theorem notMem_of_mem_headImports {stem : String} (hstem : isIdentifier stem = true)
    (hskip : config.skipDeclaration = false)
    (h : directive ∈ headImports config stem directives .definition) : '\n' ∉ directive.toList := by
  rw [headImports, hskip] at h
  obtain rfl := List.mem_singleton.1 h
  simpa [Language.declarationFile, language] using notMem_of_isIdentifier hstem

theorem nodup_headImports {stem : String} (h : directives.Nodup) (kind : ArtifactKind) :
    (headImports config stem directives kind).Nodup := by
  cases kind with
  | declaration => exact h
  | definition =>
    rw [headImports]
    split
    · exact h
    · exact List.nodup_singleton _

variable (config directives) in
/-- A file that starts with the banner and some directives. A directive without a line feed is one
line of it. -/
structure IsHeaded (content : String) : Prop where
  lines : ∀ l ∈ headOf content, l = "" ∨ l ∈ bannerLines config ∨
    ∃ directive ∈ directives, l ∈ split '\n' (language.importLine directive)
  plain : (∀ directive ∈ directives, '\n' ∉ directive.toList) →
    IsPlainHead config directives (headOf content)

theorem isHeaded_join_append (hfile : '\n' ∉ config.inputFileName.toList)
    (htool : '\n' ∉ config.toolName.toList) (hnodup : directives.Nodup)
    (hbody : body = "" ∨ StartsMarked body) : IsHeaded config directives
      (String.join ((headLines config directives).map (· ++ "\n")) ++ body) := by
  have hbanner : ∀ l ∈ bannerLines config, '\n' ∉ l.toList :=
    fun l ↦ notMem_of_mem_bannerLines hfile htool
  constructor
  · intro l hl
    rcases mem_headOf_join_append hl with hl | hl
    · obtain ⟨line, hline, hl⟩ := List.mem_flatMap.1 hl
      rcases mem_headLines hline with rfl | hline | ⟨directive, hdirective, rfl⟩
      · exact .inl (List.mem_singleton.1 hl)
      · rw [split_eq_singleton (hbanner line hline), List.mem_singleton] at hl
        exact .inr (.inl (hl ▸ hline))
      · exact .inr (.inr ⟨directive, hdirective, hl⟩)
    · exact .inl (eq_of_mem_headOf hbody hl)
  · intro hplain
    have hlines : ∀ l ∈ headLines config directives, '\n' ∉ l.toList ∧ isMarker l = false := by
      intro l hl
      rcases mem_headLines hl with rfl | hl | ⟨directive, hdirective, rfl⟩
      · decide
      · exact ⟨hbanner l hl, isMarker_eq_false_of_isComment (isComment_of_mem_bannerLines hl)⟩
      · exact ⟨notMem_importLine (hplain directive hdirective), isMarker_importLine directive⟩
    rw [headOf_join_append hlines]
    exact isPlainHead_headLines hnodup fun l ↦ eq_of_mem_headOf hbody

theorem isHeaded_of_mem_pair {stem : String} (hassembles : List.Forall₂ (Assembles engine config)
    own assembled) (hstem : isIdentifier stem = true) (hfile : '\n' ∉ config.inputFileName.toList)
    (htool : '\n' ∉ config.toolName.toList)
    (hmem : artifact ∈ (pair language config stem assembled).artifacts) :
    IsHeaded config (headImports config stem (own.flatMap (·.imports.toList)).eraseDups
      artifact.kind) artifact.content ∧
    (artifact.kind = .definition → config.skipDeclaration = false →
      IsPlainHead config ["\"" ++ language.declarationFile stem ++ "\""]
        (headOf artifact.content)) := by
  have hlaidOut := isLaidOut_pair language config stem assembled
  rw [directives_eq hassembles] at hlaidOut
  obtain ⟨body, hbody, hcontent⟩ := exists_content_eq hlaidOut hmem
  have hmarked : body = "" ∨ StartsMarked body := by
    have hall : ∀ a ∈ assembled, StartsMarked a.declaration ∧ StartsMarked a.definition := by
      intro a ha
      obtain ⟨unit, -, hunit⟩ := hassembles.exists_of_mem_right ha
      exact startsMarked_of_assembles hunit
    rcases hbody with rfl | rfl
    · exact startsMarked_intercalate (List.forall_mem_map.2 fun a ha ↦ (hall a ha).1)
    · exact startsMarked_intercalate (List.forall_mem_map.2 fun a ha ↦ (hall a ha).2)
  have hheaded : IsHeaded config (headImports config stem
      (own.flatMap (·.imports.toList)).eraseDups artifact.kind) artifact.content := by
    rw [hcontent]
    exact isHeaded_join_append hfile htool (nodup_headImports (List.nodup_eraseDups _) _) hmarked
  refine ⟨hheaded, fun hkind hskip ↦ ?_⟩
  rw [hkind] at hheaded
  have hplain := hheaded.plain fun directive ↦ notMem_of_mem_headImports hstem hskip
  rwa [headImports, hskip] at hplain

end Artifacts

/-- In front of its classes a generated file has nothing but the banner, one line for each directive
of its units or for its declaration, and blank lines. Directives are put there as they are: one that
has a line feed is more than one line. -/
theorem heads_of_comments_and_imports {tree : FileTree}
    (h : frontEnd.generate engine config tree = .ok generation)
    (hfile : '\n' ∉ config.inputFileName.toList) (htool : '\n' ∉ config.toolName.toList) :
    ∃ models units, Manifest.loadFrom tree config.searchPath config.input = .ok models ∧
      populate naming renderer config models = .ok units ∧
      ∀ files ∈ generation.pairs, ∃ own, own.Sublist units ∧
        List.Forall₂ (IsCanonical naming config) own files.units ∧
        ∀ artifact ∈ files.artifacts,
          IsHeaded config (headImports config files.name
            (own.flatMap (·.imports.toList)).eraseDups artifact.kind) artifact.content ∧
          (artifact.kind = .definition → config.skipDeclaration = false →
            IsPlainHead config ["\"" ++ language.declarationFile files.name ++ "\""]
              (headOf artifact.content)) := by
  rw [generate_eq] at h
  obtain ⟨models, hmodels, h⟩ := Except.bind_eq_ok_iff.1 h
  obtain ⟨units, hunits, h⟩ := Except.bind_eq_ok_iff.1 h
  refine ⟨models, units, hmodels, Except.mapError_eq_ok_iff.1 hunits, fun files hfiles ↦ ?_⟩
  obtain ⟨stem, own, assembled, hsublist, hassembles, hstem, rfl⟩ :=
    exists_own_of_generate h hfiles
  exact ⟨own, hsublist, (forall₂_assembles_iff.1 ⟨hassembles, rfl⟩).1, fun artifact hmem ↦
    isHeaded_of_mem_pair hassembles hstem hfile htool hmem⟩

def unruly : FileTree where
  root := .directory [
    ("units.toml", .file "[units.brand]\nimports = [\"<A.h>\"]\n".toUTF8),
    ("a\nb.toml", .file "[units.brand]\nimports = [\"<A.h>\"]\n".toUTF8),
    ("wild.toml", .file "[units.brand]\nimports = [\"<A.h>\\nint x;\"]\n".toUTF8)]
  workingDirectory := []

def unrulyConfig (input : String) : RunConfig where
  input := ⟨input⟩

def brandManifest (directive : String) : Manifest where
  units := [("brand", { imports := [directive] })]

theorem generate_unruly (input text directive : String)
    (hfile : (unruly.file? ⟨input⟩).map (·.2.data) = some text.toUTF8.data)
    (hparse : Manifest.parse ⟨⟨input⟩, text⟩ = .ok (brandManifest directive)) :
    frontEnd.generate engine (unrulyConfig input) unruly =
      Progress.generateFrom (unrulyConfig input) [{ key := "brand", imports := [directive] }] := by
  obtain ⟨⟨location, content⟩, hfile, hcontent⟩ := Option.map_eq_some_iff.1 hfile
  obtain rfl : content = text.toUTF8 := ByteArray.ext hcontent
  have hmodels : (brandManifest directive).toModels ⟨⟨input⟩, text⟩ =
      .ok [{ key := "brand", imports := [directive] }] := rfl
  have hincludes : (brandManifest directive).includes = [] := rfl
  have hload : Manifest.loadFrom unruly none ⟨input⟩ =
      .ok [{ key := "brand", imports := [directive] }] := by
    rw [Manifest.loadFrom_eq hfile, Manifest.readFile, SourceText.ofBytes_toUTF8, Except.ok_bind,
      hparse, Except.ok_bind, hmodels]
    simp only [Except.ok_bind, hincludes, Manifest.loadIncludes, pure, Except.pure]
    rfl
  rw [generate_eq]
  change Manifest.loadFrom unruly none ⟨input⟩ >>= _ = _
  rw [hload, Except.ok_bind]

theorem heads_of_comments_and_imports_plain :
    '\n' ∉ (unrulyConfig "units.toml").inputFileName.toList ∧
    '\n' ∉ (unrulyConfig "units.toml").toolName.toList ∧ ∃ generation files,
      frontEnd.generate engine (unrulyConfig "units.toml") unruly = .ok generation ∧
      files ∈ generation.pairs ∧ IsPlainHead (unrulyConfig "units.toml") ["\"Brand.h\""]
        (headOf files.definition.content) := by
  have hgenerate := generate_unruly "units.toml" "[units.brand]\nimports = [\"<A.h>\"]\n" "<A.h>"
    (by decide) (by decide +kernel)
  have hpairs : (frontEnd.generate engine (unrulyConfig "units.toml") unruly).toOption.map
      (·.pairs.map fun files ↦ (files.name, files.definition.kind)) =
        some [("Brand", .definition)] := by
    rw [hgenerate]
    decide
  obtain ⟨generation, hgeneration, hpairs⟩ := Option.map_eq_some_iff.1 hpairs
  have hgeneration := Except.toOption_eq_some_iff.1 hgeneration
  obtain ⟨files, hfiles, heq⟩ := List.map_eq_singleton_iff.1 hpairs
  obtain ⟨hname, hkind⟩ := Prod.mk.inj heq
  have hmem : files ∈ generation.pairs := by rw [hfiles]; exact List.mem_singleton_self files
  obtain ⟨_, _, -, -, hall⟩ :=
    heads_of_comments_and_imports hgeneration (by decide) (by decide)
  obtain ⟨_, -, -, hall⟩ := hall files hmem
  obtain ⟨-, hplain⟩ := hall files.definition (by simp [ArtifactPair.artifacts])
  have hplain := hplain hkind rfl
  rw [hname] at hplain
  exact ⟨by decide, by decide, generation, files, hgeneration, hmem, hplain⟩

def headsHold (l : String) (result : Except Error Generation) : Bool :=
  result.toOption.any fun generation ↦
    generation.artifacts.any fun artifact ↦ (headOf artifact.content).contains l

theorem exists_of_headsHold {result : Except Error Generation} (h : headsHold l result = true) :
    ∃ generation, result = .ok generation ∧
      ∃ artifact ∈ generation.artifacts, l ∈ headOf artifact.content := by
  obtain ⟨generation, hresult, hany⟩ := (Option.any_eq_true _ _).1 h
  obtain ⟨artifact, hmem, hl⟩ := List.any_eq_true.1 hany
  exact ⟨generation, Except.toOption_eq_some_iff.1 hresult, artifact, hmem, by simpa using hl⟩

/-- The second line of an import, or of the name of the input, is no comment and no import. -/
theorem stray_lines :
    (∃ generation, frontEnd.generate engine (unrulyConfig "wild.toml") unruly = .ok generation ∧
      ∃ artifact ∈ generation.artifacts, "int x;" ∈ headOf artifact.content) ∧
    (∃ generation, frontEnd.generate engine (unrulyConfig "a\nb.toml") unruly = .ok generation ∧
      ∃ artifact ∈ generation.artifacts, "b.toml by duet." ∈ headOf artifact.content) ∧
    ∀ l ∈ ["int x;", "b.toml by duet."], l ≠ "" ∧ isComment l = false ∧ isImport l = false := by
  have hwild := generate_unruly "wild.toml"
    "[units.brand]\nimports = [\"<A.h>\\nint x;\"]\n" "<A.h>\nint x;"
    (by decide) (by decide +kernel)
  have hbroken := generate_unruly "a\nb.toml" "[units.brand]\nimports = [\"<A.h>\"]\n" "<A.h>"
    (by decide) (by decide +kernel)
  refine ⟨exists_of_headsHold ?_, exists_of_headsHold ?_, by decide⟩
  · rw [hwild]
    decide +kernel
  · rw [hbroken]
    decide +kernel

end PairedSource.ObjectiveC
