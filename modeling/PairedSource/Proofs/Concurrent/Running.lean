import PairedSource.Proofs.Concurrent.Alone
import PairedSource.Proofs.Include.LoadFrom

namespace PairedSource

open Manifest Progress

variable {config : RunConfig} {allowed : Request → Prop} {tree : FileTree}

theorem generate_eq (tree : FileTree) (config : RunConfig) :
    ObjectiveC.frontEnd.generate ObjectiveC.engine config tree =
      loadFrom tree config.searchPath config.input >>= generateFrom config := by
  rw [FrontEnd.generate, loadFrom, bind_assoc]
  refine bind_congr fun source ↦ ?_
  simp only [ObjectiveC.frontEnd]
  cases Manifest.load tree config.searchPath source <;> rfl

theorem reaches_emit (hallowed : AllowsLoading tree config allowed) :
    Reaches config allowed tree .opening tree
      (emit config (ObjectiveC.frontEnd.generate ObjectiveC.engine config tree)) := by
  rw [generate_eq]
  cases hfile : tree.file? config.input with
  | none =>
    have hserve : tree.serve (.read config.input) = (tree, none) :=
      FileTree.serve_read hfile
    rw [loadFrom_of_file?_eq_none hfile]
    exact .ask rfl hallowed.input.2.2 hserve .refl
  | some found =>
    obtain ⟨location, content⟩ := found
    have hserve : tree.serve (.read config.input) = (tree, some content) :=
      FileTree.serve_read hfile
    refine .ask rfl hallowed.input.2.2 hserve ?_
    rw [loadFrom_eq hfile]
    cases hown : readFile config.input content with
    | error e =>
      simp only [enter, hown]
      exact .refl
    | ok result =>
      obtain ⟨source, manifest, own⟩ := result
      have hloaded := reaches_follow hallowed source [tree.identity config.input]
        [tree.identity config.input] manifest.includes ⟨config.input, location⟩ [] ([] ++ own) []
        (Following.start hfile hown).1 rfl
      refine (reaches_enter hallowed.input hfile hown).trans (hloaded.trans ?_)
      simp only [Except.ok_bind]
      cases loadIncludes tree config.searchPath source [tree.identity config.input]
          [tree.identity config.input] manifest.includes with
      | error e => exact .refl
      | ok result => exact .refl

variable (config) in
def wrote (writing : Writing) : Option WriteResult → Progress
  | some result => proceed config writing result
  | none => fail config writing

theorem reaches_writeFile {writing : Writing}
    (hallowed : AllowsWriting allowed (pathOf config writing)) :
    Reaches config allowed tree (preparing writing)
      (tree.writeFile (pathOf config writing) writing.artifact.content.toUTF8).1
      (wrote config writing
        (tree.writeFile (pathOf config writing) writing.artifact.content.toUTF8).2) := by
  obtain ⟨-, hmake, hplace⟩ := hallowed
  cases hmade : tree.makeDirectories
      (FileTree.directoryFor (pathOf config writing)).ancestors with
  | mk made there =>
    have hserve : tree.serve (.makeDirectories (pathOf config writing)) = (made, there) := hmade
    refine .ask rfl hmake hserve ?_
    cases there with
    | false =>
      simp only [FileTree.writeFile, hmade]
      exact .refl
    | true =>
      cases hplaced : made.place (pathOf config writing) writing.artifact.content.toUTF8 with
      | none =>
        have hserve : made.serve
            (.place (pathOf config writing) writing.artifact.content.toUTF8) = (made, false) := by
          simp only [FileTree.serve, hplaced]
          rfl
        simp only [FileTree.writeFile, hmade, hplaced]
        exact .ask rfl (hplace _) hserve .refl
      | some placed =>
        have hserve : made.serve
            (.place (pathOf config writing) writing.artifact.content.toUTF8) = (placed, true) := by
          simp only [FileTree.serve, hplaced]
          rfl
        simp only [FileTree.writeFile, hmade, hplaced]
        exact .ask rfl (hplace _) hserve .refl

theorem reaches_artifact {writing : Writing}
    (hallowed : AllowsWriting allowed (pathOf config writing)) :
    Reaches config allowed tree (comparing writing)
      (tree.write (pathOf config writing) writing.artifact.content .ifChanged).1
      (wrote config writing
        (tree.write (pathOf config writing) writing.artifact.content .ifChanged).2) := by
  cases hfile : tree.file? (pathOf config writing) with
  | none =>
    have hserve : tree.serve (.read (pathOf config writing)) = (tree, none) :=
      FileTree.serve_read hfile
    simp only [FileTree.write, hfile]
    exact .ask rfl hallowed.1 hserve (reaches_writeFile hallowed)
  | some found =>
    obtain ⟨location, present⟩ := found
    have hserve : tree.serve (.read (pathOf config writing)) = (tree, some present) :=
      FileTree.serve_read hfile
    refine .ask rfl hallowed.1 hserve ?_
    by_cases hsame : present.data = writing.artifact.content.toUTF8.data
    · simp only [FileTree.write, hfile, Option.map_some, hsame, if_true]
      exact .refl
    · simp only [FileTree.write, hfile, Option.map_some, Option.some.injEq, hsame, if_false]
      exact reaches_writeFile hallowed

theorem reaches_write {generation : Generation} {outcome : WriteOutcome}
    {artifacts : List Artifact}
    (hallowed : ∀ artifact ∈ artifacts,
      AllowsWriting allowed (artifact.pathIn config.outputDir)) :
    Reaches config allowed tree (write config generation outcome artifacts)
      (writeArtifacts config.outputDir tree outcome artifacts).1
      (finished ((writeArtifacts config.outputDir tree outcome artifacts).2.map
        (FrontEnd.report config generation))) := by
  induction artifacts generalizing tree outcome with
  | nil => exact .refl
  | cons artifact artifacts ih =>
    have hfirst : Reaches config allowed tree
        (comparing ⟨generation, outcome, artifact, artifacts⟩)
        (tree.write (artifact.pathIn config.outputDir) artifact.content .ifChanged).1
        (wrote config ⟨generation, outcome, artifact, artifacts⟩
          (tree.write (artifact.pathIn config.outputDir) artifact.content .ifChanged).2) :=
      reaches_artifact (hallowed artifact (by simp))
    refine hfirst.trans ?_
    rw [writeArtifacts_cons]
    cases tree.write (artifact.pathIn config.outputDir) artifact.content .ifChanged with
    | mk tree result =>
      cases result with
      | none => exact .refl
      | some result => exact ih fun a ha ↦ hallowed a (by simp [ha])

/-- Step by step a run does what it does as a whole. -/
theorem reaches_run (hloading : AllowsLoading tree config allowed)
    (hwriting : ∀ generation,
      ObjectiveC.frontEnd.generate ObjectiveC.engine config tree = .ok generation →
        ∀ artifact ∈ generation.artifacts,
          AllowsWriting allowed (artifact.pathIn config.outputDir)) :
    Reaches config allowed tree .opening
      (ObjectiveC.frontEnd.run ObjectiveC.engine config tree).1
      (finished (ObjectiveC.frontEnd.run ObjectiveC.engine config tree).2) := by
  refine (reaches_emit hloading).trans ?_
  rw [FrontEnd.run]
  cases hgenerate : ObjectiveC.frontEnd.generate ObjectiveC.engine config tree with
  | error e => exact .refl
  | ok generation => exact reaches_write (hwriting generation hgenerate)

end PairedSource
