import PairedSource.ObjectiveC
import PairedSource.Proofs.Assembly.Stages
import PairedSource.Proofs.Concurrent.Running
import PairedSource.Proofs.ObjectiveC.Interface

namespace PairedSource

open Except

def Error.IsWriteFailure : Error → Prop
  | .writeFailure .. => True
  | _ => False

theorem Error.kind_eq_iff {e : Error} : e.kind = "write-failure" ↔ e.IsWriteFailure := by
  cases e <;> simp [kind, IsWriteFailure]

variable {config : RunConfig} {tree : FileTree}

theorem Toml.failsWith_decode {α : Type} (source : SourceText) (reader : Table → Typed α) :
    FailsWith (¬·.IsWriteFailure) (decode source reader) := by
  intro e h
  obtain ⟨fault, span, rfl, -⟩ := fault_of_decode h
  exact not_false

namespace Manifest

theorem failsWith_readFile (path : Path) (content : ByteArray) :
    FailsWith (¬·.IsWriteFailure) (readFile path content) := by
  refine .bind ?_ fun source ↦ .bind (Toml.failsWith_decode source _) fun manifest ↦
    .bind ?_ fun models ↦ .ok _
  · unfold SourceText.ofBytes
    split
    · exact .ok _
    · exact .error not_false
  · intro e h
    obtain ⟨fault, span, rfl, -⟩ := fault_of_toModels h
    exact not_false

theorem failsWith_loadIncludes (tree : FileTree) (searchPath : Option Path) (source : SourceText)
    (stack loaded : List Identity) (targets : List String) :
    FailsWith (¬·.IsWriteFailure)
      (loadIncludes tree searchPath source stack loaded targets) := by
  induction source, stack, loaded, targets using loadIncludes.induct tree searchPath with
  | case1 source stack loaded =>
    rw [loadIncludes]
    exact .ok _
  | case2 source stack loaded target targets hfirst =>
    rw [loadIncludes_missing hfirst]
    exact .error not_false
  | case3 source stack loaded target targets path location content hfirst hs =>
    rw [loadIncludes_cycle hfirst hs]
    exact .error not_false
  | case4 source stack loaded target targets path location content hfirst hs hl ih =>
    rw [loadIncludes_again hfirst hs hl]
    exact ih
  | case5 source stack loaded target targets path location content hfirst hs hl ihin ihout =>
    rw [loadIncludes_new hfirst hs hl]
    refine (failsWith_readFile path content).bind ?_
    intro h
    obtain ⟨included, manifest, own⟩ := h
    refine (ihin included manifest).bind ?_
    intro h
    obtain ⟨nested, between⟩ := h
    exact (ihout between).bind fun _ ↦ .ok _

theorem failsWith_loadFrom (tree : FileTree) (searchPath : Option Path) (root : Path) :
    FailsWith (¬·.IsWriteFailure) (loadFrom tree searchPath root) := by
  cases hfile : tree.file? root with
  | none =>
    rw [loadFrom_of_file?_eq_none hfile]
    exact .error not_false
  | some found =>
    obtain ⟨location, content⟩ := found
    rw [loadFrom_eq hfile]
    exact (failsWith_readFile root content).bind fun _ ↦
      (failsWith_loadIncludes tree searchPath _ _ _ _).bind fun _ ↦ .ok _

end Manifest

namespace Population

variable {μ : Type}

theorem failsWith_nameMembers (naming : NamingPolicy) (unit : String)
    (named : List (NamedMember μ)) (members : List (Member μ)) :
    FailsWith (¬·.IsWriteFailure) (nameMembers naming unit named members) := by
  induction members generalizing named with
  | nil => exact .ok _
  | cons member members ih =>
    rw [nameMembers]
    split
    · exact .error not_false
    · split
      · exact .error not_false
      · exact ih _

theorem failsWith_context (naming : NamingPolicy) (config : RunConfig) (model : UnitModel μ) :
    FailsWith (¬·.IsWriteFailure) (context naming config model) := by
  have hname : FailsWith (¬·.IsWriteFailure) ((naming.typeName model.key config.namePrefix).mapError
      (Error.invalidKey model.key model.key)) :=
    FailsWith.mapError (p := fun _ ↦ True) (fun _ _ ↦ trivial) fun _ _ ↦ not_false
  exact hname.bind fun _ ↦ (failsWith_nameMembers naming model.key [] model.members).bind
    fun _ ↦ .ok _

end Population

namespace Assembly

theorem failsWith_resolveNames (naming : NamingPolicy) (config : RunConfig)
    (taken : List (String × String)) (units : List SourceUnit) :
    FailsWith (¬·.IsWriteFailure) (resolveNames naming config taken units) := by
  induction units generalizing taken with
  | nil => exact .ok _
  | cons unit units ih =>
    rw [resolveNames]
    split
    · exact .error not_false
    · split
      · exact .error not_false
      · exact (ih _).map _

theorem failsWith_claimSymbols (key : String) (owners : List (String × String))
    (symbols : List String) : FailsWith (¬·.IsWriteFailure) (claimSymbols key owners symbols) := by
  induction symbols generalizing owners with
  | nil => exact .ok _
  | cons symbol symbols ih =>
    rw [claimSymbols]
    split
    · exact .error not_false
    · exact ih _

end Assembly

theorem failsWith_checkPrefix (naming : NamingPolicy) (config : RunConfig) :
    FailsWith (¬·.IsWriteFailure) (checkPrefix naming config) :=
  FailsWith.mapError (p := fun _ ↦ True) (fun _ _ ↦ trivial) fun _ _ ↦ not_false

open Assembly in
theorem failsWith_generate (engine : Engine) (config : RunConfig) (units : List SourceUnit) :
    FailsWith (¬·.IsWriteFailure) (engine.generate config units) := by
  rw [engine.generate_eq]
  refine .bind ((failsWith_checkPrefix _ config).bind fun _ ↦
    (failsWith_resolveNames _ config [] units).bind fun names ↦ .bind ?_ fun _ ↦ .mapM ?_ _) ?_
  · exact .bind (.foldlM (fun _ (unit : SourceUnit) ↦ failsWith_claimSymbols unit.key _ _) _ _)
      fun _ ↦ .ok _
  · intro named e h
    obtain ⟨kind, rfl⟩ := failsWith_assembleUnit engine config.targetMode named.1 named.2 e h
    exact not_false
  · intro assembled e h
    obtain rfl := failsWith_layOut engine.language config assembled e h
    exact not_false

namespace ObjectiveC

theorem failsWith_populateUnit (naming : NamingPolicy) (config : RunConfig)
    (model : UnitModel Entry) :
    FailsWith (fun fault ↦ ¬(fault.toError .populate).IsWriteFailure)
      (Population.populateUnit naming renderer config model) := by
  have hcontext : FailsWith (fun fault ↦ ¬(fault.toError .populate).IsWriteFailure)
      ((Population.context naming config model).mapError Fault.error) :=
    (Population.failsWith_context naming config model).mapError fun _ h ↦ h
  -- The renderer has nothing to object to.
  refine hcontext.bind fun context ↦ ?_
  rw [render_eq]
  exact .ok _

theorem failsWith_populate (naming : NamingPolicy) (config : RunConfig)
    (models : List (UnitModel Entry)) :
    FailsWith (¬·.IsWriteFailure)
      ((populate naming renderer config models).mapError (Fault.toError .populate)) := by
  have hprefix : FailsWith (fun fault ↦ ¬(fault.toError .populate).IsWriteFailure)
      ((checkPrefix naming config).mapError Fault.error) :=
    (failsWith_checkPrefix naming config).mapError fun _ h ↦ h
  have hpopulate : FailsWith (fun fault ↦ ¬(fault.toError .populate).IsWriteFailure)
      (populate naming renderer config models) :=
    hprefix.bind fun _ ↦ .mapM (failsWith_populateUnit naming config) models
  exact hpopulate.mapError fun _ h ↦ h

/-- Whatever goes wrong before anything is written is no failure to write. -/
theorem failsWith_frontEnd_generate (config : RunConfig) (tree : FileTree) :
    FailsWith (¬·.IsWriteFailure) (frontEnd.generate engine config tree) := by
  rw [generate_eq]
  exact (Manifest.failsWith_loadFrom tree config.searchPath config.input).bind fun models ↦
    (failsWith_populate engine.language.naming config models).bind fun units ↦
      failsWith_generate engine config units

end ObjectiveC

end PairedSource
