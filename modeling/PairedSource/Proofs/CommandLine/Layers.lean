import PairedSource.CommandLine.Arguments
import PairedSource.Proofs.Except
import PairedSource.Proofs.Settings.Layers

namespace PairedSource.CommandLine

open Except

variable {arguments arguments' : Arguments} {said : List Occurrence} {occurrence : Occurrence}

namespace Occurrence

def layer : Occurrence → Settings
  | .switch .legacy => { legacyTarget := some true }
  | .switch .noLegacy => { legacyTarget := some false }
  | .switch .skipDeclaration => { skipDeclaration := some true }
  | .switch .noSkipDeclaration => { skipDeclaration := some false }
  | .switch .aggregate => { aggregate := some true }
  | .switch .noAggregate => { aggregate := some false }
  | .value .output text => { outputDir := some ⟨text⟩ }
  | .value .searchPath text => { searchPath := some ⟨text⟩ }
  | .value .namePrefix text => { namePrefix := some text }
  | .value .aggregateName text => { aggregateName := some text }
  | _ => {}

def input? : Occurrence → Option Path
  | .input text => some ⟨text⟩
  | _ => none

def valueOf? (option : Purpose) : Occurrence → Option String
  | .value other text => if other = option then some text else none
  | _ => none

def formOf? (on off : Purpose) : Occurrence → Option Bool
  | .switch other => if other = on then some true else if other = off then some false else none
  | _ => none

end Occurrence

open Occurrence

def lastValue? (option : Purpose) (said : List Occurrence) : Option String :=
  said.findSomeRev? (valueOf? option)

def lastForm? (on off : Purpose) (said : List Occurrence) : Option Bool :=
  said.findSomeRev? (formOf? on off)

namespace Arguments

theorem path_eq_ok {value : String} {p : Path} (h : path value = .ok p) : p = ⟨value⟩ := by
  unfold path at h
  split at h
  · cases h
  · exact (Except.ok.inj h).symm

theorem setOnce_eq_ok {α : Type} {option : Purpose} {present result : Option α} {value : α}
    (h : setOnce option present value = .ok result) : result = some value := by
  unfold setOnce at h
  split at h
  · cases h
  · exact (Except.ok.inj h).symm

theorem setSwitch_eq_ok {option : Purpose} {present result : Option Bool} {value : Bool}
    (h : setSwitch option present value = .ok result) : result = some value := by
  unfold setSwitch at h
  split at h
  · cases h
  · exact (Except.ok.inj h).symm

variable (arguments arguments' occurrence) in
/-- What one thing on the command line adds. -/
structure Adds : Prop where
  settings : arguments'.settings = arguments.settings.merge occurrence.layer
  inputs : arguments'.inputs = arguments.inputs ++ occurrence.input?.toList
  config : arguments'.config = ((valueOf? .config occurrence).map Path.mk <|> arguments.config)

theorem adds_of_addSwitch {option : Purpose} (h : arguments.addSwitch option = .ok arguments') :
    Adds arguments arguments' (.switch option) := by
  have hsame : Adds arguments arguments (.switch .verbose) :=
    ⟨(Settings.merge_empty _).symm, (List.append_nil _).symm, rfl⟩
  cases option with
  | legacy | noLegacy | skipDeclaration | noSkipDeclaration | aggregate | noAggregate =>
    obtain ⟨result, hresult, rfl⟩ := bind_ok_eq_ok_iff.1 h
    obtain rfl := setSwitch_eq_ok hresult
    exact ⟨by simp [layer, Settings.merge], (List.append_nil _).symm, rfl⟩
  | dryRun | json =>
    obtain ⟨result, hresult, rfl⟩ := bind_ok_eq_ok_iff.1 h
    exact ⟨hsame.settings, hsame.inputs, hsame.config⟩
  | help | version => cases h
  | config | output | searchPath | namePrefix | aggregateName | verbose =>
    obtain rfl := Except.ok.inj h
    exact ⟨hsame.settings, hsame.inputs, hsame.config⟩

theorem adds_of_addValue {option : Purpose} {text : String}
    (h : arguments.addValue option text = .ok arguments') :
    Adds arguments arguments' (.value option text) := by
  cases option with
  | config =>
    obtain ⟨p, hp, h⟩ := bind_eq_ok_iff.1 h
    obtain ⟨result, hresult, rfl⟩ := bind_ok_eq_ok_iff.1 h
    obtain rfl := path_eq_ok hp
    obtain rfl := setOnce_eq_ok hresult
    exact ⟨(Settings.merge_empty _).symm, (List.append_nil _).symm, rfl⟩
  | output | searchPath =>
    obtain ⟨p, hp, h⟩ := bind_eq_ok_iff.1 h
    obtain ⟨result, hresult, rfl⟩ := bind_ok_eq_ok_iff.1 h
    obtain rfl := path_eq_ok hp
    obtain rfl := setOnce_eq_ok hresult
    exact ⟨by simp [layer, Settings.merge], (List.append_nil _).symm, rfl⟩
  | namePrefix | aggregateName =>
    obtain ⟨result, hresult, rfl⟩ := bind_ok_eq_ok_iff.1 h
    obtain rfl := setOnce_eq_ok hresult
    exact ⟨by simp [layer, Settings.merge], (List.append_nil _).symm, rfl⟩
  | _ =>
    obtain rfl := Except.ok.inj h
    exact ⟨(Settings.merge_empty _).symm, (List.append_nil _).symm, rfl⟩

theorem adds_of_add (h : arguments.add occurrence = .ok arguments') :
    Adds arguments arguments' occurrence := by
  cases occurrence with
  | switch option => exact adds_of_addSwitch h
  | value option text => exact adds_of_addValue h
  | input text =>
    obtain ⟨p, hp, rfl⟩ := bind_ok_eq_ok_iff.1 h
    obtain rfl := path_eq_ok hp
    exact ⟨(Settings.merge_empty _).symm, rfl, rfl⟩
  | refused refusal => cases h

variable (arguments said) in
/-- The arguments are what some things on a command line say. -/
structure Sums : Prop where
  settings : arguments.settings = Settings.stack (said.map layer)
  inputs : arguments.inputs = said.filterMap input?
  config : arguments.config = (lastValue? .config said).map Path.mk

theorem sums_of_foldlM (h : said.foldlM add {} = .ok arguments) : Sums arguments said := by
  induction said using List.reverseRecOn generalizing arguments with
  | nil =>
    obtain rfl := Except.ok.inj h
    exact ⟨rfl, rfl, rfl⟩
  | append_singleton said occurrence ih =>
    rw [List.foldlM_append, bind_eq_ok_iff] at h
    obtain ⟨before, hbefore, h⟩ := h
    rw [List.foldlM_cons, bind_eq_ok_iff] at h
    obtain ⟨after, hafter, h⟩ := h
    obtain rfl := Except.ok.inj h
    have hbefore := ih hbefore
    have hafter := adds_of_add hafter
    refine ⟨?_, ?_, ?_⟩
    · rw [hafter.settings, hbefore.settings, Settings.stack, Settings.stack, List.map_append,
        List.foldl_append]
      rfl
    · rw [hafter.inputs, hbefore.inputs, List.filterMap_append]
      cases hinput : occurrence.input? <;> simp [hinput]
    · rw [hafter.config, hbefore.config, lastValue?, lastValue?]
      simp only [List.findSomeRev?_eq_findSome?_reverse, List.reverse_append,
        List.reverse_singleton, List.singleton_append, List.findSome?_cons]
      cases valueOf? .config occurrence <;> rfl

end Arguments

end PairedSource.CommandLine
