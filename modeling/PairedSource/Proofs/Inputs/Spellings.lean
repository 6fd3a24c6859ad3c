import PairedSource.Proofs.Inputs.Expansion

namespace PairedSource

open FileTree

variable {tree : FileTree} {p q input : Path} {l place : Location} {name : String}
  {inputs paths found : List Path}

namespace Inputs

variable (tree) in
def NamesFile (p : Path) (l : Location) : Prop :=
  (tree.file? p).map Prod.fst = some l

theorem NamesFile.exists_components (h : NamesFile tree p l) : ∃ place name steps,
    l = place ++ [name] ∧ p.components = steps ++ [.name name] := by
  obtain ⟨⟨_, content⟩, hfile, rfl⟩ := Option.map_eq_some_iff.1 h
  obtain ⟨-, hwalk, hcontent⟩ := FileTree.file?_eq_some_iff.1 hfile
  obtain ⟨front, s, hseg⟩ := p.exists_segments_eq_append
  obtain ⟨place, children, -, -, hname, hl⟩ :=
    walk_file (hseg ▸ hwalk) (fileAt_eq_some_iff.1 hcontent)
  have hs := isName_iff.1 hname
  obtain ⟨steps, hsteps⟩ :=
    Path.exists_components_of_fileName? (Path.fileName?_eq hseg hs.1 hs.2.1 hs.2.2)
  exact ⟨place, s, steps, hl, hsteps⟩

variable (tree) in
/-- An input leads to a directory: it is one or is a file in one. -/
def LeadsInto (input : Path) (place : Location) : Prop :=
  tree.isDirectory input = true ∧ IsDirectoryAt tree input place ∨
    ∃ name, NamesFile tree input (place ++ [name])

variable (tree) in
def stepsInto (input : Path) : List Path.Component :=
  if tree.isDirectory input then input.components else input.components.dropLast

variable (tree inputs) in
/-- Inputs that lead to the same directory spell it with the same steps. -/
def SpelledAlike : Prop :=
  ∀ input ∈ inputs, ∀ other ∈ inputs, ∀ place, LeadsInto tree input place →
    LeadsInto tree other place → stepsInto tree input = stepsInto tree other

theorem StandsFor.steps (hnamed : tree.WellNamed) (h : StandsFor tree input found) (hp : p ∈ found)
    (hfile : NamesFile tree p (place ++ [name])) : LeadsInto tree input place ∧
      p.components = stepsInto tree input ++ [.name name] := by
  obtain ⟨place', name', steps, hl, hsteps⟩ := hfile.exists_components
  obtain ⟨rfl, hname⟩ := List.append_inj' hl rfl
  obtain rfl := List.head_eq_of_cons_eq hname
  cases h with
  | itself hdir =>
    obtain rfl := List.mem_singleton.1 hp
    refine ⟨.inr ⟨name, hfile⟩, ?_⟩
    rw [stepsInto, if_neg (Bool.eq_false_iff.1 hdir), hsteps, List.dropLast_concat]
  | manifests at_ _ hdir hplace hfound hne =>
    obtain ⟨other, hholds, rfl⟩ := (hfound.mem_iff p).1 hp
    obtain ⟨children, hchildren⟩ := occupant?_eq_directory_iff.1 hplace.isDirectory
    have hentry := hnamed.isEntryName hchildren other (hholds.mem_names hchildren)
    have hother := isEntryName_iff.1 hentry
    obtain ⟨⟨_, content'⟩, hfile, rfl⟩ := Option.map_eq_some_iff.1 hfile
    have hslot := isSlot_join hplace.walk hplace.isDirectory hother.2.1
    have hloc := ((hslot.file?_eq_some_iff hother.1).1 hfile).2.1
    obtain ⟨rfl, -⟩ := List.append_inj' hloc rfl
    have hlast := components_join_entry hentry input
    rw [hsteps] at hlast
    obtain ⟨rfl, -⟩ := List.append_inj' hlast rfl
    refine ⟨.inl ⟨hdir, hplace⟩, ?_⟩
    rw [hsteps, stepsInto, if_pos hdir]

variable (tree inputs) in
/-- If two paths lead to the same file then they come from inputs that lead to its directory by
different steps. -/
def SpelledApart (p q : Path) : Prop :=
  ∀ l, NamesFile tree p l → NamesFile tree q l → ∃ place name, l = place ++ [name] ∧
    ∃ input ∈ inputs, ∃ other ∈ inputs, LeadsInto tree input place ∧ LeadsInto tree other place ∧
      p.components = stepsInto tree input ++ [.name name] ∧
      q.components = stepsInto tree other ++ [.name name] ∧
      stepsInto tree input ≠ stepsInto tree other

theorem pairwise_spelledApart (hnamed : tree.WellNamed) (h : expand tree inputs = .ok paths) :
    paths.Pairwise (SpelledApart tree inputs) := by
  obtain ⟨parts, hparts, rfl⟩ := (expand_eq_ok_iff hnamed).1 h
  have horigin : ∀ p ∈ firstSpellings parts.flatten,
      ∃ input ∈ inputs, ∃ found, StandsFor tree input found ∧ p ∈ found := by
    intro p hp
    obtain ⟨part, hpart, hp⟩ := List.mem_flatten.1 ((firstSpellings_sublist _).subset hp)
    obtain ⟨input, hinput, hstands⟩ := hparts.exists_of_mem_right hpart
    exact ⟨input, hinput, part, hstands, hp⟩
  have hdistinct : (firstSpellings parts.flatten).Pairwise fun p q ↦ ¬p.Same q :=
    dropRepeats_eq_firstSpellings parts.flatten ▸ pairwise_dropRepeats _ _
  refine hdistinct.imp_of_mem fun {p q} hp hq hne l hfile hfile' ↦ ?_
  obtain ⟨place, name, -, rfl, -⟩ := hfile.exists_components
  obtain ⟨input, hinput, found, hstands, hp⟩ := horigin p hp
  obtain ⟨other, hother, found', hstands', hq⟩ := horigin q hq
  obtain ⟨hinto, hsteps⟩ := hstands.steps hnamed hp hfile
  obtain ⟨hinto', hsteps'⟩ := hstands'.steps hnamed hq hfile'
  refine ⟨place, name, rfl, input, hinput, other, hother, hinto, hinto', hsteps, hsteps', ?_⟩
  intro heq
  exact hne (hsteps.trans (heq ▸ hsteps'.symm))

/-- No file is named twice where the inputs spell every directory alike. In any case two spellings
of a file among the paths come from two spellings of its directory among the inputs. -/
theorem expand_names_files_once (hnamed : tree.WellNamed) (h : expand tree inputs = .ok paths) :
    paths.Pairwise (SpelledApart tree inputs) ∧ (SpelledAlike tree inputs →
      paths.Pairwise fun p q ↦ ∀ l, NamesFile tree p l → ¬NamesFile tree q l) := by
  have hapart := pairwise_spelledApart hnamed h
  refine ⟨hapart, fun halike ↦ hapart.imp fun {p q} hpq l hfile hfile' ↦ ?_⟩
  obtain ⟨place, name, -, input, hinput, other, hother, hinto, hinto', -, -, hne⟩ :=
    hpq l hfile hfile'
  exact hne (halike input hinput other hother place hinto hinto')

theorem expand_names_files_once_shelf : shelf.WellNamed ∧
    SpelledAlike shelf [⟨"."⟩, ⟨"./duet.toml"⟩] ∧
    expand shelf [⟨"."⟩, ⟨"./duet.toml"⟩] = .ok [⟨"./units.toml"⟩, ⟨"./duet.toml"⟩] ∧
    [⟨"./units.toml"⟩, ⟨"./duet.toml"⟩].Pairwise fun p q ↦
      ∀ l, NamesFile shelf p l → ¬NamesFile shelf q l := by
  have hnamed : shelf.WellNamed := wellNamed_of_isWellNamed (by decide)
  have hexpand : expand shelf [⟨"."⟩, ⟨"./duet.toml"⟩] = .ok [⟨"./units.toml"⟩, ⟨"./duet.toml"⟩] :=
    (expand_eq_ok_iff hnamed).2
      ⟨_, .cons standsFor_shelf (.cons (.itself (by decide)) .nil), by decide⟩
  have hsteps : ∀ input ∈ [Path.mk ".", ⟨"./duet.toml"⟩],
      stepsInto shelf input = [.current] := by
    decide
  have halike : SpelledAlike shelf [⟨"."⟩, ⟨"./duet.toml"⟩] :=
    fun input hinput other hother _ _ _ ↦ (hsteps input hinput).trans (hsteps other hother).symm
  exact ⟨hnamed, halike, hexpand, (expand_names_files_once hnamed hexpand).2 halike⟩

/-- A directory and a file in it lead to the same file with different steps. -/
theorem expand_names_file_twice :
    expand shelf [⟨"."⟩, ⟨"units.toml"⟩] = .ok [⟨"./units.toml"⟩, ⟨"units.toml"⟩] ∧
      NamesFile shelf ⟨"./units.toml"⟩ ["units.toml"] ∧
      NamesFile shelf ⟨"units.toml"⟩ ["units.toml"] := by
  have hnamed : shelf.WellNamed := wellNamed_of_isWellNamed (by decide)
  exact ⟨(expand_eq_ok_iff hnamed).2
    ⟨_, .cons standsFor_shelf (.cons (.itself (by decide)) .nil), by decide⟩, rfl, rfl⟩

end Inputs

end PairedSource
