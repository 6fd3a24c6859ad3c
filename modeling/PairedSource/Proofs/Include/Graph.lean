import Mathlib.Logic.Relation
import PairedSource.Proofs.Include.Reading

namespace PairedSource.Manifest

open Relation

variable (tree : FileTree) (searchPath : Option Path)

/-- The file that an include means in the file at a location: one next to it, else one in the
search path. -/
def resolve (location : Location) (target : String) : Option Location :=
  ((tree.fileFrom location.dropLast ⟨target⟩).or
    (searchPath.bind fun directory ↦ tree.file? (directory.join ⟨target⟩))).map Prod.fst

def Includes (a b : Location) : Prop :=
  ∃ manifest models, readAt tree a = some (manifest, models) ∧
    ∃ target ∈ manifest.includes, resolve tree searchPath a target = some b

/-- The file at a location is in order, and so are the targets of its includes. -/
def IsSound (location : Location) : Prop :=
  ∃ manifest models, readAt tree location = some (manifest, models) ∧
    ∀ target ∈ manifest.includes, ∃ b, resolve tree searchPath location target = some b

/-- The preorder of some files: each is followed by the preorder of its includes, as often as it is
included. -/
inductive Unfolds : List Location → List Location → Prop
  | nil : Unfolds [] []
  | cons {file : Location} {files included inner outer : List Location} {manifest : Manifest}
      {models : List (UnitModel Entry)} :
      readAt tree file = some (manifest, models) →
      manifest.includes.map (resolve tree searchPath file) = included.map some →
      Unfolds included inner → Unfolds files outer →
      Unfolds (file :: files) (file :: inner ++ outer)

variable {tree searchPath} {a b : Location} {files files' walk walk' : List Location}

theorem Unfolds.append (h : Unfolds tree searchPath files walk)
    (h' : Unfolds tree searchPath files' walk') :
    Unfolds tree searchPath (files ++ files') (walk ++ walk') := by
  induction h with
  | nil => exact h'
  | cons hread hfiles hinner _ _ ih =>
    have := Unfolds.cons hread hfiles hinner ih
    simpa using this

theorem Unfolds.unique (h : Unfolds tree searchPath files walk)
    (h' : Unfolds tree searchPath files walk') : walk = walk' := by
  induction h generalizing walk' with
  | nil => cases h'; rfl
  | cons hread hfiles _ _ ihinner ihouter =>
    cases h' with
    | cons hread' hfiles' hinner' houter' =>
      obtain ⟨rfl, rfl⟩ := Prod.mk.inj (Option.some.inj (hread.symm.trans hread'))
      obtain rfl := (List.map_inj_right fun _ _ ↦ Option.some.inj).1 (hfiles.symm.trans hfiles')
      rw [ihinner hinner', ihouter houter']

theorem Unfolds.exists_of_mem (h : Unfolds tree searchPath files walk) (ha : a ∈ walk) :
    ∃ part, Unfolds tree searchPath [a] part ∧ part ⊆ walk ∧ part.length ≤ walk.length := by
  induction h with
  | nil => cases ha
  | @cons file files included inner outer manifest models hread hfiles hinner _ ihinner ihouter =>
    rw [List.cons_append, List.mem_cons, List.mem_append] at ha
    rcases ha with rfl | ha | ha
    · refine ⟨a :: inner ++ [], .cons hread hfiles hinner .nil, ?_, by simp⟩
      simp
    · obtain ⟨part, hpart, hsub, hlen⟩ := ihinner ha
      refine ⟨part, hpart, fun x hx ↦ ?_, ?_⟩
      · simp [hsub hx]
      · simp only [List.cons_append, List.length_cons, List.length_append]
        omega
    · obtain ⟨part, hpart, hsub, hlen⟩ := ihouter ha
      refine ⟨part, hpart, fun x hx ↦ ?_, ?_⟩
      · simp [hsub hx]
      · simp only [List.cons_append, List.length_cons, List.length_append]
        omega

theorem Unfolds.subset (h : Unfolds tree searchPath files walk) : files ⊆ walk := by
  induction h with
  | nil => exact List.Subset.refl _
  | cons _ _ _ _ _ ih =>
    intro x hx
    rcases List.mem_cons.1 hx with rfl | hx
    · simp
    · simp [ih hx]

theorem Unfolds.exists_of_includes (h : Unfolds tree searchPath [a] walk)
    (hab : Includes tree searchPath a b) :
    ∃ part, Unfolds tree searchPath [b] part ∧ part ⊆ walk ∧ part.length < walk.length := by
  cases h with
  | @cons _ _ included inner outer _ _ hread hfiles hinner houter =>
    cases houter
    obtain ⟨manifest, models, hread', target, htarget, hb⟩ := hab
    obtain ⟨rfl, rfl⟩ := Prod.mk.inj (Option.some.inj (hread.symm.trans hread'))
    have hmem : some b ∈ included.map some :=
      hfiles ▸ List.mem_map.2 ⟨target, htarget, hb⟩
    have hb' : b ∈ included := by simpa using hmem
    obtain ⟨part, hpart, hsub, hlen⟩ := hinner.exists_of_mem (hinner.subset hb')
    refine ⟨part, hpart, fun x hx ↦ ?_, ?_⟩
    · simp [hsub hx]
    · simp only [List.append_nil, List.length_cons]
      omega

theorem Unfolds.exists_of_reachable (h : Unfolds tree searchPath [a] walk)
    (hab : ReflTransGen (Includes tree searchPath) a b) :
    ∃ part, Unfolds tree searchPath [b] part ∧ part ⊆ walk := by
  induction hab with
  | refl => exact ⟨walk, h, List.Subset.refl _⟩
  | tail _ hbc ih =>
    obtain ⟨part, hpart, hsub⟩ := ih
    obtain ⟨part', hpart', hsub', -⟩ := hpart.exists_of_includes hbc
    exact ⟨part', hpart', fun x hx ↦ hsub (hsub' hx)⟩

theorem Unfolds.exists_of_transGen (h : Unfolds tree searchPath [a] walk)
    (hab : TransGen (Includes tree searchPath) a b) :
    ∃ part, Unfolds tree searchPath [b] part ∧ part.length < walk.length := by
  induction hab with
  | single hab =>
    obtain ⟨part, hpart, -, hlen⟩ := h.exists_of_includes hab
    exact ⟨part, hpart, hlen⟩
  | tail _ hbc ih =>
    obtain ⟨part, hpart, hlen⟩ := ih
    obtain ⟨part', hpart', -, hlen'⟩ := hpart.exists_of_includes hbc
    exact ⟨part', hpart', Nat.lt_trans hlen' hlen⟩

/-- A file with a preorder is on no cycle of includes. -/
theorem Unfolds.not_transGen_self (h : Unfolds tree searchPath [a] walk) :
    ¬TransGen (Includes tree searchPath) a a := by
  intro haa
  obtain ⟨part, hpart, hlen⟩ := h.exists_of_transGen haa
  rw [hpart.unique h] at hlen
  exact Nat.lt_irrefl _ hlen

theorem Unfolds.isSound (h : Unfolds tree searchPath [a] walk) : IsSound tree searchPath a := by
  cases h with
  | @cons _ _ included _ _ manifest models hread hfiles _ _ =>
    refine ⟨manifest, models, hread, fun target htarget ↦ ?_⟩
    have hmem : resolve tree searchPath a target ∈ included.map some :=
      hfiles ▸ List.mem_map_of_mem htarget
    obtain ⟨b, -, hb⟩ := List.mem_map.1 hmem
    exact ⟨b, hb.symm⟩

theorem Unfolds.reachable_of_mem (h : Unfolds tree searchPath files walk) (hb : b ∈ walk) :
    ∃ a ∈ files, ReflTransGen (Includes tree searchPath) a b := by
  induction h with
  | nil => cases hb
  | @cons file files included inner outer manifest models hread hfiles _ _ ihinner ihouter =>
    rw [List.cons_append, List.mem_cons, List.mem_append] at hb
    rcases hb with rfl | hb | hb
    · exact ⟨b, by simp, .refl⟩
    · obtain ⟨c, hc, hcb⟩ := ihinner hb
      have hmem : some c ∈ manifest.includes.map (resolve tree searchPath file) := by
        rw [hfiles]
        exact List.mem_map_of_mem hc
      obtain ⟨target, htarget, hresolve⟩ := List.mem_map.1 hmem
      exact ⟨file, by simp, .head ⟨manifest, models, hread, target, htarget, hresolve⟩ hcb⟩
    · obtain ⟨c, hc, hcb⟩ := ihouter hb
      exact ⟨c, by simp [hc], hcb⟩

end PairedSource.Manifest
