import Mathlib.Data.List.Induction
import PairedSource.Invocation
import PairedSource.Proofs.Lists

namespace PairedSource.Invocation

section Claims

variable {runs : List (Path × Preview)} {claim first : Claim} {index : Nat} {path : Path}

variable (runs index path) in
/-- The input at an index succeeded, and one of its artifacts gets the path. -/
def Writes : Prop :=
  ∃ directory preview generation, runs[index]? = some (directory, preview) ∧
    preview.result = .ok generation ∧
    ∃ artifact ∈ generation.artifacts, (directory.join ⟨artifact.fileName⟩).Same path

variable (runs index) in
/-- Another input writes a path that this one writes. -/
def IsShared : Prop :=
  ∃ path other, other ≠ index ∧ Writes runs index path ∧ Writes runs other path

theorem mem_claims_iff : claim ∈ claims runs ↔
    ∃ directory preview, runs[claim.owner]? = some (directory, preview) ∧
      claim.path ∈ preview.paths directory := by
  obtain ⟨owner, path⟩ := claim
  simp only [claims, List.mem_flatMap, List.mem_map, Prod.exists, List.mem_zipIdx_iff_getElem?]
  constructor
  · intro h
    obtain ⟨directory, preview, index, hrun, written, hwritten, heq⟩ := h
    obtain ⟨rfl, rfl⟩ := Claim.mk.inj heq
    exact ⟨directory, preview, hrun, hwritten⟩
  · intro h
    obtain ⟨directory, preview, hrun, hwritten⟩ := h
    exact ⟨directory, preview, owner, hrun, path, hwritten, rfl⟩

theorem writes_iff : Writes runs index path ↔
    ∃ claim ∈ claims runs, claim.owner = index ∧ claim.path.Same path := by
  constructor
  · intro h
    obtain ⟨directory, preview, generation, hrun, hok, artifact, hmem, hsame⟩ := h
    refine ⟨⟨index, artifact.pathIn directory⟩, mem_claims_iff.2 ⟨directory, preview, hrun, ?_⟩,
      rfl, hsame⟩
    rw [Preview.paths, hok]
    exact List.mem_map_of_mem hmem
  · intro h
    obtain ⟨claim, hclaim, rfl, hsame⟩ := h
    obtain ⟨directory, preview, hrun, hpath⟩ := mem_claims_iff.1 hclaim
    cases hresult : preview.result with
    | error e => simp [Preview.paths, hresult] at hpath
    | ok generation =>
      simp only [Preview.paths, hresult, List.mem_map] at hpath
      obtain ⟨artifact, hmem, hpath⟩ := hpath
      refine ⟨directory, preview, generation, hrun, hresult, artifact, hmem, ?_⟩
      rwa [← hpath] at hsame

theorem pairwise_claims (runs : List (Path × Preview)) :
    (claims runs).Pairwise (fun a b ↦ a.owner ≤ b.owner) := by
  rw [claims, List.pairwise_flatMap]
  refine ⟨fun run _ ↦ ?_, (List.pairwise_zipIdx runs).imp fun {a b} hab x hx y hy ↦ ?_⟩
  · rw [List.pairwise_map]
    exact List.pairwise_of_forall fun _ _ ↦ Nat.le_refl _
  · obtain ⟨_, -, rfl⟩ := List.mem_map.1 hx
    obtain ⟨_, -, rfl⟩ := List.mem_map.1 hy
    exact Nat.le_of_lt hab

theorem owner_le_of_find? (hfirst : (claims runs).find? (·.path.Same path) = some first)
    (hclaim : claim ∈ claims runs) (hsame : claim.path.Same path) :
    first.owner ≤ claim.owner := by
  obtain ⟨-, before, after, hsplit, hbefore⟩ := List.find?_eq_some_iff_append.1 hfirst
  have hsorted := pairwise_claims runs
  rw [hsplit] at hclaim hsorted
  rcases List.mem_append.1 hclaim with h | h
  · exact absurd hsame (by simpa using hbefore claim h)
  · rcases List.mem_cons.1 h with rfl | h
    · exact Nat.le_refl _
    · exact List.rel_of_pairwise_cons (List.pairwise_append.1 hsorted).2.1 h

end Claims

section Scanning

variable {done : List Claim} {scan : Scan} {claim first : Claim} {path : Path} {clash : Clash}

theorem find?_congr (l : List Claim) {p q : Path} (h : p.Same q) :
    l.find? (·.path.Same p) = l.find? (·.path.Same q) := by
  have hsame : (fun claim : Claim ↦ decide (claim.path.Same p)) =
      fun claim ↦ decide (claim.path.Same q) :=
    funext fun claim ↦ decide_eq_decide.2 ⟨(·.trans h), (·.trans h.symm)⟩
  rw [hsame]

theorem find?_append_of_mem (hclaim : claim ∈ done) (others : List Claim) :
    (done ++ others).find? (·.path.Same claim.path) = done.find? (·.path.Same claim.path) := by
  rw [List.find?_append]
  cases h : done.find? (·.path.Same claim.path) with
  | some first => rfl
  | none =>
    have := List.find?_eq_none.1 h claim hclaim
    simp [Path.same_refl] at this

def IsClash (done : List Claim) (clash : Clash) : Prop :=
  ∃ claim ∈ done, ∃ first, done.find? (·.path.Same claim.path) = some first ∧
    first.owner ≠ claim.owner ∧ clash = ⟨first.owner, claim.owner, claim.path⟩

/-- What is known after some claims. -/
structure Scanned (done : List Claim) (scan : Scan) : Prop where
  owners : ∀ path, scan.owners.find? (·.path.Same path) = done.find? (·.path.Same path)
  clashes : ∀ clash, clash ∈ scan.clashes ↔ IsClash done clash

theorem isClash_append_iff : IsClash (done ++ [claim]) clash ↔ IsClash done clash ∨
    ∃ first, done.find? (·.path.Same claim.path) = some first ∧ first.owner ≠ claim.owner ∧
      clash = ⟨first.owner, claim.owner, claim.path⟩ := by
  constructor
  · intro h
    obtain ⟨other, hother, first, hfirst, hne, rfl⟩ := h
    rcases List.mem_append.1 hother with hother | hother
    · rw [find?_append_of_mem hother] at hfirst
      exact .inl ⟨other, hother, first, hfirst, hne, rfl⟩
    · obtain rfl := List.mem_singleton.1 hother
      rw [List.find?_append, Option.or_eq_some_iff] at hfirst
      rcases hfirst with hfirst | ⟨-, hfirst⟩
      · exact .inr ⟨first, hfirst, hne, rfl⟩
      · obtain rfl := List.mem_singleton.1 (List.mem_of_find?_eq_some hfirst)
        exact absurd rfl hne
  · intro h
    rcases h with ⟨other, hother, first, hfirst, hne, rfl⟩ | ⟨first, hfirst, hne, rfl⟩
    · exact ⟨other, by simp [hother], first, find?_append_of_mem hother [claim] ▸ hfirst, hne, rfl⟩
    · exact ⟨claim, by simp, first, by rw [List.find?_append, hfirst]; rfl, hne, rfl⟩

theorem Scanned.add (h : Scanned done scan) (claim : Claim) :
    Scanned (done ++ [claim]) (scan.add claim) := by
  have howners := h.owners claim.path
  cases hfirst : done.find? (·.path.Same claim.path) with
  | none =>
    have hadd : scan.add claim = { scan with owners := scan.owners ++ [claim] } := by
      simp only [Scan.add, howners, hfirst]
    rw [hadd]
    refine ⟨fun path ↦ ?_, fun clash ↦ ?_⟩
    · rw [List.find?_append, List.find?_append, h.owners path]
    · rw [isClash_append_iff, h.clashes]
      simp [hfirst]
  | some first =>
    have hkept : ∀ path,
        (done ++ [claim]).find? (·.path.Same path) = done.find? (·.path.Same path) := by
      intro path
      by_cases hsame : claim.path.Same path
      · rw [← find?_congr _ hsame, ← find?_congr _ hsame, List.find?_append, hfirst]
        rfl
      · simp [List.find?_append, hsame]
    by_cases howner : first.owner = claim.owner
    · have hadd : scan.add claim = scan := by
        simp only [Scan.add, howners, hfirst, howner, if_true]
      rw [hadd]
      refine ⟨fun path ↦ by rw [hkept, h.owners], fun clash ↦ ?_⟩
      rw [isClash_append_iff, h.clashes]
      simp [hfirst, howner]
    · have hadd : scan.add claim =
          { scan with clashes := scan.clashes ++ [⟨first.owner, claim.owner, claim.path⟩] } := by
        simp only [Scan.add, howners, hfirst, howner, if_false]
      rw [hadd]
      refine ⟨fun path ↦ by rw [hkept, h.owners], fun clash ↦ ?_⟩
      rw [isClash_append_iff, List.mem_append, h.clashes]
      simp [hfirst, howner]

theorem scanned_foldl (done : List Claim) : Scanned done (done.foldl Scan.add {}) := by
  induction done using List.reverseRecOn with
  | nil => exact ⟨fun _ ↦ rfl, fun clash ↦ by simp [IsClash]⟩
  | append_singleton done claim ih =>
    rw [List.foldl_append]
    exact ih.add claim

end Scanning

end PairedSource.Invocation
