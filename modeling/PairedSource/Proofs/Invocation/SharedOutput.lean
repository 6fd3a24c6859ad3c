import Mathlib.Logic.Equiv.Defs
import PairedSource.Proofs.Invocation.Clashes

namespace PairedSource.Invocation

section Applying

variable {previews : List Preview} {clash : Clash} {preview : Preview} {index : Nat}

variable (previews clash) in
def clashError : Error :=
  .sharedOutput clash.path (inputAt previews clash.first) (inputAt previews clash.second)

def clashOf? (clashes : List Clash) (index : Nat) : Option Clash :=
  clashes.find? fun clash ↦ clash.first = index ∨ clash.second = index

theorem Preview.refuse_input (e : Error) (preview : Preview) :
    (preview.refuse e).input = preview.input := by
  unfold refuse
  split <;> rfl

theorem Preview.refuse_refuse (e e' : Error) (preview : Preview) :
    (preview.refuse e).refuse e' = preview.refuse e := by
  unfold refuse
  cases h : preview.result <;> simp [h]

theorem getElem?_applyClash (previews : List Preview) (clash : Clash) (index : Nat) :
    (applyClash previews clash)[index]? = previews[index]?.map fun preview ↦
      if clash.first = index ∨ clash.second = index then
        preview.refuse (clashError previews clash)
      else preview := by
  rw [applyClash, List.getElem?_modify, List.getElem?_modify]
  cases previews[index]? with
  | none => rfl
  | some preview =>
    by_cases hfirst : clash.first = index <;> by_cases hsecond : clash.second = index <;>
      simp [hfirst, hsecond, clashError, Preview.refuse_refuse]

theorem inputAt_applyClash (previews : List Preview) (clash : Clash) (index : Nat) :
    inputAt (applyClash previews clash) index = inputAt previews index := by
  rw [inputAt, inputAt, getElem?_applyClash]
  cases previews[index]? with
  | none => rfl
  | some preview =>
    simp only [Option.map_some]
    split
    · rw [Preview.refuse_input]
    · rfl

theorem clashError_applyClash (previews : List Preview) (clash clash' : Clash) :
    clashError (applyClash previews clash) clash' = clashError previews clash' := by
  rw [clashError, clashError, inputAt_applyClash, inputAt_applyClash]

theorem length_foldl_applyClash (clashes : List Clash) (previews : List Preview) :
    (clashes.foldl applyClash previews).length = previews.length := by
  induction clashes generalizing previews with
  | nil => rfl
  | cons clash clashes ih =>
    rw [List.foldl_cons, ih, applyClash, List.length_modify, List.length_modify]

theorem getElem?_foldl_applyClash (clashes : List Clash) (previews : List Preview) (index : Nat) :
    (clashes.foldl applyClash previews)[index]? = previews[index]?.map fun preview ↦
      match clashOf? clashes index with
      | some clash => preview.refuse (clashError previews clash)
      | none => preview := by
  induction clashes generalizing previews with
  | nil => simp [clashOf?]
  | cons clash clashes ih =>
    rw [List.foldl_cons, ih, getElem?_applyClash, Option.map_map]
    congr 1
    funext preview
    by_cases h : clash.first = index ∨ clash.second = index
    · have hfind : clashOf? (clash :: clashes) index = some clash := by
        simp [clashOf?, h]
      simp only [Function.comp_apply, h, if_true, hfind]
      split
      · rw [Preview.refuse_refuse]
      · rfl
    · have hfind : clashOf? (clash :: clashes) index = clashOf? clashes index := by
        simp [clashOf?, h]
      simp only [Function.comp_apply, h, if_false, hfind, clashError_applyClash]

end Applying

section Rejection

variable {runs others : List (Path × Preview)} {clash : Clash} {index : Nat} {path : Path}

variable (runs) in
def clashes : List Clash :=
  ((claims runs).foldl Scan.add {}).clashes

theorem mem_clashes_iff : clash ∈ clashes runs ↔ IsClash (claims runs) clash :=
  (scanned_foldl (claims runs)).clashes clash

theorem writes_of_mem_clashes (h : clash ∈ clashes runs) :
    Writes runs clash.first clash.path ∧ Writes runs clash.second clash.path ∧
      (∀ other, Writes runs other clash.path → clash.first ≤ other) ∧
      clash.first < clash.second := by
  obtain ⟨claim, hclaim, first, hfirst, hne, rfl⟩ := mem_clashes_iff.1 h
  have hsame : first.path.Same claim.path := by simpa using List.find?_some hfirst
  have hsecond : Writes runs claim.owner claim.path :=
    writes_iff.2 ⟨claim, hclaim, rfl, claim.path.same_refl⟩
  have hleast : ∀ other, Writes runs other claim.path → first.owner ≤ other := by
    intro other hother
    obtain ⟨claim', hclaim', rfl, hsame'⟩ := writes_iff.1 hother
    exact owner_le_of_find? hfirst hclaim' hsame'
  have hle := hleast _ hsecond
  exact ⟨writes_iff.2 ⟨first, List.mem_of_find?_eq_some hfirst, rfl, hsame⟩, hsecond, hleast,
    by simp only; omega⟩

/-- Every input that shares a path is part of a clash: if it is not the first to claim the path,
then by its own claim, else by that of the other input. -/
theorem exists_clash_of_isShared (h : IsShared runs index) :
    ∃ clash ∈ clashes runs, clash.first = index ∨ clash.second = index := by
  obtain ⟨path, other, hne, hindex, hother⟩ := h
  obtain ⟨mine, hmine, rfl, hsame⟩ := writes_iff.1 hindex
  obtain ⟨theirs, htheirs, rfl, hsame'⟩ := writes_iff.1 hother
  have hfind := find?_congr (claims runs) (hsame.trans hsame'.symm)
  cases hfirst : (claims runs).find? (·.path.Same mine.path) with
  | none => simpa [Path.same_refl] using List.find?_eq_none.1 hfirst mine hmine
  | some first =>
    by_cases howner : first.owner = mine.owner
    · refine ⟨⟨first.owner, theirs.owner, theirs.path⟩, mem_clashes_iff.2
        ⟨theirs, htheirs, first, hfind ▸ hfirst, ?_, rfl⟩, .inl howner⟩
      rw [howner]
      exact hne.symm
    · exact ⟨⟨first.owner, mine.owner, mine.path⟩, mem_clashes_iff.2
        ⟨mine, hmine, first, hfirst, howner, rfl⟩, .inr rfl⟩

theorem isShared_of_mem_clashes (hclash : clash ∈ clashes runs)
    (hindex : clash.first = index ∨ clash.second = index) : IsShared runs index := by
  obtain ⟨hfirst, hsecond, -, hlt⟩ := writes_of_mem_clashes hclash
  rcases hindex with rfl | rfl
  · exact ⟨clash.path, clash.second, (Nat.ne_of_lt hlt).symm, hfirst, hsecond⟩
  · exact ⟨clash.path, clash.first, Nat.ne_of_lt hlt, hsecond, hfirst⟩

theorem length_rejectShared (runs : List (Path × Preview)) :
    (rejectShared runs).length = runs.length := by
  rw [rejectShared, length_foldl_applyClash, List.length_map]

theorem getElem?_rejectShared (runs : List (Path × Preview)) (index : Nat) :
    (rejectShared runs)[index]? = runs[index]?.map fun run ↦
      match clashOf? (clashes runs) index with
      | some clash => run.2.refuse (clashError (runs.map Prod.snd) clash)
      | none => run.2 := by
  rw [rejectShared, ← clashes, getElem?_foldl_applyClash, List.getElem?_map, Option.map_map]
  rfl

theorem inputAt_of_getElem? {run : Path × Preview} (h : runs[index]? = some run) :
    inputAt (runs.map Prod.snd) index = run.2.input := by
  simp [inputAt, h]

theorem getElem?_rejectShared_of_not_isShared (h : ¬IsShared runs index) :
    (rejectShared runs)[index]? = runs[index]?.map Prod.snd := by
  have hnone : clashOf? (clashes runs) index = none := by
    refine List.find?_eq_none.2 fun clash hclash hindex ↦ h ?_
    exact isShared_of_mem_clashes hclash (by simpa using hindex)
  rw [getElem?_rejectShared, hnone]

theorem getElem?_rejectShared_of_isShared (h : IsShared runs index) :
    ∃ directory preview path first second firstRun secondRun,
      runs[index]? = some (directory, preview) ∧ runs[first]? = some firstRun ∧
      runs[second]? = some secondRun ∧
      (rejectShared runs)[index]? = some { preview with
        result := .error (.sharedOutput path firstRun.2.input secondRun.2.input) } ∧
      Writes runs first path ∧ Writes runs second path ∧
      (∀ other, Writes runs other path → first ≤ other) ∧ first < second ∧
      (index = first ∨ index = second) := by
  obtain ⟨clash, hclash⟩ : ∃ clash, clashOf? (clashes runs) index = some clash := by
    obtain ⟨clash, hmem, hindex⟩ := exists_clash_of_isShared h
    exact Option.isSome_iff_exists.1 (List.find?_isSome.2 ⟨clash, hmem, by simpa using hindex⟩)
  have hindex : clash.first = index ∨ clash.second = index := by
    simpa using List.find?_some hclash
  obtain ⟨hfirst, hsecond, hleast, hlt⟩ := writes_of_mem_clashes (List.mem_of_find?_eq_some hclash)
  obtain ⟨path, other, -, ⟨directory, preview, generation, hrun, hok, -⟩, -⟩ := h
  have hfirst' := hfirst
  have hsecond' := hsecond
  obtain ⟨firstDirectory, firstPreview, -, hfirstRun, -⟩ := hfirst'
  obtain ⟨secondDirectory, secondPreview, -, hsecondRun, -⟩ := hsecond'
  refine ⟨directory, preview, clash.path, clash.first, clash.second, _, _, hrun, hfirstRun,
    hsecondRun, ?_, hfirst, hsecond, hleast, hlt, hindex.imp Eq.symm Eq.symm⟩
  rw [getElem?_rejectShared, hrun, Option.map_some, hclash]
  simp only [Preview.refuse, hok, clashError, inputAt_of_getElem? hfirstRun,
    inputAt_of_getElem? hsecondRun]

variable (runs index) in
/-- An input that succeeded fails because another one writes one of its paths. -/
def IsRejected : Prop :=
  ∃ directory preview generation after path first second,
    runs[index]? = some (directory, preview) ∧ preview.result = .ok generation ∧
      (rejectShared runs)[index]? = some after ∧
      after.result = .error (.sharedOutput path first second)

theorem isRejected_iff : IsRejected runs index ↔ IsShared runs index := by
  constructor
  · intro h
    obtain ⟨directory, preview, generation, after, path, first, second, hrun, hok, hafter,
      herror⟩ := h
    by_contra h
    rw [getElem?_rejectShared_of_not_isShared h, hrun] at hafter
    obtain rfl : preview = after := Option.some.inj hafter
    rw [hok] at herror
    cases herror
  · intro h
    obtain ⟨directory, preview, path, first, second, firstRun, secondRun, hrun, -, -, hafter, -⟩ :=
      getElem?_rejectShared_of_isShared h
    obtain ⟨-, -, -, ⟨directory', preview', generation, hrun', hok, -⟩, -⟩ := h
    obtain ⟨rfl, rfl⟩ := Prod.mk.inj (Option.some.inj (hrun.symm.trans hrun'))
    exact ⟨directory, preview, generation, _, path, _, _, hrun, hok, hafter, rfl⟩

theorem writes_congr (σ : Fin runs.length ≃ Fin others.length)
    (hσ : ∀ i, others[σ i] = runs[i]) (i : Fin runs.length) :
    Writes others (σ i) path ↔ Writes runs i path := by
  have hi : others[(σ i : Nat)]? = runs[(i : Nat)]? := by
    rw [List.getElem?_eq_getElem (σ i).isLt, List.getElem?_eq_getElem i.isLt]
    exact congrArg some (hσ i)
  rw [Writes, Writes, hi]

theorem lt_length_of_writes (h : Writes runs index path) : index < runs.length := by
  obtain ⟨_, _, _, hrun, -⟩ := h
  exact (List.getElem?_eq_some_iff.1 hrun).1

theorem isShared_of_reorder (σ : Fin runs.length ≃ Fin others.length)
    (hσ : ∀ i, others[σ i] = runs[i]) {i : Fin runs.length} (h : IsShared runs i) :
    IsShared others (σ i) := by
  obtain ⟨path, other, hne, hindex, hother⟩ := h
  have hlt := lt_length_of_writes hother
  refine ⟨path, σ ⟨other, hlt⟩, fun heq ↦ hne ?_, (writes_congr σ hσ i).2 hindex,
    (writes_congr σ hσ ⟨other, hlt⟩).2 hother⟩
  exact congrArg Fin.val (σ.injective (Fin.ext heq))

/-- Exactly the inputs that write a path that another one writes are refused, all other outcomes
stay, every error tells the first and another input that write its path, and the order of the
inputs does not matter. -/
theorem rejectShared_exact (runs : List (Path × Preview)) :
    (rejectShared runs).length = runs.length ∧
    (∀ index, IsRejected runs index ↔ IsShared runs index) ∧
    (∀ index, ¬IsShared runs index →
      (rejectShared runs)[index]? = runs[index]?.map Prod.snd) ∧
    (∀ index, IsShared runs index →
      ∃ directory preview path first second firstRun secondRun,
        runs[index]? = some (directory, preview) ∧ runs[first]? = some firstRun ∧
        runs[second]? = some secondRun ∧
        (rejectShared runs)[index]? = some { preview with
          result := .error (.sharedOutput path firstRun.2.input secondRun.2.input) } ∧
        Writes runs first path ∧ Writes runs second path ∧
        (∀ other, Writes runs other path → first ≤ other) ∧ first < second ∧
        (index = first ∨ index = second)) ∧
    ∀ (others : List (Path × Preview)) (σ : Fin runs.length ≃ Fin others.length),
      (∀ i, others[σ i] = runs[i]) →
        ∀ i : Fin runs.length, IsRejected others (σ i) ↔ IsRejected runs i := by
  refine ⟨length_rejectShared runs, fun _ ↦ isRejected_iff,
    fun _ ↦ getElem?_rejectShared_of_not_isShared, fun _ ↦ getElem?_rejectShared_of_isShared,
    fun others σ hσ i ↦ ?_⟩
  rw [isRejected_iff, isRejected_iff]
  refine ⟨fun h ↦ ?_, isShared_of_reorder σ hσ⟩
  have hback := isShared_of_reorder σ.symm (fun j ↦ by simp [← hσ]) h
  rwa [σ.symm_apply_apply] at hback

end Rejection

end PairedSource.Invocation
