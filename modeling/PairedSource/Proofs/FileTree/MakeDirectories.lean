import PairedSource.Proofs.FileTree.Destination
import PairedSource.Proofs.FileTree.Later

namespace PairedSource.FileTree

variable {tree between next : FileTree} {p q : Path} {a m l : Location} {s : String}
  {segments front : List String}

theorem destination_of_isSlot (h : IsSlot tree q m s) (hname : isName s = true) :
    destination (tree.start q) q.segments = m ++ [s] := by
  obtain ⟨front, hseg, hw⟩ := h.front
  rw [hseg, destination_concat, ← destination_of_walk hw, descend_name hname]

variable (tree q l) in
/-- A path that ends in a name, and where it leads. -/
structure LeadsDown : Prop where
  name : ∃ front s, q.segments = front ++ [s] ∧ isName s = true
  location : l = destination (tree.start q) q.segments

theorem leadsDown_of_makeDirectory (h : tree.makeDirectory q = .ok next)
    (hnone : tree.occupant? l = none) (hsome : next.occupant? l ≠ none) : LeadsDown tree q l := by
  obtain ⟨m, s, hslot, hname, hfree, rfl⟩ := makeDirectory_eq_ok h
  obtain ⟨front, hseg, -⟩ := hslot.front
  refine ⟨⟨front, s, hseg, hname⟩, ?_⟩
  rw [destination_of_isSlot hslot hname]
  by_contra hl
  rw [occupant?_made hslot.isDirectory hfree, if_neg hl] at hsome
  exact hsome hnone

theorem exists_leadsDown {paths : List Path} (hnone : tree.occupant? l = none)
    (hsome : (tree.makeDirectories paths).1.occupant? l ≠ none) :
    ∃ q ∈ paths, LeadsDown tree q l := by
  induction paths with
  | nil => exact absurd hnone hsome
  | cons q above ih =>
    have habove : (tree.makeDirectories above).1.occupant? l ≠ none →
        ∃ q' ∈ q :: above, LeadsDown tree q' l := by
      intro h
      obtain ⟨q', hq', hleads⟩ := ih h
      exact ⟨q', List.mem_cons_of_mem q hq', hleads⟩
    have hlater := later_makeDirectories tree above
    have hmakes := makes_cons tree q above
    generalize tree.makeDirectories (q :: above) = result at hmakes hsome
    cases hmakes with
    | made h => exact ⟨q, List.mem_cons_self, leadsDown_of_makeDirectory h hnone hsome⟩
    | refused h => exact absurd hnone hsome
    | failed heq =>
      rw [heq] at habove
      exact habove hsome
    | @madeAfter between made heq h =>
      rw [heq] at habove hlater
      by_cases hbetween : between.occupant? l = none
      · obtain ⟨hname, hl⟩ := leadsDown_of_makeDirectory h hbetween hsome
        rw [hlater.start_eq q] at hl
        exact ⟨q, List.mem_cons_self, hname, hl⟩
      · exact habove hbetween
    | refusedAfter heq h =>
      rw [heq] at habove
      exact habove hsome

variable (tree a segments) in
/-- How making the directories along some segments ends. -/
inductive Made : FileTree × Bool → Prop
  | opened {next : FileTree} (hlater : Later (fun _ ↦ False) tree next)
    (hwalk : next.walk a segments = .ok (destination a segments))
    (hdir : next.occupant? (destination a segments) = some none) : Made (next, true)
  | blocked {next : FileTree} (h : IsBlocked tree a segments) : Made (next, false)

theorem Made.of_dropIdle {l : List String} {result : FileTree × Bool}
    (h : Made tree a (Path.dropIdle l).reverse result) : Made tree a l.reverse result := by
  cases h with
  | opened hlater hwalk hdir =>
    rw [destination_dropIdle] at hwalk hdir
    exact .opened hlater (walk_of_dropIdle hwalk hdir) hdir
  | blocked h => exact .blocked (h.mono (List.reverse_prefix.2 (Path.dropIdle_suffix l)))

theorem isDirectory_iff_of_walk (hadm : isAdmissible q = true) (hne : q.text ≠ "")
    (hw : tree.walk (tree.start q) q.segments = .ok l) :
    tree.isDirectory q = true ↔ tree.occupant? l = some none := by
  rw [isDirectory_iff, occupant?_eq_directory_iff, hw]
  simp [hadm, hne]

theorem IsBlocked.isDirectory_eq_false (h : IsBlocked tree (tree.start q) q.segments) :
    tree.isDirectory q = false := by
  rw [Bool.eq_false_iff, ne_eq, isDirectory_iff]
  intro hdir
  obtain ⟨-, -, l, children, hw, hfind⟩ := hdir
  exact h.occupant?_ne hw (occupant?_eq_directory_iff.2 ⟨children, hfind⟩)

theorem makeDirectory_of_isSlot (hslot : IsSlot tree q m s) (hadm : isAdmissible q = true)
    (hname : isName s = true) (hstorable : isStorable s = true)
    (hnone : tree.occupant? (m ++ [s]) = none) :
    tree.makeDirectory q = .ok (tree.set (m ++ [s]) (.directory [])) := by
  obtain ⟨children, hfind, hslot⟩ := hslot.slot_eq hadm
  rw [occupant?_child hfind, Option.map_eq_none_iff] at hnone
  simp [makeDirectory, hslot, hname, hstorable, hnone, bind, Except.bind, pure, Except.pure]

theorem made_of_isSlot (hlater : Later (fun _ ↦ False) tree between) (hslot : IsSlot between q m s)
    (hadm : isAdmissible q = true) (hne : q.text ≠ "") (hstorable : isStorable s = true) :
    (∃ next, between.makeDirectory q = .ok next ∧
      Made tree (tree.start q) q.segments (next, true)) ∨
    between.makeDirectory q = .error .unavailable ∧
      Made tree (tree.start q) q.segments (between, between.isDirectory q) := by
  obtain ⟨front, hseg, hw⟩ := hslot.front
  rw [← hlater.start_eq q]
  have hwalk : between.walk (between.start q) q.segments = between.step m s := by
    rw [hseg, walk_concat, hw, Except.ok_bind]
  cases hs : between.step m s with
  | ok b =>
    right
    rw [hs] at hwalk
    refine ⟨makeDirectory_of_walk hwalk, ?_⟩
    obtain rfl := destination_of_walk hwalk
    by_cases hdir : between.occupant? (destination (between.start q) q.segments) = some none
    · rw [(isDirectory_iff_of_walk hadm hne hwalk).2 hdir]
      exact .opened hlater hwalk hdir
    · have hfile := isSome_fileAt (step_eq_ok_iff_descend.1 hs).2.1 hdir
      have hblocked : IsBlocked between (between.start q) q.segments :=
        ⟨q.segments, List.prefix_refl _, hfile⟩
      rw [hblocked.isDirectory_eq_false]
      rw [hlater.fileAt _ id] at hfile
      exact .blocked ⟨q.segments, List.prefix_refl _, hfile⟩
  | error fault =>
    left
    obtain ⟨children, hfind⟩ := occupant?_eq_directory_iff.1 hslot.isDirectory
    have hfree : isName s = true ∧ children.lookup s = none := by
      rw [step_of_directory hfind] at hs
      split_ifs at hs with hidle hup hsome
      obtain ⟨hempty, hdot⟩ := not_or.1 hidle
      exact ⟨isName_iff.2 ⟨hempty, hdot, hup⟩, Option.not_isSome_iff_eq_none.1 hsome⟩
    have hnone : between.occupant? (m ++ [s]) = none := by
      rw [occupant?_child hfind, hfree.2, Option.map_none]
    have hmake := makeDirectory_of_isSlot hslot hadm hfree.1 hstorable hnone
    refine ⟨_, hmake, ?_⟩
    have hmade := later_makeDirectory hmake
    have hthere := occupant?_made hslot.isDirectory hnone (m ++ [s])
    rw [if_pos rfl] at hthere
    have hdest := destination_of_isSlot hslot hfree.1
    refine .opened ((hlater.trans hmade).mono fun _ hl ↦ hl.elim id id) ?_ (hdest ▸ hthere)
    rw [hdest, hseg, walk_concat, hmade.walk hw, Except.ok_bind]
    refine step_eq_ok_iff_descend.2 ⟨hmade.directory m hslot.isDirectory, ?_, ?_⟩
    · rw [hthere]
      rfl
    · exact (descend_name hfree.1).symm

theorem slot_eq_error {fault : PathFault} (hseg : q.segments = front ++ [s])
    (hadm : isAdmissible q = true) (hw : tree.walk (tree.start q) front = .error fault) :
    tree.slot q = .error fault := by
  have hw' : front.foldlM tree.step (tree.start q) = .error fault := hw
  simp [slot, hseg, hadm, hw', bind, Except.bind]

theorem slot_eq_notDirectory (hseg : q.segments = front ++ [s]) (hadm : isAdmissible q = true)
    (hw : tree.walk (tree.start q) front = .ok m) (hm : (tree.fileAt m).isSome = true) :
    tree.slot q = .error .notDirectory := by
  have hw' : front.foldlM tree.step (tree.start q) = .ok m := hw
  obtain ⟨content, hcontent⟩ := Option.isSome_iff_exists.1 hm
  simp [slot, hseg, hadm, hw', fileAt_eq_some_iff.1 hcontent, bind, Except.bind, throw, throwThe,
    MonadExceptOf.throw]

theorem makeDirectory_of_slot {fault : PathFault} (h : tree.slot q = .error fault) :
    tree.makeDirectory q = .error fault := by
  rw [makeDirectory, h, Except.error_bind]

theorem made_cons {above : List Path} (hstart : tree.occupant? (tree.start q) = some none)
    (hadm : isAdmissible q = true) (hne : q.text ≠ "") (hseg : q.segments = front ++ [s])
    (hstorable : isStorable s = true)
    (habove : Made tree (tree.start q) front (tree.makeDirectories above)) :
    Made tree (tree.start q) q.segments (tree.makeDirectories (q :: above)) := by
  have hfront : front <+: q.segments := by
    rw [hseg]
    exact List.prefix_append _ _
  rw [makeDirectories]
  cases hw : tree.walk (tree.start q) front with
  | ok m =>
    by_cases hm : tree.occupant? m = some none
    · have hslot : IsSlot tree q m s := ⟨⟨front, hseg, hw⟩, hm⟩
      rcases made_of_isSlot (.refl _ tree) hslot hadm hne hstorable with
        ⟨made, hmake, hmade⟩ | ⟨hmake, hmade⟩
      · rw [hmake]
        exact hmade
      · rw [hmake]
        exact hmade
    · have hsome : (tree.occupant? (tree.start q)).isSome = true := by
        rw [hstart]
        rfl
      have hfile := isSome_fileAt (isSome_of_walk hsome hw) hm
      have hblocked : IsBlocked tree (tree.start q) q.segments :=
        ⟨front, hfront, by rwa [← destination_of_walk hw]⟩
      rw [makeDirectory_of_slot (slot_eq_notDirectory hseg hadm hw hfile)]
      simp only [hblocked.isDirectory_eq_false]
      exact .blocked hblocked
  | error fault =>
    rw [makeDirectory_of_slot (slot_eq_error hseg hadm hw)]
    rcases walk_eq_error hw with rfl | ⟨rfl, hblocked⟩
    · -- Something in front is missing: the directories above come first, then this one again.
      generalize tree.makeDirectories above = result at habove
      cases habove with
      | blocked h => exact .blocked (h.mono hfront)
      | @opened between hlater hwalk hdir =>
        have hslot : IsSlot between q (destination (tree.start q) front) s :=
          ⟨⟨front, hseg, by rw [hlater.start_eq, hwalk]⟩, hdir⟩
        rcases made_of_isSlot hlater hslot hadm hne hstorable with
          ⟨made, hmake, hmade⟩ | ⟨hmake, hmade⟩
        · simp only [hmake]
          exact hmade
        · simp only [hmake]
          exact hmade
    · have hblocked := hblocked.mono hfront
      simp only [hblocked.isDirectory_eq_false]
      exact .blocked hblocked

theorem start_ofReversed {l : List String} (h : p.IsUpper l) (hne : l ≠ []) :
    tree.start (Path.ofReversed l) = tree.start p := by
  rw [start, start, h.isAbsolute_eq hne]

/-- The directories above the last step of a path are made from the top, unless a file is in the
way. -/
theorem made_ancestorsOf {l : List String} (hstart : tree.occupant? (tree.start p) = some none)
    (hadm : isAdmissible p = true) (h : p.IsUpper l) (hstorable : ∀ s ∈ l, isStorable s = true) :
    Made tree (tree.start p) l.reverse (tree.makeDirectories (Path.ancestorsOf l)) := by
  induction l using Path.ancestorsOf.induct with
  | case1 l hnone =>
    rw [Path.ancestorsOf_of_dropStep?_eq_none hnone, makeDirectories]
    rcases Path.dropStep?_eq_none_iff.1 hnone with rfl | rfl
    · exact .opened (.refl _ tree) rfl hstart
    · refine .opened (.refl _ tree) ?_ hstart
      exact walk_singleton.trans (step_eq_ok_iff.2 ⟨hstart, .inl ⟨.inl rfl, rfl⟩⟩)
  | case2 l r hr ih =>
    obtain ⟨s, rest, rfl, hroot, rfl⟩ := Path.exists_of_dropStep? hr
    have hsuffix := (Path.dropIdle_suffix rest).trans (List.suffix_cons s rest)
    have habove := ih (h.of_suffix hsuffix (Path.dropIdle_dropIdle rest))
      fun t ht ↦ hstorable t (hsuffix.subset ht)
    have hne := List.cons_ne_nil s rest
    have hseg := h.segments_eq hne hroot
    have hsame : tree.start (Path.ofReversed (s :: rest)) = tree.start p := start_ofReversed h hne
    rw [Path.ancestorsOf_of_dropStep? hr, ← hseg, ← hsame]
    rw [← hsame] at habove hstart
    exact made_cons hstart (isAdmissible_of_isUpper h hadm) (Path.text_ofReversed_ne_empty hne)
      (hseg.trans List.reverse_cons) (hstorable s List.mem_cons_self) habove.of_dropIdle

theorem makeDirectories_dot (hdir : tree.occupant? tree.workingDirectory = some none) :
    tree.makeDirectories (Path.mk ".").ancestors = (tree, true) := by
  have hwalk : tree.walk (tree.start ⟨"."⟩) (Path.mk ".").segments = .ok tree.workingDirectory :=
    walk_singleton.trans (step_eq_ok_iff.2 ⟨hdir, .inl ⟨.inr rfl, rfl⟩⟩)
  have hthere := (isDirectory_iff_of_walk (by decide) (by decide) hwalk).2 hdir
  rw [Path.ancestors_dot, makeDirectories, makeDirectory_of_walk hwalk, hthere]

theorem start_of_segments_eq_singleton (h : p.segments = [s]) :
    tree.start p = tree.workingDirectory := by
  rw [start, if_neg]
  rw [Path.isAbsolute_iff, h]
  simp

theorem made_directoryFor (hstart : tree.occupant? (tree.start p) = some none)
    (hadm : isAdmissible p = true) (hseg : p.segments = front ++ [s]) (hname : isName s = true)
    (hstorable : ∀ t ∈ front, isStorable t = true) :
    Made tree (tree.start p) front (tree.makeDirectories (directoryFor p).ancestors) := by
  have hn := isName_iff.1 hname
  rw [directoryFor_of_parent? (Path.parent?_eq hseg hn.1 hn.2.1)]
  by_cases hfront : front = []
  · subst hfront
    rw [start_of_segments_eq_singleton hseg] at hstart ⊢
    rw [if_pos (by decide), makeDirectories_dot hstart]
    exact .opened (.refl _ tree) rfl hstart
  · have hupper := Path.IsUpper.dropIdle_reverse hseg (List.cons_ne_nil s [])
    have hne := Path.dropIdle_ne_nil (mt List.reverse_eq_nil_iff.1 hfront)
    rw [if_neg (Path.text_ofReversed_ne_empty hne),
      Path.ancestors_ofReversed hupper.slash_notMem hupper.dropIdle hne]
    have hmade := made_ancestorsOf hstart hadm hupper fun t ht ↦
      hstorable t (List.mem_reverse.1 ((Path.dropIdle_suffix _).subset ht))
    simpa only [List.reverse_reverse] using hmade.of_dropIdle

theorem mem_ancestors_directoryFor (h : q ∈ (directoryFor p).ancestors) :
    q = ⟨"."⟩ ∧ (∀ d ∈ p.parent?, d.text = "") ∨
      ∃ r, p.IsUpper r ∧ r ≠ [] ∧ q = Path.ofReversed r := by
  cases hparent : p.parent? with
  | none =>
    rw [directoryFor, hparent, Path.ancestors_dot] at h
    exact .inl ⟨List.mem_singleton.1 h, fun _ ↦ nofun⟩
  | some d =>
    rw [directoryFor_of_parent? hparent] at h
    split at h
    · rename_i hempty
      rw [Path.ancestors_dot] at h
      refine .inl ⟨List.mem_singleton.1 h, fun d' hd' ↦ ?_⟩
      rwa [← Option.some.inj hd']
    · rename_i hne
      obtain ⟨r, hr, rfl⟩ := Option.map_eq_some_iff.1 hparent
      have hupper := Path.IsUpper.of_dropStep? hr
      have hr : r ≠ [] := by
        rintro rfl
        exact hne rfl
      rw [Path.ancestors_ofReversed hupper.slash_notMem hupper.dropIdle hr] at h
      obtain ⟨r', rfl, hr', hsuffix, hidle⟩ := Path.mem_ancestorsOf h hupper.dropIdle
      exact .inr ⟨r', hupper.of_suffix hsuffix hidle, hr', rfl⟩

theorem start_of_mem_ancestors (hseg : p.segments = front ++ [s]) (hname : isName s = true)
    (h : q ∈ (directoryFor p).ancestors) : tree.start q = tree.start p := by
  rcases mem_ancestors_directoryFor h with ⟨rfl, hparent⟩ | ⟨r, hupper, hr, rfl⟩
  · have hn := isName_iff.1 hname
    have hempty := hparent _ (Path.parent?_eq hseg hn.1 hn.2.1)
    have hfront : front = [] := by
      by_contra hfront
      have hne := Path.dropIdle_ne_nil (mt List.reverse_eq_nil_iff.1 hfront)
      exact Path.text_ofReversed_ne_empty hne hempty
    subst hfront
    rw [start_of_segments_eq_singleton hseg]
    rfl
  · exact start_ofReversed hupper hr

theorem LeadsDown.onTheWay (h : LeadsDown tree q l) (hq : q ∈ (directoryFor p).ancestors) :
    OnTheWay tree l p := by
  obtain ⟨⟨before, s, hseg, hname⟩, hl⟩ := h
  rcases mem_ancestors_directoryFor hq with ⟨rfl, -⟩ | ⟨r, hupper, hr, rfl⟩
  · have hdot : [] ++ ["."] = before ++ [s] := hseg
    obtain ⟨-, hs⟩ := List.append_inj' hdot rfl
    rw [← List.singleton_inj.1 hs] at hname
    cases hname
  · obtain ⟨rest, hrest, hp⟩ := hupper.segments
    refine ⟨r.reverse, ⟨rest, hp.symm⟩, ?_, ?_⟩
    · rw [hp]
      simpa using hrest
    · rw [hl, start_ofReversed hupper hr]
      rcases Path.segments_ofReversed hupper.slash_notMem with hq | hq
      · rw [hq]
      · rw [hq, destination_concat, descend_idle (.inl rfl)]

theorem IsSlot.isDirectory_start (h : IsSlot tree q m s) :
    tree.occupant? (tree.start q) = some none := by
  obtain ⟨front, -, hw⟩ := h.front
  exact isDirectory_of_walk hw h.isDirectory List.nil_prefix

theorem makeDirectories_of_start {paths : List Path}
    (h : ∀ q ∈ paths, tree.occupant? (tree.start q) ≠ some none) :
    (tree.makeDirectories paths).1 = tree := by
  have hmake : ∀ q ∈ paths, ∀ made, tree.makeDirectory q ≠ .ok made := by
    intro q hq made hmake
    obtain ⟨m, s, hslot, -⟩ := makeDirectory_eq_ok hmake
    exact h q hq hslot.isDirectory_start
  induction paths with
  | nil => rfl
  | cons q above ih =>
    have habove := ih (fun q' hq' ↦ h q' (List.mem_cons_of_mem q hq'))
      fun q' hq' ↦ hmake q' (List.mem_cons_of_mem q hq')
    have hq := hmake q List.mem_cons_self
    have hmakes := makes_cons tree q above
    generalize tree.makeDirectories (q :: above) = result at hmakes
    cases hmakes with
    | made hmade => exact absurd hmade (hq _)
    | refused => rfl
    | failed heq => rwa [heq] at habove
    | madeAfter heq hmade =>
      rw [heq] at habove
      obtain rfl := habove
      exact absurd hmade (hq _)
    | refusedAfter heq => rwa [heq] at habove

end PairedSource.FileTree
