import PairedSource.Path
import PairedSource.Proofs.Text.Split

namespace PairedSource

namespace Path

variable {p q : Path}

theorem segments_ne_nil (p : Path) : p.segments ≠ [] :=
  Text.split_ne_nil _

theorem exists_segments_eq_append (p : Path) : ∃ front s, p.segments = front ++ [s] :=
  ⟨_, _, (List.dropLast_concat_getLast p.segments_ne_nil).symm⟩

theorem slash_notMem_of_mem_segments {s : String} (h : s ∈ p.segments) : '/' ∉ s.toList :=
  fun hc ↦ (Text.mem_toList_of_mem_split h hc).1 rfl

theorem segments_intercalate {l : List String} (hl : l ≠ []) (h : ∀ s ∈ l, '/' ∉ s.toList) :
    (Path.mk ("/".intercalate l)).segments = l :=
  Text.split_intercalate hl h

theorem intercalate_segments (p : Path) : "/".intercalate p.segments = p.text :=
  Text.intercalate_split p.text

theorem isAbsolute_iff : p.isAbsolute = true ↔ ∃ s rest, p.segments = "" :: s :: rest := by
  constructor
  · intro h
    obtain ⟨cs, hcs⟩ : ∃ cs, p.text.toList = '/' :: cs := by
      cases hp : p.text.toList with
      | nil => simp [isAbsolute, hp] at h
      | cons c cs =>
        have hc : c = '/' := by simpa [isAbsolute, hp] using h
        exact ⟨cs, by rw [hc]⟩
    obtain ⟨piece, more, hp⟩ := List.exists_cons_of_ne_nil (Text.pieces_ne_nil (· == '/') cs)
    exact ⟨String.ofList piece, more.map String.ofList, by
      simp [segments, Text.split, hcs, Text.pieces, hp]⟩
  · intro h
    obtain ⟨s, rest, h⟩ := h
    have htext := intercalate_segments p
    rw [h, String.intercalate_cons_cons] at htext
    simp [isAbsolute, ← htext]

theorem exists_segments_of_text {front t : String} (ht : '/' ∉ t.toList)
    (h : p.text = front ++ t) : ∃ before stem, p.segments = before ++ [stem ++ t] := by
  obtain ⟨before, s, hseg⟩ := p.exists_segments_eq_append
  suffices hsuffix : t.toList <:+ s.toList by
    obtain ⟨stem, hstem⟩ := hsuffix
    refine ⟨before, String.ofList stem, ?_⟩
    have hs : String.ofList stem ++ t = s := by
      rw [← String.toList_inj, String.toList_append, String.toList_ofList, hstem]
    rw [hs, hseg]
  have htext := intercalate_segments p
  have hend : t.toList <:+ p.text.toList := ⟨front.toList, by rw [h, String.toList_append]⟩
  rw [hseg] at htext
  by_cases hbefore : before = []
  · rw [hbefore, List.nil_append, String.intercalate_singleton] at htext
    rwa [htext]
  · rw [String.intercalate_append_of_ne_nil hbefore (by simp), String.intercalate_singleton]
      at htext
    have hslash : '/' :: s.toList <:+ p.text.toList :=
      ⟨("/".intercalate before).toList, by rw [← htext]; simp⟩
    rcases List.suffix_or_suffix_of_suffix hend hslash with hle | hle
    · rcases List.suffix_cons_iff.1 hle with heq | hle
      · exact absurd (heq ▸ List.mem_cons_self) ht
      · exact hle
    · exact absurd (hle.subset List.mem_cons_self) ht

theorem exists_text_join (p q : Path) : ∃ front, (p.join q).text = front ++ q.text := by
  unfold join
  split
  · exact ⟨"", by simp⟩
  · split
    · exact ⟨p.text, rfl⟩
    · exact ⟨p.text ++ "/", rfl⟩

theorem segments_join (h : q.isAbsolute = false) :
    (p.join q).segments = p.segments ++ q.segments ∨
      ∃ front, p.segments = front ++ [""] ∧ (p.join q).segments = front ++ q.segments := by
  rw [join, if_neg (by simp [h])]
  by_cases hp : p.text = ""
  · refine .inr ⟨[], ?_, ?_⟩
    · simp [segments, hp, Text.split, Text.pieces]
    · simp [hp]
  · by_cases hend : p.text.toList.getLast? = some '/'
    · obtain ⟨cs, hcs⟩ := List.getLast?_eq_some_iff.1 hend
      have htext : p.text = String.ofList cs ++ String.singleton '/' := by
        rw [← String.toList_inj, hcs]
        simp
      have hself : Text.split '/' (String.ofList cs ++ String.singleton '/' ++ "") =
          Text.split '/' (String.ofList cs) ++ [""] := Text.split_append _ _
      have hjoin : Text.split '/' (String.ofList cs ++ String.singleton '/' ++ q.text) =
          Text.split '/' (String.ofList cs) ++ q.segments := Text.split_append _ _
      rw [← htext, String.append_empty] at hself
      rw [← htext] at hjoin
      rw [if_pos (by simp [hend])]
      exact .inr ⟨_, hself, hjoin⟩
    · rw [if_neg (by simp [hp, hend])]
      exact .inl (Text.split_append p.text q.text)

theorem mem_text_join (h : q.isAbsolute = false) {c : Char} (hc : c ≠ '/') :
    c ∈ (p.join q).text.toList ↔ c ∈ p.text.toList ∨ c ∈ q.text.toList := by
  rw [join, if_neg (by simp [h])]
  split <;> simp [hc]

theorem isAbsolute_join (h : q.isAbsolute = false) : (p.join q).isAbsolute = p.isAbsolute := by
  rw [join, if_neg (by simp [h])]
  by_cases hp : p.text = ""
  · simpa [hp, isAbsolute] using h
  · have hne : p.text.toList ≠ [] := by simpa using hp
    split <;> simp [isAbsolute, List.head?_append, List.head?_eq_some_head hne]

theorem utf8ByteSize_add_le_join (h : q.isAbsolute = false) :
    p.text.utf8ByteSize + q.text.utf8ByteSize ≤ (p.join q).text.utf8ByteSize := by
  rw [join, if_neg (by simp [h])]
  split
  · exact Nat.le_of_eq String.utf8ByteSize_append.symm
  · rw [String.utf8ByteSize_append, String.utf8ByteSize_append]
    omega

theorem utf8ByteSize_le_join (p q : Path) :
    q.text.utf8ByteSize ≤ (p.join q).text.utf8ByteSize := by
  obtain ⟨front, htext⟩ := exists_text_join p q
  rw [htext, String.utf8ByteSize_append]
  exact Nat.le_add_left _ _

section PlainName

variable {name : String} (h : '/' ∉ name.toList)

include h

theorem segments_mk : (Path.mk name).segments = [name] :=
  Text.split_eq_singleton h

theorem isAbsolute_mk : (Path.mk name).isAbsolute = false := by
  rw [Bool.eq_false_iff, ne_eq, isAbsolute]
  intro hhead
  exact h (List.mem_of_mem_head? (by simpa using hhead))

theorem segments_join_mk (p : Path) : (p.join ⟨name⟩).segments = p.segments ++ [name] ∨
    ∃ front, p.segments = front ++ [""] ∧ (p.join ⟨name⟩).segments = front ++ [name] := by
  have hjoin := segments_join (p := p) (isAbsolute_mk h)
  rwa [segments_mk h] at hjoin

end PlainName

theorem components_eq {first : String} {rest : List String} (h : p.segments = first :: rest) :
    p.components = (if p.isAbsolute then [.root] else if first = "." then [.current]
      else (Component.ofSegment? first).toList) ++ rest.filterMap Component.ofSegment? := by
  rw [components, h]

theorem components_join {name : String} (hslash : '/' ∉ name.toList)
    (hname : name ≠ "" ∧ name ≠ "." ∧ name ≠ "..") :
    (p.join ⟨name⟩).components = p.components ++ [.name name] := by
  have habs := isAbsolute_join (p := p) (isAbsolute_mk hslash)
  have hstep : Component.ofSegment? name = some (.name name) := by
    simp [Component.ofSegment?, hname]
  have hidle : Component.ofSegment? "" = none := rfl
  rcases segments_join_mk hslash p with hjoin | ⟨front, hfront, hjoin⟩
  · obtain ⟨first, rest, hp⟩ := List.exists_cons_of_ne_nil p.segments_ne_nil
    rw [hp, List.cons_append] at hjoin
    rw [components_eq hjoin, components_eq hp, habs]
    simp [hstep]
  · cases front with
    | nil =>
      have hp : p.isAbsolute = false := by
        rw [Bool.eq_false_iff, ne_eq, isAbsolute_iff, hfront]
        simp
      rw [components_eq hjoin, components_eq hfront, habs]
      simp [hp, hname, hstep, hidle]
    | cons first rest =>
      rw [components_eq hjoin, components_eq hfront, habs]
      simp [hstep, hidle]

theorem Same.join {name : String} (h : p.Same q) (hslash : '/' ∉ name.toList)
    (hname : name ≠ "" ∧ name ≠ "." ∧ name ≠ "..") : (p.join ⟨name⟩).Same (q.join ⟨name⟩) := by
  rw [Same, components_join hslash hname, components_join hslash hname, h]

theorem dropIdle_suffix (l : List String) : dropIdle l <:+ l := by
  fun_induction dropIdle l with
  | case1 s t rest _ ih => exact ih.trans (List.suffix_cons _ _)
  | case2 => exact List.suffix_refl _
  | case3 => exact List.suffix_refl _

theorem dropIdle_ne_nil {l : List String} (h : l ≠ []) : dropIdle l ≠ [] := by
  fun_induction dropIdle l with
  | case1 s t rest _ ih => exact ih (by simp)
  | case2 => simp
  | case3 => exact h

theorem segments_ofReversed {l : List String} (h : ∀ s ∈ l, '/' ∉ s.toList) :
    (ofReversed l).segments = l.reverse ∨ (ofReversed l).segments = l.reverse ++ [""] := by
  have hr : ∀ s ∈ l.reverse, '/' ∉ s.toList := by simpa using h
  unfold ofReversed
  split
  · exact .inr rfl
  · by_cases hl : l = []
    · exact .inr (by simp [hl, segments, Text.split, Text.pieces])
    · exact .inl (segments_intercalate (by simpa using hl) hr)

section Last

variable {front : List String} {s : String} (h : p.segments = front ++ [s]) (hs : s ≠ "")
  (hs' : s ≠ ".")

include h hs hs'

theorem parent?_eq : p.parent? = some (ofReversed (dropIdle front.reverse)) := by
  rw [parent?, h, List.reverse_append, List.reverse_singleton, List.singleton_append]
  cases hf : front.reverse with
  | nil => simp [dropIdle, dropStep?, hs]
  | cons t rest => rw [dropIdle, if_neg (by simp [hs, hs'])]; rfl

theorem fileName?_eq (hup : s ≠ "..") : p.fileName? = some s := by
  have hstep : Component.ofSegment? s = some (.name s) := by
    simp [Component.ofSegment?, hs, hs', hup]
  have hlast : p.components.getLast? = some (.name s) := by
    rw [components, h]
    cases front with
    | nil =>
      have habs : p.isAbsolute = false := by
        rw [Bool.eq_false_iff, ne_eq, isAbsolute_iff]
        intro h
        obtain ⟨t, rest, ht⟩ := h
        simp [h] at ht
      simp [habs, hs', hstep]
    | cons first front => simp [List.filterMap_append, hstep]
  rw [fileName?, hlast]

end Last

/-- The front of a path, without what is no step at its end, is spelled at the head of the path. -/
theorem exists_text_eq_ofReversed_append {front rest : List String}
    (h : p.segments = front ++ rest) (hrest : rest ≠ []) :
    ∃ tail, p.text = (ofReversed (dropIdle front.reverse)).text ++ tail := by
  obtain ⟨more, hmore⟩ := dropIdle_suffix front.reverse
  have hfront : front = (dropIdle front.reverse).reverse ++ more.reverse := by
    rw [← List.reverse_append, hmore, List.reverse_reverse]
  have hne : more.reverse ++ rest ≠ [] := by simp [hrest]
  have htext := intercalate_segments p
  rw [h, hfront, List.append_assoc] at htext
  unfold ofReversed
  split
  · rename_i hl
    refine ⟨"/".intercalate (more.reverse ++ rest), ?_⟩
    rw [← htext, hl, List.reverse_singleton, List.singleton_append,
      String.intercalate_cons_of_ne_nil hne]
    simp
  · by_cases hl : dropIdle front.reverse = []
    · exact ⟨p.text, by simp [hl]⟩
    · rw [String.intercalate_append_of_ne_nil (by simpa using hl) hne] at htext
      exact ⟨"/" ++ "/".intercalate (more.reverse ++ rest), by
        rw [← htext, String.append_assoc]⟩

theorem text_ofReversed_ne_empty {l : List String} (h : l ≠ []) : (ofReversed l).text ≠ "" := by
  unfold ofReversed
  split
  · simp
  · rename_i hl
    match hr : l.reverse with
    | [] => exact absurd (List.reverse_eq_nil_iff.1 hr) h
    | [s] =>
      rw [String.intercalate_singleton]
      intro heq
      subst heq
      exact hl (List.reverse_inj.1 hr)
    | s :: t :: rest => simp [String.intercalate_cons_cons]

theorem isAbsolute_ofReversed {front rest : List String} (h : p.segments = front ++ rest)
    (hfront : front ≠ []) (hrest : rest ≠ []) :
    (ofReversed (dropIdle front.reverse)).isAbsolute = p.isAbsolute := by
  have hreverse : front.reverse ≠ [] := by simpa using hfront
  have hne := text_ofReversed_ne_empty (dropIdle_ne_nil hreverse)
  obtain ⟨tail, htail⟩ := exists_text_eq_ofReversed_append h hrest
  have hlist : (ofReversed (dropIdle front.reverse)).text.toList ≠ [] := by simpa using hne
  simp [isAbsolute, htail, List.head?_append, List.head?_eq_some_head hlist]

end Path

end PairedSource
