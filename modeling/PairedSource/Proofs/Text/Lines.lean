import PairedSource.CodeBuilder
import PairedSource.Proofs.Text.Split

namespace PairedSource

namespace Text

variable {s t : String} {ls : List String}

@[simp]
theorem toString_eq (s : String) : toString s = s := rfl

/-- Nothing in a text ends a line. -/
def IsLine (s : String) : Prop :=
  ∀ c ∈ s.toList, c ≠ '\n' ∧ c ≠ '\r'

instance : Decidable (IsLine s) :=
  List.decidableBAll (fun c ↦ c ≠ '\n' ∧ c ≠ '\r') s.toList

theorem IsLine.append (hs : IsLine s) (ht : IsLine t) : IsLine (s ++ t) := by
  intro c hc
  rw [String.toList_append, List.mem_append] at hc
  exact hc.elim (hs c) (ht c)

theorem isLine_of_isAlphanum (h : ∀ c ∈ s.toList, c.isAlphanum = true) : IsLine s := by
  intro c hc
  have hc := h c hc
  constructor
  · rintro rfl
    exact absurd hc (by decide)
  · rintro rfl
    exact absurd hc (by decide)

theorem pieces_of_notMem (h : '\n' ∉ s.toList) : pieces (· == '\n') s.toList = [s.toList] := by
  apply pieces_eq_singleton
  intro c hc
  exact beq_false_of_ne fun heq ↦ h (heq ▸ hc)

/-- What stands before a line feed is a line, without the carriage return at its end. -/
theorem lines_append_of_notMem (h : '\n' ∉ s.toList) (t : String) :
    lines (s ++ "\n" ++ t) = String.ofList (dropReturn s.toList) :: lines t := by
  have hpieces : pieces (· == '\n') (s ++ "\n" ++ t).toList =
      s.toList :: pieces (· == '\n') t.toList := by
    have hlist : (s ++ "\n" ++ t).toList = s.toList ++ '\n' :: t.toList := by simp
    rw [hlist, pieces_append_cons rfl, pieces_of_notMem h, List.singleton_append]
  have hne : pieces (· == '\n') t.toList ≠ [] := pieces_ne_nil _ _
  simp only [lines, hpieces, List.dropLast_cons_of_ne_nil hne, List.getLast?_cons_of_ne_nil hne,
    List.map_cons, List.cons_append]

theorem lines_append (hs : IsLine s) (t : String) : lines (s ++ "\n" ++ t) = s :: lines t := by
  have hreturn : dropReturn s.toList = s.toList := by
    rw [dropReturn, if_neg]
    intro hlast
    exact (hs '\r' (List.mem_of_getLast? hlast)).2 rfl
  rw [lines_append_of_notMem (fun h ↦ (hs _ h).1 rfl), hreturn, String.ofList_toList]

theorem lines_of_notMem (h : '\n' ∉ s.toList) (hne : s ≠ "") : lines s = [s] := by
  have hlist : s.toList.isEmpty = false := by simpa using hne
  simp [lines, pieces_of_notMem h, hlist]

theorem lines_of_isLine (hs : IsLine s) (hne : s ≠ "") : lines s = [s] :=
  lines_of_notMem (fun h ↦ (hs _ h).1 rfl) hne

theorem flatMap_lines (h : ∀ l ∈ ls, IsLine l ∧ l ≠ "") : ls.flatMap lines = ls := by
  induction ls with
  | nil => rfl
  | cons l ls ih =>
    obtain ⟨hl, hne⟩ := h l List.mem_cons_self
    have hls := ih fun s hs ↦ h s (List.mem_cons_of_mem l hs)
    rw [List.flatMap_cons, lines_of_isLine hl hne, hls, List.singleton_append]

theorem lines_join (h : ∀ l ∈ ls, IsLine l) :
    lines (String.join (ls.map (· ++ "\n"))) = ls := by
  induction ls with
  | nil => rfl
  | cons l ls ih =>
    have hl := h l List.mem_cons_self
    have hls := ih fun s hs ↦ h s (List.mem_cons_of_mem l hs)
    rw [List.map_cons, String.join_cons, lines_append hl, hls]

theorem join_eq_intercalate (ls : List String) :
    String.join (ls.map (· ++ "\n")) = "\n".intercalate (ls ++ [""]) := by
  induction ls with
  | nil => rfl
  | cons l ls ih =>
    rw [List.map_cons, String.join_cons, ih, List.cons_append,
      String.intercalate_cons_of_ne_nil (List.append_ne_nil_of_right_ne_nil ls (by simp))]

theorem flatMap_split (h : ∀ l ∈ ls, '\n' ∉ l.toList) : ls.flatMap (split '\n') = ls := by
  induction ls with
  | nil => rfl
  | cons l ls ih =>
    have hls := ih fun s hs ↦ h s (List.mem_cons_of_mem l hs)
    rw [List.flatMap_cons, split_eq_singleton (h l List.mem_cons_self), hls, List.singleton_append]

theorem split_newline (s t : String) : split '\n' (s ++ "\n" ++ t) = split '\n' s ++ split '\n' t :=
  split_append s t

theorem split_join_append (ls : List String) (t : String) :
    split '\n' (String.join (ls.map (· ++ "\n")) ++ t) =
      ls.flatMap (split '\n') ++ split '\n' t := by
  induction ls with
  | nil =>
    rw [List.map_nil, String.join_nil, String.empty_append, List.flatMap_nil, List.nil_append]
  | cons l ls ih =>
    rw [List.map_cons, String.join_cons, String.append_assoc, split_newline, ih, List.flatMap_cons,
      List.append_assoc]

theorem notMem_of_mem_lines {l : String} (h : l ∈ lines s) : '\n' ∉ l.toList := by
  have hpiece : ∀ p ∈ pieces (· == '\n') s.toList, '\n' ∉ p := by
    intro p hp hc
    exact absurd (not_sep_of_mem_pieces hp _ hc).1 (by decide)
  simp only [lines, List.mem_map, List.mem_append] at h
  obtain ⟨cs, hcs, rfl⟩ := h
  rw [String.toList_ofList]
  rcases hcs with ⟨p, hp, rfl⟩ | hcs
  · intro hc
    apply hpiece p (List.dropLast_subset _ hp)
    rw [dropReturn] at hc
    split at hc
    · exact List.dropLast_subset _ hc
    · exact hc
  · split at hcs
    · cases hcs
    · obtain rfl := List.mem_singleton.1 hcs
      rw [List.getLast?_eq_some_getLast (pieces_ne_nil _ _), Option.getD_some]
      exact hpiece _ (List.getLast_mem _)

theorem return_notMem_join (h : ∀ l ∈ ls, IsLine l) :
    '\r' ∉ (String.join (ls.map (· ++ "\n"))).toList := by
  induction ls with
  | nil => simp
  | cons l ls ih =>
    have hl := h l List.mem_cons_self
    have hls := ih fun s hs ↦ h s (List.mem_cons_of_mem l hs)
    rw [List.map_cons, String.join_cons, String.toList_append, String.toList_append,
      List.mem_append, List.mem_append, not_or, not_or]
    exact ⟨⟨fun hc ↦ (hl _ hc).2 rfl, by decide⟩, hls⟩

end Text

namespace CodeBuilder

variable (b : CodeBuilder) {ls : List String}

def addLines (ls : List String) : CodeBuilder :=
  { b with text := b.text ++ String.join (ls.map (b.margin ++ · ++ "\n")) }

theorem line_eq_addLines (s : String) : b.line s = b.addLines [s] := by
  simp [line, addLines, String.append_assoc]

theorem text_addLines_start (indent : Indent) (ls : List String) :
    (({ indent } : CodeBuilder).addLines ls).text = String.join (ls.map (· ++ "\n")) := by
  have hmargin : ({ indent } : CodeBuilder).margin = "" := rfl
  rw [addLines, hmargin]
  simp

theorem addLines_addLines (ls ls' : List String) :
    (b.addLines ls).addLines ls' = b.addLines (ls ++ ls') := by
  have hmargin : (b.addLines ls).margin = b.margin := rfl
  rw [addLines, hmargin]
  simp [addLines, String.append_assoc]

theorem each_line (ls : List String) : b.each ls line = b.addLines ls := by
  induction ls generalizing b with
  | nil => simp [each, addLines]
  | cons l ls ih =>
    rw [each, List.foldl_cons, ← each, ih, line_eq_addLines, addLines_addLines,
      List.singleton_append]

theorem margin_indented : b.indented.margin = b.margin ++ b.indent.text := by
  simp [margin, indented, List.replicate_succ']

theorem dedented_addLines_indented (ls : List String) :
    (b.indented.addLines ls).dedented = b.addLines (ls.map (b.indent.text ++ ·)) := by
  simp only [addLines, dedented, margin_indented, List.map_map, Function.comp_def,
    String.append_assoc]
  rfl

theorem block_eq_addLines {body : CodeBuilder → CodeBuilder} (opening closing : String)
    (h : ∀ b' : CodeBuilder, b'.indent = b.indent → body b' = b'.addLines ls) :
    b.block opening closing body =
      b.addLines (opening :: ls.map (b.indent.text ++ ·) ++ [closing]) := by
  have hindent : (b.addLines [opening]).indent = b.indent := rfl
  have hbody := h (b.addLines [opening]).indented rfl
  rw [block, line_eq_addLines, line_eq_addLines, hbody, dedented_addLines_indented,
    addLines_addLines, addLines_addLines, hindent, List.singleton_append, List.cons_append]

section Outermost

variable {b} (h : b.level = 0)

include h

theorem margin_of_level_eq_zero : b.margin = "" := by
  rw [margin, h]
  rfl

theorem blank_eq_addLines : b.blank = b.addLines [""] := by
  simp [blank, addLines, margin_of_level_eq_zero h]

theorem each_eq_addLines {α : Type} {body : CodeBuilder → α → CodeBuilder} {text : α → List String}
    (hbody : ∀ b' : CodeBuilder, b'.level = 0 → ∀ item, body b' item = b'.addLines (text item))
    (items : List α) : b.each items body = b.addLines (items.flatMap text) := by
  induction items generalizing b with
  | nil => simp [each, addLines]
  | cons item items ih =>
    have hnext : (b.addLines (text item)).level = 0 := h
    rw [each, List.foldl_cons, ← each, hbody b h, ih hnext, addLines_addLines, List.flatMap_cons]

theorem paragraph_eq_addLines (s : String) : b.paragraph s = b.addLines (Text.lines s) := by
  have hline : ∀ b' : CodeBuilder, b'.level = 0 → ∀ l : String,
      (if l.isEmpty then b'.blank else b'.line l) = b'.addLines [l] := by
    intro b' hb' l
    split
    · rename_i hl
      rw [String.isEmpty_iff.1 hl, blank_eq_addLines hb']
    · exact b'.line_eq_addLines l
  have heach := each_eq_addLines h hline (Text.lines s)
  rwa [List.flatMap_singleton'] at heach

end Outermost

end CodeBuilder

end PairedSource
