import PairedSource.Proofs.CodeBuilder.Program
import PairedSource.Proofs.Text.Lines

namespace PairedSource

namespace Text

variable {margin : String} {ls : List String}

def shiftLine (margin l : String) : String :=
  if l.isEmpty then l else margin ++ l

/-- A text with a margin in front of each of its lines that is not empty. -/
def shift (margin s : String) : String :=
  "\n".intercalate ((split '\n' s).map (shiftLine margin))

theorem shift_join (h : ∀ l ∈ ls, '\n' ∉ l.toList) :
    shift margin (String.join (ls.map (· ++ "\n"))) =
      String.join ((ls.map (shiftLine margin)).map (· ++ "\n")) := by
  have hsplit := split_join_append ls ""
  rw [String.append_empty, flatMap_split h] at hsplit
  rw [shift, hsplit, join_eq_intercalate, List.map_append]
  rfl

theorem join_concat (ls : List String) (l : String) :
    String.join ((ls ++ [l]).map (· ++ "\n")) =
      String.join (ls.map (· ++ "\n")) ++ (l ++ "\n") := by
  rw [List.map_append, String.join_append, List.map_singleton, String.join_cons, String.join_nil,
    String.append_empty]

end Text

open Text

theorem Indent.notMem_text (indent : Indent) : '\n' ∉ indent.text.toList := by
  unfold Indent.text
  split <;> decide

def Indent.steps (indent : Indent) (count : Nat) : String :=
  String.join (List.replicate count indent.text)

theorem Indent.steps_add (indent : Indent) (m n : Nat) :
    indent.steps (m + n) = indent.steps m ++ indent.steps n := by
  rw [steps, ← List.replicate_append_replicate, String.join_append]
  rfl

theorem Indent.notMem_steps (indent : Indent) (count : Nat) :
    '\n' ∉ (indent.steps count).toList := by
  rw [steps, String.toList_join, List.mem_flatMap]
  rintro ⟨l, hl, hc⟩
  rw [List.eq_of_mem_replicate hl] at hc
  exact indent.notMem_text hc

namespace CodeBuilder

variable {α : Type} {b c : CodeBuilder} {indent : Indent} {count : Nat} {before l : String}

theorem margin_eq (b : CodeBuilder) : b.margin = b.indent.steps b.level := rfl

variable (indent count before) in
/-- One builder writes what another one does, some steps further to the right and behind a text that
was there before. -/
structure Follows (b c : CodeBuilder) : Prop where
  left : b.indent = indent
  right : c.indent = indent
  level : b.level = count + c.level
  text : ∃ ls : List String, (∀ l ∈ ls, '\n' ∉ l.toList) ∧
    c.text = String.join (ls.map (· ++ "\n")) ∧
    b.text = before ++ String.join ((ls.map (shiftLine (indent.steps count))).map (· ++ "\n"))

namespace Follows

theorem start (b : CodeBuilder) :
    Follows b.indent b.level b.text b { indent := b.indent } :=
  ⟨rfl, rfl, rfl, [], by simp, rfl, by simp⟩

variable (h : Follows indent count before b c)

include h

theorem margin_eq : b.margin = indent.steps count ++ c.margin := by
  rw [CodeBuilder.margin_eq, h.level, Indent.steps_add, c.margin_eq, h.left, h.right]

theorem append (hl : '\n' ∉ l.toList) : Follows indent count before
    { b with text := b.text ++ (shiftLine (indent.steps count) l ++ "\n") }
    { c with text := c.text ++ (l ++ "\n") } := by
  obtain ⟨ls, hls, hc, hb⟩ := h.text
  refine ⟨h.left, h.right, h.level, ls ++ [l], ?_, ?_, ?_⟩
  · intro l' hl'
    rw [List.mem_append, List.mem_singleton] at hl'
    exact hl'.elim (hls l') (· ▸ hl)
  · rw [join_concat, hc]
  · rw [List.map_append, List.map_singleton, join_concat, hb, String.append_assoc]

theorem line (hl : Program.IsPlain l) : Follows indent count before (b.line l) (c.line l) := by
  have hline : '\n' ∉ (c.margin ++ l).toList := by
    rw [String.toList_append, List.mem_append, not_or]
    exact ⟨c.indent.notMem_steps c.level, hl.2⟩
  have hne : (c.margin ++ l).isEmpty = false := by simp [hl.1]
  have happend := h.append hline
  rw [shiftLine, hne, if_neg Bool.false_ne_true] at happend
  simpa only [CodeBuilder.line, h.margin_eq, String.append_assoc] using happend

theorem blank : Follows indent count before b.blank c.blank :=
  h.append (l := "") (by simp)

theorem indented : Follows indent count before b.indented c.indented :=
  ⟨h.left, h.right, by rw [CodeBuilder.indented, h.level]; rfl, h.text⟩

theorem dedented (hlevel : 0 < c.level) : Follows indent count before b.dedented c.dedented := by
  refine ⟨h.left, h.right, ?_, h.text⟩
  rw [CodeBuilder.dedented, CodeBuilder.dedented, h.level]
  exact Nat.add_sub_assoc hlevel count

theorem each {body : CodeBuilder → α → CodeBuilder} (drift : α → Drift) {items : List α}
    (hlevel : ∀ b item, (body b item).level = (drift item).apply b.level)
    (hbody : ∀ item ∈ items, ∀ {b c}, Follows indent count before b c →
      (drift item).left ≤ c.level → Follows indent count before (body b item) (body c item))
    (hleft : (Drift.all (items.map drift)).left ≤ c.level) :
    Follows indent count before (b.each items body) (c.each items body) := by
  induction items generalizing b c with
  | nil => exact h
  | cons item items ih =>
    rw [List.map_cons, Drift.all_cons, Drift.andThen] at hleft
    dsimp only at hleft
    have hitem := hbody item List.mem_cons_self h (by omega)
    refine ih hitem (fun item' hitem' ↦ hbody item' (List.mem_cons_of_mem item hitem')) ?_
    rw [hlevel, Drift.apply]
    omega

theorem paragraph (s : String) : Follows indent count before (b.paragraph s) (c.paragraph s) := by
  refine h.each (fun _ ↦ .none) ?_ ?_ ?_
  · intro b l
    split <;> rfl
  · intro l hl b c hfollows _
    split
    · exact hfollows.blank
    · rename_i hne
      exact hfollows.line ⟨by simpa using hne, notMem_of_mem_lines hl⟩
  · rw [Drift.all_none]
    exact Nat.zero_le _

/-- The induction goes with the level: what is left of the steps to the left must fit in it. -/
theorem run {p : Program} (hlines : p.HasPlainLines) (hleft : p.drift.left ≤ c.level) :
    Follows indent count before (p.run b) (p.run c) := by
  induction p generalizing b c with
  | done => exact h
  | line s => exact h.line hlines
  | blank => exact h.blank
  | text s => exact h.paragraph s
  | comment leader s =>
    have hline : Program.IsPlain (if s.isEmpty then leader else leader ++ " " ++ s) := by
      obtain ⟨⟨hne, hleader⟩, hs⟩ := hlines
      split
      · exact ⟨hne, hleader⟩
      · exact ⟨by simp, by simp [hleader, hs]⟩
    exact h.line hline
  | indent => exact h.indented
  | dedent => exact h.dedented hleft
  | andThen first second hfirst hsecond =>
    simp only [Program.drift, Drift.andThen] at hleft
    refine hsecond (hfirst h hlines.1 (by omega)) hlines.2 ?_
    rw [level_run, Drift.apply]
    omega
  | when condition body ih =>
    cases condition with
    | true => exact ih h (hlines rfl) hleft
    | false => exact h
  | each items body ih =>
    exact h.each _ (fun b item ↦ level_run (body item) b)
      (fun item hitem _ _ hfollows ↦ ih item hfollows (hlines item hitem)) hleft
  | block opening closing body ih =>
    obtain ⟨hopening, hclosing, hbody⟩ := hlines
    simp only [Program.drift, Drift.andThen] at hleft
    have hstart : ((c.line opening).indented).level = c.level + 1 := rfl
    have hinner := ih (h.line hopening).indented hbody (by omega)
    refine (hinner.dedented ?_).line hclosing
    rw [level_run, hstart, Drift.apply]
    omega

end Follows

namespace Program

variable {p : Program}

def output (indent : Indent) (p : Program) : String :=
  (p.run { indent }).text

theorem IsBalanced.level_run (h : p.IsBalanced) (b : CodeBuilder) : (p.run b).level = b.level := by
  rw [CodeBuilder.level_run, h, Drift.apply_none]

theorem IsBalanced.follows (h : p.IsBalanced) (hlines : p.HasPlainLines) (b : CodeBuilder) :
    Follows b.indent b.level b.text (p.run b) (p.run { indent := b.indent }) :=
  (Follows.start b).run hlines (by rw [h]; exact Nat.zero_le _)

theorem IsBalanced.text_run (h : p.IsBalanced) (hlines : p.HasPlainLines) (b : CodeBuilder) :
    (p.run b).text = b.text ++ shift (b.indent.steps b.level) (p.output b.indent) := by
  obtain ⟨ls, hls, houtput, htext⟩ := (h.follows hlines b).text
  rw [output, houtput, shift_join hls, htext]

/-- A balanced program at some level writes what it writes at the outermost one, with one step of
indentation for each level in front of every line that is not empty, and gets back to its level.
Programs after each other write one text after the other. A program that is not balanced stops at
the outermost level on its way to the left. -/
theorem run_at_level (b : CodeBuilder) :
    (∀ p : Program, p.IsBalanced → p.HasPlainLines →
      (p.run b).level = b.level ∧ (p.run b).indent = b.indent ∧
        (p.run b).text = b.text ++ shift (b.indent.steps b.level) (p.output b.indent)) ∧
    (∀ p q : Program, p.IsBalanced → p.HasPlainLines → q.IsBalanced → q.HasPlainLines →
      ((p.andThen q).run b).text =
        b.text ++ (shift (b.indent.steps b.level) (p.output b.indent) ++
          shift (b.indent.steps b.level) (q.output b.indent))) ∧
    ∀ p : Program,
      ((p.run b).level : Int) = max (b.level - p.drift.left : Int) 0 + p.drift.right := by
  refine ⟨fun p h hlines ↦ ⟨h.level_run b, (h.follows hlines b).left, h.text_run hlines b⟩, ?_, ?_⟩
  · intro p q hp hplines hq hqlines
    rw [run, hq.text_run hqlines, hp.text_run hplines, hp.level_run, (hp.follows hplines b).left,
      String.append_assoc]
  · intro p
    rw [CodeBuilder.level_run, Drift.apply]
    omega

def listing : Program :=
  .block "begin" "end" (.andThen (.andThen (.comment "//" "") .indent)
    (.andThen (.text "a\n\nb") (.andThen .dedent (.each ["x", "y"] .line))))

def inset : CodeBuilder where
  indent := .tab
  level := 2
  text := "notes\n"

theorem run_at_level_listing : listing.IsBalanced ∧ listing.HasPlainLines ∧
    (listing.run inset).level = 2 ∧
    (listing.run inset).text = "notes\n" ++ shift "\t\t" (listing.output .tab) ∧
    ((listing.andThen listing).run inset).text = "notes\n" ++
      (shift "\t\t" (listing.output .tab) ++ shift "\t\t" (listing.output .tab)) := by
  have hbalanced : listing.IsBalanced := by decide
  have hlines : listing.HasPlainLines := by simp [listing, HasPlainLines, IsPlain]
  have hmargin : inset.indent.steps inset.level = "\t\t" := by decide
  obtain ⟨hone, htwo, -⟩ := run_at_level inset
  rw [hmargin] at hone htwo
  obtain ⟨hlevel, -, htext⟩ := hone listing hbalanced hlines
  exact ⟨hbalanced, hlines, hlevel, htext, htwo listing listing hbalanced hlines hbalanced hlines⟩

example : shift "\t\t" (listing.output .tab) =
    "\t\tbegin\n\t\t\t//\n\t\t\t\ta\n\n\t\t\t\tb\n\t\t\tx\n\t\t\ty\n\t\tend\n" := by
  decide

end Program

end CodeBuilder

end PairedSource
