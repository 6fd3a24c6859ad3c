import PairedSource.Proofs.Text.Search
import PairedSource.Proofs.Toml.Built
import PairedSource.Toml.Decode

namespace PairedSource

open Except

namespace Toml

variable {s : List Char} {token first : Token} {tokens rest : List Token}

variable (s) in
def Lexeme.StandsIn (lexeme : Lexeme) : Prop :=
  lexeme.style = none ∧ lexeme.text = [] ∨ Text.Occurs s lexeme.text lexeme.span

/-- Tokens that start one where the last one ends. -/
def LaidOut : Nat → List Token → Prop
  | _, [] => True
  | offset, token :: tokens =>
    token.offset = offset ∧ LaidOut (offset + Text.byteLength token.text) tokens

variable (s tokens) in
def IsEndOf : Prop :=
  ∃ before, s = before ++ tokens.flatMap Token.text ∧ LaidOut (Text.byteLength before) tokens

theorem laidOut_scan (offset : Nat) (cs : List Char) : LaidOut offset (Token.scan offset cs) := by
  fun_induction Token.scan offset cs with
  | case1 => trivial
  | case2 offset c cs kind length _ text ih => exact ⟨rfl, ih⟩

theorem isEndOf_scan {before cs : List Char} (h : s = before ++ cs) :
    IsEndOf s (Token.scan (Text.byteLength before) cs) :=
  ⟨before, by rw [Token.flatMap_scan, h], laidOut_scan _ _⟩

namespace IsEndOf

theorem tail (h : IsEndOf s (token :: tokens)) : IsEndOf s tokens := by
  obtain ⟨before, hs, -, hlaid⟩ := h
  exact ⟨before ++ token.text, by rw [hs, List.flatMap_cons, List.append_assoc],
    by rwa [Text.byteLength_append]⟩

theorem of_suffix (hsuffix : rest <:+ tokens) (h : IsEndOf s tokens) : IsEndOf s rest := by
  obtain ⟨front, rfl⟩ := hsuffix
  induction front with
  | nil => exact h
  | cons token front ih => exact ih h.tail

theorem occurs (h : IsEndOf s (first :: tokens)) (n : Nat) :
    Text.Occurs s (first.text ++ (tokens.take n).flatMap Token.text)
      ⟨first.offset, Text.byteLength (first.text ++ (tokens.take n).flatMap Token.text)⟩ := by
  obtain ⟨before, hs, hoffset, -⟩ := h
  refine ⟨before, (tokens.drop n).flatMap Token.text, ?_, by rw [hoffset]⟩
  rw [hs, List.flatMap_cons, ← List.take_append_drop n tokens, List.flatMap_append]
  simp

theorem standsIn (h : IsEndOf s (first :: tokens)) : first.lexeme.StandsIn s := by
  have hoccurs := h.occurs 0
  rw [List.take_zero, List.flatMap_nil, List.append_nil] at hoccurs
  exact .inr hoccurs

end IsEndOf

namespace Statement

variable {wanted isArray : Bool} {path : KeyPath} {opening : Token} {room : Nat}

theorem standsIn_missing (tokens : List Token) : (missing tokens).StandsIn s :=
  .inl ⟨rfl, rfl⟩

section Rest

theorem skipBlank_suffix (tokens : List Token) : (skipBlank tokens).rest <:+ tokens :=
  List.dropWhile_suffix _

theorem moreKeys_suffix (wanted : Bool) (tokens : List Token) :
    (moreKeys wanted tokens).rest <:+ tokens := by
  induction tokens generalizing wanted with
  | nil => exact List.suffix_refl _
  | cons token tokens ih =>
    have hcons := List.suffix_cons token tokens
    rw [moreKeys]
    split
    · exact (ih wanted).trans hcons
    · split
      · dsimp only
        split <;> exact (ih true).trans hcons
      · split
        · exact (ih false).trans hcons
        · exact List.suffix_refl _

theorem keyPath_suffix (first : Token) (tokens : List Token) :
    (keyPath first tokens).rest <:+ tokens := by
  unfold keyPath
  split <;> exact moreKeys_suffix _ _

theorem headerPath_suffix (tokens : List Token) : (headerPath tokens).rest <:+ tokens := by
  have hblank := skipBlank_suffix tokens
  unfold headerPath
  split
  · rename_i token rest _ heq
    rw [heq] at hblank
    split
    · exact (keyPath_suffix token rest).trans ((List.suffix_cons _ _).trans hblank)
    · exact hblank
  · rename_i heq
    rwa [heq] at hblank

theorem lineEnd_suffix (tokens : List Token) :
    Yields (fun p : Parsed Unit tokens ↦ p.rest <:+ tokens) (lineEnd tokens) := by
  induction tokens with
  | nil => exact .ok (List.suffix_refl _)
  | cons token tokens ih =>
    have hcons := List.suffix_cons token tokens
    rw [lineEnd]
    split
    · exact ih.map fun _ h ↦ h.trans hcons
    · exact ih.map fun _ h ↦ h.trans hcons
    · exact .ok hcons
    · exact .error _

theorem headerEnd_suffix (isArray : Bool) (tokens : List Token) :
    Yields (fun p : Parsed Span tokens ↦ p.rest <:+ tokens) (headerEnd isArray tokens) := by
  unfold headerEnd
  split
  · rename_i first second tokens
    split
    · split
      · exact .ok ((List.suffix_cons _ _).trans (List.suffix_cons _ _))
      · exact .error _
    · split
      · exact .ok (List.suffix_cons _ _)
      · exact .error _
  · split
    · exact .error _
    · split
      · exact .ok (List.suffix_cons _ _)
      · exact .error _
  · exact .error _

end Rest

variable (s) in
/-- What was read has its scalars where they stand, and what is left is the end of the text. -/
structure IsSound (parsed : Parsed Written tokens) : Prop where
  each : parsed.value.Each (Lexeme.StandsIn s)
  rest : IsEndOf s parsed.rest

variable {parsed : Parsed Written tokens} {items : List Written} {n : Nat}
  {entries : List (KeyPath × Written)} {comma : Bool}

theorem isSound_scalar (h : IsEndOf s (first :: tokens)) : IsSound s (scalar first tokens) := by
  unfold scalar
  split
  · exact ⟨.scalar _ (.inr (h.occurs _)), h.tail.of_suffix (List.drop_suffix _ _)⟩
  · exact ⟨.scalar _ h.standsIn, h.tail⟩

variable (s n) in
def ValuesAreSound : Prop :=
  ∀ room first (tokens : List Token), tokens.length < n → IsEndOf s (first :: tokens) →
    Yields (IsSound s) (value room first tokens)

theorem isSound_arrayItems (hvalues : ValuesAreSound s n) (hn : tokens.length ≤ n)
    (h : IsEndOf s tokens) (hitems : ∀ item ∈ items, item.Each (Lexeme.StandsIn s)) :
    Yields (IsSound s) (arrayItems room opening items comma tokens) := by
  induction hlength : tokens.length using Nat.strongRecOn generalizing tokens items comma with
  | ind k ih =>
    cases tokens with
    | nil =>
      rw [arrayItems]
      exact .error _
    | cons token tokens =>
      rw [List.length_cons] at hn hlength
      have hgo : ∀ comma, Yields (IsSound s)
          ((arrayItems room opening items comma tokens).map (Parsed.after token)) := fun comma ↦
        (ih _ (by omega) (by omega) h.tail hitems rfl).map fun _ hp ↦ ⟨hp.each, hp.rest⟩
      rw [arrayItems]
      split
      · exact hgo comma
      · split
        · split
          · exact hgo false
          · exact .error _
        · exact .error _
        · refine .ok ⟨.array _ _ fun item hitem ↦ hitems item (List.mem_reverse.1 hitem), h.tail⟩
        · split
          · exact .error _
          · refine .bind fun item hitem ↦ .bind fun closed hclosed ↦ .ok ?_
            have hitem := hvalues room token tokens (by omega) h item hitem
            have hrest := item.length_rest_le
            have hclosed := ih _ (by omega) (by omega) hitem.rest (by
              intro other hother
              rcases List.mem_cons.1 hother with rfl | hother
              · exact hitem.each
              · exact hitems other hother) rfl closed hclosed
            exact ⟨hclosed.each, hclosed.rest⟩

theorem isSound_tableEntries {expecting : Expecting} (hvalues : ValuesAreSound s n)
    (hn : tokens.length ≤ n) (h : IsEndOf s tokens)
    (hentries : ∀ entry ∈ entries, entry.2.Each (Lexeme.StandsIn s)) :
    Yields (IsSound s) (tableEntries room opening entries expecting tokens) := by
  induction hlength : tokens.length using Nat.strongRecOn
    generalizing tokens entries expecting with
  | ind k ih =>
    cases tokens with
    | nil =>
      rw [tableEntries]
      exact .error _
    | cons token tokens =>
      rw [List.length_cons] at hn hlength
      have hgo : ∀ expecting, Yields (IsSound s)
          ((tableEntries room opening entries expecting tokens).map (Parsed.after token)) :=
        fun expecting ↦
          (ih _ (by omega) (by omega) h.tail hentries rfl).map fun _ hp ↦ ⟨hp.each, hp.rest⟩
      have hdone : ∀ entry ∈ entries.reverse, entry.2.Each (Lexeme.StandsIn s) :=
        fun entry hentry ↦ hentries entry (List.mem_reverse.1 hentry)
      rw [tableEntries.eq_def]
      dsimp only
      split
      · exact hgo expecting
      · -- Only a closing brace, a key and a value are more than an error or a state to go on with.
        split
        any_goals exact .error _
        any_goals exact hgo _
        · exact .ok ⟨.table _ _ hdone, h.tail⟩
        · exact .ok ⟨.table _ _ hdone, h.tail⟩
        · have hkey := keyPath_suffix token tokens
          have hrest := (keyPath token tokens).length_rest_le
          exact (ih _ (by omega) (by omega) (h.tail.of_suffix hkey) hentries rfl).map
            fun _ hp ↦ ⟨hp.each, hp.rest⟩
        · refine .bind fun item hitem ↦ .bind fun closed hclosed ↦ .ok ?_
          have hitem := hvalues room token tokens (by omega) h item hitem
          have hrest := item.length_rest_le
          have hclosed := ih _ (by omega) (by omega) hitem.rest (by
            intro other hother
            rcases List.mem_cons.1 hother with rfl | hother
            · exact hitem.each
            · exact hentries other hother) rfl closed hclosed
          exact ⟨hclosed.each, hclosed.rest⟩

theorem valuesAreSound (n : Nat) : ValuesAreSound s n := by
  induction n with
  | zero => exact fun _ _ _ h ↦ absurd h (Nat.not_lt_zero _)
  | succ n ih =>
    intro room first tokens hn h
    have hn := Nat.le_of_lt_succ hn
    rw [value.eq_def]
    split
    · exact .error _
    · exact .error _
    · exact .error _
    · split
      · exact .error _
      · exact isSound_arrayItems ih hn h.tail fun _ h ↦ absurd h List.not_mem_nil
    · split
      · exact .error _
      · exact isSound_tableEntries ih hn h.tail fun _ h ↦ absurd h List.not_mem_nil
    · exact .ok (isSound_scalar h)

theorem isSound_assigned (h : IsEndOf s tokens) : Yields (IsSound s) (assigned tokens) := by
  unfold assigned
  split
  · exact .ok ⟨.scalar _ (standsIn_missing _), h⟩
  · split
    · exact .ok ⟨.scalar _ (standsIn_missing _), h⟩
    · exact (valuesAreSound _ _ _ _ (Nat.lt_succ_self _) h).map fun _ hp ↦ ⟨hp.each, hp.rest⟩

variable (s) in
structure IsSoundLine (parsed : Parsed Statement tokens) : Prop where
  each : parsed.value.Each (Lexeme.StandsIn s)
  rest : IsEndOf s parsed.rest

theorem isSoundLine_assignedLine (h : IsEndOf s tokens) :
    Yields (IsSoundLine s) (assignedLine path tokens) := by
  refine .bind fun value hvalue ↦ .bind fun ended hended ↦ .ok ?_
  have hvalue := isSound_assigned (h.of_suffix (skipBlank_suffix tokens)) value hvalue
  exact ⟨hvalue.each, hvalue.rest.of_suffix (lineEnd_suffix _ ended hended)⟩

theorem isSoundLine_assignmentLine (h : IsEndOf s tokens) :
    Yields (IsSoundLine s) (assignmentLine path tokens) := by
  unfold assignmentLine
  split
  · exact .error _
  · split
    · exact (isSoundLine_assignedLine h.tail).map fun _ hp ↦ ⟨hp.each, hp.rest⟩
    · exact .error _

theorem isSoundLine_headerLine (h : IsEndOf s tokens) :
    Yields (IsSoundLine s) (headerLine opening isArray tokens) := by
  refine .bind fun closing hclosing ↦ .bind fun ended hended ↦ .ok ⟨?_, ?_⟩
  · cases isArray <;> trivial
  · exact h.of_suffix ((lineEnd_suffix _ ended hended).trans
      ((headerEnd_suffix _ _ closing hclosing).trans
        ((skipBlank_suffix _).trans (headerPath_suffix _))))

theorem isSoundLine_line (h : IsEndOf s (first :: tokens)) :
    Yields (IsSoundLine s) (line first tokens) := by
  unfold line
  split
  · split
    · split
      · exact (isSoundLine_headerLine h.tail.tail).map fun _ hp ↦ ⟨hp.each, hp.rest⟩
      · exact isSoundLine_headerLine h.tail
    · exact isSoundLine_headerLine h.tail
  · exact .error _
  · exact .error _
  · exact .error _
  · exact .error _
  · exact isSoundLine_assignedLine h.tail
  · refine .bind fun read hread ↦ .ok ?_
    have hrest := h.tail.of_suffix (keyPath_suffix first tokens)
    have hread := isSoundLine_assignmentLine hrest read hread
    exact ⟨hread.each, hread.rest⟩

theorem each_readAll (h : IsEndOf s tokens) :
    Yields (fun statements ↦ ∀ statement ∈ statements, statement.Each (Lexeme.StandsIn s))
      (readAll tokens) := by
  fun_induction readAll tokens with
  | case1 => exact .ok fun _ h ↦ absurd h List.not_mem_nil
  | case2 token tokens _ ih => exact ih h.tail
  | case3 token tokens _ e => exact .error e
  | case4 token tokens _ statement rest hle hline ih =>
    have hfirst := isSoundLine_line h _ hline
    refine (ih hfirst.rest).map fun statements hstatements other hother ↦ ?_
    rcases List.mem_cons.1 hother with rfl | hother
    · exact hfirst.each
    · exact hstatements other hother

end Statement

theorem Document.exists_append_dropMark (cs : List Char) :
    ∃ before, cs = before ++ (dropMark cs).2 ∧ (dropMark cs).1 = Text.byteLength before := by
  unfold dropMark
  split
  · exact ⟨['\ufeff'], rfl, rfl⟩
  · exact ⟨[], rfl, rfl⟩

/-- The values of a document were read from the text where their spans say that they stand, and no
table of it has a key twice. -/
theorem Document.built_read {text : String} {document : Document}
    (h : Document.read text = .ok document) :
    document.root.Built (Lexeme.StandsIn text.toList) := by
  obtain ⟨before, htext, hoffset⟩ := exists_append_dropMark text.toList
  rw [Document.read] at h
  dsimp only at h
  rw [hoffset] at h
  split at h
  · cases h
  · simp only [bind_eq_ok_iff] at h
    obtain ⟨statements, hstatements, progress, hprogress, h⟩ := h
    obtain rfl := Except.ok.inj h
    exact built_foldlM (Statement.each_readAll (isEndOf_scan htext) statements hstatements)
      progress hprogress

theorem decode_eq_ok_iff {α : Type} {source : SourceText} {reader : Table → Typed α} {a : α} :
    decode source reader = .ok a ↔
      ∃ document, Document.read source.text = .ok document ∧ reader document.root = .ok a := by
  unfold decode
  cases Document.read source.text with
  | error e => simp
  | ok document =>
    dsimp only
    cases hreader : reader document.root <;> simp [hreader]

end Toml

end PairedSource
