import PairedSource.Proofs.Except
import PairedSource.Proofs.Pointwise
import PairedSource.Toml.Document

namespace PairedSource.Toml

open Except

variable {s : String} {c : Char} {cs : List Char} {token : Token} {tokens : List Token}
  {path : KeyPath} {statement : Statement} {statements : List Statement}

def Lexeme.IsNoKey (lexeme : Lexeme) : Prop :=
  ∀ key, lexeme.key ≠ .ok key

theorem Lexeme.isNoKey_of_head (hstyle : token.style? = none) (htext : token.text = c :: cs)
    (hc : Lexeme.isBareKeyChar c = false) : token.lexeme.IsNoKey := by
  intro key h
  have hkey : token.lexeme.key = .error .invalidBareKey := by
    simp [Lexeme.key, Token.lexeme, hstyle, htext, hc]
  rw [hkey] at h
  cases h

theorem Document.keys_ne_ok {lexeme : Lexeme} (hmem : lexeme ∈ path.parents ++ [path.last])
    (h : lexeme.IsNoKey) (found : List Key × Key) : Document.keys path ≠ .ok found := by
  intro hkeys
  unfold Document.keys at hkeys
  split at hkeys
  · cases hkeys
  · simp only [bind_eq_ok_iff] at hkeys
    obtain ⟨parents, hparents, last, hlast, -⟩ := hkeys
    rcases List.mem_append.1 hmem with hmem | hmem
    · obtain ⟨key, -, hkey⟩ := (mapM_eq_ok_iff.1 hparents).exists_of_mem_left hmem
      exact h key hkey
    · rw [List.mem_singleton.1 hmem] at h
      exact h last hlast

namespace Statement

theorem lexeme_mem_keyPath (h : token.kind = .atom) :
    token.lexeme ∈ (keyPath token tokens).value.parents ++ [(keyPath token tokens).value.last] := by
  have hdot : token.kind ≠ .dot := by simp [h]
  rw [keyPath, if_neg hdot]
  simp only [Parsed.map, ofKeys, List.dropLast_append_getLast, List.mem_cons_self]

theorem exists_written_of_assignmentLine {parsed : Parsed Statement tokens}
    (h : assignmentLine path tokens = .ok parsed) :
    ∃ written, parsed.value = .assignment path written := by
  cases tokens with
  | nil => cases h
  | cons token tokens =>
    rw [assignmentLine] at h
    split at h
    · obtain ⟨read, hread, rfl⟩ := map_eq_ok_iff.1 h
      simp only [assignedLine, bind_eq_ok_iff] at hread
      obtain ⟨value, -, ended, -, hread⟩ := hread
      obtain rfl := Except.ok.inj hread
      exact ⟨value.value, rfl⟩
    · cases h

theorem exists_written_of_line {parsed : Parsed Statement tokens} (h : token.kind = .atom)
    (hline : line token tokens = .ok parsed) :
    ∃ written, parsed.value = .assignment (keyPath token tokens).value written := by
  simp only [line, h, bind_eq_ok_iff] at hline
  obtain ⟨read, hread, hparsed⟩ := hline
  obtain rfl := Except.ok.inj hparsed
  obtain ⟨written, hwritten⟩ := exists_written_of_assignmentLine hread
  exact ⟨written, hwritten⟩

theorem exists_written_of_readAll (h : token.kind = .atom)
    (hread : readAll (token :: tokens) = .ok statements) :
    ∃ written rest, statements = .assignment (keyPath token tokens).value written :: rest := by
  have hfiller : token.isFiller = false := by simp [Token.isFiller, h]
  rw [readAll, hfiller, if_neg Bool.false_ne_true] at hread
  split at hread
  · cases hread
  · rename_i statement rest _ hline
    obtain ⟨others, -, rfl⟩ := map_eq_ok_iff.1 hread
    obtain ⟨written, hwritten⟩ := exists_written_of_line h hline
    exact ⟨written, others, by rw [← hwritten]⟩

end Statement

/-- A document does not start with a character that no key has. -/
theorem Document.exists_error_of_head (hs : s.toList = c :: cs)
    (hatom : (Token.classify c cs).1 = .atom) (hkey : Lexeme.isBareKeyChar c = false)
    (hmark : c ≠ '\ufeff') : ∃ e, Document.read s = .error e := by
  have hdrop : dropMark s.toList = (0, c :: cs) := by
    rw [hs]
    unfold dropMark
    split
    · rename_i heq
      exact absurd (List.cons.inj heq).1 hmark
    · rfl
  cases hread : Document.read s with
  | error e => exact ⟨e, rfl⟩
  | ok document =>
    rw [Document.read, hdrop] at hread
    simp only [Token.scan] at hread
    split at hread
    · cases hread
    · simp only [bind_eq_ok_iff] at hread
      obtain ⟨statements, hstatements, progress, hprogress, -⟩ := hread
      obtain ⟨written, rest, rfl⟩ := Statement.exists_written_of_readAll hatom hstatements
      rw [List.foldlM_cons, bind_eq_ok_iff] at hprogress
      obtain ⟨first, hfirst, -⟩ := hprogress
      simp only [Progress.step, bind_eq_ok_iff] at hfirst
      obtain ⟨found, hfound, -⟩ := hfirst
      have hstyle : ∀ text, (Token.mk (Token.classify c cs).1 text 0).style? = none := by
        intro text
        rw [Token.style?, hatom]
      exact absurd hfound (keys_ne_ok (Statement.lexeme_mem_keyPath hatom)
        (Lexeme.isNoKey_of_head (hstyle _) rfl hkey) found)

end PairedSource.Toml
