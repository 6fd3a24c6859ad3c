import PairedSource.Assembly
import PairedSource.Proofs.Text.Lines

namespace PairedSource.Assembly

open CodeBuilder

def declarationLines (fragments : List String) : List String :=
  "" :: fragments.flatMap Text.lines ++ if fragments.isEmpty then [] else [""]

def definitionLines (fragments : List String) : List String :=
  "" :: fragments.flatMap (Text.lines · ++ [""])

theorem declarationBody_eq (language : Language) (name : String) (fragments : List String) :
    declarationBody language name fragments =
      String.join ((language.openDeclaration name :: declarationLines fragments ++
        [language.closeDeclaration name]).map (· ++ "\n")) := by
  rw [← text_addLines_start language.indent]
  have hstart : ∀ ls, (({ indent := language.indent } : CodeBuilder).addLines ls).level = 0 :=
    fun _ ↦ rfl
  simp only [declarationBody, line_eq_addLines]
  rw [blank_eq_addLines (hstart _), addLines_addLines,
    each_eq_addLines (hstart _) (fun _ h ↦ paragraph_eq_addLines h), addLines_addLines, when]
  cases fragments with
  | nil => rw [List.isEmpty_nil, Bool.not_true, if_neg (by decide), addLines_addLines]; rfl
  | cons fragment fragments =>
    rw [List.isEmpty_cons, Bool.not_false, if_pos rfl, blank_eq_addLines (hstart _),
      addLines_addLines, addLines_addLines]
    simp [declarationLines]

theorem definitionBody_eq (language : Language) (name : String) (fragments : List String) :
    definitionBody language name fragments =
      String.join ((language.openDefinition name :: definitionLines fragments ++
        [language.closeDefinition name]).map (· ++ "\n")) := by
  rw [← text_addLines_start language.indent]
  have hstart : ∀ ls, (({ indent := language.indent } : CodeBuilder).addLines ls).level = 0 :=
    fun _ ↦ rfl
  have hbody : ∀ b : CodeBuilder, b.level = 0 → ∀ fragment : String,
      (b.paragraph fragment).blank = b.addLines (Text.lines fragment ++ [""]) := by
    intro b hb fragment
    have hlevel : (b.addLines (Text.lines fragment)).level = 0 := hb
    rw [paragraph_eq_addLines hb, blank_eq_addLines hlevel, addLines_addLines]
  simp only [definitionBody, line_eq_addLines]
  rw [blank_eq_addLines (hstart _), addLines_addLines, each_eq_addLines (hstart _) hbody,
    addLines_addLines, addLines_addLines]
  simp [definitionLines]

end PairedSource.Assembly
