import PairedSource.CommandLine.Command
import PairedSource.Proofs.Except
import PairedSource.Proofs.Lists

namespace PairedSource.CommandLine

open Occurrence

section Spelling

variable (specs : List OptionSpec)

/-- Letters behind one hyphen: switches, and at most one option that takes what follows as its
value, or the next argument where nothing follows. -/
inductive Letters : List Char → List Occurrence → Option Purpose → Prop
  | none : Letters [] [] none
  | switch {c : Char} {cs : List Char} {said : List Occurrence} {pending : Option Purpose}
    (spec : OptionSpec) (hspec : specs.find? (·.short == some c) = some spec)
    (htakes : spec.takesValue = false) (h : Letters cs said pending) :
    Letters (c :: cs) (.switch spec.purpose :: said) pending
  | attached {c : Char} (spec : OptionSpec) (hspec : specs.find? (·.short == some c) = some spec)
    (htakes : spec.takesValue = true) (value : List Char) (hvalue : value ≠ [])
    (hequals : value.head? ≠ some '=') :
    Letters (c :: value) [.value spec.purpose (String.ofList value)] none
  | equals {c : Char} (spec : OptionSpec) (hspec : specs.find? (·.short == some c) = some spec)
    (htakes : spec.takesValue = true) (value : List Char) :
    Letters (c :: '=' :: value) [.value spec.purpose (String.ofList value)] none
  | pending {c : Char} (spec : OptionSpec) (hspec : specs.find? (·.short == some c) = some spec)
    (htakes : spec.takesValue = true) : Letters [c] [] (some spec.purpose)

/-- A name behind two hyphens: a switch, or an option whose value is attached by an equals sign or
is the next argument. -/
inductive Name : List Char → List Occurrence → Option Purpose → Prop
  | switch {name : List Char} (hname : '=' ∉ name) (spec : OptionSpec)
    (hspec : specs.find? (·.long == String.ofList name) = some spec)
    (htakes : spec.takesValue = false) : Name name [.switch spec.purpose] none
  | equals {name : List Char} (hname : '=' ∉ name) (spec : OptionSpec)
    (hspec : specs.find? (·.long == String.ofList name) = some spec)
    (htakes : spec.takesValue = true) (value : List Char) :
    Name (name ++ '=' :: value) [.value spec.purpose (String.ofList value)] none
  | pending {name : List Char} (hname : '=' ∉ name) (spec : OptionSpec)
    (hspec : specs.find? (·.long == String.ofList name) = some spec)
    (htakes : spec.takesValue = true) : Name name [] (some spec.purpose)

inductive Argument : String → List Occurrence → Option Purpose → Prop
  | input (text : String) (htext : isOption text = false) : Argument text [.input text] none
  | name {cs : List Char} {said : List Occurrence} {pending : Option Purpose} (hne : cs ≠ [])
    (h : Name specs cs said pending) : Argument (String.ofList ('-' :: '-' :: cs)) said pending
  | letters {cs : List Char} {said : List Occurrence} {pending : Option Purpose} (hne : cs ≠ [])
    (hhyphen : cs.head? ≠ some '-') (h : Letters specs cs said pending) :
    Argument (String.ofList ('-' :: cs)) said pending

/-- What a command line says. Behind two hyphens alone everything is an input. -/
inductive Says : List String → List Occurrence → Prop
  | nil : Says [] []
  | ended (inputs : List String) : Says ("--" :: inputs) (inputs.map .input)
  | argument {argument : String} {argv : List String} {said more : List Occurrence}
    (h : Argument specs argument said none) (hrest : Says argv more) :
    Says (argument :: argv) (said ++ more)
  | value {argument : String} {argv : List String} {said more : List Occurrence} {option : Purpose}
    (h : Argument specs argument said (some option)) (text : String)
    (htext : isOption text = false) (hrest : Says argv more) :
    Says (argument :: text :: argv) (said ++ .value option text :: more)

end Spelling

variable {specs : List OptionSpec} {cs : List Char} {argument : String} {argv : List String}
  {said : List Occurrence} {pending : Option Purpose}

def IsRead (said : List Occurrence) : Prop :=
  ∀ refusal, .refused refusal ∉ said

theorem not_isRead_refused (refusal : Refusal) (more : List Occurrence) :
    ¬IsRead (.refused refusal :: more) :=
  fun h ↦ h refusal List.mem_cons_self

theorem letters_of_isRead (hread : IsRead (ofLetters specs cs).1) :
    Letters specs cs (ofLetters specs cs).1 (ofLetters specs cs).2 := by
  induction cs with
  | nil => exact .none
  | cons c cs ih =>
    cases hspec : specs.find? (·.short == some c) with
    | none =>
      simp only [ofLetters, hspec] at hread
      exact absurd hread (not_isRead_refused _ _)
    | some spec =>
      cases htakes : spec.takesValue with
      | true =>
        match cs with
        | [] =>
          simp only [ofLetters, hspec, htakes, if_true]
          exact .pending spec hspec htakes
        | d :: attached =>
          by_cases hd : d = '='
          · subst hd
            simp only [ofLetters, hspec, htakes, if_true]
            exact .equals spec hspec htakes attached
          · have hsaid : ofLetters specs (c :: d :: attached) =
                ([.value spec.purpose (String.ofList (d :: attached))], none) := by
              simp [ofLetters, hspec, htakes, hd]
            rw [hsaid]
            exact .attached spec hspec htakes _ (List.cons_ne_nil _ _) (by simpa using hd)
      | false =>
        have hsaid : ofLetters specs (c :: cs) =
            (.switch spec.purpose :: (ofLetters specs cs).1, (ofLetters specs cs).2) := by
          simp [ofLetters, hspec, htakes]
        rw [hsaid] at hread ⊢
        exact .switch spec hspec htakes (ih fun refusal h ↦
          hread refusal (List.mem_cons_of_mem _ h))

theorem ofLetters_of_letters (h : Letters specs cs said pending) :
    ofLetters specs cs = (said, pending) := by
  induction h with
  | none => rfl
  | switch spec hspec htakes _ ih => simp [ofLetters, hspec, htakes, ih]
  | attached spec hspec htakes value hvalue hequals =>
    obtain ⟨d, value, rfl⟩ := List.exists_cons_of_ne_nil hvalue
    have hd : d ≠ '=' := by simpa using hequals
    simp [ofLetters, hspec, htakes, hd]
  | equals spec hspec htakes value => simp [ofLetters, hspec, htakes]
  | pending spec hspec htakes => simp [ofLetters, hspec, htakes]

theorem ofName_of_name (h : Name specs cs said pending) : ofName specs cs = (said, pending) := by
  cases h with
  | switch hname spec hspec htakes =>
    obtain ⟨htake, hdrop⟩ := List.takeWhile_bne_of_notMem hname
    simp [ofName, htake, hdrop, hspec, htakes]
  | equals hname spec hspec htakes value =>
    obtain ⟨htake, hdrop⟩ := List.takeWhile_bne_append_cons hname value
    simp [ofName, htake, hdrop, hspec, htakes]
  | pending hname spec hspec htakes =>
    obtain ⟨htake, hdrop⟩ := List.takeWhile_bne_of_notMem hname
    simp [ofName, htake, hdrop, hspec, htakes]

theorem name_of_isRead (hread : IsRead (ofName specs cs).1) :
    Name specs cs (ofName specs cs).1 (ofName specs cs).2 := by
  have hname : '=' ∉ cs.takeWhile (· != '=') := fun h ↦ by simpa using List.mem_takeWhile_imp h
  have hsplit := List.takeWhile_append_dropWhile (p := (· != '=')) (l := cs)
  generalize hn : cs.takeWhile (· != '=') = name at hname hsplit
  cases hspec : specs.find? (·.long == String.ofList name) with
  | none =>
    simp only [ofName, hn, hspec] at hread
    exact absurd hread (not_isRead_refused _ _)
  | some spec =>
    cases hd : cs.dropWhile (· != '=') with
    | nil =>
      rw [hd, List.append_nil] at hsplit
      obtain rfl := hsplit
      cases htakes : spec.takesValue with
      | true =>
        have hsaid : ofName specs name = ([], some spec.purpose) := by
          simp [ofName, hn, hd, hspec, htakes]
        rw [hsaid]
        exact .pending hname spec hspec htakes
      | false =>
        have hsaid : ofName specs name = ([.switch spec.purpose], none) := by
          simp [ofName, hn, hd, hspec, htakes]
        rw [hsaid]
        exact .switch hname spec hspec htakes
    | cons c value =>
      have hc : c = '=' := by
        have hhead := List.head?_dropWhile_not (· != '=') cs
        rw [hd] at hhead
        simpa using hhead
      subst hc
      cases htakes : spec.takesValue with
      | true =>
        have hsaid : ofName specs cs = ([.value spec.purpose (String.ofList value)], none) := by
          simp [ofName, hn, hd, hspec, htakes]
        rw [hsaid, ← hsplit, hd]
        exact .equals hname spec hspec htakes value
      | false =>
        have hsaid : ofName specs cs = ([.refused (.unexpectedValue spec.purpose)], none) := by
          simp [ofName, hn, hd, hspec, htakes]
        rw [hsaid] at hread
        exact absurd hread (not_isRead_refused _ _)

theorem ofArgument_of_isOption_eq_false {text : String} (htext : isOption text = false) :
    ofArgument specs text = ([.input text], none) ∧ text ≠ "--" := by
  constructor
  · by_cases hhyphen : text = "-"
    · subst hhyphen
      rfl
    · have hhead : text.toList.head? ≠ some '-' := by
        simpa [isOption, hhyphen] using htext
      unfold ofArgument
      split
      · rename_i heq
        exact absurd (by rw [heq]; rfl) hhead
      · rename_i heq
        exact absurd (by rw [heq]; rfl) hhead
      · rfl
  · rintro rfl
    cases htext

theorem ofArgument_of_argument (h : Argument specs argument said pending) :
    ofArgument specs argument = (said, pending) ∧ argument ≠ "--" := by
  cases h with
  | input text htext => exact ofArgument_of_isOption_eq_false htext
  | name hne h =>
    constructor
    · simp only [ofArgument, String.toList_ofList, ofName_of_name h]
    · intro heq
      have hlist := congrArg String.toList heq
      rw [String.toList_ofList] at hlist
      exact hne (List.cons.inj (List.cons.inj hlist).2).2
  | @letters cs _ _ hne hhyphen h =>
    obtain ⟨c, cs, rfl⟩ := List.exists_cons_of_ne_nil hne
    have hc : c ≠ '-' := by simpa using hhyphen
    constructor
    · simp [ofArgument, String.toList_ofList, ofLetters_of_letters h]
    · intro heq
      have hlist := congrArg String.toList heq
      rw [String.toList_ofList] at hlist
      exact hc (List.cons.inj (List.cons.inj hlist).2).1

theorem argument_of_isRead (hargument : argument ≠ "--")
    (hread : IsRead (ofArgument specs argument).1) :
    Argument specs argument (ofArgument specs argument).1 (ofArgument specs argument).2 := by
  cases hoption : isOption argument with
  | false =>
    rw [(ofArgument_of_isOption_eq_false hoption).1]
    exact .input argument hoption
  | true =>
    have hself : argument = String.ofList argument.toList := String.ofList_toList.symm
    match hlist : argument.toList with
    | [] => simp [isOption, hlist] at hoption
    | [c] =>
      have hc : c = '-' ∧ argument ≠ "-" := by simpa [isOption, hlist] using hoption
      rw [hlist, hc.1] at hself
      exact absurd hself hc.2
    | c :: d :: cs =>
      have hc : c = '-' := by
        have hhyphen : c = '-' ∧ argument ≠ "-" := by simpa [isOption, hlist] using hoption
        exact hhyphen.1
      subst hc
      rw [hlist] at hself
      by_cases hd : d = '-'
      · subst hd
        have hsaid : ofArgument specs argument = ofName specs cs := by simp [ofArgument, hlist]
        rw [hsaid] at hread ⊢
        rw [hself]
        refine .name (fun hnil ↦ hargument ?_) (name_of_isRead hread)
        rw [hself, hnil]
      · have hsaid : ofArgument specs argument = ofLetters specs (d :: cs) := by
          simp [ofArgument, hlist]
        rw [hsaid] at hread ⊢
        rw [hself]
        exact .letters (List.cons_ne_nil _ _) (by simpa using hd) (letters_of_isRead hread)

theorem says_of_isRead (hread : IsRead (ofArguments specs none argv)) :
    Says specs argv (ofArguments specs none argv) := by
  induction hlength : argv.length using Nat.strongRecOn generalizing argv with
  | ind n ih =>
    match argv with
    | [] => exact .nil
    | argument :: argv =>
      by_cases hargument : argument = "--"
      · subst hargument
        exact .ended argv
      · have hsplit : ofArguments specs none (argument :: argv) =
            (ofArgument specs argument).1 ++
              ofArguments specs (ofArgument specs argument).2 argv := by
          rw [ofArguments, if_neg hargument]
        rw [hsplit] at hread ⊢
        have hfirst := argument_of_isRead hargument fun refusal h ↦
          hread refusal (List.mem_append_left _ h)
        cases hpending : (ofArgument specs argument).2 with
        | none =>
          rw [hpending] at hread hfirst
          have hshorter : argv.length < n := by
            rw [← hlength, List.length_cons]
            omega
          refine .argument hfirst (ih argv.length hshorter (fun refusal h ↦
            hread refusal (List.mem_append_right _ h)) rfl)
        | some option =>
          rw [hpending] at hread hfirst
          match argv with
          | [] => exact absurd (List.mem_append_right _ List.mem_cons_self) (hread _)
          | text :: argv =>
            cases htext : isOption text with
            | true =>
              simp only [ofArguments, htext, if_true] at hread
              exact absurd (List.mem_append_right _ List.mem_cons_self) (hread _)
            | false =>
              have hshorter : argv.length < n := by
                rw [← hlength, List.length_cons, List.length_cons]
                omega
              simp only [ofArguments, htext, Bool.false_eq_true, if_false] at hread ⊢
              refine .value hfirst text htext (ih argv.length hshorter (fun refusal h ↦
                hread refusal (List.mem_append_right _ (.tail _ h))) rfl)

theorem Says.ofArguments_eq (h : Says specs argv said) : ofArguments specs none argv = said := by
  induction h with
  | nil => rfl
  | ended inputs => rfl
  | argument h hrest ih =>
    obtain ⟨hsaid, hne⟩ := ofArgument_of_argument h
    simp only [ofArguments, if_neg hne, hsaid, ih]
  | value h text htext hrest ih =>
    obtain ⟨hsaid, hne⟩ := ofArgument_of_argument h
    simp only [ofArguments, if_neg hne, hsaid, htext, Bool.false_eq_true, if_false, ih]

end PairedSource.CommandLine
