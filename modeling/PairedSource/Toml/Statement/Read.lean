import PairedSource.Toml.Parsed
import PairedSource.Toml.Statement

namespace PairedSource.Toml

namespace Token

def isKey (token : Token) : Bool :=
  match token.kind with
  | .string _ | .atom => true
  | _ => false

/-- Space, line ends and comments, which may stand between the parts of an array. -/
def isFiller (token : Token) : Bool :=
  token.kind = .blank || token.kind = .newline || token.kind = .comment

def isBare (token : Token) : Bool :=
  token.kind = .dot || token.kind = .atom

end Token

namespace Statement

def missing (tokens : List Token) : Lexeme :=
  ⟨none, [], ⟨(tokens.head?.map Token.offset).getD 0, 0⟩⟩

def skipBlank (tokens : List Token) : Parsed Unit tokens :=
  ⟨(), tokens.dropWhile (·.kind = .blank), (List.dropWhile_sublist _).length_le⟩

/-- Keys behind a first one, with dots before them. A key is `wanted` after a dot. -/
def moreKeys (wanted : Bool) : (tokens : List Token) → Parsed (List Lexeme) tokens
  | [] => ⟨if wanted then [missing []] else [], [], Nat.le_refl _⟩
  | token :: tokens =>
    if token.kind = .blank then (moreKeys wanted tokens).after token
    else if token.kind = .dot then
      let p := (moreKeys true tokens).after token
      if wanted then p.map (missing (token :: tokens) :: ·) else p
    else if wanted && token.isKey then
      ((moreKeys false tokens).map (token.lexeme :: ·)).after token
    else ⟨if wanted then [missing (token :: tokens)] else [], token :: tokens, Nat.le_refl _⟩

def ofKeys (first : Lexeme) (more : List Lexeme) : KeyPath :=
  ⟨(first :: more).dropLast, (first :: more).getLast (List.cons_ne_nil _ _)⟩

def keyPath (first : Token) (tokens : List Token) : Parsed KeyPath tokens :=
  if first.kind = .dot then (moreKeys true tokens).map (ofKeys (missing (first :: tokens)))
  else (moreKeys false tokens).map (ofKeys first.lexeme)

/-- How many of the tokens go on with a bare value. Space may stand inside it, but not at its
end. -/
def bareLength (tokens : List Token) : Nat :=
  let run := tokens.takeWhile fun token ↦ token.isBare || token.kind = .blank
  (run.reverse.dropWhile (·.kind = .blank)).length

def scalar (first : Token) (tokens : List Token) : Parsed Written tokens :=
  if first.isBare then
    let more := tokens.take (bareLength tokens)
    let text := first.text ++ more.flatMap Token.text
    ⟨.scalar ⟨none, text, ⟨first.offset, Text.byteLength text⟩⟩,
      tokens.drop (bareLength tokens), by simp⟩
  else ⟨.scalar first.lexeme, tokens, Nat.le_refl _⟩

def maxDepth : Nat := 80

inductive Expecting where
  | key
  | equals (path : KeyPath)
  | value (path : KeyPath)
  | comma

def Expecting.text : Expecting → String
  | .key => "key"
  | .equals _ => "`=`"
  | .value _ => "value"
  | .comma => "`,`"

mutual

/-- A value that starts with the given token, at most `room` levels deep. -/
def value (room : Nat) (first : Token) (tokens : List Token) :
    Except SyntaxError (Parsed Written tokens) :=
  match first.kind with
  | .equals => .error .extraAssignment
  | .closeBrace => .error .missingInlineOpening
  | .closeBracket => .error .missingArrayOpening
  | .openBracket =>
    if room = 0 then .error .nestedTooDeep else arrayItems (room - 1) first [] false tokens
  | .openBrace =>
    if room = 0 then .error .nestedTooDeep else tableEntries (room - 1) first [] .key tokens
  | _ => .ok (scalar first tokens)
termination_by 2 * tokens.length + 1

def arrayItems (room : Nat) (opening : Token) (items : List Written) (comma : Bool) :
    (tokens : List Token) → Except SyntaxError (Parsed Written tokens)
  | [] => .error .unclosedArray
  | token :: tokens =>
    if token.isFiller then
      (arrayItems room opening items comma tokens).map (Parsed.after token)
    else match token.kind with
    | .comma =>
      if comma then (arrayItems room opening items false tokens).map (Parsed.after token)
      else .error .extraArrayComma
    | .equals => .error .unexpectedInArray
    | .closeBracket =>
      .ok ⟨.array items.reverse (opening.span.through token.span), tokens, Nat.le_succ _⟩
    | _ =>
      if comma then .error .missingArrayComma
      else do
        let item ← value room token tokens
        let closed ← arrayItems room opening (item.value :: items) true item.rest
        return (item.following closed).after token
termination_by tokens => 2 * tokens.length
decreasing_by
  all_goals simp_wf
  all_goals try have := item.length_rest_le
  all_goals omega

def tableEntries (room : Nat) (opening : Token) (entries : List (KeyPath × Written))
    (expecting : Expecting) : (tokens : List Token) → Except SyntaxError (Parsed Written tokens)
  | [] => .error .unclosedInlineTable
  | token :: tokens =>
    if token.isFiller then
      (tableEntries room opening entries expecting tokens).map (Parsed.after token)
    else match token.kind, expecting with
    | .comma, .comma =>
      (tableEntries room opening entries .key tokens).map (Parsed.after token)
    | .comma, state => .error (.extraInlineComma state.text)
    | .equals, .equals path =>
      (tableEntries room opening entries (.value path) tokens).map (Parsed.after token)
    | .equals, .key =>
      (tableEntries room opening entries (.value ⟨[], missing (token :: tokens)⟩) tokens).map
        (Parsed.after token)
    | .equals, state => .error (.extraInlineAssignment state.text)
    | .closeBrace, .key | .closeBrace, .comma =>
      .ok ⟨.table entries.reverse (opening.span.through token.span), tokens, Nat.le_succ _⟩
    | .closeBrace, .value _ => .error .missingInlineValue
    | .openBracket, .key | .openBrace, .key | .closeBracket, .key =>
      .error (.missingInlineKey Expecting.key.text)
    | .openBracket, .comma | .openBrace, .comma | .closeBracket, .comma =>
      .error (.missingInlineKey Expecting.comma.text)
    | _, .equals _ => .error .missingInlineAssignment
    | _, .comma => .error .missingInlineComma
    | _, .key =>
      let ⟨path, rest, h⟩ := keyPath token tokens
      (tableEntries room opening entries (.equals path) rest).map fun closed ↦
        (closed.within h).after token
    | _, .value path => do
      let item ← value room token tokens
      let closed ← tableEntries room opening ((path, item.value) :: entries) .comma item.rest
      return (item.following closed).after token
termination_by tokens => 2 * tokens.length
decreasing_by
  all_goals simp_wf
  all_goals try have := item.length_rest_le
  all_goals omega

end

def assigned (tokens : List Token) : Except SyntaxError (Parsed Written tokens) :=
  match tokens with
  | [] => .ok ⟨.scalar (missing []), [], Nat.le_refl _⟩
  | token :: tokens =>
    if token.isFiller || token.kind = .comma then
      .ok ⟨.scalar (missing (token :: tokens)), token :: tokens, Nat.le_refl _⟩
    else (value maxDepth token tokens).map (Parsed.after token)

def lineEnd : (tokens : List Token) → Except SyntaxError (Parsed Unit tokens)
  | [] => .ok ⟨(), [], Nat.le_refl _⟩
  | token :: tokens =>
    match token.kind with
    | .blank | .comment => (lineEnd tokens).map (Parsed.after token)
    | .newline => .ok ⟨(), tokens, Nat.le_succ _⟩
    | _ => .error .unexpectedAfterValue

def assignedLine (path : KeyPath) (tokens : List Token) :
    Except SyntaxError (Parsed Statement tokens) := do
  let blank := skipBlank tokens
  let value ← assigned blank.rest
  let ended ← lineEnd value.rest
  return (blank.following (value.following ended)).map fun _ ↦ .assignment path value.value

def assignmentLine (path : KeyPath) (tokens : List Token) :
    Except SyntaxError (Parsed Statement tokens) :=
  match tokens with
  | [] => .error .keyWithoutValue
  | token :: tokens =>
    if token.kind = .equals then (assignedLine path tokens).map (Parsed.after token)
    else .error .keyWithoutValue

def headerPath (tokens : List Token) : Parsed KeyPath tokens :=
  match skipBlank tokens with
  | ⟨_, token :: rest, h⟩ =>
    if token.isKey || token.kind = .dot then ((keyPath token rest).after token).within h
    else ⟨⟨[], missing (token :: rest)⟩, token :: rest, h⟩
  | ⟨_, [], h⟩ => ⟨⟨[], missing []⟩, [], h⟩

def headerEnd (isArray : Bool) : (tokens : List Token) →
    Except SyntaxError (Parsed Span tokens)
  | first :: second :: tokens =>
    if isArray then
      if first.kind = .closeBracket && second.kind = .closeBracket then
        .ok ⟨second.span, tokens, by simp; omega⟩
      else .error .unclosedArrayTable
    else if first.kind = .closeBracket then .ok ⟨first.span, second :: tokens, Nat.le_succ _⟩
    else .error .unclosedTable
  | [first] =>
    if isArray then .error .unclosedArrayTable
    else if first.kind = .closeBracket then .ok ⟨first.span, [], Nat.le_succ _⟩
    else .error .unclosedTable
  | [] => .error (if isArray then .unclosedArrayTable else .unclosedTable)

def headerLine (opening : Token) (isArray : Bool) (tokens : List Token) :
    Except SyntaxError (Parsed Statement tokens) := do
  let path := headerPath tokens
  let blank := skipBlank path.rest
  let closing ← headerEnd isArray blank.rest
  let ended ← lineEnd closing.rest
  let span := opening.span.through closing.value
  let p := path.following (blank.following (closing.following ended))
  return p.map fun _ ↦
    if isArray then .arrayElement path.value span else .table path.value span

def line (first : Token) (tokens : List Token) : Except SyntaxError (Parsed Statement tokens) :=
  match first.kind with
  | .openBracket =>
    match tokens with
    | second :: rest =>
      if second.kind = .openBracket then (headerLine first true rest).map (Parsed.after second)
      else headerLine first false (second :: rest)
    | [] => headerLine first false []
  | .closeBracket => .error .missingTableOpening
  | .comma | .openBrace | .closeBrace => .error .missingKey
  | .equals => assignedLine ⟨[], missing (first :: tokens)⟩ tokens
  | _ => do
    let path := keyPath first tokens
    let read ← assignmentLine path.value path.rest
    return path.following read

def readAll : List Token → Except SyntaxError (List Statement)
  | [] => .ok []
  | token :: tokens =>
    if token.isFiller then readAll tokens
    else
      match line token tokens with
      | .error e => .error e
      | .ok ⟨statement, rest, _⟩ => (readAll rest).map (statement :: ·)
termination_by tokens => tokens.length
decreasing_by
  all_goals simp_wf
  all_goals omega

end Statement

end PairedSource.Toml
