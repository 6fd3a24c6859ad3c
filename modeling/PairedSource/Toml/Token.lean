import PairedSource.Span
import PairedSource.Text.Search
import PairedSource.Toml.Error

namespace PairedSource.Toml

inductive TokenKind where
  | dot
  | equals
  | comma
  | openBracket
  | closeBracket
  | openBrace
  | closeBrace
  | blank
  | newline
  | comment
  | string (style : StringStyle)
  | atom
  deriving Repr, DecidableEq

/-- A piece of a document as it was written, with the byte offset where it starts. -/
structure Token where
  kind : TokenKind
  text : List Char
  offset : Nat
  deriving Repr

def Token.span (token : Token) : Span :=
  ⟨token.offset, Text.byteLength token.text⟩

namespace Token

def isBlank (c : Char) : Bool :=
  c == ' ' || c == '\t'

def isLineEnd (c : Char) : Bool :=
  c == '\r' || c == '\n'

def isDelimiter (c : Char) : Bool :=
  isBlank c || isLineEnd c || ".=,[]\x7b\x7d#".toList.contains c

def literalLength (cs : List Char) : Nat :=
  let body := cs.takeWhile fun c ↦ c != '\'' && c != '\n'
  body.length + if cs[body.length]? == some '\'' then 1 else 0

/-- The length of what follows the opening quote of a basic string. A backslash keeps a quote or
backslash after it from counting. -/
def basicLength (escaped : Bool) : List Char → Nat
  | [] => 0
  | c :: cs =>
    if escaped && (c == '\\' || c == '"') then 1 + basicLength false cs
    else if c == '\n' then 0
    else if c == '"' then 1
    else 1 + basicLength (c == '\\') cs

/-- The length of what follows the opening delimiter of a multi-line string. Up to two quotes may
stand directly before the closing delimiter. -/
def multilineLength (quote : Char) (escapes escaped : Bool) : List Char → Nat
  | [] => 0
  | c :: cs =>
    if escaped && (c == '\\' || c == quote) then 1 + multilineLength quote escapes false cs
    else if c == quote && [quote, quote].isPrefixOf cs then
      3 + min 2 ((cs.drop 2).takeWhile (· == quote)).length
    else 1 + multilineLength quote escapes (escapes && c == '\\') cs

def classify (c : Char) (cs : List Char) : TokenKind × Nat :=
  match c with
  | '.' => (.dot, 0)
  | '=' => (.equals, 0)
  | ',' => (.comma, 0)
  | '[' => (.openBracket, 0)
  | ']' => (.closeBracket, 0)
  | '{' => (.openBrace, 0)
  | '}' => (.closeBrace, 0)
  | '\n' => (.newline, 0)
  | '\r' => (.newline, if cs.head? == some '\n' then 1 else 0)
  | '#' => (.comment, (cs.takeWhile (!isLineEnd ·)).length)
  | '\'' =>
    if ['\'', '\''].isPrefixOf cs then
      (.string .multilineLiteral, 2 + multilineLength '\'' false false (cs.drop 2))
    else (.string .literal, literalLength cs)
  | '"' =>
    if ['"', '"'].isPrefixOf cs then
      (.string .multilineBasic, 2 + multilineLength '"' true false (cs.drop 2))
    else (.string .basic, basicLength false cs)
  | c =>
    if isBlank c then (.blank, (cs.takeWhile isBlank).length)
    else (.atom, (cs.takeWhile (!isDelimiter ·)).length)

/-- The tokens of a text that starts at the given offset. They are the text again when put back
together. -/
def scan (offset : Nat) : List Char → List Token
  | [] => []
  | c :: cs =>
    let (kind, length) := classify c cs
    let text := c :: cs.take length
    ⟨kind, text, offset⟩ :: scan (offset + Text.byteLength text) (cs.drop length)
termination_by cs => cs.length
decreasing_by rw [List.length_drop, List.length_cons]; omega

theorem flatMap_scan (offset : Nat) (cs : List Char) : (scan offset cs).flatMap text = cs := by
  fun_induction scan offset cs with
  | case1 => rfl
  | case2 offset c cs kind length _ text ih =>
    simp only [List.flatMap_cons, ih]
    simp [text]

def isControl (c : Char) : Bool :=
  (c.toNat < 0x20 && c != '\t') || c.toNat == 0x7f

def fault? (token : Token) : Option SyntaxError :=
  match token.kind with
  | .comment => if token.text.any isControl then some .controlInComment else none
  | .newline => if token.text == ['\r'] then some .bareCarriageReturn else none
  | _ => none

end Token

end PairedSource.Toml
