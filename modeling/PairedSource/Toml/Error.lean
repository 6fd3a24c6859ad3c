namespace PairedSource.Toml

inductive StringStyle where
  | basic
  | literal
  | multilineBasic
  | multilineLiteral
  deriving Repr, DecidableEq

def StringStyle.text : StringStyle → String
  | .basic => "basic string"
  | .literal => "literal string"
  | .multilineBasic => "multi-line basic string"
  | .multilineLiteral => "multi-line literal string"

def StringStyle.delimiter : StringStyle → String
  | .basic => "\""
  | .literal => "'"
  | .multilineBasic => "\"\"\""
  | .multilineLiteral => "'''"

inductive SyntaxError where
  | keyWithoutValue
  | missingKey
  | missingTableOpening
  | unclosedTable
  | unclosedArrayTable
  | unexpectedAfterValue
  | unclosedArray
  | extraArrayComma
  | missingArrayComma
  | unexpectedInArray
  | missingArrayOpening
  | unclosedInlineTable
  | missingInlineOpening
  | extraInlineComma (expected : String)
  | extraInlineAssignment (expected : String)
  | missingInlineComma
  | missingInlineAssignment
  | missingInlineKey (expected : String)
  | missingInlineValue
  | extraAssignment
  | nestedTooDeep
  | keyTooLong
  | bareCarriageReturn
  | controlInComment
  | emptyBareKey
  | invalidBareKey
  | multilineKey
  | unclosedString (style : StringStyle)
  | invalidCharacter (style : StringStyle)
  | missingEscape
  | invalidUnicodeEscape
  | unquotedText
  | leadingZero
  | misplacedUnderscore
  | invalidDigit (base : String)
  | missingDigits (part : String)
  | afterFloat
  | invalidDateTime
  | duplicateKey
  | notExtensible (kind : String)
  deriving Repr, DecidableEq

def SyntaxError.message : SyntaxError → String
  | .keyWithoutValue => "key with no value, expected `=`"
  | .missingKey => "invalid key, expected key"
  | .missingTableOpening => "missing table open, expected `[`"
  | .unclosedTable => "unclosed table, expected `]`"
  | .unclosedArrayTable => "unclosed array table, expected `]`"
  | .unexpectedAfterValue => "unexpected key or value, expected newline, `#`"
  | .unclosedArray => "unclosed array, expected `]`"
  | .extraArrayComma => "extra comma in array, expected value"
  | .missingArrayComma => "missing comma between array elements, expected `,`"
  | .unexpectedInArray => "unexpected `=` in array, expected value, `]`"
  | .missingArrayOpening => "missing array opening, expected `[`"
  | .unclosedInlineTable => "unclosed inline table, expected `\x7d`"
  | .missingInlineOpening => "missing inline table opening, expected `\x7b`"
  | .extraInlineComma expected => s!"extra comma in inline table, expected {expected}"
  | .extraInlineAssignment expected =>
    s!"extra assignment between key-value pairs, expected {expected}"
  | .missingInlineComma => "missing comma between key-value pairs, expected `,`"
  | .missingInlineAssignment => "missing assignment between key-value pairs, expected `=`"
  | .missingInlineKey expected => s!"missing key for inline table element, expected {expected}"
  | .missingInlineValue => "missing value for inline table element, expected value"
  | .extraAssignment => "extra `=`, expected nothing"
  | .nestedTooDeep => "cannot recurse further; max recursion depth met"
  | .keyTooLong => "recursion limit"
  | .bareCarriageReturn => "carriage return must be followed by newline, expected newline"
  | .controlInComment => "invalid comment character, expected printable characters"
  | .emptyBareKey => "unquoted keys cannot be empty, expected letters, numbers, `-`, `_`"
  | .invalidBareKey => "invalid unquoted key, expected letters, numbers, `-`, `_`"
  | .multilineKey => "keys cannot be multi-line strings, expected basic string, literal string"
  | .unclosedString style => s!"invalid {style.text}, expected `{style.delimiter}`"
  | .invalidCharacter style => s!"invalid {style.text}, expected printable characters"
  | .missingEscape =>
    "missing escaped value, expected `b`, `e`, `f`, `n`, `r`, `\\`, `\"`, `x`, `u`, `U`"
  | .invalidUnicodeEscape => "invalid value for unicode escape, expected unicode hexadecimal value"
  | .unquotedText => "string values must be quoted, expected literal string"
  | .leadingZero => "unexpected leading zero, expected nothing"
  | .misplacedUnderscore => "`_` may only go between digits, expected nothing"
  | .invalidDigit base => s!"invalid {base} number, expected digits"
  | .missingDigits part => s!"invalid {part}, expected digits"
  | .afterFloat => "invalid float, expected nothing"
  | .invalidDateTime => "invalid datetime"
  | .duplicateKey => "duplicate key"
  | .notExtensible kind => s!"cannot extend value of type {kind} with a dotted key"

inductive NumberKind where
  | integer
  | float
  deriving Repr, DecidableEq

inductive TypeError where
  | unknownField (field : String) (known : List String)
  | invalidType (found expected : String)
  | outOfRange (kind : NumberKind)
  deriving Repr, DecidableEq

def expectedFields (known : List String) : String :=
  match known.map fun field ↦ "`" ++ field ++ "`" with
  | [first, second] => first ++ " or " ++ second
  | fields => "one of " ++ ", ".intercalate fields

def TypeError.message : TypeError → String
  | .unknownField field known =>
    "unknown field `" ++ field ++ "`, expected " ++ expectedFields known
  | .invalidType found expected => s!"invalid type: {found}, expected {expected}"
  | .outOfRange .integer => "integer number overflowed"
  | .outOfRange .float => "floating-point number overflowed"

end PairedSource.Toml
