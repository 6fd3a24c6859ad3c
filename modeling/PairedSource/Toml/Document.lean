import PairedSource.Toml.Scalar
import PairedSource.Toml.Statement.Read
import PairedSource.Toml.StringLiteral

namespace PairedSource.Toml

structure Key where
  name : String
  span : Span
  deriving Repr

def maxKeys : Nat := 80

namespace Lexeme

def isBareKeyChar (c : Char) : Bool :=
  c.isAlphanum || c == '-' || c == '_'

def key (lexeme : Lexeme) : Except SyntaxError Key :=
  match lexeme.style with
  | none =>
    if lexeme.text.isEmpty then .error .emptyBareKey
    else if lexeme.text.all isBareKeyChar then .ok ⟨String.ofList lexeme.text, lexeme.span⟩
    else .error .invalidBareKey
  | some .multilineBasic | some .multilineLiteral => .error .multilineKey
  | some style => (style.decode lexeme.text).map (⟨·, lexeme.span⟩)

def value (lexeme : Lexeme) : Except SyntaxError Value :=
  match lexeme.style with
  | none => Scalar.decode lexeme.text
  | some style => (style.decode lexeme.text).map .text

end Lexeme

/-- A document: its table, and whether all of its numbers are in range, which means 64 bits for an
integer. A number that is not counts only where it is asked for. -/
structure Document where
  root : Table
  inRange : Bool

namespace Document

def put (table : Table) (key : Key) (value : Located Value) : Table :=
  { table with
    fields := Association.alter key.name
      (fun present ↦ { value with keySpan := (present.map Keyed.keySpan).getD key.span })
      table.fields }

/-- Changes the table that some keys lead to from a table. Tables on the way that are not there are
made; `dotted` tells whether the keys stand with dots before an equals sign or in a header. -/
def within (dotted : Bool) (change : Table → Except SyntaxError Table) :
    List Key → Table → Except SyntaxError Table
  | [], table => change table
  | key :: keys, table =>
    match table.fields.lookup key.name with
    | none => do
      let made ← within dotted change keys { form := if dotted then .dotted else .implied }
      return put table key ⟨.table made, key.span⟩
    | some field =>
      match field.value with
      | .table inner =>
        if inner.form = .inline then .error (.notExtensible field.value.kindName)
        else if dotted && inner.form = .explicit then .error .duplicateKey
        else do
          let changed ← within dotted change keys inner
          return put table key ⟨.table changed, field.span⟩
      | .tables elements =>
        match elements.getLast? with
        | none => .error .duplicateKey
        | some last => do
          let changed ← within dotted change keys last.value
          return put table key
            ⟨.tables (elements.dropLast ++ [{ last with value := changed }]), field.span⟩
      | other => .error (.notExtensible other.kindName)

/-- Binds a key that is not bound. A table made by keys with dots takes only such keys, and no other
table takes them. -/
def bind (dotted : Bool) (key : Key) (value : Located Value) (table : Table) :
    Except SyntaxError Table :=
  if (table.form = .dotted) ≠ dotted then .error .duplicateKey
  else
    match table.fields.lookup key.name with
    | some _ => .error .duplicateKey
    | none => .ok (put table key value)

def assign (parents : List Key) (key : Key) (value : Located Value) (table : Table) :
    Except SyntaxError Table :=
  within true (bind (!parents.isEmpty) key value) parents table

def keys (path : KeyPath) : Except SyntaxError (List Key × Key) := do
  if path.parents.length ≥ maxKeys then throw .keyTooLong
  let parents ← path.parents.mapM Lexeme.key
  return (parents, ← path.last.key)

mutual

def decode : Written → Except SyntaxError (Located Value)
  | .scalar lexeme => do return ⟨← lexeme.value, lexeme.span⟩
  | .array items span => do return ⟨.array (← decodeItems items), span⟩
  | .table entries span => do return ⟨.table (← decodeEntries { form := .inline } entries), span⟩

def decodeItems : List Written → Except SyntaxError (List (Located Value))
  | [] => .ok []
  | item :: items => do
    let first ← decode item
    return first :: (← decodeItems items)

def decodeEntries (table : Table) : List (KeyPath × Written) → Except SyntaxError Table
  | [] => .ok table
  | (path, written) :: entries => do
    let (parents, key) ← keys path
    let table ← assign parents key (← decode written) table
    decodeEntries table entries

end

mutual

def isInRange : Written → Bool
  | .scalar lexeme =>
    match lexeme.value with
    | .ok value => value.isInRange
    | .error _ => true
  | .array items _ => areInRange items
  | .table entries _ => entriesAreInRange entries

def areInRange : List Written → Bool
  | [] => true
  | item :: items => isInRange item && areInRange items

def entriesAreInRange : List (KeyPath × Written) → Bool
  | [] => true
  | (_, written) :: entries => isInRange written && entriesAreInRange entries

end

def statementIsInRange : Statement → Bool
  | .assignment _ written => isInRange written
  | .table .. | .arrayElement .. => true

/-- Opens the table of a header. One that so far was only implied is taken from its place and goes
on with what it has. -/
def openTable (key : Key) (span : Span) (parent : Table) : Except SyntaxError Table :=
  match parent.fields.lookup key.name with
  | none => .ok (put parent key ⟨.table { form := .explicit }, span⟩)
  | some field =>
    match field.value with
    | .table inner =>
      if inner.form = .implied then
        let others := { parent with fields := Association.erase key.name parent.fields }
        .ok (put others key ⟨.table { inner with form := .explicit }, span⟩)
      else .error .duplicateKey
    | _ => .error .duplicateKey

def openElement (key : Key) (span : Span) (parent : Table) : Except SyntaxError Table :=
  let element : Located Table := ⟨{ form := .explicit }, span⟩
  match parent.fields.lookup key.name with
  | none => .ok (put parent key ⟨.tables [element], span⟩)
  | some field =>
    match field.value with
    | .tables elements => .ok (put parent key ⟨.tables (elements ++ [element]), field.span⟩)
    | _ => .error .duplicateKey

structure Progress where
  root : Table := { form := .explicit }
  header : List Key := []

def Progress.step (progress : Progress) : Statement → Except SyntaxError Progress
  | .assignment path written => do
    let (parents, key) ← keys path
    let value ← decode written
    let root ← within false (assign parents key value) progress.header progress.root
    return { progress with root }
  | .table path span => do
    let (parents, key) ← keys path
    let root ← within false (openTable key span) parents progress.root
    return { root, header := parents ++ [key] }
  | .arrayElement path span => do
    let (parents, key) ← keys path
    let root ← within false (openElement key span) parents progress.root
    return { root, header := parents ++ [key] }

def dropMark : List Char → Nat × List Char
  | '\ufeff' :: cs => (3, cs)
  | cs => (0, cs)

/-- Reads a document. What is wrong with its structure counts before what is wrong with its
content. -/
def read (s : String) : Except SyntaxError Document := do
  let (offset, cs) := dropMark s.toList
  let tokens := Token.scan offset cs
  match tokens.findSome? Token.fault? with
  | some fault => throw fault
  | none => pure ()
  let statements ← Statement.readAll tokens
  let progress ← statements.foldlM Progress.step {}
  return { root := progress.root, inRange := statements.all statementIsInRange }

end Document

end PairedSource.Toml
