import PairedSource.Text.Split

namespace PairedSource

inductive Indent where
  | spaces (width : Nat)
  | tab
  deriving Repr, DecidableEq

/-- Widths other than two, four and eight count as four. -/
def Indent.text : Indent → String
  | .spaces 2 => "  "
  | .spaces 8 => "        "
  | .spaces _ => "    "
  | .tab => "\t"

/-- Code under construction and the level at which its next line stands. -/
structure CodeBuilder where
  indent : Indent := .spaces 4
  level : Nat := 0
  text : String := ""
  deriving Repr, Inhabited

namespace CodeBuilder

variable (b : CodeBuilder)

def margin : String :=
  String.join (List.replicate b.level b.indent.text)

def line (s : String) : CodeBuilder :=
  { b with text := b.text ++ b.margin ++ s ++ "\n" }

def blank : CodeBuilder :=
  { b with text := b.text ++ "\n" }

def paragraph (s : String) : CodeBuilder :=
  (Text.lines s).foldl (fun b line ↦ if line.isEmpty then b.blank else b.line line) b

def indented : CodeBuilder :=
  { b with level := b.level + 1 }

def dedented : CodeBuilder :=
  { b with level := b.level - 1 }

def comment (leader s : String) : CodeBuilder :=
  b.line (if s.isEmpty then leader else leader ++ " " ++ s)

def block (opening closing : String) (body : CodeBuilder → CodeBuilder) : CodeBuilder :=
  (body (b.line opening).indented).dedented.line closing

def when (condition : Bool) (body : CodeBuilder → CodeBuilder) : CodeBuilder :=
  if condition then body b else b

def each {α : Type} (items : List α) (body : CodeBuilder → α → CodeBuilder) : CodeBuilder :=
  items.foldl body b

end CodeBuilder

end PairedSource
