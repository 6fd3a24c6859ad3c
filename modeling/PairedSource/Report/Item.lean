namespace PairedSource.Report

inductive Item where
  | heading (name : String)
  | keyValue (key value : String)
  | indentedKeyValue (key value : String)
  | addedItem (text : String)
  | error (message : String)
  | divider (label : String)
  | preformatted (text : String)
  | newline
  deriving Repr, DecidableEq

structure Terminal where
  output : String := ""
  errors : List String := []
  deriving Repr, DecidableEq

namespace Terminal

def line (terminal : Terminal) (s : String) : Terminal :=
  { terminal with output := terminal.output ++ s ++ "\n" }

def add (terminal : Terminal) : Item → Terminal
  | .heading name => terminal.line (name ++ ":")
  | .keyValue key value => terminal.line (key ++ ": " ++ value)
  | .indentedKeyValue key value => terminal.line ("  " ++ key ++ ": " ++ value)
  | .addedItem text => terminal.line ("  + " ++ text)
  | .error message => { terminal with errors := terminal.errors ++ ["error: " ++ message] }
  | .divider label => terminal.line ("── " ++ label ++ " ──")
  | .preformatted text => terminal.line text
  | .newline => terminal.line ""

def addAll (terminal : Terminal) (items : List Item) : Terminal :=
  items.foldl Terminal.add terminal

end Terminal

end PairedSource.Report
