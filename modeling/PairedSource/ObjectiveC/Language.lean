import PairedSource.Language

namespace PairedSource.ObjectiveC

open Text Identifier

/-- A key without lower-case letters is an abbreviation and is lower-cased as a whole; all others
go to camel case. -/
def memberCase (key : String) : String :=
  if key.toList.any isUppercase && !key.toList.any isLowercase then
    String.join ((words key).map String.toLower)
  else
    camelCase key

/-- The words of C, those of Objective-C, and the members of the root class that class methods
must not shadow. -/
def reservedWords : List String := [
  "auto", "break", "case", "char", "const", "continue", "default", "do", "double", "else",
  "enum", "extern", "float", "for", "goto", "if", "inline", "int", "long", "register",
  "restrict", "return", "short", "signed", "sizeof", "static", "struct", "switch",
  "typedef", "union", "unsigned", "void", "volatile", "while", "_Bool", "_Complex",
  "_Imaginary",
  "id", "self", "super", "nil", "Nil", "YES", "NO", "BOOL", "SEL", "IMP", "Class",
  "Protocol", "NSObject", "instancetype", "in", "out", "inout", "bycopy", "byref",
  "oneway", "nonatomic", "atomic", "readonly", "readwrite", "strong", "weak", "assign",
  "alloc", "class", "copy", "dealloc", "description", "hash", "init", "new", "superclass"]

def naming : NamingPolicy where
  keyToType := pascalCase
  keyToMember := memberCase
  reservedWords := reservedWords

def language : Language where
  name := "objc"
  declarationExtension := "h"
  definitionExtension := "m"
  lineComment := "//"
  indent := .spaces 4
  importLine directive := s!"#import {directive}"
  localImportLine file := s!"#import \"{file}\""
  openDeclaration name := s!"@interface {name} : NSObject"
  closeDeclaration _ := "@end"
  openDefinition name := s!"@implementation {name}"
  closeDefinition _ := "@end"
  naming := naming

end PairedSource.ObjectiveC
