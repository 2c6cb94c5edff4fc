import FuzzyGates.Decimal.Numeral
import FuzzyGates.Document.Basic
import FuzzyGates.Expr.Text
import FuzzyGates.Text.Bytes

/-!
# The text of a document

`fullText` writes a document so that its kind can be seen; `plainText` is the
same except for text, days, moments, gates and expressions, which then stand for
themselves.
`typeName` names the kind of a document in messages.
-/

namespace FuzzyGates

namespace Atom

/-- The atom with its kind visible. -/
def fullText : Atom → String
  | null => "None"
  | bool b => if b then "True" else "False"
  | int n => toString n
  | float x => Degree.text x
  | text s => Text.quoted s
  | bytes bs => Text.quotedBytes bs
  | date d => d.fullText
  | moment m => m.fullText
  | expr e => e.fullText
  | gate g => "Gate(name=" ++ Text.quoted g.name ++ ")"

/-- Whether the atom has a text.  A whole number with very many digits has none. -/
def isWritable : Atom → Bool
  | int n => Decimal.isWritable n
  | _ => true

/-- The atom as it would be shown to a reader. -/
def plainText : Atom → String
  | text s => s
  | date d => d.text
  | moment m => m.text
  | expr e => e.infixText
  | gate g => g.name
  | a => a.fullText

/-- The name of the kind of an atom. -/
def typeName : Atom → String
  | null => "NoneType"
  | bool _ => "bool"
  | int _ => "int"
  | float _ => "float"
  | text _ => "str"
  | bytes _ => "bytes"
  | date _ => "date"
  | moment _ => "datetime"
  | expr e => e.typeName
  | gate _ => "Gate"

/-- The name of the kind of an atom with that of the family it belongs to. -/
def familyName : Atom → String
  | date _ => "datetime.date"
  | moment _ => "datetime.datetime"
  | a => a.typeName

end Atom

namespace Document

/-- The elements of a set, separated by commas. -/
def elementsText (elements : List Atom) : String :=
  if elements.isEmpty then "set()"
  else "\x7b" ++ ", ".intercalate (elements.map Atom.fullText) ++ "\x7d"

mutual

/-- The document with its kind visible. -/
def fullText : Document → String
  | atom a => a.fullText
  | pair a b => "(" ++ fullText a ++ ", " ++ fullText b ++ ")"
  | list items => "[" ++ itemsText items ++ "]"
  | set elements => elementsText elements
  | mapping entries => "\x7b" ++ entriesText entries ++ "\x7d"

/-- Items, separated by commas. -/
def itemsText : List Document → String
  | [] => ""
  | [d] => fullText d
  | d :: rest => fullText d ++ ", " ++ itemsText rest

/-- Entries, separated by commas. -/
def entriesText : List (Atom × Document) → String
  | [] => ""
  | [(k, d)] => k.fullText ++ ": " ++ fullText d
  | (k, d) :: rest => k.fullText ++ ": " ++ fullText d ++ ", " ++ entriesText rest

end

/-- The document as it would be shown to a reader. -/
def plainText : Document → String
  | atom a => a.plainText
  | d => d.fullText

/-- The name of the kind of a document. -/
def typeName : Document → String
  | atom a => a.typeName
  | pair _ _ => "tuple"
  | list _ => "list"
  | set _ => "set"
  | mapping _ => "dict"

end Document

end FuzzyGates
