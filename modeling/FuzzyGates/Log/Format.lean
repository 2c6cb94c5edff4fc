import FuzzyGates.Failure
import FuzzyGates.Text.Word

/-!
# Formats of log lines

A format is a text with fields such as `%(message)s` or `%(levelname)-8s`.  A
field is a name in parentheses, flags, a width, a precision and a letter for
the conversion; width and precision are digits or a star.  A text without any
field is no format.
-/

namespace FuzzyGates.Log

/-- The letters of conversions, in either case. -/
def conversions : List Char := "diouxefgcrsaDIOUXEFGCRSA%İıſ".toList

/-- What follows a star or digits, or the text itself if it starts with neither. -/
def afterCount : List Char → List Char
  | '*' :: rest => rest
  | cs => cs.dropWhile Text.isDecimal

/-- What follows a precision, or the text itself if it starts with none. -/
def afterPrecision : List Char → List Char
  | '.' :: rest => if afterCount rest = rest then '.' :: rest else afterCount rest
  | cs => cs

/-- Whether a text starts with a field. -/
def startsWithField : List Char → Bool
  | '%' :: '(' :: rest =>
      let name := rest.takeWhile Text.isWord
      match rest.dropWhile Text.isWord with
      | ')' :: rest =>
          let rest := afterPrecision (afterCount (rest.dropWhile fun c => c ∈ "#0+ -".toList))
          !name.isEmpty && (match rest with
            | c :: _ => c ∈ conversions
            | [] => false)
      | _ => false
  | _ => false

/-- Whether a field starts somewhere in a text. -/
def hasField : List Char → Bool
  | [] => false
  | c :: rest => startsWithField (c :: rest) || hasField rest

/-- The format of lines when none is given. -/
def defaultFormat : String := "%(asctime)s | %(levelname)-8s | %(name)s | %(message)s"

/-- The format that an empty one stands for. -/
def messageFormat : String := "%(message)s"

/-- The format that a document gives.  Everything void is an empty format. -/
def formatOf (d : Document) : Except Failure String :=
  if d.isVoid then .ok messageFormat
  else
    match d with
    | .atom (.text s) =>
        if hasField s.toList then .ok s else .error (.wrongChoice (.format s))
    | d => .error (.wrongKind (.logFormat d))

end FuzzyGates.Log
