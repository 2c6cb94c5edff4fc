import FuzzyGates.Calendar.Moment
import FuzzyGates.Expr.Basic
import FuzzyGates.Decimal.Binary64
import FuzzyGates.Text.Surrogate

/-!
# Documents

A document is what arrives from outside: configuration data, serialized logic
and arguments whose kind is not known beforehand.  Atoms are the documents that
can be keys of a mapping; pairs, lists, sets and mappings are built from them.
A mapping keeps its entries in order.
-/

namespace FuzzyGates

/-- A document without parts. -/
inductive Atom
  | null
  | bool (b : Bool)
  | int (n : Int)
  | float (x : Float)
  | text (s : String)
  | bytes (bs : List UInt8)
  | date (d : Calendar.Date)
  | moment (m : Calendar.Moment)
  | expr (e : Expr)
  | gate (g : Gate)
  deriving DecidableEq

/-- Data of a kind that is not known beforehand. -/
inductive Document
  | atom (a : Atom)
  | pair (first second : Document)
  | list (items : List Document)
  | set (elements : List Atom)
  | mapping (entries : List (Atom × Document))

instance : Inhabited Document := ⟨.atom .null⟩

/-- A number as it was written: whole or with a fraction. -/
inductive Number
  | int (n : Int)
  | float (x : Float)
  deriving DecidableEq

namespace Number

/-- The degree of a number, unless it is a whole number that is too large for one. -/
def degree? : Number → Option Degree
  | int n => Decimal.floatOfInt? n
  | float x => some x

/-- The order of two numbers, exact; an undefined number has none. -/
def compare? : Number → Number → Option Ordering
  | int m, int n => some (compare m n)
  | int m, float y => Decimal.compareInt m y
  | float x, int n => (Decimal.compareInt n x).map Ordering.swap
  | float x, float y =>
      if x < y then some .lt else if y < x then some .gt else if x == y then some .eq else none

/-- The number as a document. -/
def toAtom : Number → Atom
  | int n => .int n
  | float x => .float x

end Number

namespace Atom

/-- The number that an atom is.  Truth values are none. -/
def number? : Atom → Option Number
  | int n => some (.int n)
  | float x => some (.float x)
  | _ => none

/-- The number that an atom counts as among keys, where truth values are one and zero. -/
def keyNumber? : Atom → Option Number
  | bool b => some (.int (if b then 1 else 0))
  | a => a.number?

/-- Equality as keys: numbers by value, moments by when they happen, expressions up to the
equality of their degrees. -/
def same : Atom → Atom → Bool
  | null, null => true
  | text s, text t => s = t
  | bytes bs, bytes cs => bs = cs
  | date d, date e => d = e
  | moment m, moment n => m.same n
  | gate g, gate h => g = h
  | expr e, expr f => e.same f
  | a, b =>
      match a.keyNumber?, b.keyNumber? with
      | some m, some n => m.compare? n = some .eq
      | _, _ => false

/-- Whether the first atom comes before the second.  Only two texts, two strings of bytes, two
days, two moments of one kind and two numbers are ordered. -/
def precedes? : Atom → Atom → Option Bool
  | text s, text t => some (Text.precedes s t)
  | bytes bs, bytes cs => some (bs < cs)
  | date d, date e => some (d.precedes e)
  | moment m, moment n => m.precedes? n
  | a, b =>
      match a.keyNumber?, b.keyNumber? with
      | some m, some n => some (m.compare? n = some .lt)
      | _, _ => none

end Atom

namespace Document

/-- Replace the value under a key in place, or append the entry. -/
def bind (key : Atom) (value : Document) : List (Atom × Document) → List (Atom × Document)
  | [] => [(key, value)]
  | (k, v) :: rest => if k.same key then (k, value) :: rest else (k, v) :: bind key value rest

/-- The mapping of a list of pairs: a repeated key keeps its first place and takes the last
value. -/
def ofPairs (pairs : List (Atom × Document)) : Document :=
  .mapping (pairs.foldl (fun es p => bind p.1 p.2 es) [])

/-- The value under a text key. -/
def field? (entries : List (Atom × Document)) (key : String) : Option Document :=
  (entries.find? fun p => p.1 = .text key).map Prod.snd

/-- The number that a document is. -/
def number? : Document → Option Number
  | atom a => a.number?
  | _ => none

/-- Whether a document is null, false, zero or empty. -/
def isVoid : Document → Bool
  | atom .null => true
  | atom (.bool b) => !b
  | atom (.int n) => n = 0
  | atom (.float x) => x == 0.0
  | atom (.text s) => s = ""
  | atom (.bytes bs) => bs.isEmpty
  | atom _ | pair _ _ => false
  | list items => items.isEmpty
  | set elements => elements.isEmpty
  | mapping entries => entries.isEmpty

/-- The document that an expression is. -/
def ofExpr (e : Expr) : Document := .atom (.expr e)

/-- The document that a text is. -/
def ofText (s : String) : Document := .atom (.text s)

end Document

end FuzzyGates
