import FuzzyGates.Yaml.Cursor

/-!
# Plain scalars

A plain scalar ends where something else can begin.  A line break inside it
counts as a space, unless empty lines follow it, which count as line breaks.
-/

namespace FuzzyGates.Yaml

/-- A run of line breaks as part of a scalar. -/
def foldBreaks (first : Char) (more : List Char) : List Char :=
  if first ≠ '\n' then first :: more else if more.isEmpty then [' '] else more

/-- The characters of a plain scalar up to a gap, a colon before a gap, or a sign of a flow
collection if inside one. -/
def plainRun (inFlow : Bool) : List Char → List Char
  | [] => []
  | c :: rest =>
      let colonEnds := gapNext rest || (inFlow && rest.head?.any fun d => d ∈ ",[]{}".toList)
      if isGap c || (c = ':' && colonEnds) || (inFlow && c ∈ ",?[]{}".toList) then []
      else c :: plainRun inFlow rest

/-- Line breaks and spaces between the lines of a plain scalar, up to a document mark. -/
def plainBreaks : Nat → Cursor → Option (List Char × Cursor)
  | 0, c => some ([], c)
  | fuel + 1, c =>
      match c.rest with
      | ' ' :: _ => plainBreaks fuel c.next
      | _ =>
          if c.atBreak then
            let (b, c) := c.passBreak
            if c.atDocumentMark then none
            else (plainBreaks fuel c).map fun (bs, c) => (b :: bs, c)
          else some ([], c)

/-- What stands between two runs of a plain scalar, whether it spans lines, and the place after
it. -/
def plainGap (c : Cursor) : List Char × Bool × Cursor :=
  let after := c.skipWhile (· = ' ')
  if after.atBreak then
    let (b, next) := after.passBreak
    if next.atDocumentMark then ([], true, next)
    else
      match plainBreaks next.rest.length next with
      | some (bs, last) => (foldBreaks b bs, true, last)
      | none => ([], true, next)
  else (c.rest.takeWhile (· = ' '), false, after)

/-- A plain scalar whose further lines are indented by at least `indent`, and whether a new line
has begun after it. -/
def plainFrom (inFlow : Bool) (indent : Int) : Nat → Bool → Cursor → List Char × Bool × Cursor
  | 0, newLine, c => ([], newLine, c)
  | fuel + 1, newLine, c =>
      let run := plainRun inFlow c.rest
      if run.isEmpty || c.rest.head? = some '#' then ([], newLine, c)
      else
        let (gap, broken, after) := plainGap (c.skip run.length)
        if gap.isEmpty || after.rest.head? = some '#' || (!inFlow && (after.column : Int) < indent)
        then (run, broken, after)
        else
          let (more, newLine, last) := plainFrom inFlow indent fuel broken after
          (run ++ (if more.isEmpty then [] else gap ++ more), newLine, last)

end FuzzyGates.Yaml
