/-!
# Glob patterns

A glob pattern matches slash-separated paths:

* `*` matches any run of characters other than `/`, and `?` one character other than `/`;
* `**` standing as a whole component matches any number of components, none included; at
  the end of a pattern after `/` it matches everything below, and the directory itself;
* `[abc]`, `[a-z]`, `[!…]` or `[^…]` match one character of a class (or not of it);
* `{a,b,…}` matches any of the alternatives, which may hold any pattern, nested braces too;
* `\` makes the next character stand for itself.

A pattern that is not well formed (a class or brace group left open, an empty class, a `}`
with no `{`, a `\` at the end) matches nothing. Matching follows the pattern from the left;
on a mismatch it resumes at the last `*` with one more character taken by it, and failing
that at the last `**` with one more component taken by it.

* `Glob.isMatch pattern path` says whether a pattern matches a path.
-/

namespace ShaderHeaders.Glob

/-- The answer of a match: it matches, it does not, or the pattern is not well formed. -/
inductive Verdict where
  | yes
  | no
  | bad
  deriving DecidableEq, Repr

/-- Where a match stands: the next pattern and path positions, whether the pattern is at the
start of a component, and the positions to resume at after the last `**` and the last `*`. -/
structure Cursor where
  pat : Nat
  name : Nat
  atSegment : Bool
  deepPat : Option Nat
  deepName : Nat
  starPat : Option Nat
  starName : Nat

/-- The position of the first `c` in `s` from `i` that no `\` escapes. -/
def findUnescaped (s : Array Char) (c : Char) (i : Nat) : Nat → Option Nat
  | 0 => none
  | fuel + 1 =>
    if h : i < s.size then
      if s[i] = '\\' then findUnescaped s c (i + 2) fuel
      else if s[i] = c then some i
      else findUnescaped s c (i + 1) fuel
    else none

/-- The position of the `}` that closes a group whose content starts at `i` and ends before
`stop`, with `depth` groups open. -/
def findClose (s : Array Char) (stop : Nat) (i depth : Nat) : Nat → Option Nat
  | 0 => none
  | fuel + 1 =>
    if i < stop then
      match s[i]? with
      | some '\\' => findClose s stop (i + 2) depth fuel
      | some '{' => findClose s stop (i + 1) (depth + 1) fuel
      | some '}' => if depth = 1 then some i else findClose s stop (i + 1) (depth - 1) fuel
      | _ => findClose s stop (i + 1) depth fuel
    else none

/-- The position of the next `,` at the top level of a group, from `i` up to `stop`. -/
def findComma (s : Array Char) (stop : Nat) (i depth : Nat) : Nat → Option Nat
  | 0 => none
  | fuel + 1 =>
    if i < stop then
      match s[i]? with
      | some '\\' => findComma s stop (i + 2) depth fuel
      | some '{' => findComma s stop (i + 1) (depth + 1) fuel
      | some '}' => findComma s stop (i + 1) (depth - 1) fuel
      | some ',' => if depth = 1 then some i else findComma s stop (i + 1) depth fuel
      | _ => findComma s stop (i + 1) depth fuel
    else none

/-- Whether the pattern from `i` on is well formed: classes closed and nonempty, groups
balanced, no `\` at the end. -/
def wellFormed (s : Array Char) (i depth : Nat) : Nat → Bool
  | 0 => false
  | fuel + 1 =>
    match s[i]? with
    | none => depth = 0
    | some '\\' => if i + 1 < s.size then wellFormed s (i + 2) depth fuel else false
    | some '[' =>
      let j := i + 1
      let j := if s[j]? = some '^' || s[j]? = some '!' then j + 1 else j
      if j ≥ s.size || s[j]? = some ']' then false
      else
        match findUnescaped s ']' j s.size with
        | some k => wellFormed s (k + 1) depth fuel
        | none => false
    | some '{' => wellFormed s (i + 1) (depth + 1) fuel
    | some '}' => if depth = 0 then false else wellFormed s (i + 1) (depth - 1) fuel
    | some _ => wellFormed s (i + 1) depth fuel

/-- The pattern `s` with the group from `start` to `close` replaced by the alternative from
`a` to `b`. -/
def choose (s : Array Char) (start a b close : Nat) : Array Char :=
  s.extract 0 start ++ s.extract a b ++ s.extract (close + 1) s.size

/-- The alternatives of a group whose content runs from `a` to the closing `}` at `close`:
their start and end positions. -/
def alternatives (s : Array Char) (close : Nat) : Nat → Nat → List (Nat × Nat)
  | 0, _ => []
  | fuel + 1, a =>
    match findComma s close a 1 s.size with
    | some c => (a, c) :: alternatives s close fuel (c + 1)
    | none => [(a, close)]

/-- The first answer that is not `no`, trying in order. -/
def firstNotNo : List (Unit → Verdict) → Verdict
  | [] => .no
  | v :: vs =>
    match v () with
    | .no => firstNotNo vs
    | r => r

/-- Whether a whole pattern matches the empty rest of a path: it is empty, `*`, `**`, `/**`,
`**/` or `/**/`, or a group one of whose alternatives makes it so. -/
def matchesEmpty : Nat → Array Char → Verdict
  | 0, _ => .bad
  | fuel + 1, s =>
    let t := String.ofList s.toList
    if t = "" || t = "*" || t = "**" || t = "/**" || t = "**/" || t = "/**/" then .yes
    else if s[0]? = some '{' then
      match findClose s s.size 1 1 s.size with
      | none => .bad
      | some close =>
        firstNotNo ((alternatives s close s.size 1).map fun (a, b) =>
          fun _ => matchesEmpty fuel (s.extract a b ++ s.extract (close + 1) s.size))
    else if wellFormed s 0 0 (s.size + 1) then .no else .bad

/-- Checks one character against a class whose content starts at `i`; answers whether it is
in the class and the position after the character that decided (or after the content). -/
def classScan (s : Array Char) (c : Char) (i : Nat) (last : Option Char) :
    Nat → Bool × Nat
  | 0 => (false, i)
  | fuel + 1 =>
    match s[i]? with
    | none => (false, i)
    | some ']' => (false, i)
    | some r =>
      let i := i + 1
      match last with
      | some lo =>
        if r = '-' && i < s.size && s[i]? ≠ some ']' then
          let i := if s[i]? = some '\\' then i + 1 else i
          let hi := s[i]?.getD '\x00'
          let i := i + 1
          if lo ≤ c && c ≤ hi then (true, i) else classScan s c i none fuel
        else step r i fuel
      | none => step r i fuel
where
  step (r : Char) (i : Nat) (fuel : Nat) : Bool × Nat :=
    let (r, i) := if r = '\\' then (s[i]?.getD '\x00', i + 1) else (r, i)
    if r = c then (true, i) else classScan s c i (some r) fuel

/-- Follows a pattern along a path from a cursor. -/
def run (pat name : Array Char) : Nat → Cursor → Verdict
  | 0, _ => .bad
  | fuel + 1, cur =>
    -- No way to resume: the pattern fails, unless what is left of it is not well formed.
    let fail (cur : Cursor) : Verdict :=
      if cur.pat < pat.size && !wellFormed pat cur.pat 0 (pat.size + 1) then .bad else .no
    -- Resumes at the last `**`, one component further along the path.
    let deep (cur : Cursor) : Verdict :=
      match cur.deepPat with
      | some dp =>
        match (name.toList.drop cur.deepName).idxOf? '/' with
        | some k =>
          run pat name fuel
            { cur with pat := dp, name := cur.deepName + k + 1, deepName := cur.deepName + k + 1
                       atSegment := true }
        | none => fail cur
      | none => fail cur
    -- Resumes after a mismatch at the last `*`, else the last `**`, else fails.
    let resume (cur : Cursor) : Verdict :=
      match cur.starPat with
      | some sp =>
        if name[cur.starName]? ≠ some '/' then
          run pat name fuel
            { cur with pat := sp, name := cur.starName + 1, starName := cur.starName + 1
                       atSegment := false }
        else deep cur
      | none => deep cur
    -- A character that must stand in the path as it is.
    let literal (r : Char) (p : Nat) (cur : Cursor) : Verdict :=
      if name[cur.name]? = some r then
        run pat name fuel { cur with pat := p + 1, name := cur.name + 1, atSegment := r = '/' }
      else resume cur
    if cur.name < name.size then
      match pat[cur.pat]? with
      | none => resume cur
      | some '*' =>
        let p := cur.pat + 1
        if pat[p]? = some '*' then
          let p := p + 1
          if cur.atSegment && p ≥ pat.size then .yes
          else if cur.atSegment && pat[p]? = some '/' then
            run pat name fuel
              { cur with pat := p + 1, deepPat := some (p + 1), deepName := cur.name
                         starPat := none }
          else
            run pat name fuel
              { cur with pat := p, atSegment := false, starPat := some p, starName := cur.name }
        else
          run pat name fuel
            { cur with pat := p, atSegment := false, starPat := some p, starName := cur.name }
      | some '?' =>
        if name[cur.name]? = some '/' then resume { cur with atSegment := false }
        else run pat name fuel
          { cur with pat := cur.pat + 1, name := cur.name + 1, atSegment := false }
      | some '[' =>
        let cur := { cur with atSegment := false }
        let p := cur.pat + 1
        if p ≥ pat.size then .bad
        else
          let negate := pat[p]? = some '!' || pat[p]? = some '^'
          let p := if negate then p + 1 else p
          if p ≥ pat.size || pat[p]? = some ']' then .bad
          else
            let c := name[cur.name]?.getD '\x00'
            let (found, q) := classScan pat c p none pat.size
            if found = negate then
              if q ≥ pat.size then .bad else resume cur
            else
              match findUnescaped pat ']' q pat.size with
              | none => .bad
              | some k => run pat name fuel { cur with pat := k + 1, name := cur.name + 1 }
      | some '{' =>
        let cur := { cur with atSegment := false }
        match findClose pat pat.size (cur.pat + 1) 1 pat.size with
        | none => .bad
        | some close =>
          firstNotNo ((alternatives pat close pat.size (cur.pat + 1)).map fun (a, b) =>
            fun _ => run (choose pat cur.pat a b close) name fuel { cur with atSegment := true })
      | some '\\' =>
        let p := cur.pat + 1
        match pat[p]? with
        | none => .bad
        | some r => literal r p cur
      | some r => literal r cur.pat cur
    else matchesEmpty (pat.size + 1) (pat.extract cur.pat pat.size)

/-- Whether a pattern matches a path; a pattern that is not well formed matches nothing. -/
def isMatch (pattern path : String) : Bool :=
  let pat := pattern.toList.toArray
  let name := path.toList.toArray
  let fuel := 4 * (pat.size + 2) * (pat.size + 2) * (name.size + 2) * (name.size + 2)
  run pat name fuel ⟨0, 0, true, none, 0, none, 0⟩ = .yes

end ShaderHeaders.Glob
