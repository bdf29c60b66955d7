import ShaderHeaders.Yaml.Resolve
import ShaderHeaders.Text.Decimal

/-!
# Writing YAML

Values are written in block style: a mapping as `key: value` lines, a sequence as `- item`
lines, an empty collection as `[]` or `{}`. A collection under a mapping key starts on the
next line, at the next multiple of the indentation step; one under a sequence item starts on
the item's line, two columns in, past the `- `.

A string is written plain when it reads back as the same string and nothing in it is taken for
an indicator, else in single quotes, else in double quotes with escapes; a string with a line
feed is written as a literal block when that is possible.

* `Scalar.analyze` decides which of the styles a string allows;
* `Value.document step v` is the whole document, ending in a line feed.
-/

namespace ShaderHeaders.Yaml

/-- A value to write: a string, a string asked to be written plain (as a time is), an integer, a
boolean, a sequence or a mapping with keys in order. -/
inductive Value where
  | str (s : String)
  | plain (s : String)
  | int (n : Int)
  | bool (b : Bool)
  | seq (items : List Value)
  | map (entries : List (String × Value))
deriving Inhabited, Repr

namespace Scalar

/-- A rune that may stand in a scalar as it is. -/
def isPrintable (c : Char) : Bool :=
  let v := c.toNat
  v = 0x0A || (0x20 ≤ v && v ≤ 0x7E) || (0xA0 ≤ v && v ≤ 0xD7FF) ||
    (0xE000 ≤ v && v ≤ 0xFFFD && v ≠ 0xFEFF)

/-- A line break. -/
def isBreak (c : Char) : Bool :=
  c = '\r' || c = '\n' || c.toNat = 0x85 || c.toNat = 0x2028 || c.toNat = 0x2029

/-- A space or tab. -/
def isBlank (c : Char) : Bool := c = ' ' || c = '\t'

/-- The styles a string allows. -/
structure Styles where
  multiline : Bool
  plain : Bool
  singleQuoted : Bool
  block : Bool
deriving Repr

/-- What a scan of a string's runes finds. -/
structure Findings where
  indicators : Bool := false
  breaks : Bool := false
  special : Bool := false
  tabs : Bool := false
  leadingSpace : Bool := false
  leadingBreak : Bool := false
  trailingSpace : Bool := false
  trailingBreak : Bool := false
  breakSpace : Bool := false
  spaceBreak : Bool := false
  previousSpace : Bool := false
  previousBreak : Bool := false
  precededByBlank : Bool := true

/-- Scans the runes of a string at positions `i` onwards. -/
def scan (cs : Array Char) : Nat → Nat → Findings → Findings
  | 0, _, f => f
  | n + 1, i, f =>
    if h : i < cs.size then
      let c := cs[i]
      let last := i + 1 = cs.size
      let followedByBlank := last || isBlank (cs.getD (i + 1) ' ')
      let indicator :=
        if i = 0 then
          "#,[]\x7b\x7d&*!|>'\"%@".contains c || c.toNat = 96 ||
            ((c = '?' || c = ':') && followedByBlank) || (c = '-' && followedByBlank)
        else
          (c = ':' && followedByBlank) || (c = '#' && f.precededByBlank)
      let f := { f with indicators := f.indicators || indicator }
      let f :=
        if c = '\t' then { f with tabs := true }
        else if !isPrintable c then { f with special := true } else f
      let f :=
        if c = ' ' then
          { f with leadingSpace := f.leadingSpace || i = 0,
                   trailingSpace := f.trailingSpace || last,
                   breakSpace := f.breakSpace || f.previousBreak,
                   previousSpace := true, previousBreak := false }
        else if isBreak c then
          { f with breaks := true, leadingBreak := f.leadingBreak || i = 0,
                   trailingBreak := f.trailingBreak || last,
                   spaceBreak := f.spaceBreak || f.previousSpace,
                   previousSpace := false, previousBreak := true }
        else { f with previousSpace := false, previousBreak := false }
      scan cs n (i + 1) { f with precededByBlank := isBlank c || isBreak c || c.toNat = 0 }
    else f

/-- The styles a string allows. A leading or trailing blank or break rules out plain; a break
next to a space rules out quotes; a tab or a rune outside the printable set rules out plain
and single quotes, and a rune outside the set also a block. -/
def analyze (s : String) : Styles :=
  if s.isEmpty then ⟨false, true, true, false⟩
  else
    let cs := s.toList.toArray
    let start := s.startsWith "---" || s.startsWith "..."
    let f := scan cs cs.size 0 { indicators := start }
    let edges := f.leadingSpace || f.leadingBreak || f.trailingSpace || f.trailingBreak
    let plain := !(edges || f.breakSpace || f.spaceBreak || f.tabs || f.special || f.breaks ||
      f.indicators)
    let single := !(f.breakSpace || f.spaceBreak || f.tabs || f.special)
    let block := !(f.trailingSpace || f.spaceBreak || f.special)
    ⟨f.breaks, plain, single, block⟩

/-- The upper-case hexadecimal digits of `n`, padded with zeros to `width`. -/
def hexUpper (width n : Nat) : String :=
  let ds := (Nat.toDigits 16 n).map Char.toUpper
  String.ofList (List.replicate (width - ds.length) '0' ++ ds)

/-- The escaped form of one rune inside double quotes. -/
def escapeRune (c : Char) : String :=
  let v := c.toNat
  if !isPrintable c || v = 0xFEFF || isBreak c || c = '"' || c = '\\' then
    if v = 0 then "\\0" else if v = 7 then "\\a" else if v = 8 then "\\b"
    else if v = 9 then "\\t" else if v = 10 then "\\n" else if v = 11 then "\\v"
    else if v = 12 then "\\f" else if v = 13 then "\\r" else if v = 27 then "\\e"
    else if c = '"' then "\\\"" else if c = '\\' then "\\\\"
    else if v = 0x85 then "\\N" else if v = 0xA0 then "\\_"
    else if v = 0x2028 then "\\L" else if v = 0x2029 then "\\P"
    else if v ≤ 0xFF then "\\x" ++ hexUpper 2 v
    else if v ≤ 0xFFFF then "\\u" ++ hexUpper 4 v
    else "\\U" ++ hexUpper 8 v
  else String.singleton c

/-- A string in double quotes. -/
def doubleQuoted (s : String) : String := "\"" ++ String.join (s.toList.map escapeRune) ++ "\""

/-- A string in single quotes, each quote doubled. -/
def singleQuoted (s : String) : String :=
  "'" ++ String.join (s.toList.map fun c => if c = '\'' then "''" else String.singleton c) ++ "'"

/-- The chomping indicator of a literal block: `-` when the text does not end in a break, `+`
when it ends in two (or is one break), none when it ends in exactly one. -/
def chomping (s : String) : String :=
  match s.toList.reverse with
  | [] => "-"
  | c :: rest =>
    if !isBreak c then "-"
    else
      match rest with
      | [] => "+"
      | d :: _ => if isBreak d then "+" else ""

/-- A literal block: the indicator line, then each line of the text at `indent` (empty lines
stay empty). -/
def literal (step indent : Nat) (s : String) : String :=
  let cs := s.toList
  let hint := match cs with
    | c :: _ => if c = ' ' || isBreak c then Decimal.ofNat step else ""
    | [] => ""
  let pad := String.ofList (List.replicate indent ' ')
  let body := (cs.foldl (fun (acc, atStart) c =>
      if isBreak c then (acc.push c, true)
      else ((if atStart then acc ++ pad else acc).push c, false)) ("", true)).1
  let body := if body.endsWith "\n" then body else body ++ "\n"
  "|" ++ hint ++ chomping s ++ "\n" ++ body

end Scalar

/-- How a string is written: the text, and whether it ends its own line (a literal block does). -/
def scalarText (step indent : Nat) (s : String) : String × Bool :=
  let styles := Scalar.analyze s
  let canPlain := Resolve.plainIsString s
  if s.contains '\n' then
    if styles.block then (Scalar.literal step indent s, true)
    else (Scalar.doubleQuoted s, false)
  else if !canPlain then (Scalar.doubleQuoted s, false)
  else if styles.plain then (s, false)
  else if styles.singleQuoted then (Scalar.singleQuoted s, false)
  else (Scalar.doubleQuoted s, false)

/-- How a string asked to be written plain is written: plain when nothing in it forbids that,
else quoted as any string. -/
def plainText (s : String) : String :=
  let styles := Scalar.analyze s
  if styles.plain then s
  else if styles.singleQuoted then Scalar.singleQuoted s
  else Scalar.doubleQuoted s

/-- The next multiple of `step` past `indent`. -/
def deeper (step indent : Nat) : Nat := step * ((indent + step) / step)

/-- Spaces to column `n`. -/
def spaces (n : Nat) : String := String.ofList (List.replicate n ' ')

/-- The text of a scalar value, with whether it ended its own line. -/
def Value.scalar? (step indent : Nat) : Value → Option (String × Bool)
  | .str s => some (scalarText step indent s)
  | .plain s => some (plainText s, false)
  | .int n => some (Decimal.ofInt n, false)
  | .bool b => some (if b then "true" else "false", false)
  | .seq [] => some ("[]", false)
  | .map [] => some ("\x7b\x7d", false)
  | _ => none

mutual

/-- The lines of a value written at `indent`; `inItem` when it stands right after a `- `, so
that its first line continues that line. -/
def Value.block (step : Nat) : Value → Nat → String
  | .seq (item :: items), indent => Value.items step (item :: items) indent
  | .map (entry :: entries), indent => Value.entries step (entry :: entries) indent
  | v, indent =>
    match v.scalar? step (indent + 2) with
    | some (t, ends) => if ends then t else t ++ "\n"
    | none => "\n"

/-- The items of a sequence at `indent`: the first continues the current line. -/
def Value.items (step : Nat) : List Value → Nat → String
  | [], _ => ""
  | v :: rest, indent =>
    let here :=
      match v with
      | .seq (_ :: _) | .map (_ :: _) => "- " ++ Value.block step v (indent + 2)
      | _ =>
        match v.scalar? step (indent + 2) with
        | some (t, ends) => "- " ++ t ++ (if ends then "" else "\n")
        | none => "- \n"
    let next := Value.items step rest indent
    here ++ (if next.isEmpty then "" else spaces indent ++ next)

/-- The entries of a mapping at `indent`: the first continues the current line. -/
def Value.entries (step : Nat) : List (String × Value) → Nat → String
  | [], _ => ""
  | (k, v) :: rest, indent =>
    let here :=
      match v with
      | .seq (_ :: _) | .map (_ :: _) =>
        let inner := deeper step indent
        k ++ ":\n" ++ spaces inner ++ Value.block step v inner
      | _ =>
        match v.scalar? step (deeper step indent) with
        | some (t, ends) => k ++ ": " ++ t ++ (if ends then "" else "\n")
        | none => k ++ ":\n"
    let next := Value.entries step rest indent
    here ++ (if next.isEmpty then "" else spaces indent ++ next)

end

/-- A whole document with indentation step `step`. -/
def Value.document (step : Nat) (v : Value) : String := Value.block step v 0

end ShaderHeaders.Yaml
