/-!
# What a plain YAML scalar stands for

An untagged plain scalar is read as null, a boolean, an integer, a float, a timestamp or a
string by its spelling. The first rune narrows the choice: a sign or a digit may start a number
or a date, `.` a float, one of `yYnNtTfFoO~` a word of the fixed tables, and any other rune
leaves a string. Integers are read with base prefixes (`0x`, `0o`, `0b`, a leading `0` for
octal) after dropping every `_`, within 64 bits signed or unsigned; a float must have decimal
digits and an optional exponent and stay below the largest double after rounding.

* `Resolve.tagOf s` is the short tag (`!!null`, `!!bool`, `!!int`, `!!float`, `!!timestamp`
  or `!!str`) of the plain scalar `s`;
* `Resolve.plainIsString s` is whether `s` may be written plain and read back as the same
  string: it must resolve to a string and not look like a sexagesimal number or an old
  boolean word (`yes`, `off`, ...), which other readers take for those.
-/

namespace ShaderHeaders.Yaml.Resolve

/-- The spellings of null. -/
def nullWords : List String := ["", "~", "null", "Null", "NULL"]

/-- The spellings of a boolean. -/
def boolWords : List String := ["true", "True", "TRUE", "false", "False", "FALSE"]

/-- The spellings of infinities and not-a-number. -/
def floatWords : List String :=
  [".nan", ".NaN", ".NAN", ".inf", ".Inf", ".INF", "+.inf", "+.Inf", "+.INF",
   "-.inf", "-.Inf", "-.INF"]

/-- The boolean words of older YAML, kept quoted on output. -/
def oldBoolWords : List String :=
  ["y", "Y", "yes", "Yes", "YES", "on", "On", "ON", "n", "N", "no", "No", "NO", "off", "Off", "OFF"]

/-- A decimal digit. -/
def isDigit (c : Char) : Bool := '0' ≤ c && c ≤ '9'

/-- The value of a digit or letter as a digit of a base up to 36, or 99. -/
def digitValue (c : Char) : Nat :=
  if isDigit c then c.toNat - '0'.toNat
  else if 'a' ≤ c && c ≤ 'z' then c.toNat - 'a'.toNat + 10
  else if 'A' ≤ c && c ≤ 'Z' then c.toNat - 'A'.toNat + 10
  else 99

/-- The value of digits in `base`; no digits read as zero. -/
def digits (base : Nat) (cs : List Char) : Option Nat :=
  cs.foldlM (fun acc c => if digitValue c < base then some (acc * base + digitValue c) else none) 0

/-- An unsigned integer with an optional base prefix, below `2 ^ 64`. -/
def unsigned (cs : List Char) : Option Nat :=
  let value : Option Nat :=
    match cs with
    | [] => none
    | '0' :: rest =>
      match rest with
      | c :: more =>
        if !more.isEmpty && (c = 'b' || c = 'B') then digits 2 more
        else if !more.isEmpty && (c = 'o' || c = 'O') then digits 8 more
        else if !more.isEmpty && (c = 'x' || c = 'X') then digits 16 more
        else digits 8 rest
      | [] => some 0
    | _ => digits 10 cs
  value.bind fun v => if v < Nat.pow 2 64 then some v else none

/-- A signed integer with an optional sign and base prefix, within 64 bits. -/
def signed (cs : List Char) : Option Int :=
  match cs with
  | '+' :: rest => (unsigned rest).bind fun v => if v < Nat.pow 2 63 then some (v : Int) else none
  | '-' :: rest => (unsigned rest).bind fun v => if v ≤ Nat.pow 2 63 then some (-(v : Int)) else none
  | _ => (unsigned cs).bind fun v => if v < Nat.pow 2 63 then some (v : Int) else none

/-- Splits off the leading run of decimal digits. -/
def digitRun (cs : List Char) : List Char × List Char := (cs.takeWhile isDigit, cs.dropWhile isDigit)

/-- The mantissa digits, fraction length and exponent of a decimal float
`[-+]?(\.[0-9]+|[0-9]+(\.[0-9]*)?)([eE][-+]?[0-9]+)?`, or `none`. -/
def decimalFloat (cs : List Char) : Option (List Char × Nat × Int) :=
  let cs := match cs with
    | '+' :: rest => rest
    | '-' :: rest => rest
    | _ => cs
  let (whole, rest) := digitRun cs
  let (frac, rest, ok) : List Char × List Char × Bool :=
    match rest with
    | '.' :: more =>
      let (f, r) := digitRun more
      (f, r, !whole.isEmpty || !f.isEmpty)
    | _ => ([], rest, !whole.isEmpty)
  if !ok then none
  else
    match rest with
    | [] => some (whole ++ frac, frac.length, 0)
    | e :: more =>
      if e = 'e' || e = 'E' then
        let (neg, more) : Bool × List Char :=
          match more with
          | '+' :: r => (false, r)
          | '-' :: r => (true, r)
          | _ => (false, more)
        if !more.isEmpty && more.all isDigit then
          let x : Int := ((digits 10 more).getD 0 : Nat)
          some (whole ++ frac, frac.length, if neg then -x else x)
        else none
      else none

/-- Half a unit past the largest double: a decimal value at or above it reads as an overflow. -/
def overflowBound : Nat := Nat.pow 2 1024 - Nat.pow 2 970

/-- Whether `m × 10 ^ e` reaches the overflow bound. -/
def overflows (m : Nat) (e : Int) : Bool :=
  if m = 0 then false
  else
    let d := (Nat.toDigits 10 m).length
    if (d : Int) - 1 + e ≥ 309 then true
    else if (d : Int) + e ≤ 308 then false
    else if e ≥ 0 then m * Nat.pow 10 e.toNat ≥ overflowBound
    else m ≥ overflowBound * Nat.pow 10 (-e).toNat

/-- Whether a decimal float spelling reads as a finite double. -/
def finiteFloat (cs : List Char) : Bool :=
  match decimalFloat cs with
  | some (ds, fracLen, e) => !overflows ((digits 10 ds).getD 0) (e - fracLen)
  | none => false

/-- The number of days in a month of a year. -/
def daysIn (month year : Nat) : Nat :=
  if month = 2 then (if year % 4 = 0 && (year % 100 ≠ 0 || year % 400 = 0) then 29 else 28)
  else if month = 4 || month = 6 || month = 9 || month = 11 then 30
  else 31

/-- Reads one or two digits. -/
def number12 (cs : List Char) : Option (Nat × List Char) :=
  match cs with
  | a :: b :: rest =>
    if !isDigit a then none
    else if isDigit b then some (digitValue a * 10 + digitValue b, rest)
    else some (digitValue a, b :: rest)
  | [a] => if isDigit a then some (digitValue a, []) else none
  | [] => none

/-- Reads exactly two digits. -/
def number2 (cs : List Char) : Option Nat :=
  match cs with
  | [a, b] => if isDigit a && isDigit b then some (digitValue a * 10 + digitValue b) else none
  | _ => none

/-- Reads `H:M:S` with an optional fraction, each field of one or two digits. -/
def clock (cs : List Char) : Option (List Char) := do
  let (h, cs) ← number12 cs
  let cs ← match cs with | ':' :: r => some r | _ => none
  let (m, cs) ← number12 cs
  let cs ← match cs with | ':' :: r => some r | _ => none
  let (sec, cs) ← number12 cs
  if h ≥ 24 || m ≥ 60 || sec ≥ 60 then none
  else
    match cs with
    | p :: d :: rest =>
      if (p = '.' || p = ',') && isDigit d then some (rest.dropWhile isDigit) else some cs
    | _ => some cs

/-- Reads a zone: `Z`, or a sign with `hh:mm`. -/
def zone (cs : List Char) : Option (List Char) :=
  match cs with
  | 'Z' :: rest => some rest
  | s :: h1 :: h2 :: ':' :: m1 :: m2 :: rest =>
    match number2 [h1, h2], number2 [m1, m2] with
    | some h, some m =>
      if (s = '+' || s = '-') && h ≤ 24 && m ≤ 60 then some rest else none
    | _, _ => none
  | _ => none

/-- Whether a spelling is a timestamp: a date `YYYY-M-D`, alone, or with a time after `T`, `t`
(then with a zone) or a space. -/
def isTimestamp (s : String) : Bool :=
  let cs := s.toList
  let year := cs.takeWhile isDigit
  match year.length, cs.drop 4 with
  | 4, '-' :: rest =>
    let date : Option (List Char) := do
      let (mo, r) ← number12 rest
      let r ← match r with | '-' :: r => some r | _ => none
      let (d, r) ← number12 r
      let y := (digits 10 year).getD 0
      if mo = 0 || mo > 12 || d = 0 || d > daysIn mo y then none else some r
    match date with
    | some [] => true
    | some (sep :: r) =>
      if sep = 'T' || sep = 't' then
        match (clock r).bind zone with
        | some [] => true
        | _ => false
      else if sep = ' ' then
        match clock r with
        | some [] => true
        | _ => false
      else false
    | none => false
  | _, _ => false

/-- Whether a spelling looks like a sexagesimal number, `[-+]?[0-9][0-9_]*(:[0-5]?[0-9])+(\.[0-9_]*)?`. -/
def isBase60 (s : String) : Bool :=
  let cs := match s.toList with
    | '+' :: rest => rest
    | '-' :: rest => rest
    | cs => cs
  match cs with
  | c :: rest =>
    if !isDigit c then false
    else
      let rest := rest.dropWhile fun c => isDigit c || c = '_'
      let rec groups : Nat → List Char → Bool → Bool
        | 0, _, _ => false
        | n + 1, cs, seen =>
          match cs with
          | ':' :: a :: b :: more =>
            if isDigit a && isDigit b && a ≤ '5' then groups n more true
            else if isDigit a then groups n (b :: more) true
            else false
          | [':', a] => isDigit a
          | '.' :: more => seen && more.all fun c => isDigit c || c = '_'
          | [] => seen
          | _ => false
      groups (rest.length + 1) rest false
  | [] => false

/-- The short tag of an untagged plain scalar. -/
def tagOf (s : String) : String :=
  let cs := s.toList
  let first := cs.head?.getD (Char.ofNat 0)
  let hinted := s.isEmpty || first = '+' || first = '-' || isDigit first ||
    "yYnNtTfFoO~".contains first || first = '.'
  if !hinted then "!!str"
  else if boolWords.contains s then "!!bool"
  else if nullWords.contains s then "!!null"
  else if floatWords.contains s then "!!float"
  else if first = '.' then
    (if finiteFloat cs then "!!float" else "!!str")
  else if first = '+' || first = '-' || isDigit first then
    let plain := cs.filter (· ≠ '_')
    if isTimestamp s then "!!timestamp"
    else if (signed plain).isSome || (unsigned plain).isSome then "!!int"
    else if finiteFloat plain then "!!float"
    else "!!str"
  else "!!str"

/-- Whether a string may be written plain and read back as the same string. -/
def plainIsString (s : String) : Bool :=
  tagOf s = "!!str" && !isBase60 s && !oldBoolWords.contains s

/-- The short form of a tag in the standard namespace. -/
def shortTag (t : String) : String :=
  if t.startsWith "tag:yaml.org,2002:" then "!!" ++ (t.drop 18).toString else t

end ShaderHeaders.Yaml.Resolve
