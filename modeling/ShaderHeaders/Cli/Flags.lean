import ShaderHeaders.Text.Quoted
import ShaderHeaders.Text.Utf8

/-!
# Command-line flags

A flag has a long name, maybe a one-letter shorthand, and takes a value unless it is a switch
(a boolean, set to `true` when named alone). Arguments are read left to right: `--name=value`,
`--name value`, `--name` for a switch; `-x value`, `-xvalue`, `-x=value`, and a run of switch
letters `-xyz`; `--` ends the flags, and `-` alone or any word not starting with `-` is a
positional argument. A switch's value must be a boolean word (`1`, `t`, `true`, `0`, `f`,
`false`, in their usual cases).

* `Flags.parse` reads arguments against a set of flags: the values set, in order, and the
  positional arguments, or the first error in its standard wording.
-/

namespace ShaderHeaders.Cli

/-- A flag: its long name, its shorthand letter, whether it is a switch, and its help text. -/
structure Flag where
  name : String
  shorthand : Option Char
  switch : Bool
  usage : String
  deriving Repr, DecidableEq

/-- The value of a boolean word, if it is one. -/
def parseBool (s : String) : Option Bool :=
  if ["1", "t", "T", "TRUE", "true", "True"].contains s then some true
  else if ["0", "f", "F", "FALSE", "false", "False"].contains s then some false
  else none

/-- A rune quoted as a character literal, as flag errors show a shorthand. -/
def quoteRune (c : Char) : String :=
  let body := Quoted.rune c
  let body := if c = '"' then "\"" else if c = '\'' then "\\'" else body
  "'" ++ body ++ "'"

/-- The values set by flags (later ones win) and the positional arguments. -/
structure Parsed where
  values : List (String × String)
  positional : List String
  deriving Repr

namespace Parsed

/-- The value last given to a flag. -/
def get? (p : Parsed) (name : String) : Option String :=
  (p.values.reverse.find? (·.1 = name)).map (·.2)

/-- The value of a text flag, empty when unset. -/
def text (p : Parsed) (name : String) : String := (p.get? name).getD ""

/-- Whether a switch is on. -/
def on (p : Parsed) (name : String) : Bool :=
  match p.get? name with
  | some v => (parseBool v).getD false
  | none => false

end Parsed

namespace Flags

/-- The flag of a long name. -/
def byName (fs : List Flag) (n : String) : Option Flag := fs.find? (·.name = n)

/-- The flag of a shorthand byte. -/
def byShorthand (fs : List Flag) (b : UInt8) : Option Flag :=
  fs.find? fun f => match f.shorthand with
    | some c => c.toNat = b.toNat
    | none => false

/-- How a flag is named in an error about its value: `-x, --name` or `--name`. -/
def shownName (f : Flag) : String :=
  match f.shorthand with
  | some c => "-" ++ String.singleton c ++ ", --" ++ f.name
  | none => "--" ++ f.name

/-- Sets a flag, checking a switch's value. -/
def set (f : Flag) (value : String) (p : Parsed) : Except String Parsed :=
  if f.switch && (parseBool value).isNone then
    .error ("invalid argument " ++ Quoted.text value ++ " for " ++ Quoted.text (shownName f) ++
      " flag: strconv.ParseBool: parsing " ++ Quoted.text value ++ ": invalid syntax")
  else .ok { p with values := p.values ++ [(f.name, value)] }

/-- Reads `--name`, `--name=value` or `--name value`. -/
def long (fs : List Flag) (s : String) (rest : List String) (p : Parsed) :
    Except String (List String × Parsed) :=
  let name := (s.drop 2).toString
  if name.isEmpty || name.startsWith "-" || name.startsWith "=" then
    .error ("bad flag syntax: " ++ s)
  else
    let (n, value?) : String × Option String :=
      match name.splitOn "=" with
      | n :: v :: more => (n, some ("=".intercalate (v :: more)))
      | _ => (name, none)
    match byName fs n with
    | none => .error ("unknown flag: --" ++ n)
    | some f =>
      match value? with
      | some v => (set f v p).map fun p => (rest, p)
      | none =>
        if f.switch then (set f "true" p).map fun p => (rest, p)
        else
          match rest with
          | v :: more => (set f v p).map fun p => (more, p)
          | [] => .error ("flag needs an argument: " ++ s)

/-- Reads a run of shorthand letters (as bytes) after one `-`. -/
def short (fs : List Flag) : Nat → List UInt8 → List String → Parsed →
    Except String (List String × Parsed)
  | 0, _, rest, p => .ok (rest, p)
  | _, [], rest, p => .ok (rest, p)
  | fuel + 1, b :: more, rest, p =>
    let shown := Utf8.lossy (b :: more)
    match byShorthand fs b with
    | none =>
      .error ("unknown shorthand flag: " ++ quoteRune (Char.ofNat b.toNat) ++ " in -" ++ shown)
    | some f =>
      if more.length ≥ 2 && more.head? = some 61 then
        (set f (Utf8.lossy (more.drop 1)) p).map fun p => (rest, p)
      else if f.switch then do
        let p ← set f "true" p
        short fs fuel more rest p
      else if !more.isEmpty then (set f (Utf8.lossy more) p).map fun p => (rest, p)
      else
        match rest with
        | v :: after => (set f v p).map fun p => (after, p)
        | [] => .error ("flag needs an argument: " ++ quoteRune (Char.ofNat b.toNat) ++ " in -" ++ shown)

/-- Reads arguments against the flags `fs`. -/
def go (fs : List Flag) : Nat → List String → Parsed → Except String Parsed
  | 0, _, p => .ok p
  | _, [], p => .ok p
  | fuel + 1, s :: rest, p =>
    if s.isEmpty || !s.startsWith "-" || s.length = 1 then
      go fs fuel rest { p with positional := p.positional ++ [s] }
    else if s = "--" then .ok { p with positional := p.positional ++ rest }
    else if s.startsWith "--" then do
      let (rest, p) ← long fs s rest p
      go fs fuel rest p
    else do
      let group := (Utf8.bytes s).drop 1
      let (rest, p) ← short fs (group.length + 1) group rest p
      go fs fuel rest p

/-- The values and positional arguments of `args` under the flags `fs`. -/
def parse (fs : List Flag) (args : List String) : Except String Parsed :=
  go fs (args.length + 1) args ⟨[], []⟩

end Flags

end ShaderHeaders.Cli
