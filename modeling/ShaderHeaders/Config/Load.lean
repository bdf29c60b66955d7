import ShaderHeaders.Config.Basic
import ShaderHeaders.Yaml.Compose
import ShaderHeaders.Yaml.Emit
import ShaderHeaders.Files.Tree

/-!
# Configuration files

A configuration file is a YAML mapping laid over the defaults: `chunks` (`includes`,
`excludes`), `catalog` (`path`), `output` (`format`) and `logging` (`level`, `format`). Keys are
matched exactly and unknown keys are ignored. Any scalar sets a text field; a null scalar leaves
a text field as it was and unsets a list; a null entry of a list is dropped. A value of the wrong
shape is a type error, recorded with its line, and decoding goes on; all type errors are reported
together. A mapping that repeats a key is refused whole.

* `Config.ofYaml bytes` decodes a file over the defaults;
* `Config.load` and `Config.loadFromDir` read it from a file tree (a missing file gives the
  defaults), and validate it;
* `Config.saved` is the configuration written back as YAML.
-/

namespace ShaderHeaders

namespace Yaml.Node

/-- The line where a node starts. -/
def line : Node → Nat
  | .scalar _ _ _ l | .sequence _ _ l | .mapping _ _ l | .alias _ _ l => l

/-- The tag of a node. -/
def tag : Node → String
  | .scalar _ t _ _ | .sequence _ t _ | .mapping _ t _ => t
  | .alias _ _ _ => ""

/-- The text of a scalar, or the name of an alias; empty for a collection. -/
def text : Node → String
  | .scalar v _ _ _ => v
  | .alias name _ _ => name
  | _ => ""

/-- The kind of a node, as a number, for comparing keys. -/
def kind : Node → Nat
  | .scalar .. => 0
  | .sequence .. => 1
  | .mapping .. => 2
  | .alias .. => 3

end Yaml.Node

/-- What a configuration value is decoded into: a text, a list of texts, or one of the
sections or the whole configuration. -/
inductive Slot where
  | text
  | list
  | chunks
  | catalog
  | output
  | logging
  | config
  deriving DecidableEq, Repr

/-- The name of a slot's type in type errors. -/
def Slot.typeName : Slot → String
  | .text => "string"
  | .list => "[]string"
  | .chunks => "config.ChunksConfig"
  | .catalog => "config.CatalogConfig"
  | .output => "config.OutputConfig"
  | .logging => "config.LoggingConfig"
  | .config => "config.Config"

namespace Decode

open Yaml

/-- The type error of a node that cannot go into `slot`: its tag, and for a scalar its text,
cut to seven bytes when longer than ten. -/
def typeError (n : Node) (tag : String) (slot : Slot) : String :=
  let tag := if n.tag.isEmpty then tag else n.tag
  let bytes := Utf8.bytes n.text
  let shown :=
    if tag = "!!seq" || tag = "!!map" then ""
    else if bytes.length > 10 then " `" ++ Utf8.lossy (bytes.take 7) ++ "...`"
    else " `" ++ n.text ++ "`"
  "line " ++ Decimal.ofNat n.line ++ ": cannot unmarshal " ++ tag ++ shown ++ " into " ++
    slot.typeName

/-- The tags under which a scalar's text must resolve to that kind. -/
def checkedTags : List String := ["!!null", "!!bool", "!!int", "!!float", "!!timestamp"]

/-- Whether a scalar's text suits its tag; a float tag also takes an integer. -/
def suits (tag text : String) : Except String Unit :=
  if checkedTags.contains tag then
    let found := Resolve.tagOf text
    let found := if tag ≠ "!!timestamp" && found = "!!timestamp" then "!!str" else found
    if found = tag || (tag = "!!float" && found = "!!int") then .ok ()
    else .error ("yaml: cannot decode " ++ found ++ " `" ++ text ++ "` as a " ++ tag)
  else .ok ()

/-- A scalar's reading: `none` for null, else its text. -/
def scalar (value tag : String) (style : ScalarStyle) : Except String (Option String) :=
  if style ≠ .plain && (tag = "!!str" || tag = "" || tag = "!") then .ok (some value)
  else do
    suits tag value
    pure (if tag = "!!null" then none else some value)

/-- The errors of keys repeated in a mapping, each at its later place. -/
def repeatedKeys (entries : List (Node × Node)) : List String :=
  let keys := entries.map (·.1)
  let indexed := keys.zip (List.range keys.length)
  indexed.flatMap fun (k, i) =>
    (indexed.filter fun (j, m) => m > i && j.kind = k.kind && j.text = k.text).map fun (j, _) =>
      "line " ++ Decimal.ofNat j.line ++ ": mapping key " ++ Quoted.text j.text ++
        " already defined at line " ++ Decimal.ofNat k.line

/-- Follows aliases to the node they stand for. -/
def target : Nat → Node → Node
  | 0, n => n
  | fuel + 1, .alias _ t _ => target fuel t
  | _, n => n

/-- Decodes a node into a text: the new text when one was set, and the type errors met. -/
def text (n : Node) : Except String (Option String × List String) :=
  match target 64 n with
  | .scalar v t s _ => (scalar v t s).map fun r => (r, [])
  | m@(.sequence _ _ _) => .ok (none, [typeError m "!!seq" .text])
  | m@(.mapping es _ _) =>
    let dup := repeatedKeys es
    .ok (none, if dup.isEmpty then [typeError m "!!map" .text] else dup)
  | .alias _ _ _ => .ok (none, [])

/-- Decodes a node into a list of texts: a null unsets the list, a sequence sets it to the
texts of its entries that decode. -/
def list (n : Node) : Except String (Option (Option (List String)) × List String) :=
  match target 64 n with
  | m@(.scalar v t s _) => do
    match ← scalar v t s with
    | none => pure (some none, [])
    | some _ => pure (none, [typeError m t .list])
  | .sequence items _ _ => do
    let rs ← items.mapM text
    pure (some (some (rs.filterMap (·.1))), rs.flatMap (·.2))
  | m@(.mapping es _ _) =>
    let dup := repeatedKeys es
    .ok (none, if dup.isEmpty then [typeError m "!!map" .list] else dup)
  | .alias _ _ _ => .ok (none, [])

/-- A field of a section: its key and how a value is decoded into the section. -/
structure Field (σ : Type) where
  key : String
  set : σ → Node → Except String (σ × List String)

/-- A text field of a section. -/
def textField {σ : Type} (key : String) (put : σ → String → σ) : Field σ :=
  ⟨key, fun s n => (text n).map fun (r, es) => (r.elim s (put s), es)⟩

/-- A list field of a section. -/
def listField {σ : Type} (key : String) (put : σ → Option (List String) → σ) : Field σ :=
  ⟨key, fun s n => (list n).map fun (r, es) => (r.elim s (put s), es)⟩

/-- Decodes the pairs of a mapping into a section, field by field; a field set twice is an
error the second time. -/
def pairs {σ : Type} (slot : Slot) (fields : List (Field σ)) :
    List (Node × Node) → σ → List String → List String → Except String (σ × List String)
  | [], s, _, errs => .ok (s, errs)
  | (k, v) :: rest, s, done, errs => do
    let (key, kerrs) ← text k
    let errs := errs ++ kerrs
    match key with
    | none => pairs slot fields rest s done errs
    | some key =>
      match fields.find? (·.key = key) with
      | none => pairs slot fields rest s done errs
      | some f =>
        if done.contains key then
          pairs slot fields rest s done
            (errs ++ ["line " ++ Decimal.ofNat k.line ++ ": field " ++ key ++
              " already set in type " ++ slot.typeName])
        else
          let (s, verrs) ← f.set s v
          pairs slot fields rest s (key :: done) (errs ++ verrs)

/-- Decodes a node into a section: a mapping sets its fields, a null leaves it. -/
def part {σ : Type} (slot : Slot) (fields : List (Field σ)) (s : σ) (n : Node) :
    Except String (σ × List String) :=
  match target 64 n with
  | m@(.scalar v t st _) => do
    match ← scalar v t st with
    | none => pure (s, [])
    | some _ => pure (s, [typeError m t slot])
  | m@(.sequence _ _ _) => .ok (s, [typeError m "!!seq" slot])
  | .mapping es _ _ =>
    let dup := repeatedKeys es
    if dup.isEmpty then pairs slot fields es s [] [] else .ok (s, dup)
  | .alias _ _ _ => .ok (s, [])

/-- The fields of the chunk selection. -/
def chunkFields : List (Field ChunkSelection) :=
  [listField "includes" fun s v => { s with includes := v },
   listField "excludes" fun s v => { s with excludes := v }]

/-- The fields of the whole configuration. -/
def configFields : List (Field Config) :=
  [⟨"chunks", fun c n => (part .chunks chunkFields c.chunks n).map
      fun (s, es) => ({ c with chunks := s }, es)⟩,
   ⟨"catalog", fun c n => (part .catalog [textField "path" fun (_ : String) v => v] c.catalogPath n).map
      fun (p, es) => ({ c with catalogPath := p }, es)⟩,
   ⟨"output", fun c n => (part .output [textField "format" fun (_ : String) v => v] c.outputFormat n).map
      fun (f, es) => ({ c with outputFormat := f }, es)⟩,
   ⟨"logging", fun c n =>
      (part .logging [textField "level" fun (p : String × String) v => (v, p.2),
                         textField "format" fun (p : String × String) v => (p.1, v)]
        (c.logLevel, c.logFormat) n).map
      fun (lf, es) => ({ c with logLevel := lf.1, logFormat := lf.2 }, es)⟩]

end Decode

namespace Config

/-- A configuration file decoded over `base`, or why it cannot be: a YAML problem, or the type
errors of its values. -/
def ofYamlOver (base : Config) (bytes : List UInt8) : Except String Config :=
  match Yaml.compose bytes with
  | .error f => .error f.message
  | .ok none => .ok base
  | .ok (some root) =>
    match Decode.part .config Decode.configFields base root with
    | .error e => .error e
    | .ok (c, []) => .ok c
    | .ok (_, errs) => .error ("yaml: unmarshal errors:\n  " ++ "\n  ".intercalate errs)

/-- A configuration file decoded over the defaults. -/
def ofYaml (bytes : List UInt8) : Except String Config := ofYamlOver default bytes

/-- The configuration as a YAML value, an unset list written as an empty one. -/
def toYaml (c : Config) : Yaml.Value :=
  let list (xs : Option (List String)) : Yaml.Value := .seq ((xs.getD []).map .str)
  .map [("chunks", .map [("includes", list c.chunks.includes), ("excludes", list c.chunks.excludes)]),
        ("catalog", .map [("path", .str c.catalogPath)]),
        ("output", .map [("format", .str c.outputFormat)]),
        ("logging", .map [("level", .str c.logLevel), ("format", .str c.logFormat)])]

/-- The configuration written as a YAML file, indented by four. -/
def saved (c : Config) : String := c.toYaml.document 4

/-- The configuration in the file at `path` (read from `cwd` when relative): the defaults when
there is no such file, else the file decoded by `decode` and validated. -/
def load (decode : List UInt8 → Except String Config) (t : Tree) (cwd path : String) :
    Except String Config :=
  match t.readFile (Path.components (Path.resolve cwd path)) with
  | .error .notExist => .ok default
  | .error .isDir => .error (FsError.describe "read" path .isDir)
  | .error e => .error (FsError.describe "open" path e)
  | .ok content =>
    match decode content.text with
    | .error e => .error ("parse " ++ path ++ ": " ++ e)
    | .ok c =>
      match c.validate with
      | .error e => .error ("invalid config " ++ path ++ ": " ++ e)
      | .ok () => .ok c

/-- The configuration of the project in `dir`: its `shadersig.yaml`, else its
`.shadersig/config.yaml`, else the defaults. -/
def loadFromDir (decode : List UInt8 → Except String Config) (t : Tree) (cwd dir : String) :
    Except String Config :=
  let exists_ (p : String) : Bool := (t.lookup (Path.components (Path.resolve cwd p))).toBool
  let first := Path.join dir "shadersig.yaml"
  let second := Path.join dir ".shadersig/config.yaml"
  if exists_ first then load decode t cwd first
  else if exists_ second then load decode t cwd second
  else .ok default

end Config

end ShaderHeaders
