import ShaderHeaders.Chunk.Link
import ShaderHeaders.Json.Value
import ShaderHeaders.Yaml.Emit
import ShaderHeaders.Text.Timestamp

/-!
# What the commands print

A command prints one report: a signature (`parse`), the prototypes of a chunk (`prototypes`),
the links of the catalog's prototypes (`deps`) or the chunks that define a function (`lookup`).
A report is printed in one of three formats:

* `text`: a line per item, `ret name(params)` for a signature, the declaration with its `;`
  for a prototype, `from: proto; -> providers` for a link (`unresolved` when nothing provides
  it) and `path: ret name(params)` for a chunk;
* `json`: an indented document. A signature is `name`, `params` (`null` when there are none;
  a parameter is its `type` and, unless anonymous, its `name`) and `return_type`; a chunk is
  `path`, `mod_time`, its `definition` if any, `prototypes` and its `error` if any; a link is
  `from`, `prototype` and `providers`;
* `yaml`: the same fields as a YAML document, written by the encoder the report is given (the
  program's writes block style indented by two); no parameters is `[]`.

Any other format is an error.

* `Report.render encodeYaml format r` is the printed text or the error.
-/

namespace ShaderHeaders

namespace Parameter

/-- The fields of a parameter: its type and, unless anonymous, its name. -/
def fields (p : Parameter) : List (String × String) :=
  [("type", p.type.render)] ++ if p.name.isEmpty then [] else [("name", p.name)]

end Parameter

namespace Signature

/-- A signature as JSON; no parameters is `null`. -/
def json (s : Signature) : Json.Value :=
  .obj [("name", .str s.name),
        ("params", if s.params.isEmpty then .null
          else .arr (s.params.map fun p => .obj (p.fields.map fun (k, v) => (k, .str v)))),
        ("return_type", .str s.returnType.render)]

/-- A signature as YAML; no parameters is an empty sequence. -/
def yaml (s : Signature) : Yaml.Value :=
  .map [("name", .str s.name),
        ("params", .seq (s.params.map fun p => .map (p.fields.map fun (k, v) => (k, .str v)))),
        ("return_type", .str s.returnType.render)]

end Signature

namespace Chunk

/-- A chunk as JSON. -/
def json (c : Chunk) : Json.Value :=
  .obj ([("path", .str c.path), ("mod_time", .str c.modTime.render)] ++
    (match c.definition? with
     | some d => [("definition", d.json)]
     | none => []) ++
    [("prototypes", .arr (c.prototypes.map Signature.json))] ++
    (if c.error.isEmpty then [] else [("error", .str c.error)]))

/-- A chunk as YAML; the time is written plain. -/
def yaml (c : Chunk) : Yaml.Value :=
  .map ([("path", .str c.path), ("mod_time", .plain c.modTime.render)] ++
    (match c.definition? with
     | some d => [("definition", d.yaml)]
     | none => []) ++
    [("prototypes", .seq (c.prototypes.map Signature.yaml))] ++
    (if c.error.isEmpty then [] else [("error", .str c.error)]))

end Chunk

namespace Link

/-- A link as JSON. -/
def json (l : Link) : Json.Value :=
  .obj [("from", .str l.source), ("prototype", l.prototype.json),
        ("providers", .arr (l.providers.map .str))]

/-- A link as YAML. -/
def yaml (l : Link) : Yaml.Value :=
  .map [("from", .str l.source), ("prototype", l.prototype.yaml),
        ("providers", .seq (l.providers.map .str))]

/-- The text line of a link. -/
def line (l : Link) : String :=
  l.source ++ ": " ++ l.prototype.prototype ++ " -> " ++
    (if l.resolved then ", ".intercalate l.providers else "unresolved") ++ "\n"

end Link

/-- What a command prints. -/
inductive Report where
  | signature (s : Signature)
  | prototypes (ps : List Signature)
  | links (ls : List Link)
  | chunks (cs : List Chunk)

namespace Report

/-- The report as JSON. -/
def json : Report → Json.Value
  | signature s => s.json
  | prototypes ps => .arr (ps.map Signature.json)
  | links ls => .arr (ls.map Link.json)
  | chunks cs => .arr (cs.map Chunk.json)

/-- The report as YAML. -/
def yaml : Report → Yaml.Value
  | signature s => s.yaml
  | prototypes ps => .seq (ps.map Signature.yaml)
  | links ls => .seq (ls.map Link.yaml)
  | chunks cs => .seq (cs.map Chunk.yaml)

/-- The report as text lines. -/
def text : Report → String
  | signature s => s.render ++ "\n"
  | prototypes ps => String.join (ps.map fun p => p.prototype ++ "\n")
  | links ls => String.join (ls.map Link.line)
  | chunks cs => String.join (cs.map fun c =>
      c.path ++ ": " ++ ((c.definition?.map Signature.render).getD "") ++ "\n")

/-- The report printed in a format, YAML by `encodeYaml`, or why the format is none. -/
def render (encodeYaml : Yaml.Value → String) (format : String) (r : Report) :
    Except String String :=
  if format = "json" then .ok r.json.document
  else if format = "yaml" then .ok (encodeYaml r.yaml)
  else if format = "text" then .ok r.text
  else .error ("unknown output format " ++ Quoted.text format)

end Report

end ShaderHeaders
