import ShaderHeaders.Chunk.Basic
import ShaderHeaders.Glsl.Json

/-!
# Chunks as JSON

The catalog stores a chunk as the compact JSON object
`{"path": …, "mod_time": …, "definition": …, "prototypes": […], "error": …}`: the time as
RFC 3339 with nanoseconds, the definition only when there is one, the prototypes as an array
even when there are none, and the error only when it is not empty. A time whose year is outside
0 to 9999, or a signature with an invalid type name, has no JSON form; the first of them in the
order of the fields is the reason.

Reading goes member by member as for a signature (`Reading`). `null` leaves the path, the time
and the error as they were, and clears the definition and the prototypes. A time must be a
string in the strict RFC 3339 form, and one that is not stops the reading, as a type name that
is no spelling does. The definition and the error are read apart, and the chunk has the
definition when one was read, or else the error.

* `Chunk.encode` gives the bytes stored for a chunk and `Chunk.decode` reads them back.
-/

namespace ShaderHeaders

namespace Timestamp

/-- Why a time has no JSON form: its year does not have four digits. -/
def marshalMessage : String :=
  "json: error calling MarshalJSON for type time.Time: " ++
    "Time.MarshalJSON: year outside of range [0,9999]"

/-- The JSON form of a timestamp: its RFC 3339 text, for a year from 0 to 9999. -/
def toJson (t : Timestamp) : Except String Json.Value :=
  if 0 ≤ t.year ∧ t.year ≤ 9999 then .ok (.str t.render) else .error marshalMessage

/-- Why a text is not a time of the strict RFC 3339 form. -/
def parseMessage (s : String) : String :=
  "parsing time \"" ++ s ++ "\" as \"2006-01-02T15:04:05Z07:00\""

/-- Reads a time field: `null` leaves it, a string must be a time, any other value stops. -/
def readJson (t : Timestamp) : Json.Value → Except String Timestamp
  | .null => .ok t
  | .str s =>
    match ofText? s with
    | some t' => .ok t'
    | none => .error (parseMessage s)
  | _ => .error "Time.UnmarshalJSON: input is not a JSON string"

end Timestamp

namespace Chunk

/-- The JSON form of a chunk, or why it has none. -/
def toJson (c : Chunk) : Except String Json.Value := do
  let time ← c.modTime.toJson
  let definition ← match c.definition with
    | .ok d => do
      let v ← d.toJson
      pure [("definition", v)]
    | .error _ => pure []
  let prototypes ← c.prototypes.mapM Signature.toJson
  pure (.obj ([("path", .str c.path), ("mod_time", time)] ++ definition ++
    [("prototypes", .arr prototypes)] ++ if c.error.isEmpty then [] else [("error", .str c.error)]))

/-- The bytes the catalog stores for a chunk: its compact JSON text. -/
def encode (c : Chunk) : Except String (List UInt8) :=
  c.toJson.map fun v => Utf8.bytes v.compact

/-- A chunk being read: its fields as they stand, with the definition and the error apart. -/
structure Fields where
  path : String
  modTime : Timestamp
  definition : Option Signature
  prototypes : List Signature
  error : String

namespace Fields

/-- The fields before anything is read: no path, the zero time, nothing found. -/
def zero : Fields := ⟨"", Timestamp.zero, none, [], ""⟩

/-- The chunk the fields make: the definition when one was read, or else the error. -/
def chunk (f : Fields) : Chunk where
  path := f.path
  modTime := f.modTime
  definition := match f.definition with
    | some d => .ok d
    | none => .error f.error
  prototypes := f.prototypes

end Fields

/-- Reads the `definition` member: an object into a fresh signature, `null` as no definition. -/
def readDefinition (r : Reading Fields) : Json.Value → Except String (Reading Fields)
  | .null => .ok { r with value := { r.value with definition := none } }
  | v => do
    let s ← Reading.object Signature.empty (Signature.readMembers "definition.")
      (Json.mismatch · "Chunk.definition" "glsl.Signature") v
    pure (({ r with value := { r.value with definition := some s.value } } : Reading Fields).merge
      s.mismatch)

/-- Reads one member of a chunk object into `r`. -/
def readMember (r : Reading Fields) : String × Json.Value → Except String (Reading Fields)
  | (k, v) =>
    if Json.keyMatches k "path" then
      .ok (r.text "Chunk.path" (fun f p => { f with path := p }) v)
    else if Json.keyMatches k "mod_time" then do
      let t ← r.value.modTime.readJson v
      pure { r with value := { r.value with modTime := t } }
    else if Json.keyMatches k "definition" then readDefinition r v
    else if Json.keyMatches k "prototypes" then
      r.list "Chunk.prototypes" "[]glsl.Signature"
        (Reading.object Signature.empty (Signature.readMembers "prototypes.")
          (Json.mismatch · "Chunk.prototypes" "glsl.Signature"))
        (fun f ps => { f with prototypes := ps }) v
    else if Json.keyMatches k "error" then
      .ok (r.text "Chunk.error" (fun f e => { f with error := e }) v)
    else .ok r

/-- Reads the members of a chunk object into `r`, one after the other. -/
def readMembers (r : Reading Fields) (ms : List (String × Json.Value)) :
    Except String (Reading Fields) :=
  ms.foldlM readMember r

/-- Reads a chunk from a JSON value, or says why it cannot be read. -/
def ofJson (v : Json.Value) : Except String Chunk := do
  let r ← Reading.object Fields.zero readMembers (Json.valueMismatch · "chunks.Chunk") v
  let f ← r.result
  pure f.chunk

/-- Reads a chunk from the bytes the catalog stores. -/
def decode (bs : List UInt8) : Except String Chunk :=
  match Json.parse bs with
  | .error e => .error e.message
  | .ok v => ofJson v

end Chunk

end ShaderHeaders
