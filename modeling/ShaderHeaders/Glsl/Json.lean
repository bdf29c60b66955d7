import ShaderHeaders.Glsl.Signature
import ShaderHeaders.Json.Reader
import ShaderHeaders.Json.Decode

/-!
# Signatures as JSON

A signature is the object `{"name": …, "params": […], "return_type": …}` with each parameter
`{"type": …, "name": …}`; type names are written by their spelling, a parameter's empty name is
left out, and an empty parameter list is written `null`. A signature with an invalid type name
has no JSON form: the first invalid type, in the order the fields are written, is the reason.

Reading takes the members of the object in order and matches keys up to simple case folding;
other keys are ignored, and `null` leaves a field as it was (an empty name, no
parameters, `void`). A type name that is not a spelling stops the reading. A value of the
wrong kind is remembered, the first of them being the error if nothing stops the reading. A
signature read inside another record names its fields in mismatches by the path `within` that
leads to it, as `definition.`.

* `Signature.toJson` writes a signature and `Signature.ofJson` reads one back.
-/

namespace ShaderHeaders

namespace TypeName

/-- Why a type name has no JSON form. -/
def jsonMessage (t : TypeName) : String :=
  "json: error calling MarshalText for type *glsl.TypeName: " ++ t.invalidMessage

/-- The JSON form of a type name. -/
def toJson (t : TypeName) : Except String Json.Value :=
  match t.spelling? with
  | some s => .ok (.str s)
  | none => .error t.jsonMessage

end TypeName

namespace Parameter

/-- The JSON form of a parameter. -/
def toJson (p : Parameter) : Except String Json.Value := do
  let ty ← p.type.toJson
  pure (.obj ([("type", ty)] ++ if p.name.isEmpty then [] else [("name", .str p.name)]))

end Parameter

namespace Signature

/-- The JSON form of a signature, or why it has none. -/
def toJson (s : Signature) : Except String Json.Value := do
  let params ← if s.params.isEmpty then pure Json.Value.null
    else (s.params.mapM Parameter.toJson).map Json.Value.arr
  let ret ← s.returnType.toJson
  pure (.obj [("name", .str s.name), ("params", params), ("return_type", ret)])

end Signature

namespace TypeName

/-- Reads a type name field; a spelling that names no type stops the reading. -/
def readField (field : String) (t : TypeName) (v : Json.Value) :
    Except String (TypeName × Option String) :=
  match v with
  | .str s => (TypeName.ofText s).map fun t => (t, none)
  | .null => .ok (t, none)
  | _ => .ok (t, some (Json.mismatch v field "glsl.TypeName"))

end TypeName

namespace Parameter

/-- Reads one member of a parameter object into `r`. -/
def readMember (within : String) (r : Reading Parameter) :
    String × Json.Value → Except String (Reading Parameter)
  | (k, v) =>
    if Json.keyMatches k "type" then do
      let (t, m) ← TypeName.readField ("Parameter." ++ within ++ "params.type") r.value.type v
      pure (({ r with value := { r.value with type := t } } : Reading Parameter).merge m)
    else if Json.keyMatches k "name" then
      .ok (r.text ("Parameter." ++ within ++ "params.name") (fun p n => { p with name := n }) v)
    else .ok r

/-- Reads the members of a parameter object into `r`, one after the other. -/
def readMembers (within : String) (r : Reading Parameter) (ms : List (String × Json.Value)) :
    Except String (Reading Parameter) :=
  ms.foldlM (readMember within) r

/-- Reads one item of a parameter list. -/
def ofJson (within : String) : Json.Value → Except String (Reading Parameter) :=
  Reading.object ⟨.void, ""⟩ (readMembers within)
    (Json.mismatch · ("Signature." ++ within ++ "params") "glsl.Parameter")

end Parameter

namespace Signature

/-- The signature nothing has been read into. -/
def empty : Signature := ⟨"", [], .void⟩

/-- Reads one member of a signature object into `r`. -/
def readMember (within : String) (r : Reading Signature) :
    String × Json.Value → Except String (Reading Signature)
  | (k, v) =>
    if Json.keyMatches k "name" then
      .ok (r.text ("Signature." ++ within ++ "name") (fun s n => { s with name := n }) v)
    else if Json.keyMatches k "params" then
      r.list ("Signature." ++ within ++ "params") "[]glsl.Parameter" (Parameter.ofJson within)
        (fun s ps => { s with params := ps }) v
    else if Json.keyMatches k "return_type" then do
      let (t, m) ← TypeName.readField ("Signature." ++ within ++ "return_type") r.value.returnType v
      pure (({ r with value := { r.value with returnType := t } } : Reading Signature).merge m)
    else .ok r

/-- Reads the members of a signature object into `r`, one after the other. -/
def readMembers (within : String) (r : Reading Signature) (ms : List (String × Json.Value)) :
    Except String (Reading Signature) :=
  ms.foldlM (readMember within) r

/-- Reads a signature from a JSON value, or says why it cannot be read. -/
def ofJson (v : Json.Value) : Except String Signature := do
  let r ← Reading.object empty (readMembers "") (Json.valueMismatch · "glsl.Signature") v
  r.result

/-- Reads a signature from the text of a JSON document. -/
def ofJsonText (text : String) : Except String Signature :=
  match Json.parse (Utf8.bytes text) with
  | .error e => .error e.message
  | .ok v => ofJson v

end Signature

end ShaderHeaders
