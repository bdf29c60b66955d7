import ShaderHeaders.Json.Value

/-!
# Reading records from JSON values

A record is read from an object one member at a time, into a value that starts out empty. A
member is matched to a field by its key up to case folding; other keys are ignored. `null`
leaves a text as it was and empties a list. A value of the wrong kind for its field is a
mismatch: it is remembered and reading goes on, the first mismatch being the error at the end.
A mismatch names the field by the record type it belongs to and the path of fields leading to
it from the top of the document, as `Parameter.params.type`.

* `Reading.text` reads a text field, `Reading.list` a list of records, each with
  `Reading.object`;
* `Reading.result` is the value read, or the first mismatch.
-/

namespace ShaderHeaders

namespace Json

/-- The word for the kind of a value in a type mismatch. -/
def Value.kindWord : Value → String
  | .null => "null"
  | .bool _ => "bool"
  | .num _ => "number"
  | .str _ => "string"
  | .arr _ => "array"
  | .obj _ => "object"

/-- The message for a value of the wrong kind in a field. -/
def mismatch (v : Value) (field goType : String) : String :=
  "json: cannot unmarshal " ++ v.kindWord ++ " into Go struct field " ++ field ++ " of type " ++
    goType

/-- The message for a document whose value is of the wrong kind. -/
def valueMismatch (v : Value) (goType : String) : String :=
  "json: cannot unmarshal " ++ v.kindWord ++ " into Go value of type " ++ goType

/-- A rune as key matching folds it: the least rune of its simple case-folding orbit, as far as
names of fields tell them apart. An ASCII letter folds to its upper case; the long s `U+017F`
and the Kelvin sign `U+212A`, whose orbits hold `S` and `K`, fold to those letters. No other
orbit holds an ASCII letter, so against the ASCII names of fields any other rune matches only
itself. -/
def foldRune (c : Char) : Char :=
  if c.toNat = 0x17F then 'S' else if c.toNat = 0x212A then 'K' else c.toUpper

/-- A key matches the ASCII name of a field when the two fold to the same runes. -/
def keyMatches (key field : String) : Bool :=
  key.toList.map foldRune == field.toList.map foldRune

end Json

/-- A reading in progress: the value so far and the first mismatch met. -/
structure Reading (α : Type) where
  value : α
  mismatch : Option String

namespace Reading

variable {α β : Type}

/-- Keeps the first mismatch. -/
def note (r : Reading α) (m : String) : Reading α :=
  { r with mismatch := r.mismatch <|> some m }

/-- Keeps the first mismatch, of `r` or else of a reading nested in it. -/
def merge (r : Reading α) (m : Option String) : Reading α :=
  { r with mismatch := r.mismatch <|> m }

/-- Reads a text field: a string sets it, `null` leaves it, any other value is a mismatch. -/
def text (r : Reading α) (field : String) (set : α → String → α) : Json.Value → Reading α
  | .str s => { r with value := set r.value s }
  | .null => r
  | v => r.note (Json.mismatch v field "string")

/-- Reads a record: an object's members into `empty`, `null` as `empty`, any other value as
`empty` with the mismatch `wrong` gives. -/
def object (empty : α)
    (members : Reading α → List (String × Json.Value) → Except String (Reading α))
    (wrong : Json.Value → String) : Json.Value → Except String (Reading α)
  | .obj ms => members ⟨empty, none⟩ ms
  | .null => .ok ⟨empty, none⟩
  | v => .ok ((⟨empty, none⟩ : Reading α).note (wrong v))

/-- Reads the items of an array, with the first mismatch among them. -/
def items (item : Json.Value → Except String (Reading β)) :
    List Json.Value → Except String (List β × Option String)
  | [] => .ok ([], none)
  | v :: vs => do
    let r ← item v
    let (xs, m) ← items item vs
    pure (r.value :: xs, r.mismatch <|> m)

/-- Reads a list field: an array's items set it, `null` empties it, any other value is a
mismatch. -/
def list (r : Reading α) (field goType : String) (item : Json.Value → Except String (Reading β))
    (set : α → List β → α) : Json.Value → Except String (Reading α)
  | .arr vs => do
    let (xs, m) ← items item vs
    pure (({ r with value := set r.value xs } : Reading α).merge m)
  | .null => .ok { r with value := set r.value [] }
  | v => .ok (r.note (Json.mismatch v field goType))

/-- The value read, or the first mismatch met. -/
def result (r : Reading α) : Except String α :=
  match r.mismatch with
  | some m => .error m
  | none => .ok r.value

end Reading

end ShaderHeaders
