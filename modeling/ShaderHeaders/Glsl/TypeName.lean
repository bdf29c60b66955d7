import ShaderHeaders.Text.Decimal
import ShaderHeaders.Text.Quoted

/-!
# Type names

A signature uses a closed set of nine GLSL types, `void`, `int`, `float`, `vec2`, `vec3`,
`vec4`, `mat2`, `mat3` and `mat4`, numbered `0` to `8` in that order. A type name is stored as
a byte code, so codes `9` to `255` can be written down too: they are not valid, print as
`TypeName(N)` and have no text form.
-/

namespace ShaderHeaders

/-- A type name: one of nine types by its code, or an invalid code. -/
structure TypeName where
  code : UInt8
  deriving DecidableEq, Repr

namespace TypeName

/-- The nine spellings, in the order of their codes. -/
def spellings : List String :=
  ["void", "int", "float", "vec2", "vec3", "vec4", "mat2", "mat3", "mat4"]

def void : TypeName := ⟨0⟩
def int : TypeName := ⟨1⟩
def float : TypeName := ⟨2⟩
def vec2 : TypeName := ⟨3⟩
def vec3 : TypeName := ⟨4⟩
def vec4 : TypeName := ⟨5⟩
def mat2 : TypeName := ⟨6⟩
def mat3 : TypeName := ⟨7⟩
def mat4 : TypeName := ⟨8⟩

/-- A type name is valid when its code names one of the nine types. -/
def valid (t : TypeName) : Bool := t.code < 9

/-- The text form of a valid type name. -/
def spelling? (t : TypeName) : Option String := spellings[t.code.toNat]?

/-- The type name spelled by a text; only the exact spelling counts. -/
def ofSpelling? (s : String) : Option TypeName :=
  (spellings.idxOf? s).map fun i => ⟨i.toUInt8⟩

/-- How a type name prints: its spelling, or `TypeName(N)` for an invalid code. -/
def render (t : TypeName) : String :=
  t.spelling?.getD ("TypeName(" ++ Decimal.ofNat t.code.toNat ++ ")")

/-- Why an invalid type name has no text form. -/
def invalidMessage (t : TypeName) : String :=
  "invalid type name " ++ Decimal.ofNat t.code.toNat

/-- Why a text names no type. -/
def unknownMessage (s : String) : String :=
  "unknown type name " ++ Quoted.text s

/-- The text form of a type name, or why it has none. -/
def toText (t : TypeName) : Except String String :=
  match t.spelling? with
  | some s => .ok s
  | none => .error t.invalidMessage

/-- Reads the text form of a type name, or says why it names none. -/
def ofText (s : String) : Except String TypeName :=
  match ofSpelling? s with
  | some t => .ok t
  | none => .error (unknownMessage s)

end TypeName

end ShaderHeaders
