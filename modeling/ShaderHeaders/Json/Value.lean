import ShaderHeaders.Text.Decimal

/-!
# JSON documents

A JSON value is `null`, a boolean, a number (kept as its literal text), a string, an array or
an object whose members keep their order. Values are written compactly, or indented with two
spaces per level, members as `"key": value`, an empty array as `[]` and an empty object as
`{}`.

Inside a string, `"` and `\` get a backslash; newline, carriage return, tab, backspace and form
feed have their short escapes; every other control character, and `<`, `>` and `&` (so that a
document can stand inside HTML), is `\u00XX`; the separators `U+2028` and `U+2029` are
escaped too.
-/

namespace ShaderHeaders.Json

/-- A JSON value. -/
inductive Value where
  | null
  | bool (b : Bool)
  | num (literal : String)
  | str (s : String)
  | arr (items : List Value)
  | obj (members : List (String × Value))
  deriving Inhabited, Repr

/-- A natural number as a JSON value. -/
def ofNat (n : Nat) : Value := .num (Decimal.ofNat n)

/-- The escaped form of one rune inside a JSON string. -/
def escapeChar (c : Char) : String :=
  if c = '"' then "\\\""
  else if c = '\\' then "\\\\"
  else if c = '\n' then "\\n"
  else if c = '\r' then "\\r"
  else if c = '\t' then "\\t"
  else if c.toNat = 8 then "\\b"
  else if c.toNat = 12 then "\\f"
  else if c.toNat < 0x20 || c = '<' || c = '>' || c = '&' then "\\u00" ++ Decimal.hex 2 c.toNat
  else if c.toNat = 0x2028 || c.toNat = 0x2029 then "\\u" ++ Decimal.hex 4 c.toNat
  else c.toString

/-- A JSON string literal for a text. -/
def quote (s : String) : String := "\"" ++ String.join (s.toList.map escapeChar) ++ "\""

mutual

/-- The compact text of a value. -/
def Value.compact : Value → String
  | .null => "null"
  | .bool b => if b then "true" else "false"
  | .num n => n
  | .str s => quote s
  | .arr items => "[" ++ compactItems items ++ "]"
  | .obj members => "\x7b" ++ compactMembers members ++ "\x7d"

/-- The compact text of array items, separated by commas. -/
def compactItems : List Value → String
  | [] => ""
  | [v] => v.compact
  | v :: vs => v.compact ++ "," ++ compactItems vs

/-- The compact text of object members, separated by commas. -/
def compactMembers : List (String × Value) → String
  | [] => ""
  | [(k, v)] => quote k ++ ":" ++ v.compact
  | (k, v) :: ms => quote k ++ ":" ++ v.compact ++ "," ++ compactMembers ms

end

/-- A newline and the indentation of a given depth. -/
def newline (depth : Nat) : String := "\n" ++ String.ofList (List.replicate (2 * depth) ' ')

mutual

/-- The indented text of a value whose first line stands at `depth`. -/
def Value.indented (depth : Nat) : Value → String
  | .arr [] => "[]"
  | .obj [] => "\x7b\x7d"
  | .arr items => "[" ++ indentedItems (depth + 1) items ++ newline depth ++ "]"
  | .obj members => "\x7b" ++ indentedMembers (depth + 1) members ++ newline depth ++ "\x7d"
  | v => v.compact

/-- Array items, each on its own line at `depth`. -/
def indentedItems (depth : Nat) : List Value → String
  | [] => ""
  | [v] => newline depth ++ v.indented depth
  | v :: vs => newline depth ++ v.indented depth ++ "," ++ indentedItems depth vs

/-- Object members, each on its own line at `depth`. -/
def indentedMembers (depth : Nat) : List (String × Value) → String
  | [] => ""
  | [(k, v)] => newline depth ++ quote k ++ ": " ++ v.indented depth
  | (k, v) :: ms => newline depth ++ quote k ++ ": " ++ v.indented depth ++ "," ++
      indentedMembers depth ms

end

/-- The document as a stream writes it: indented by two spaces, then a newline. -/
def Value.document (v : Value) : String := v.indented 0 ++ "\n"

end ShaderHeaders.Json
