import ShaderHeaders.Glsl.Header
import ShaderHeaders.Text.Lines

/-!
# Malformed signatures

When a chunk yields no definition, the error keeps the whole text, the line and column of the
problem (both `0` when no header was found at all) and the reason. Its message leads with the
position, `L:C: malformed function signature: reason`, or without it when the line is `0`. In
context it shows the line with a caret under the column; a column outside the line is moved to
its nearest end (counted in bytes). A line outside the text shows the whole text instead.
-/

namespace ShaderHeaders

/-- A text with no well-formed function definition, and where and why. -/
structure Malformed where
  source : List UInt8
  line : Int
  column : Int
  reason : String
  deriving DecidableEq, Repr

namespace Malformed

/-- The error for a text in which no header was found. -/
def notFound (source : List UInt8) : Malformed := ⟨source, 0, 0, "no function definition found"⟩

/-- The error for a problem met at a token. -/
def ofParseError (source : List UInt8) (e : ParseError) : Malformed :=
  ⟨source, e.token.line, e.token.column, e.problem.message⟩

/-- The kind of error, shared by every malformed signature. -/
def kind : String := "malformed function signature"

/-- The one-line message. -/
def message (e : Malformed) : String :=
  if e.line = 0 then kind ++ ": " ++ e.reason
  else Decimal.ofInt e.line ++ ":" ++ Decimal.ofInt e.column ++ ": " ++ kind ++ ": " ++ e.reason

/-- A line of the listing: its number right-aligned in three places, then the text. -/
def listingLine (n : Nat) (l : List UInt8) : String :=
  Decimal.padLeft 3 (Decimal.ofNat n) ++ "| " ++ Utf8.lossy l ++ "\n"

/-- The column moved into `1` to one past the end of a line of `len` bytes. -/
def clampColumn (len : Nat) (col : Int) : Nat :=
  if col < 1 then 1 else if col > len + 1 then len + 1 else col.toNat

/-- The message with the text around the problem. -/
def context (e : Malformed) : String :=
  let lines := Lines.split e.source
  let head := "error: " ++ kind ++ ": " ++ e.reason ++ "\n"
  if e.line < 1 || e.line > lines.length then
    let numbered := (List.range lines.length).zip lines
    head ++ "   |\n" ++ String.join (numbered.map fun (i, l) => listingLine (i + 1) l)
  else
    let n := e.line.toNat
    let l := lines.getD (n - 1) []
    let col := clampColumn l.length e.column
    head ++ "  --> line " ++ Decimal.ofNat n ++ ":" ++ Decimal.ofNat col ++ "\n" ++ "   |\n" ++
      listingLine n l ++ "   | " ++ String.ofList (List.replicate (col - 1) ' ') ++ "^\n"

end Malformed

end ShaderHeaders
