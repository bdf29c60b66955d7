import ShaderHeaders.Glsl.TypeName
import ShaderHeaders.Text.Utf8

/-!
# Tokens

Shader text is cut into tokens of eleven kinds: the end of the text, a single rune of no other
kind, an identifier, a type name, a number, and the six marks `(`, `)`, `{`, `}`, `,` and `;`.
Each token keeps the blanks that stand before it, so a header rule can ask whether two tokens
touch; whether it opens its line; and where it stands: line, column (in runes) and offset (in
bytes), all but the offset counted from `1`.

Blanks are space, tab, carriage return, form feed and vertical tab, and the newline, which
also starts a line. Identifiers and numbers are ASCII.
-/

namespace ShaderHeaders

/-- The kinds of tokens, numbered `0` to `10` in the order given here. -/
inductive TokenKind where
  | eof
  | other
  | ident
  | type
  | number
  | openParen
  | closeParen
  | openBrace
  | closeBrace
  | comma
  | semicolon
  deriving DecidableEq, Repr

namespace TokenKind

/-- The eleven kinds in the order of their codes. -/
def all : List TokenKind :=
  [eof, other, ident, type, number, openParen, closeParen, openBrace, closeBrace, comma, semicolon]

/-- The kind with a given code. -/
def ofCode? (n : Nat) : Option TokenKind := all[n]?

/-- How a kind is named in messages. -/
def name : TokenKind → String
  | eof => "EOF"
  | other => "Other"
  | ident => "Ident"
  | type => "Type"
  | number => "Number"
  | openParen => "("
  | closeParen => ")"
  | openBrace => "\x7b"
  | closeBrace => "\x7d"
  | comma => ","
  | semicolon => ";"

/-- How a kind named by a rule prints; a code that names no kind prints as `Unknown`. -/
def nameOr : Option TokenKind → String
  | some k => k.name
  | none => "Unknown"

end TokenKind

namespace Source

/-- A blank that keeps the line: space, tab, carriage return, form feed, vertical tab. -/
def isBlank (b : UInt8) : Bool := b = 32 || b = 9 || b = 13 || b = 12 || b = 11

/-- A blank or a newline. -/
def isSpace (b : UInt8) : Bool := isBlank b || b = 10

/-- An ASCII letter. -/
def isLetter (b : UInt8) : Bool := (65 ≤ b && b ≤ 90) || (97 ≤ b && b ≤ 122)

/-- An ASCII digit. -/
def isDigit (b : UInt8) : Bool := 48 ≤ b && b ≤ 57

/-- A byte that can start an identifier: a letter or `_`. -/
def isWordStart (b : UInt8) : Bool := isLetter b || b = 95

/-- A byte that can continue an identifier: a letter, a digit or `_`. -/
def isWordByte (b : UInt8) : Bool := isWordStart b || isDigit b

/-- A byte that can continue a number: a letter, a digit, `_` or `.`. -/
def isNumberByte (b : UInt8) : Bool := isWordByte b || b = 46

end Source

/-- The kind of a one-byte mark. -/
def markKind? (b : UInt8) : Option TokenKind :=
  if b = 40 then some .openParen
  else if b = 41 then some .closeParen
  else if b = 123 then some .openBrace
  else if b = 125 then some .closeBrace
  else if b = 44 then some .comma
  else if b = 59 then some .semicolon
  else none

/-- A token of shader text. -/
structure Token where
  kind : TokenKind
  /-- The bytes of the token; empty for the end of the text. -/
  lexeme : List UInt8
  /-- The blanks and newlines between the previous token and this one. -/
  space : List UInt8
  /-- Only blanks stand before the token on its line. -/
  lineStart : Bool
  line : Nat
  column : Nat
  offset : Nat
  deriving DecidableEq, Repr

namespace Token

/-- Nothing separates the token from the one before it. -/
def adjacent (t : Token) : Bool := t.space.isEmpty

/-- The type that a type token names. -/
def typeName? (t : Token) : Option TypeName :=
  if t.kind = .type then TypeName.ofSpelling? (Utf8.ascii t.lexeme) else none

end Token

end ShaderHeaders
