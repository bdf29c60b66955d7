import ShaderHeaders.Glsl.Token

/-!
# Cutting shader text into tokens

The text is read from the front. Blanks and newlines before a token become its `space`; then
the longest token that starts there is taken:

* one of the six marks `(` `)` `{` `}` `,` `;`;
* a letter or `_` and every letter, digit or `_` after it: a type token when the run is one of
  the nine type spellings, an identifier otherwise;
* a digit and every letter, digit, `_` or `.` after it: a number;
* otherwise a single rune, of kind `other` (a bad byte is a rune of one byte).

The end token comes last; its space is the text's trailing blanks. Every rune read, blanks
included, moves the column by one; a newline moves to column `1` of the next line.

* `Tokens.scan` reads a text; `Tokens.toList` lists its tokens, the end token last.
-/

namespace ShaderHeaders

open Source

/-- Where reading stands: line and column of the next rune, bytes read, and whether only blanks
have been read on this line. -/
structure Cursor where
  line : Nat
  column : Nat
  offset : Nat
  lineStart : Bool
  deriving DecidableEq, Repr

namespace Cursor

/-- The start of a text. -/
def start : Cursor := ⟨1, 1, 0, true⟩

/-- The cursor after blanks and newlines. -/
def skip (c : Cursor) : List UInt8 → Cursor
  | [] => c
  | b :: bs =>
    if b = 10 then skip ⟨c.line + 1, 1, c.offset + 1, true⟩ bs
    else skip { c with column := c.column + 1, offset := c.offset + 1 } bs

/-- The cursor after a token of `bytes` bytes and `runes` runes. -/
def pass (c : Cursor) (bytes runes : Nat) : Cursor :=
  ⟨c.line, c.column + runes, c.offset + bytes, false⟩

end Cursor

/-- The longest token at the front of a nonempty text `b :: rest`: its kind, its bytes and the
text after it. -/
structure Cut where
  kind : TokenKind
  lexeme : List UInt8
  rest : List UInt8

namespace Cut

/-- Cuts the longest token from the front of `b :: rest`. -/
def take (b : UInt8) (rest : List UInt8) : Cut :=
  match markKind? b with
  | some k => ⟨k, [b], rest⟩
  | none =>
    if isWordStart b then
      let word := b :: rest.takeWhile isWordByte
      let kind := if (TypeName.ofSpelling? (Utf8.ascii word)).isSome then .type else .ident
      ⟨kind, word, rest.dropWhile isWordByte⟩
    else if isDigit b then
      ⟨.number, b :: rest.takeWhile isNumberByte, rest.dropWhile isNumberByte⟩
    else
      let k := (Utf8.decode b rest).2
      ⟨.other, b :: rest.take k, rest.drop k⟩

theorem length_dropWhile_le (p : UInt8 → Bool) (l : List UInt8) :
    (l.dropWhile p).length ≤ l.length :=
  (List.dropWhile_suffix p).length_le

theorem take_rest_length_le (b : UInt8) (rest : List UInt8) :
    (take b rest).rest.length ≤ rest.length := by
  unfold take
  split
  · exact Nat.le_refl _
  · split
    · exact length_dropWhile_le _ _
    · split
      · exact length_dropWhile_le _ _
      · simp

end Cut

/-- The tokens of a text: those before the end, and the end token. -/
structure Tokens where
  body : List Token
  eof : Token
  deriving Repr

namespace Tokens

/-- The tokens of a text read from cursor `c`. -/
def scanFrom (c : Cursor) (bs : List UInt8) : Tokens :=
  let space := bs.takeWhile isSpace
  let here := c.skip space
  match _hrest : bs.dropWhile isSpace with
  | [] => ⟨[], ⟨.eof, [], space, here.lineStart, here.line, here.column, here.offset⟩⟩
  | b :: rest =>
    let cut := Cut.take b rest
    let tok : Token :=
      ⟨cut.kind, cut.lexeme, space, here.lineStart, here.line, here.column, here.offset⟩
    let more := scanFrom (here.pass cut.lexeme.length (Utf8.runeCount cut.lexeme)) cut.rest
    ⟨tok :: more.body, more.eof⟩
termination_by bs.length
decreasing_by
  have h₁ := Cut.take_rest_length_le b rest
  have h₂ := Cut.length_dropWhile_le isSpace bs
  rw [_hrest] at h₂
  simp only [List.length_cons] at h₂
  omega

/-- The tokens of a text. -/
def scan (bs : List UInt8) : Tokens := scanFrom Cursor.start bs

/-- All tokens of a text, the end token last. -/
def toList (ts : Tokens) : List Token := ts.body ++ [ts.eof]

end Tokens

end ShaderHeaders
