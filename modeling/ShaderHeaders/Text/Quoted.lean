import ShaderHeaders.Text.Utf8
import ShaderHeaders.Text.Printable
import ShaderHeaders.Text.Decimal

/-!
# Quoted text

Names and values that a message shows are written between double quotes. Inside the quotes a
quote and a backslash get a backslash before them; a printable rune stands for itself; the
seven controls bell, backspace, form feed, newline, carriage return, tab and vertical tab have
their one-letter escapes; any other rune below `U+0020`, and `U+007F`, is `\xNN`; any other
rune that is not printable is `\uNNNN`, or `\UNNNNNNNN` above `U+FFFF`. A byte that starts no
well-formed rune is `\xNN` of that byte. Digits are lowercase hexadecimal.

* `Quoted.quote` writes the quoted form of a byte string and `Quoted.text` that of a text.
-/

namespace ShaderHeaders.Quoted

/-- The escaped form of one well-formed rune inside double quotes. -/
def rune (c : Char) : String :=
  if c = '"' then "\\\""
  else if c = '\\' then "\\\\"
  else if Printable.isPrintable c then c.toString
  else if c.toNat = 7 then "\\a"
  else if c.toNat = 8 then "\\b"
  else if c.toNat = 12 then "\\f"
  else if c = '\n' then "\\n"
  else if c = '\r' then "\\r"
  else if c = '\t' then "\\t"
  else if c.toNat = 11 then "\\v"
  else if c.toNat < 0x20 || c.toNat = 0x7F then "\\x" ++ Decimal.hex 2 c.toNat
  else if c.toNat < 0x10000 then "\\u" ++ Decimal.hex 4 c.toNat
  else "\\U" ++ Decimal.hex 8 c.toNat

/-- The escaped runes of a byte string, without the surrounding quotes. -/
def body : List UInt8 → String
  | [] => ""
  | b :: rest =>
    match Utf8.decode? b rest with
    | some (c, k) => rune c ++ body (rest.drop k)
    | none => "\\x" ++ Decimal.hex 2 b.toNat ++ body rest
termination_by bs => bs.length
decreasing_by
  all_goals simp only [List.length_drop, List.length_cons]
  all_goals omega

/-- A byte string between double quotes, escaped. -/
def quote (bs : List UInt8) : String := "\"" ++ body bs ++ "\""

/-- A text between double quotes, escaped. -/
def text (s : String) : String := quote (Utf8.bytes s)

end ShaderHeaders.Quoted
