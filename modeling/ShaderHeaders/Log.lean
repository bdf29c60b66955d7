import ShaderHeaders.Config.Basic
import ShaderHeaders.Json.Value

/-!
# Log records

A log record has a level, a message and attributes, each a key and a text or a number. A
logger writes the records at or above its level, one line each, in one of two formats:

* text: `level=WARN msg=… key=value …`, a value written between double quotes (escaped) when it
  is empty or holds a blank, `=`, `"`, a control character, a replacement rune or any
  character that is not printable;
* JSON: `{"level":"WARN","msg":…,"key":value,…}`, strings escaped as in JSON without the
  escapes for HTML.
-/

namespace ShaderHeaders

/-- The value of a log attribute. -/
inductive LogValue where
  | text (s : String)
  | int (n : Int)

/-- A log record. -/
structure LogRecord where
  level : LogLevel
  message : String
  attrs : List (String × LogValue)

/-- The formats a logger writes records in. -/
inductive LogFormat where
  | text
  | json
  deriving DecidableEq, Repr

/-- A logger: the least level written, and the format. -/
structure Logger where
  level : LogLevel
  format : LogFormat

namespace LogRecord

/-- Whether a text value must be quoted in the text format. -/
def needsQuoting (s : String) : Bool :=
  s.isEmpty || s.toList.any fun c =>
    if c.toNat < 0x80 then c = ' ' || c = '=' || c = '"' || c.toNat < 0x20
    else c = Utf8.replacement || c.toNat = 0x85 || c.toNat = 0xA0 || c.toNat = 0x1680 ||
      (0x2000 ≤ c.toNat && c.toNat ≤ 0x200A) || c.toNat = 0x2028 || c.toNat = 0x2029 ||
      c.toNat = 0x202F || c.toNat = 0x205F || c.toNat = 0x3000 || !Printable.isPrintable c

/-- A text value in the text format. -/
def textValue (s : String) : String := if needsQuoting s then Quoted.text s else s

/-- The escaped form of one rune in a JSON log record. -/
def jsonChar (c : Char) : String :=
  if c = '"' then "\\\""
  else if c = '\\' then "\\\\"
  else if c = '\n' then "\\n"
  else if c = '\r' then "\\r"
  else if c = '\t' then "\\t"
  else if c.toNat < 0x20 then "\\u00" ++ Decimal.hex 2 c.toNat
  else if c.toNat = 0x2028 || c.toNat = 0x2029 then "\\u" ++ Decimal.hex 4 c.toNat
  else c.toString

/-- A JSON string in a log record. -/
def jsonString (s : String) : String := "\"" ++ String.join (s.toList.map jsonChar) ++ "\""

/-- The record as one line of the text format. -/
def renderText (r : LogRecord) : String :=
  let attr : String × LogValue → String
    | (k, .text s) => " " ++ textValue k ++ "=" ++ textValue s
    | (k, .int n) => " " ++ textValue k ++ "=" ++ Decimal.ofInt n
  "level=" ++ r.level.name ++ " msg=" ++ textValue r.message ++ String.join (r.attrs.map attr) ++
    "\n"

/-- The record as one line of the JSON format. -/
def renderJson (r : LogRecord) : String :=
  let attr : String × LogValue → String
    | (k, .text s) => "," ++ jsonString k ++ ":" ++ jsonString s
    | (k, .int n) => "," ++ jsonString k ++ ":" ++ Decimal.ofInt n
  "\x7b\"level\":" ++ jsonString r.level.name ++ ",\"msg\":" ++ jsonString r.message ++
    String.join (r.attrs.map attr) ++ "\x7d\n"

end LogRecord

namespace Logger

/-- What the logger writes for a record: nothing below its level. -/
def write (l : Logger) (r : LogRecord) : String :=
  if r.level.value < l.level.value then ""
  else match l.format with
    | .text => r.renderText
    | .json => r.renderJson

end Logger

end ShaderHeaders
