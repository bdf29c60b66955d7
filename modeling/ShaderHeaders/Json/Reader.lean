import ShaderHeaders.Json.Value
import ShaderHeaders.Text.Quoted

/-!
# Reading JSON documents

A document is one value, with blanks (space, tab, newline, carriage return) around it. The
reader works on bytes and stops at the first byte that cannot continue the document; the error
names that byte and what was being looked for, or says that the text ended too soon.

Inside a string every escape of the standard is read; a `\u` escape of a surrogate joins the
escape after it when the two form a pair, and is the replacement rune otherwise. Arrays and
objects nest at most `maxDepth` deep: the bracket that would open one more is refused.

* `Json.parse` reads a whole document.
-/

namespace ShaderHeaders.Json

/-- Why a text is not a JSON document. -/
inductive SyntaxError where
  | unexpectedEnd
  | invalid (b : UInt8) (context : String)
  deriving DecidableEq, Repr

/-- A byte as error messages show it, between single quotes. -/
def showByte (b : UInt8) : String :=
  if b = 39 then "'\\''"
  else if b = 34 then "'\"'"
  else
    let q := Quoted.rune (Char.ofNat b.toNat)
    "'" ++ q ++ "'"

/-- The wording of a syntax error. -/
def SyntaxError.message : SyntaxError → String
  | .unexpectedEnd => "unexpected end of JSON input"
  | .invalid b context => "invalid character " ++ showByte b ++ " " ++ context

/-- The blanks that may stand between tokens. -/
def isBlank (b : UInt8) : Bool := b = 32 || b = 9 || b = 10 || b = 13

/-- Bytes after the blanks at the front. -/
def skipBlanks (bs : List UInt8) : List UInt8 := bs.dropWhile isBlank

/-- An ASCII digit. -/
def isDigit (b : UInt8) : Bool := 48 ≤ b && b ≤ 57

/-- The value of a hexadecimal digit. -/
def hexValue? (b : UInt8) : Option Nat :=
  if 48 ≤ b && b ≤ 57 then some (b.toNat - 48)
  else if 97 ≤ b && b ≤ 102 then some (b.toNat - 87)
  else if 65 ≤ b && b ≤ 70 then some (b.toNat - 55)
  else none

/-- Reads the four hexadecimal digits of a `\u` escape. -/
def hex4 : List UInt8 → Except SyntaxError (Nat × List UInt8)
  | a :: b :: c :: d :: rest =>
    match hexValue? a, hexValue? b, hexValue? c, hexValue? d with
    | some w, some x, some y, some z => .ok (((w * 16 + x) * 16 + y) * 16 + z, rest)
    | none, _, _, _ => .error (.invalid a "in \\u hexadecimal character escape")
    | _, none, _, _ => .error (.invalid b "in \\u hexadecimal character escape")
    | _, _, none, _ => .error (.invalid c "in \\u hexadecimal character escape")
    | _, _, _, none => .error (.invalid d "in \\u hexadecimal character escape")
  | bs =>
    match bs.find? (fun b => (hexValue? b).isNone) with
    | some b => .error (.invalid b "in \\u hexadecimal character escape")
    | none => .error .unexpectedEnd

/-- Whether a code unit is a surrogate. -/
def isSurrogate (n : Nat) : Bool := 0xD800 ≤ n && n < 0xE000

/-- The rune of a `\u` escape, joined with a following low surrogate escape when `n` is a high
surrogate; the rest after what was used. -/
def escapedRune (n : Nat) (rest : List UInt8) : Char × List UInt8 :=
  if isSurrogate n then
    match rest with
    | 92 :: 117 :: more =>
      match hex4 more with
      | .ok (m, after) =>
        if n < 0xDC00 && 0xDC00 ≤ m && m < 0xE000 then
          (Char.ofNat (0x10000 + (n - 0xD800) * 0x400 + (m - 0xDC00)), after)
        else (Utf8.replacement, rest)
      | .error _ => (Utf8.replacement, rest)
    | _ => (Utf8.replacement, rest)
  else (Char.ofNat n, rest)

/-- The rune of a one-letter escape. -/
def simpleEscape (e : UInt8) : Option Char :=
  if e = 34 then some '"' else if e = 92 then some '\\' else if e = 47 then some '/'
  else if e = 98 then some (Char.ofNat 8) else if e = 102 then some (Char.ofNat 12)
  else if e = 110 then some '\n' else if e = 114 then some '\r'
  else if e = 116 then some '\t' else none

/-- Reads the rest of a string after its opening quote; the runes read so far are `acc`, last
first. Each step reads at least one byte, so `fuel` at the number of bytes left is enough. -/
def stringBody : Nat → List Char → List UInt8 → Except SyntaxError (String × List UInt8)
  | 0, _, _ => .error .unexpectedEnd
  | _ + 1, _, [] => .error .unexpectedEnd
  | fuel + 1, acc, b :: rest =>
    if b = 34 then .ok (String.ofList acc.reverse, rest)
    else if b = 92 then
      match rest with
      | [] => .error .unexpectedEnd
      | e :: more =>
        if e = 117 then
          match hex4 more with
          | .error err => .error err
          | .ok (n, after) =>
            let (c, after') := escapedRune n after
            stringBody fuel (c :: acc) after'
        else
          match simpleEscape e with
          | some c => stringBody fuel (c :: acc) more
          | none => .error (.invalid e "in string escape code")
    else if b < 32 then .error (.invalid b "in string literal")
    else
      let (c, k) := Utf8.decode b rest
      stringBody fuel (c :: acc) (rest.drop k)

/-- The digits at the front of a byte string. -/
def digits (bs : List UInt8) : List UInt8 × List UInt8 := (bs.takeWhile isDigit, bs.dropWhile isDigit)

/-- Reads the fraction and exponent of a number after its integer part. -/
def numberTail (lit : List UInt8) (bs : List UInt8) :
    Except SyntaxError (String × List UInt8) := do
  let (lit, bs) ← match bs with
    | 46 :: more =>
      match more with
      | d :: _ =>
        if isDigit d then
          let (ds, after) := digits more
          .ok (lit ++ ([46] : List UInt8) ++ ds, after)
        else .error (.invalid d "after decimal point in numeric literal")
      | [] => .error .unexpectedEnd
    | _ => .ok (lit, bs)
  match bs with
  | e :: more =>
    if e = 101 || e = 69 then
      let (sign, more) := match more with
        | s :: after => if s = 43 || s = 45 then ([s], after) else (([] : List UInt8), more)
        | [] => (([] : List UInt8), [])
      match more with
      | d :: _ =>
        if isDigit d then
          let (ds, after) := digits more
          .ok (Utf8.ascii (lit ++ [e] ++ sign ++ ds), after)
        else .error (.invalid d "in exponent of numeric literal")
      | [] => .error .unexpectedEnd
    else .ok (Utf8.ascii lit, bs)
  | [] => .ok (Utf8.ascii lit, [])

/-- Reads a number, starting at `-` or a digit. -/
def number (bs : List UInt8) : Except SyntaxError (String × List UInt8) :=
  let (sign, rest) : List UInt8 × List UInt8 := match bs with
    | 45 :: more => ([45], more)
    | _ => ([], bs)
  match rest with
  | 48 :: more => numberTail (sign ++ ([48] : List UInt8)) more
  | d :: _ =>
    if isDigit d then
      let (ds, after) := digits rest
      numberTail (sign ++ ds) after
    else .error (.invalid d "in numeric literal")
  | [] => .error .unexpectedEnd

/-- Reads the bytes of a literal word after its first letter. -/
def literal (word : String) (expect : List UInt8) (v : Value) :
    List UInt8 → Except SyntaxError (Value × List UInt8)
  | bs =>
    match expect, bs with
    | [], _ => .ok (v, bs)
    | _ :: _, [] => .error .unexpectedEnd
    | e :: es, b :: rest =>
      if b = e then literal word es v rest
      else .error (.invalid b ("in literal " ++ word ++ " (expecting " ++ showByte e ++ ")"))

/-- The deepest nesting of arrays and objects a document may have. -/
def maxDepth : Nat := 10000

/-- Reads one value after blanks, inside `depth` open arrays and objects; `fuel` bounds the
steps of the reading. -/
def value : Nat → Nat → List UInt8 → Except SyntaxError (Value × List UInt8)
  | 0, _, _ => .error .unexpectedEnd
  | fuel + 1, depth, bs =>
    match skipBlanks bs with
    | [] => .error .unexpectedEnd
    | b :: rest =>
      if b = 123 then
        if depth < maxDepth then members fuel (depth + 1) [] rest
        else .error (.invalid b "exceeded max depth")
      else if b = 91 then
        if depth < maxDepth then items fuel (depth + 1) [] rest
        else .error (.invalid b "exceeded max depth")
      else if b = 34 then (stringBody (rest.length + 1) [] rest).map fun (s, r) => (.str s, r)
      else if b = 45 || isDigit b then (number (b :: rest)).map fun (n, r) => (.num n, r)
      else if b = 116 then literal "true" [114, 117, 101] (.bool true) rest
      else if b = 102 then literal "false" [97, 108, 115, 101] (.bool false) rest
      else if b = 110 then literal "null" [117, 108, 108] .null rest
      else .error (.invalid b "looking for beginning of value")
where
  /-- Reads object members after `{` or after a comma, inside `depth` open arrays and objects
  with this one; `acc` holds the members read, last first. -/
  members : Nat → Nat → List (String × Value) → List UInt8 →
      Except SyntaxError (Value × List UInt8)
    | 0, _, _, _ => .error .unexpectedEnd
    | fuel + 1, depth, acc, bs =>
      match skipBlanks bs with
      | [] => .error .unexpectedEnd
      | b :: rest =>
        if b = 125 && acc.isEmpty then .ok (.obj [], rest)
        else if b = 34 then
          match stringBody (rest.length + 1) [] rest with
          | .error e => .error e
          | .ok (key, after) =>
            match skipBlanks after with
            | [] => .error .unexpectedEnd
            | c :: more =>
              if c ≠ 58 then .error (.invalid c "after object key")
              else
                match value fuel depth more with
                | .error e => .error e
                | .ok (v, after) =>
                  match skipBlanks after with
                  | [] => .error .unexpectedEnd
                  | d :: more =>
                    if d = 44 then members fuel depth ((key, v) :: acc) more
                    else if d = 125 then .ok (.obj ((key, v) :: acc).reverse, more)
                    else .error (.invalid d "after object key:value pair")
        else .error (.invalid b "looking for beginning of object key string")
  /-- Reads array items after `[` or after a comma, inside `depth` open arrays and objects with
  this one; `acc` holds the items read, last first. -/
  items : Nat → Nat → List Value → List UInt8 → Except SyntaxError (Value × List UInt8)
    | 0, _, _, _ => .error .unexpectedEnd
    | fuel + 1, depth, acc, bs =>
      match skipBlanks bs with
      | 93 :: rest => if acc.isEmpty then .ok (.arr [], rest) else .error (.invalid 93 "looking for beginning of value")
      | _ =>
        match value fuel depth bs with
        | .error e => .error e
        | .ok (v, after) =>
          match skipBlanks after with
          | [] => .error .unexpectedEnd
          | d :: more =>
            if d = 44 then items fuel depth (v :: acc) more
            else if d = 93 then .ok (.arr (v :: acc).reverse, more)
            else .error (.invalid d "after array element")

/-- Reads a whole document: one value and nothing after it but blanks. -/
def parse (bs : List UInt8) : Except SyntaxError Value := do
  let (v, rest) ← value (3 * bs.length + 3) 0 bs
  match skipBlanks rest with
  | [] => pure v
  | b :: _ => throw (.invalid b "after top-level value")

end ShaderHeaders.Json
