import ShaderHeaders.Yaml.Token
import ShaderHeaders.Text.Utf8

/-!
# Scanning YAML text

The scanner turns the runes of a YAML text into tokens, on demand. Indentation is kept as a
stack of columns: a line that starts deeper opens a block collection, one that starts shallower
closes the collections it leaves. A scalar that may turn out to be a mapping key is remembered
as a *simple key* until a `:` shows it is one; the key token (and the start of a block mapping,
when needed) is then put back in front of it. A simple key must stay on one line and within
1024 runes; one that must be a key and is not is an error.

The parser takes tokens one at a time from the front of the queue. Before it may take one the
scanner keeps at least three tokens queued, and never hands out a token that a pending simple
key could still precede; this lookahead decides which of two problems is reported first.

* `Scanner.start` prepares a text; runes outside the printable set stop the reader at once;
* `Scanner.peek` and `Scanner.advance` are the parser's view of the queue.

All loops run on a budget of the text's length, since each step consumes a rune.
-/

namespace ShaderHeaders.Yaml

/-- A position where a simple key may start, remembered until it is settled. -/
structure SimpleKey where
  possible : Bool
  required : Bool
  number : Nat
  mark : Mark
deriving Inhabited, Repr

/-- The state of the scanner: the text, the reading position, the queue of tokens not yet
taken, the indentation stack, the simple keys of each flow level and the flow depth. -/
structure Scanner where
  text : Array Char
  mark : Mark
  queue : List Token
  taken : Nat
  ready : Bool
  started : Bool
  indent : Int
  indents : List Int
  keyAllowed : Bool
  keys : Array SimpleKey
  keyAt : List (Nat × Nat)
  flowLevel : Nat
deriving Inhabited

namespace Chars

/-- A line break: carriage return, line feed, next line, line or paragraph separator. -/
def isBreak (c : Char) : Bool :=
  c = '\r' || c = '\n' || c.toNat = 0x85 || c.toNat = 0x2028 || c.toNat = 0x2029

/-- A space or a tab. -/
def isBlank (c : Char) : Bool := c = ' ' || c = '\t'

/-- The end of the text, read as a rune of code zero. -/
def isEnd (c : Char) : Bool := c.toNat = 0

/-- A blank, a line break or the end of the text. -/
def isBlankz (c : Char) : Bool := isBlank c || isBreak c || isEnd c

/-- A line break or the end of the text. -/
def isBreakz (c : Char) : Bool := isBreak c || isEnd c

/-- An ASCII letter or digit, `_` or `-`: the runes of names and handles. -/
def isWord (c : Char) : Bool :=
  ('0' ≤ c && c ≤ '9') || ('A' ≤ c && c ≤ 'Z') || ('a' ≤ c && c ≤ 'z') || c = '_' || c = '-'

/-- A decimal digit. -/
def isDigit (c : Char) : Bool := '0' ≤ c && c ≤ '9'

/-- A hexadecimal digit. -/
def isHex (c : Char) : Bool :=
  isDigit c || ('A' ≤ c && c ≤ 'F') || ('a' ≤ c && c ≤ 'f')

/-- The value of a hexadecimal digit. -/
def hexValue (c : Char) : Nat :=
  if isDigit c then c.toNat - '0'.toNat
  else if 'A' ≤ c && c ≤ 'F' then c.toNat - 'A'.toNat + 10
  else c.toNat - 'a'.toNat + 10

/-- A rune that the reader accepts: tab, line feed, carriage return, printable ASCII, next
line, and the printable ranges above. -/
def isAccepted (c : Char) : Bool :=
  let v := c.toNat
  v = 0x09 || v = 0x0A || v = 0x0D || (0x20 ≤ v && v ≤ 0x7E) || v = 0x85 ||
    (0xA0 ≤ v && v ≤ 0xD7FF) || (0xE000 ≤ v && v ≤ 0xFFFD) || (0x10000 ≤ v && v ≤ 0x10FFFF)

/-- A rune that may stand in a tag's text. -/
def isUri (verbatim : Bool) (c : Char) : Bool :=
  isWord c || ";/?:@&=+$.!~*'()%".contains c || (verbatim && ",[]".contains c)

end Chars

open Chars

/-- The number of bytes that a UTF-8 sequence led by `b` takes, or zero for a bad lead. -/
def utf8Width (b : Nat) : Nat :=
  if b < 0x80 then 1 else if b / 32 = 6 then 2 else if b / 16 = 14 then 3
  else if b / 8 = 30 then 4 else 0

/-- The UTF-8 text of a code point. -/
def utf8Of (v : Nat) : String := String.singleton (Char.ofNat v)

/-- Removes the entry of a token number from the map of pending simple keys. -/
def eraseNumber (n : Nat) (m : List (Nat × Nat)) : List (Nat × Nat) := m.filter (·.1 ≠ n)

/-- The text pieces of a scalar being read: what is kept, and the blanks and line breaks met
since, not yet joined to it. -/
structure Folding where
  text : String := ""
  leadingBreak : String := ""
  trailingBreaks : String := ""
  whitespaces : String := ""
  leadingBlanks : Bool := false
deriving Inhabited

/-- Joins the breaks met since the last rune kept: one break alone folds into a space, more
breaks are kept but the first; any other break is kept as it is. -/
def Folding.fold (f : Folding) : Folding :=
  let text :=
    if f.leadingBreak.startsWith "\n" then
      if f.trailingBreaks.isEmpty then f.text.push ' ' else f.text ++ f.trailingBreaks
    else f.text ++ f.leadingBreak ++ f.trailingBreaks
  { f with text, leadingBreak := "", trailingBreaks := "" }

namespace Scanner

/-- A scanner at the start of a text. -/
def init (text : Array Char) : Scanner :=
  { text, mark := ⟨0, 0, 0⟩, queue := [], taken := 0, ready := false, started := false,
    indent := -1, indents := [], keyAllowed := false, keys := #[], keyAt := [],
    flowLevel := 0 }

/-- The rune `k` places after the reading position, or the end rune past the text. -/
def ahead (s : Scanner) (k : Nat) : Char := s.text.getD (s.mark.index + k) (Char.ofNat 0)

/-- The rune at the reading position. -/
def here (s : Scanner) : Char := s.ahead 0

/-- A budget for a loop that consumes one rune a step. -/
def budget (s : Scanner) : Nat := s.text.size + 2

/-- Moves past one rune of a line. -/
def skip (s : Scanner) : Scanner :=
  { s with mark := { s.mark with index := s.mark.index + 1, column := s.mark.column + 1 } }

/-- Moves past one line break (a carriage return and line feed count as one). -/
def skipLine (s : Scanner) : Scanner :=
  if s.here = '\r' && s.ahead 1 = '\n' then
    { s with mark := ⟨s.mark.index + 2, s.mark.line + 1, 0⟩ }
  else if isBreak s.here then { s with mark := ⟨s.mark.index + 1, s.mark.line + 1, 0⟩ }
  else s

/-- Keeps the rune at the reading position and moves past it. -/
def read (s : Scanner) (acc : String) : String × Scanner := (acc.push s.here, s.skip)

/-- Keeps a line break, as a line feed unless it is a line or paragraph separator, and moves
past it. -/
def readLine (s : Scanner) (acc : String) : String × Scanner :=
  let c := s.here
  let next (n : Nat) (piece : Char) : String × Scanner :=
    (acc.push piece, { s with mark := ⟨s.mark.index + n, s.mark.line + 1, 0⟩ })
  if c = '\r' && s.ahead 1 = '\n' then next 2 '\n'
  else if c = '\r' || c = '\n' || c.toNat = 0x85 then next 1 '\n'
  else if c.toNat = 0x2028 || c.toNat = 0x2029 then next 1 c
  else (acc, s)

/-- A scanner problem in `context` (begun at `cm`), seen at the reading position. -/
def fail {α : Type} (s : Scanner) (context : String) (cm : Mark) (problem : String) : Except Problem α :=
  .error { stage := .scanner, context, contextMark := cm, problem, problemMark := s.mark }

/-- Puts a token at the back of the queue. -/
def push (s : Scanner) (kind : TokenKind) (start stop : Mark) : Scanner :=
  { s with queue := s.queue ++ [⟨kind, start, stop⟩] }

/-- Puts a token into the queue before the `k`-th queued token. -/
def insertAt (s : Scanner) (k : Nat) (t : Token) : Scanner :=
  { s with queue := s.queue.take k ++ t :: s.queue.drop k }

/-- The simple key of the innermost flow level. -/
def topKey (s : Scanner) : SimpleKey := s.keys.getD (s.keys.size - 1) default

/-- Gives up the pending simple key of the innermost level; one that had to be a key is an
error. -/
def removeKey (s : Scanner) : Except Problem Scanner :=
  let i := s.keys.size - 1
  let k := s.topKey
  if k.possible then
    if k.required then s.fail "while scanning a simple key" k.mark "could not find expected ':'"
    else .ok { s with keys := s.keys.modify i (fun k => { k with possible := false }),
                      keyAt := eraseNumber k.number s.keyAt }
  else .ok s

/-- Remembers the reading position as a possible simple key, when one may start here. It must
be a key when it opens a line of the current block indentation. -/
def saveKey (s : Scanner) : Except Problem Scanner := do
  if s.keyAllowed then
    let required := s.flowLevel = 0 && s.indent = (s.mark.column : Int)
    let key : SimpleKey := ⟨true, required, s.taken + s.queue.length, s.mark⟩
    let s ← s.removeKey
    let i := s.keys.size - 1
    pure { s with keys := s.keys.modify i (fun _ => key),
                  keyAt := (key.number, i) :: eraseNumber key.number s.keyAt }
  else pure s

/-- Whether the simple key in slot `i` may still be a key: it must be on the current line and
within 1024 runes. A key that may no longer be one is dropped; an error if it had to be one. -/
def keyValid (s : Scanner) (i : Nat) : Except Problem (Bool × Scanner) :=
  let k := s.keys.getD i default
  if !k.possible then .ok (false, s)
  else if k.mark.line < s.mark.line || k.mark.index + 1024 < s.mark.index then
    if k.required then s.fail "while scanning a simple key" k.mark "could not find expected ':'"
    else .ok (false, { s with keys := s.keys.modify i fun k => { k with possible := false } })
  else .ok (true, s)

/-- Enters a flow collection, with no simple key on the new level. -/
def enterFlow (s : Scanner) : Except Problem Scanner :=
  let s := { s with keys := s.keys.push ⟨false, false, 0, s.mark⟩, flowLevel := s.flowLevel + 1 }
  if s.flowLevel > 10000 then
    s.fail "while increasing flow level" s.topKey.mark "exceeded max depth of 10000"
  else .ok s

/-- Leaves a flow collection, dropping the simple key of its level. -/
def leaveFlow (s : Scanner) : Scanner :=
  if s.flowLevel > 0 then
    { s with flowLevel := s.flowLevel - 1, keyAt := eraseNumber s.topKey.number s.keyAt,
             keys := s.keys.pop }
  else s

/-- Opens a block collection at `column` when that is deeper than the current indentation:
the opening token goes at the back of the queue, or before token `number` of the stream. -/
def rollIndent (s : Scanner) (column : Nat) (number : Option Nat) (kind : TokenKind)
    (m : Mark) : Except Problem Scanner :=
  if s.flowLevel > 0 then .ok s
  else if s.indent < (column : Int) then
    let s := { s with indents := s.indent :: s.indents, indent := column }
    if s.indents.length > 10000 then
      s.fail "while increasing indent level" s.topKey.mark "exceeded max depth of 10000"
    else
      match number with
      | some n => .ok (s.insertAt (n - s.taken) ⟨kind, m, m⟩)
      | none => .ok (s.push kind m m)
  else .ok s

/-- Closes every block collection deeper than `column`, each with an end token at `m`. -/
def unroll (column : Int) (m : Mark) : Nat → Scanner → Scanner
  | 0, s => s
  | n + 1, s =>
    if s.indent > column then
      match s.indents with
      | i :: rest => unroll column m n { s.push .blockEnd m m with indent := i, indents := rest }
      | [] => s
    else s

/-- Closes the block collections deeper than `column`; nothing in a flow collection. -/
def unrollIndent (s : Scanner) (column : Int) (m : Mark) : Scanner :=
  if s.flowLevel > 0 then s else unroll column m s.indents.length s

/-- Skips spaces, and tabs where a tab cannot start an indentation. -/
def skipBlanks : Nat → Scanner → Scanner
  | 0, s => s
  | n + 1, s =>
    if s.here = ' ' || ((s.flowLevel > 0 || !s.keyAllowed) && s.here = '\t') then
      skipBlanks n s.skip
    else s

/-- Skips runes up to the next line break or the end. -/
def skipToBreak : Nat → Scanner → Scanner
  | 0, s => s
  | n + 1, s => if isBreakz s.here then s else skipToBreak n s.skip

/-- Skips blanks, comments and line breaks up to the next token; a line break in block
context lets a simple key start. -/
def toNextToken : Nat → Scanner → Scanner
  | 0, s => s
  | n + 1, s =>
    let s := if s.mark.column = 0 && s.here.toNat = 0xFEFF then s.skip else s
    let s := skipBlanks s.budget s
    let s := if s.here = '#' then skipToBreak s.budget s else s
    if isBreak s.here then
      let s := s.skipLine
      toNextToken n (if s.flowLevel = 0 then { s with keyAllowed := true } else s)
    else s

/-- Reads runes while `p` holds. -/
def readWhile (p : Char → Bool) : Nat → Scanner → String → String × Scanner
  | 0, s, acc => (acc, s)
  | n + 1, s, acc =>
    if p s.here then
      let (acc, s) := s.read acc
      readWhile p n s acc
    else (acc, s)

/-- Whether the three runes at the reading position open a line as `---` or `...`
followed by a blank or the end. -/
def atDocumentIndicator (s : Scanner) : Bool :=
  s.mark.column = 0 &&
    ((s.here = '-' && s.ahead 1 = '-' && s.ahead 2 = '-') ||
      (s.here = '.' && s.ahead 1 = '.' && s.ahead 2 = '.')) && isBlankz (s.ahead 3)

/-- The context named by a problem inside a tag. -/
def tagContext (directive : Bool) : String :=
  if directive then "while parsing a %TAG directive" else "while parsing a tag"

/-- Reads `%XX` escapes of one UTF-8 sequence inside a tag. -/
def uriEscapes (directive : Bool) (start : Mark) : Nat → Nat → Scanner → List UInt8 →
    Except Problem (List UInt8 × Scanner)
  | 0, _, s, acc => .ok (acc, s)
  | fuel + 1, w, s, acc =>
    if w = 0 then .ok (acc, s)
    else if !(s.here = '%' && isHex (s.ahead 1) && isHex (s.ahead 2)) then
      s.fail (tagContext directive) start "did not find URI escaped octet"
    else
      let octet := hexValue (s.ahead 1) * 16 + hexValue (s.ahead 2)
      let first := w = 1024
      let w' := if first then utf8Width octet else w
      if first && w' = 0 then
        s.fail (tagContext directive) start "found an incorrect leading UTF-8 octet"
      else if !first && octet / 64 ≠ 2 then
        s.fail (tagContext directive) start "found an incorrect trailing UTF-8 octet"
      else uriEscapes directive start fuel (w' - 1) s.skip.skip.skip (acc ++ [octet.toUInt8])

/-- Reads the text of a tag after `head` (whose leading `!` is dropped). -/
def tagUri (verbatim directive : Bool) (head : String) (start : Mark) (s : Scanner) :
    Except Problem (String × Scanner) :=
  let rec go : Nat → Scanner → String → Bool → Except Problem (String × Scanner)
    | 0, s, acc, seen => finish s acc seen
    | n + 1, s, acc, seen =>
      if isUri verbatim s.here then
        if s.here = '%' then do
          let (bytes, s) ← uriEscapes directive start s.budget 1024 s []
          go n s (acc ++ Utf8.lossy bytes) true
        else
          let (acc, s) := s.read acc
          go n s acc true
      else finish s acc seen
  go s.budget s ((head.drop 1).toString) (!head.isEmpty)
where
  finish (s : Scanner) (acc : String) (seen : Bool) : Except Problem (String × Scanner) :=
    if seen then .ok (acc, s) else s.fail (tagContext directive) start "did not find expected tag URI"

/-- Reads a tag handle: `!`, `!!` or `!name!`; a lone `!name` is left for the tag's text. -/
def tagHandle (directive : Bool) (start : Mark) (s : Scanner) :
    Except Problem (String × Scanner) :=
  if s.here ≠ '!' then s.fail (tagContext directive) start "did not find expected '!'"
  else
    let (acc, s) := s.read ""
    let (acc, s) := readWhile isWord s.budget s acc
    if s.here = '!' then .ok (s.read acc)
    else if directive && acc ≠ "!" then
      s.fail (tagContext directive) start "did not find expected '!'"
    else .ok (acc, s)

/-- Reads one part of a `%YAML` version number: one or two digits. -/
def versionNumber (start : Mark) (s : Scanner) : Except Problem (Nat × Scanner) :=
  let rec go : Nat → Scanner → Nat → Nat → Except Problem (Nat × Scanner)
    | 0, s, v, len => finish s v len
    | n + 1, s, v, len =>
      if isDigit s.here then
        if len + 1 > 2 then
          s.fail "while scanning a %YAML directive" start "found extremely long version number"
        else go n s.skip (v * 10 + (s.here.toNat - '0'.toNat)) (len + 1)
      else finish s v len
  go s.budget s 0 0
where
  finish (s : Scanner) (v len : Nat) : Except Problem (Nat × Scanner) :=
    if len = 0 then
      s.fail "while scanning a %YAML directive" start "did not find expected version number"
    else .ok (v, s)

/-- Reads a `%YAML` or `%TAG` directive and the rest of its line. -/
def scanDirective (s : Scanner) : Except Problem Scanner := do
  let start := s.mark
  let s := s.skip
  let (name, s) := readWhile isWord s.budget s ""
  if name.isEmpty then
    s.fail "while scanning a directive" start "could not find expected directive name"
  else if !isBlankz s.here then
    s.fail "while scanning a directive" start "found unexpected non-alphabetical character"
  else
    let s ← if name = "YAML" then do
        let s := readWhile isBlank s.budget s "" |>.2
        let (major, s) ← versionNumber start s
        if s.here ≠ '.' then
          s.fail "while scanning a %YAML directive" start "did not find expected digit or '.' character"
        else
          let (minor, s) ← versionNumber start s.skip
          pure (s.push (.versionDirective major minor) start s.mark)
      else if name = "TAG" then do
        let s := readWhile isBlank s.budget s "" |>.2
        let (handle, s) ← tagHandle true start s
        if !isBlank s.here then
          s.fail "while scanning a %TAG directive" start "did not find expected whitespace"
        else
          let s := readWhile isBlank s.budget s "" |>.2
          let (pre, s) ← tagUri true true "" start s
          if !isBlankz s.here then
            s.fail "while scanning a %TAG directive" start
              "did not find expected whitespace or line break"
          else pure (s.push (.tagDirective handle pre) start s.mark)
      else s.fail "while scanning a directive" start "found unknown directive name"
    let s := readWhile isBlank s.budget s "" |>.2
    let s := if s.here = '#' then skipToBreak s.budget s else s
    if !isBreakz s.here then
      s.fail "while scanning a directive" start "did not find expected comment or line break"
    else pure s.skipLine

/-- Reads an anchor `&name` or an alias `*name`. -/
def scanAnchor (isAlias : Bool) (s : Scanner) : Except Problem Scanner :=
  let start := s.mark
  let (name, s) := readWhile isWord s.budget s.skip ""
  let c := s.here
  if name.isEmpty || !(isBlankz c || "?:,]\x7d%@".contains c || c.toNat = 96) then
    s.fail (if isAlias then "while scanning an alias" else "while scanning an anchor") start
      "did not find expected alphabetic or numeric character"
  else .ok (s.push (if isAlias then .alias name else .anchor name) start s.mark)

/-- Reads a tag: verbatim `!<...>`, `!handle!suffix`, `!suffix` or a lone `!`. -/
def scanTag (s : Scanner) : Except Problem Scanner := do
  let start := s.mark
  let (handle, suffix, s) ← if s.ahead 1 = '<' then do
      let (suffix, s) ← tagUri true false "" start s.skip.skip
      if s.here ≠ '>' then s.fail "while scanning a tag" start "did not find the expected '>'"
      else pure ("", suffix, s.skip)
    else do
      let (handle, s) ← tagHandle false start s
      if handle.length > 1 && handle.startsWith "!" && handle.endsWith "!" then
        let (suffix, s) ← tagUri false false "" start s
        pure (handle, suffix, s)
      else
        let (suffix, s) ← tagUri false false handle start s
        if suffix.isEmpty then pure ("", "!", s) else pure ("!", suffix, s)
  if !isBlankz s.here && (s.flowLevel = 0 || s.here ≠ ',') then
    s.fail "while scanning a tag" start "did not find expected whitespace or line break"
  else pure (s.push (.tag handle suffix) start s.mark)

/-- Reads the runes of a plain scalar up to a blank, a `: ` or (in flow) an indicator,
joining the blanks met before them. -/
def plainRunes : Nat → Scanner → Folding → Mark → Scanner × Folding × Mark
  | 0, s, f, e => (s, f, e)
  | n + 1, s, f, e =>
    if isBlankz s.here then (s, f, e)
    else if (s.here = ':' && isBlankz (s.ahead 1)) || (s.flowLevel > 0 && ",?[]\x7b\x7d".contains s.here) then
      (s, f, e)
    else
      let f :=
        if f.leadingBlanks then { f.fold with leadingBlanks := false }
        else if f.whitespaces.isEmpty then f
        else { f with text := f.text ++ f.whitespaces, whitespaces := "" }
      let (text, s) := s.read f.text
      plainRunes n s { f with text } s.mark

/-- Reads the blanks and line breaks after some runes of a plain scalar. -/
def plainBlanks (indent : Int) (start : Mark) : Nat → Scanner → Folding →
    Except Problem (Scanner × Folding)
  | 0, s, f => .ok (s, f)
  | n + 1, s, f =>
    if isBlank s.here then
      if f.leadingBlanks && (s.mark.column : Int) < indent && s.here = '\t' then
        s.fail "while scanning a plain scalar" start "found a tab character that violates indentation"
      else if !f.leadingBlanks then
        let (w, s) := s.read f.whitespaces
        plainBlanks indent start n s { f with whitespaces := w }
      else plainBlanks indent start n s.skip f
    else if isBreak s.here then
      if !f.leadingBlanks then
        let (b, s) := s.readLine ""
        plainBlanks indent start n s { f with whitespaces := "", leadingBreak := b, leadingBlanks := true }
      else
        let (b, s) := s.readLine f.trailingBreaks
        plainBlanks indent start n s { f with trailingBreaks := b }
    else .ok (s, f)

/-- Reads a plain scalar, line after line while the lines stay indented past the current
block. -/
def plainLoop (indent : Int) (start : Mark) : Nat → Scanner → Folding → Mark →
    Except Problem (Scanner × Folding × Mark)
  | 0, s, f, e => .ok (s, f, e)
  | n + 1, s, f, e =>
    if s.atDocumentIndicator || s.here = '#' then .ok (s, f, e)
    else
      let (s, f, e) := plainRunes s.budget s f e
      if !(isBlank s.here || isBreak s.here) then .ok (s, f, e)
      else do
        let (s, f) ← plainBlanks indent start s.budget s f
        if s.flowLevel = 0 && (s.mark.column : Int) < indent then .ok (s, f, e)
        else plainLoop indent start n s f e

/-- Reads a plain scalar token. A line break inside it lets a simple key start after it. -/
def scanPlain (s : Scanner) : Except Problem Scanner := do
  let start := s.mark
  let (s, f, e) ← plainLoop (s.indent + 1) start s.budget s {} start
  let s := s.push (.scalar f.text .plain) start e
  pure (if f.leadingBlanks then { s with keyAllowed := true } else s)

/-- Reads the escape after a backslash in a double-quoted scalar. -/
def escape (start : Mark) (s : Scanner) (acc : String) : Except Problem (String × Scanner) :=
  let c := s.ahead 1
  let simple : Option String :=
    if c = '0' then some (String.singleton (Char.ofNat 0))
    else if c = 'a' then some (String.singleton (Char.ofNat 7))
    else if c = 'b' then some (String.singleton (Char.ofNat 8))
    else if c = 't' || c = '\t' then some "\t"
    else if c = 'n' then some "\n"
    else if c = 'v' then some (String.singleton (Char.ofNat 11))
    else if c = 'f' then some (String.singleton (Char.ofNat 12))
    else if c = 'r' then some "\r"
    else if c = 'e' then some (String.singleton (Char.ofNat 27))
    else if c = ' ' then some " "
    else if c = '"' then some "\""
    else if c = '\'' then some "'"
    else if c = '\\' then some "\\"
    else if c = 'N' then some (utf8Of 0x85)
    else if c = '_' then some (utf8Of 0xA0)
    else if c = 'L' then some (utf8Of 0x2028)
    else if c = 'P' then some (utf8Of 0x2029)
    else none
  let width : Nat := if c = 'x' then 2 else if c = 'u' then 4 else if c = 'U' then 8 else 0
  match simple with
  | some piece => .ok (acc ++ piece, s.skip.skip)
  | none =>
    if width = 0 then s.fail "while parsing a quoted scalar" start "found unknown escape character"
    else
      let s := s.skip.skip
      let digits := (List.range width).map s.ahead
      if !digits.all isHex then
        s.fail "while parsing a quoted scalar" start "did not find expected hexdecimal number"
      else
        let v := digits.foldl (fun v d => v * 16 + hexValue d) 0
        if (0xD800 ≤ v && v ≤ 0xDFFF) || v > 0x10FFFF then
          s.fail "while parsing a quoted scalar" start "found invalid Unicode character escape code"
        else .ok (acc ++ utf8Of v, (List.range width).foldl (fun s _ => s.skip) s)

/-- Reads the runes of a quoted scalar up to a blank or the closing quote; an escaped line
break ends the run and counts as a leading blank. -/
def quotedRunes (single : Bool) (start : Mark) : Nat → Scanner → String →
    Except Problem (Scanner × String × Bool)
  | 0, s, acc => .ok (s, acc, false)
  | n + 1, s, acc =>
    if isBlankz s.here then .ok (s, acc, false)
    else if single && s.here = '\'' && s.ahead 1 = '\'' then
      quotedRunes single start n s.skip.skip (acc.push '\'')
    else if single && s.here = '\'' then .ok (s, acc, false)
    else if !single && s.here = '"' then .ok (s, acc, false)
    else if !single && s.here = '\\' && isBreak (s.ahead 1) then .ok (s.skip.skipLine, acc, true)
    else if !single && s.here = '\\' then do
      let (acc, s) ← escape start s acc
      quotedRunes single start n s acc
    else
      let (acc, s) := s.read acc
      quotedRunes single start n s acc

/-- Reads the blanks and line breaks inside a quoted scalar. -/
def quotedBlanks : Nat → Scanner → Folding → Scanner × Folding
  | 0, s, f => (s, f)
  | n + 1, s, f =>
    if isBlank s.here then
      if !f.leadingBlanks then
        let (w, s) := s.read f.whitespaces
        quotedBlanks n s { f with whitespaces := w }
      else quotedBlanks n s.skip f
    else if isBreak s.here then
      if !f.leadingBlanks then
        let (b, s) := s.readLine ""
        quotedBlanks n s { f with whitespaces := "", leadingBreak := b, leadingBlanks := true }
      else
        let (b, s) := s.readLine f.trailingBreaks
        quotedBlanks n s { f with trailingBreaks := b }
    else (s, f)

/-- Reads a quoted scalar up to its closing quote. -/
def quotedLoop (single : Bool) (start : Mark) : Nat → Scanner → String →
    Except Problem (Scanner × String)
  | 0, s, acc => .ok (s, acc)
  | n + 1, s, acc =>
    if s.atDocumentIndicator then
      s.fail "while scanning a quoted scalar" start "found unexpected document indicator"
    else if isEnd s.here then
      s.fail "while scanning a quoted scalar" start "found unexpected end of stream"
    else do
      let (s, acc, lead) ← quotedRunes single start s.budget s acc
      if (single && s.here = '\'') || (!single && s.here = '"') then .ok (s, acc)
      else
        let (s, f) := quotedBlanks s.budget s { text := acc, leadingBlanks := lead }
        let f := if f.leadingBlanks then f.fold else { f with text := f.text ++ f.whitespaces }
        quotedLoop single start n s f.text

/-- Reads a single- or double-quoted scalar token. -/
def scanQuoted (single : Bool) (s : Scanner) : Except Problem Scanner := do
  let start := s.mark
  let (s, text) ← quotedLoop single start s.budget s.skip ""
  let s := s.skip
  pure (s.push (.scalar text (if single then .singleQuoted else .doubleQuoted)) start s.mark)

/-- Skips the indentation and empty lines before a line of a block scalar, keeping the line
breaks; with no indentation given yet, settles it from the deepest of these lines. -/
def blockBreaks (start : Mark) (blockIndent : Int) : Nat → Scanner → Nat → String → Mark → Nat →
    Except Problem (Scanner × Nat × String × Mark)
  | 0, s, indent, breaks, e, _ => .ok (s, indent, breaks, e)
  | n + 1, s, indent, breaks, e, maxIndent =>
    let s := (skipSpaces indent s.budget s)
    let maxIndent := max maxIndent s.mark.column
    if (indent = 0 || s.mark.column < indent) && s.here = '\t' then
      s.fail "while scanning a block scalar" start
        "found a tab character where an indentation space is expected"
    else if isBreak s.here then
      let (breaks, s) := s.readLine breaks
      blockBreaks start blockIndent n s indent breaks s.mark maxIndent
    else
      let indent :=
        if indent = 0 then max (max maxIndent (blockIndent + 1).toNat) 1 else indent
      .ok (s, indent, breaks, e)
where
  skipSpaces (indent : Nat) : Nat → Scanner → Scanner
    | 0, s => s
    | k + 1, s =>
      if (indent = 0 || s.mark.column < indent) && s.here = ' ' then skipSpaces indent k s.skip
      else s

/-- Reads the lines of a block scalar at its indentation, folding them when `literal` is
false. -/
def blockLines (start : Mark) (literal : Bool) (blockIndent : Int) : Nat → Scanner → Nat →
    Folding → Bool → Mark → Except Problem (Scanner × Folding × Mark)
  | 0, s, _, f, _, e => .ok (s, f, e)
  | n + 1, s, indent, f, leadingBlank, e =>
    if s.mark.column = indent && !isEnd s.here then do
      let trailingBlank := isBlank s.here
      let text :=
        if !literal && !leadingBlank && !trailingBlank && f.leadingBreak.startsWith "\n" then
          if f.trailingBreaks.isEmpty then f.text.push ' ' else f.text
        else f.text ++ f.leadingBreak
      let text := text ++ f.trailingBreaks
      let leadingBlank := isBlank s.here
      let (text, s) := readWhile (fun c => !isBreakz c) s.budget s text
      let (lb, s) := s.readLine ""
      let (s, indent, breaks, e) ← blockBreaks start blockIndent s.budget s indent "" e 0
      blockLines start literal blockIndent n s indent
        { text, leadingBreak := lb, trailingBreaks := breaks } leadingBlank e
    else .ok (s, f, e)

/-- Reads a literal `|` or folded `>` block scalar token, with its chomping (`+`, `-`) and
indentation indicators. -/
def scanBlock (literal : Bool) (s : Scanner) : Except Problem Scanner := do
  let start := s.mark
  let s := s.skip
  let sign (c : Char) : Int := if c = '+' then 1 else -1
  let (chomping, increment, s) ←
    if s.here = '+' || s.here = '-' then
      let ch := sign s.here
      let s := s.skip
      if isDigit s.here then
        if s.here = '0' then
          s.fail "while scanning a block scalar" start "found an indentation indicator equal to 0"
        else pure (ch, s.here.toNat - '0'.toNat, s.skip)
      else pure (ch, 0, s)
    else if isDigit s.here then
      if s.here = '0' then
        s.fail "while scanning a block scalar" start "found an indentation indicator equal to 0"
      else
        let inc := s.here.toNat - '0'.toNat
        let s := s.skip
        if s.here = '+' || s.here = '-' then pure (sign s.here, inc, s.skip)
        else pure ((0 : Int), inc, s)
    else pure ((0 : Int), 0, s)
  let s := readWhile isBlank s.budget s "" |>.2
  let s := if s.here = '#' then skipToBreak s.budget s else s
  if !isBreakz s.here then
    s.fail "while scanning a block scalar" start "did not find expected comment or line break"
  else
    let s := if isBreak s.here then s.skipLine else s
    let e := s.mark
    let indent : Nat :=
      if increment > 0 then (if s.indent ≥ 0 then (s.indent + increment).toNat else increment)
      else 0
    let (s, indent, breaks, e) ← blockBreaks start s.indent s.budget s indent "" e 0
    let (s, f, e) ← blockLines start literal s.indent s.budget s indent
      { trailingBreaks := breaks } false e
    let text := if chomping ≠ -1 then f.text ++ f.leadingBreak else f.text
    let text := if chomping = 1 then text ++ f.trailingBreaks else text
    pure (s.push (.scalar text (if literal then .literal else .folded)) start e)

/-- Whether a plain scalar may start here: not at a blank or an indicator, except `-`, `?` and
`:` before a non-blank (for `?` and `:`, only in block context). -/
def plainStarts (s : Scanner) : Bool :=
  let c := s.here
  !(isBlankz c || "-?:,[]\x7b\x7d#&*!|>'\"%@".contains c || c.toNat = 96) ||
    (c = '-' && !isBlank (s.ahead 1)) ||
    (s.flowLevel = 0 && (c = '?' || c = ':') && !isBlankz (s.ahead 1))

/-- Moves past a one-rune indicator and queues its token. -/
def indicator (s : Scanner) (kind : TokenKind) : Scanner :=
  let start := s.mark
  let s := s.skip
  s.push kind start s.mark

/-- Scans the next token (or, at the end, one more end-of-stream token) into the queue. -/
def fetchNext (s : Scanner) : Except Problem Scanner := do
  if !s.started then
    let s := { s with indent := -1, keys := #[default], keyAllowed := true, started := true }
    return s.push .streamStart s.mark s.mark
  let scanMark := s.mark
  let s := toNextToken s.budget s
  let s := s.unrollIndent s.mark.column scanMark
  let c := s.here
  if isEnd c then
    let s := if s.mark.column ≠ 0 then
        { s with mark := { s.mark with column := 0, line := s.mark.line + 1 } } else s
    let s := s.unrollIndent (-1) s.mark
    let s ← s.removeKey
    return { s with keyAllowed := false }.push .streamEnd s.mark s.mark
  if s.mark.column = 0 && c = '%' then
    let s := s.unrollIndent (-1) s.mark
    let s ← s.removeKey
    return ← scanDirective { s with keyAllowed := false }
  if s.atDocumentIndicator then
    let s := s.unrollIndent (-1) s.mark
    let s ← s.removeKey
    let start := s.mark
    let s := { s with keyAllowed := false }.skip.skip.skip
    return s.push (if c = '-' then .documentStart else .documentEnd) start s.mark
  if c = '[' || c = '{' then
    let s ← s.saveKey
    let s ← s.enterFlow
    return { s with keyAllowed := true }.indicator
      (if c = '[' then .flowSequenceStart else .flowMappingStart)
  if c = ']' || c = '}' then
    let s ← s.removeKey
    return { s.leaveFlow with keyAllowed := false }.indicator
      (if c = ']' then .flowSequenceEnd else .flowMappingEnd)
  if c = ',' then
    let s ← s.removeKey
    return { s with keyAllowed := true }.indicator .flowEntry
  if c = '-' && isBlankz (s.ahead 1) then
    let s ← if s.flowLevel = 0 then
        if !s.keyAllowed then
          s.fail "" s.mark "block sequence entries are not allowed in this context"
        else s.rollIndent s.mark.column none .blockSequenceStart s.mark
      else pure s
    let s ← s.removeKey
    return { s with keyAllowed := true }.indicator .blockEntry
  if c = '?' && (s.flowLevel > 0 || isBlankz (s.ahead 1)) then
    let s ← if s.flowLevel = 0 then
        if !s.keyAllowed then
          s.fail "" s.mark "mapping keys are not allowed in this context"
        else s.rollIndent s.mark.column none .blockMappingStart s.mark
      else pure s
    let s ← s.removeKey
    return { s with keyAllowed := s.flowLevel = 0 }.indicator .key
  if c = ':' && (s.flowLevel > 0 || isBlankz (s.ahead 1)) then
    let i := s.keys.size - 1
    let (valid, s) ← s.keyValid i
    if valid then
      let k := s.keys.getD i default
      let s := s.insertAt (k.number - s.taken) ⟨.key, k.mark, k.mark⟩
      let s ← s.rollIndent k.mark.column (some k.number) .blockMappingStart k.mark
      let s := { s with keys := s.keys.modify i (fun k => { k with possible := false }),
                        keyAt := eraseNumber k.number s.keyAt, keyAllowed := false }
      return s.indicator .value
    else
      let s ← if s.flowLevel = 0 then
          if !s.keyAllowed then
            s.fail "" s.mark "mapping values are not allowed in this context"
          else s.rollIndent s.mark.column none .blockMappingStart s.mark
        else pure s
      return { s with keyAllowed := s.flowLevel = 0 }.indicator .value
  if c = '*' || c = '&' then
    let s ← s.saveKey
    return ← scanAnchor (c = '*') { s with keyAllowed := false }
  if c = '!' then
    let s ← s.saveKey
    return ← scanTag { s with keyAllowed := false }
  if (c = '|' || c = '>') && s.flowLevel = 0 then
    let s ← s.removeKey
    return ← scanBlock (c = '|') { s with keyAllowed := true }
  if c = '\'' || c = '"' then
    let s ← s.saveKey
    return ← scanQuoted (c = '\'') { s with keyAllowed := false }
  if s.plainStarts then
    let s ← s.saveKey
    return ← scanPlain { s with keyAllowed := false }
  s.fail "while scanning for the next token" s.mark "found character that cannot start any token"

/-- Scans until the parser may take the front token: three tokens are queued and no pending
simple key could still come before the front one. -/
def fetchMore : Nat → Scanner → Except Problem Scanner
  | 0, s => .ok { s with ready := true }
  | n + 1, s => do
    if s.queue.length ≥ 3 then
      match s.keyAt.lookup s.taken with
      | none => return { s with ready := true }
      | some i =>
        let (valid, s) ← s.keyValid i
        if !valid then return { s with ready := true }
    fetchMore n (← s.fetchNext)

/-- The front token, scanning as far as needed first. -/
def peek (s : Scanner) : Except Problem (Token × Scanner) := do
  let s ← if s.ready then pure s else fetchMore (4 * s.text.size + 16) s
  match s.queue with
  | t :: _ => pure (t, s)
  | [] => pure (⟨.streamEnd, s.mark, s.mark⟩, s)

/-- Hands the front token to the parser. -/
def advance (s : Scanner) : Scanner :=
  { s with queue := s.queue.drop 1, taken := s.taken + 1, ready := false }

/-- A problem of the reader, which names no line. -/
def readerProblem (problem : String) : Problem :=
  { stage := .reader, context := "", contextMark := ⟨0, 0, 0⟩, problem, problemMark := ⟨0, 0, 0⟩ }

/-- Decodes UTF-8 bytes into runes, refusing a bad sequence or a rune outside the accepted
set at the first place it occurs. -/
def decodeText : Nat → List UInt8 → List Char → Except Problem (List Char)
  | 0, _, acc => .ok acc.reverse
  | _, [], acc => .ok acc.reverse
  | fuel + 1, b :: rest, acc =>
    let lead := b.toNat
    let width := utf8Width lead
    if width = 0 then .error (readerProblem "invalid leading UTF-8 octet")
    else if rest.length < width - 1 then .error (readerProblem "incomplete UTF-8 octet sequence")
    else
      let tail := rest.take (width - 1)
      if !tail.all (fun t => t.toNat / 64 = 2) then
        .error (readerProblem "invalid trailing UTF-8 octet")
      else
        let high := if width = 1 then lead else if width = 2 then lead % 32
          else if width = 3 then lead % 16 else lead % 8
        let v := tail.foldl (fun v t => v * 64 + t.toNat % 64) high
        if (width = 2 && v < 0x80) || (width = 3 && v < 0x800) || (width = 4 && v < 0x10000) then
          .error (readerProblem "invalid length of a UTF-8 sequence")
        else if (0xD800 ≤ v && v ≤ 0xDFFF) || v > 0x10FFFF then
          .error (readerProblem "invalid Unicode character")
        else if !isAccepted (Char.ofNat v) then
          .error (readerProblem "control characters are not allowed")
        else decodeText fuel (rest.drop (width - 1)) (Char.ofNat v :: acc)

/-- A scanner over the bytes of a text, or the reader's problem with them. A leading UTF-8
byte-order mark is dropped. -/
def start (bytes : List UInt8) : Except Problem Scanner :=
  let bytes := match bytes with
    | 0xEF :: 0xBB :: 0xBF :: rest => rest
    | _ => bytes
  (decodeText (bytes.length + 1) bytes []).map fun cs => init cs.toArray

end Scanner

end ShaderHeaders.Yaml
