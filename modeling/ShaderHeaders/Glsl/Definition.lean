import ShaderHeaders.Glsl.Malformed

/-!
# The definition of a chunk

A chunk's definition is its first function header that opens a line: every type token that
only blanks precede on its line is tried in order under the definition rule, and the first
from which a header reads decides. If a declaration of that header breaks the layout rule the
chunk is malformed at that declaration; if no header reads, the chunk is malformed with no
position.

* `Grammar.definition?` finds the definition of a text.
-/

namespace ShaderHeaders

namespace Grammar

/-- The first header that reads under `rule` from a line-opening type token of `ts`. -/
def firstHeader (rule : HeaderRule) (eof : Token) : List Token → Option Header.Outcome
  | [] => none
  | t :: rest =>
    if t.kind = .type && t.lineStart then
      let o := Header.read rule eof (t :: rest)
      if o.signature?.isSome then some o else firstHeader rule eof rest
    else firstHeader rule eof rest

/-- The signature of the first definition in a text, or why there is none. -/
def definition? (g : Grammar) (code : List UInt8) : Except Malformed Signature :=
  let ts := Tokens.scan code
  match firstHeader g.definition ts.eof ts.body with
  | none => .error (Malformed.notFound code)
  | some o =>
    match o.layout?, o.signature? with
    | some e, _ => .error (Malformed.ofParseError code e)
    | none, some s => .ok s
    | none, none => .error (Malformed.notFound code)

end Grammar

end ShaderHeaders
