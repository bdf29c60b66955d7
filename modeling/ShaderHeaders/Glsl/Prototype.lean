import ShaderHeaders.Glsl.Header
import ShaderHeaders.Text.Lines

/-!
# Prototype lines

A chunk declares the functions it uses by prototype lines. The text is cut at each newline
(a carriage return stays in its line as a blank), and each line is read on its own: a line
that is wholly a header under the prototype rule, with no layout problem, declares its
signature; every other line declares nothing.

* `Grammar.prototypes` lists the declared signatures in line order.
-/

namespace ShaderHeaders

namespace Grammar

/-- The signature a single line declares, if it is a prototype line. -/
def prototypeLine? (g : Grammar) (line : List UInt8) : Option Signature :=
  let ts := Tokens.scan line
  match ts.body with
  | t :: _ =>
    if t.kind = .type then
      let o := Header.read g.prototype ts.eof ts.body
      if o.layout?.isSome then none else o.signature?
    else none
  | [] => none

/-- The signatures declared by the prototype lines of a text, in line order. -/
def prototypes (g : Grammar) (code : List UInt8) : List Signature :=
  (Lines.split code).filterMap g.prototypeLine?

end Grammar

end ShaderHeaders
