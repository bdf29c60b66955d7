import ShaderHeaders.Glsl.Header

/-!
# Reading a header by positions

`Header.read` reads a header from the list of tokens before the end token. The same reading is
done here the way a parser over the whole token array does it, end token included: it keeps the
position of the token it looks at, reads the token there (`peek`) and the one after it
(`peekNext`), reads the token before it once it has moved (`previous`), and moves one token on
(`advance`) unless it stands at the end token. A position outside the array fails the whole
reading (`none`), so a reading that returns has stayed inside the array. A loop that takes one
declaration after another is given as many rounds as there are tokens, and fails past them.

Along the way the parser remembers the first declaration whose type and name are not separated
by exactly one space.

* `Header.Parser.header` reads a header under a rule from the parser's position.
-/

namespace ShaderHeaders

namespace Header

/-- A parser over a token array: the tokens, the position of the token it looks at, and the
first layout problem met. -/
structure Parser where
  tokens : Array Token
  current : Nat
  layout : Option ParseError

namespace Parser

/-- A parser at position `start` of a token array, with no layout problem met. -/
def init (tokens : Array Token) (start : Nat) : Parser := ⟨tokens, start, none⟩

/-- The type a token carries: what a type token names, and `void`, the type of code `0`, for
any other token. -/
def carried (t : Token) : TypeName := t.typeName?.getD .void

/-- The token at position `i`; a position outside the array fails. -/
def tokenAt (i : Nat) : StateT Parser Option Token := do
  match (← get).tokens[i]? with
  | some t => pure t
  | none => failure

/-- The token the parser looks at. -/
def peek : StateT Parser Option Token := do tokenAt (← get).current

/-- Whether the parser looks at the end token. -/
def isAtEnd : StateT Parser Option Bool := do return (← peek).kind == .eof

/-- Whether the parser looks at a token of kind `k` other than the end token; a code that names
no kind (`none`) is never met. -/
def check (k : Option TokenKind) : StateT Parser Option Bool := do
  if ← isAtEnd then return false
  return some (← peek).kind == k

/-- The token before the parser's position. -/
def previous : StateT Parser Option Token := do
  let p ← get
  if p.current = 0 then failure else tokenAt (p.current - 1)

/-- Moves past the token the parser looks at, unless it is the end token, and gives the token
before the new position. -/
def advance : StateT Parser Option Token := do
  if !(← isAtEnd) then modify fun p => { p with current := p.current + 1 }
  previous

/-- The token after the one the parser looks at; at the end token, the end token. -/
def peekNext : StateT Parser Option Token := do
  if ← isAtEnd then peek else tokenAt ((← get).current + 1)

/-- A problem at the token the parser looks at. -/
def errorf (problem : HeaderProblem) : StateT Parser Option ParseError := do
  return ⟨problem, ← peek⟩

/-- Takes a token of kind `k`, or says what stands there instead. -/
def expectErr (k : Option TokenKind) : StateT Parser Option (Option ParseError) := do
  if ← check k then
    let _ ← advance
    return none
  return some (← errorf (.missing k (← peek).kind))

/-- Takes a token of kind `k` that touches the one before it. -/
def expectAdjacent (k : TokenKind) : StateT Parser Option (Option ParseError) := do
  if ← check (some k) then
    if !(← peek).adjacent then return some (← errorf (.spaceBefore k))
  expectErr (some k)

/-- Reads one declaration: a type, then a name unless the style lets it be left out. The first
declaration whose type and name are not one space apart is remembered. -/
def declaration (style : DeclStyle) : StateT Parser Option (Except ParseError Parameter) := do
  if !(← check (some .type)) then return .error (← errorf (.noParamType (← peek).kind))
  let typ ← advance
  if !(← check (some .ident)) then
    if style = .anonymous then return .ok ⟨carried typ, ""⟩
    return .error (← errorf (.noParamName typ.lexeme))
  let name ← advance
  if name.space ≠ [32] && (← get).layout.isNone then
    modify fun p =>
      { p with layout := some ⟨.spacing (typ.lexeme ++ name.space ++ name.lexeme), name⟩ }
  return .ok ⟨carried typ, Utf8.ascii name.lexeme⟩

/-- Where no parameter has been read yet, the first declaration must touch `(`. -/
def expectFirstAdjacent (params : List Parameter) : StateT Parser Option (Option ParseError) := do
  if params.isEmpty then
    if !(← peek).adjacent then return some (← errorf .spaceAfterOpen)
  return none

/-- Reads declarations after the parameters `params` already read, each after a comma that
touches the one before it; the first must touch `(`. At most `rounds` declarations are read. -/
def declarations (style : DeclStyle) : Nat → List Parameter →
    StateT Parser Option (Except ParseError (List Parameter))
  | 0, _ => failure
  | rounds + 1, params => do
    if let some e ← expectFirstAdjacent params then return .error e
    match ← declaration style with
    | .error e => return .error e
    | .ok param =>
      let params := params ++ [param]
      if ← check (some .comma) then
        if (← peek).adjacent then
          let _ ← advance
          return ← declarations style rounds params
      return .ok params

/-- Reads the declarations of a parameter list, with one round for each token of the array. -/
def parameters (style : DeclStyle) : StateT Parser Option (Except ParseError (List Parameter)) := do
  declarations style (← get).tokens.size []

/-- Whether the list is `void)`, both touching what stands before them. -/
def checkVoidArgs : StateT Parser Option Bool := do
  let tok ← peek
  if tok.kind ≠ .type || carried tok ≠ .void || !tok.adjacent then return false
  let next ← peekNext
  return next.kind == .closeParen && next.adjacent

/-- Reads the text between the parentheses: `void`, nothing, or declarations. -/
def argList (style : DeclStyle) : StateT Parser Option (Except ParseError (List Parameter)) := do
  if ← checkVoidArgs then
    let _ ← advance
    return .ok []
  if ← check (some .closeParen) then
    if (← peek).adjacent then return .ok []
  parameters style

/-- Reads the return type, the name and `(`. -/
def opening : StateT Parser Option (Except ParseError (TypeName × String)) := do
  if !(← check (some .type)) then return .error (← errorf (.noReturnType (← peek).kind))
  let returnType ← advance
  if !(← check (some .ident)) then return .error (← errorf (.noName (← peek).kind))
  if (← peek).adjacent then return .error (← errorf (.noName (← peek).kind))
  let name ← advance
  match ← expectAdjacent .openParen with
  | some e => return .error e
  | none => return .ok (carried returnType, Utf8.ascii name.lexeme)

/-- Reads `)`, the trailer and, under a whole-line rule, the end of the text. -/
def closing (rule : HeaderRule) : StateT Parser Option (Option ParseError) := do
  if let some e ← expectAdjacent .closeParen then return some e
  if let some e ← expectErr rule.trailer then return some e
  if rule.wholeLine then
    if !(← isAtEnd) then return some (← errorf (.trailing (← peek).kind rule.trailer))
  return none

/-- Reads a header under `rule` from the parser's position. -/
def header (rule : HeaderRule) : StateT Parser Option (Except ParseError Signature) := do
  match ← opening with
  | .error e => return .error e
  | .ok (ret, name) =>
    match ← argList rule.decl with
    | .error e => return .error e
    | .ok params =>
      match ← closing rule with
      | some e => return .error e
      | none => return .ok ⟨name, params, ret⟩

end Parser

end Header

end ShaderHeaders
