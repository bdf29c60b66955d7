import ShaderHeaders.Glsl.Lexer
import ShaderHeaders.Glsl.Signature

/-!
# Reading one function header

A header rule describes the text

    type name(void | decl, decl, ...) trailer

Whitespace is required between the return type and the name and forbidden between the name
and `(`, after `(`, before `)` and before each `,`; any whitespace may follow a comma or stand
before the trailer. A declaration is a type and a name, or for anonymous rules a type alone.
A whole-line rule asks that nothing follow the trailer.

Reading starts at a token and answers with the signature and the tokens after the header, or
with the first problem and the token where it was met. Independently of that answer, each
declaration read on the way whose type and name are not separated by exactly one space is a
layout problem; the first of them is reported (`Header.Outcome.layout?`).

* `Header.read` reads a header under a rule;
* `Grammar.standard` holds the two rules of shader chunks: definitions `T f(T a) {` and whole
  prototype lines `T f(T, T b);`.
-/

namespace ShaderHeaders

/-- How a parameter declaration reads: a type and a name, or a type with an optional name. -/
inductive DeclStyle where
  | named
  | anonymous
  deriving DecidableEq, Repr

namespace DeclStyle

/-- The style with a given code: `1` is anonymous and every other code reads as named. -/
def ofCode (n : Nat) : DeclStyle := if n = 1 then .anonymous else .named

/-- How a style code is named: `named`, `anonymous`, or `unknown` for codes from `2` on. -/
def codeName (n : Nat) : String :=
  if n = 0 then "named" else if n = 1 then "anonymous" else "unknown"

end DeclStyle

/-- A header rule: the declaration style, the kind of token that must follow `)` (a code that
names no kind is never met), and whether the trailer must end the text. -/
structure HeaderRule where
  decl : DeclStyle
  trailer : Option TokenKind
  wholeLine : Bool
  deriving DecidableEq, Repr

/-- The rules for definitions and for prototype lines. -/
structure Grammar where
  definition : HeaderRule
  prototype : HeaderRule
  deriving DecidableEq, Repr

/-- Definitions are `T f(T a, T b) {`; prototypes are whole lines `T f(T, T b);`. -/
def Grammar.standard : Grammar where
  definition := ⟨.named, some .openBrace, false⟩
  prototype := ⟨.anonymous, some .semicolon, true⟩

/-- What can go wrong in a header. -/
inductive HeaderProblem where
  | noReturnType (got : TokenKind)
  | noName (got : TokenKind)
  | spaceBefore (want : TokenKind)
  | missing (want : Option TokenKind) (got : TokenKind)
  | spaceAfterOpen
  | noParamType (got : TokenKind)
  | noParamName (typeText : List UInt8)
  | trailing (got : TokenKind) (trailer : Option TokenKind)
  /-- The type, space and name of a declaration whose type and name are not separated by
  exactly one space. -/
  | spacing (decl : List UInt8)
  deriving DecidableEq, Repr

/-- The wording of each problem. -/
def HeaderProblem.message : HeaderProblem → String
  | .noReturnType got => "expected return type, got " ++ got.name
  | .noName got => "expected function name, got " ++ got.name
  | .spaceBefore want => "unexpected whitespace before " ++ want.name
  | .missing want got => "expected " ++ TokenKind.nameOr want ++ ", got " ++ got.name
  | .spaceAfterOpen => "unexpected whitespace after ("
  | .noParamType got => "expected parameter type, got " ++ got.name
  | .noParamName t => "expected parameter name after " ++ Utf8.lossy t
  | .trailing got trailer => "unexpected " ++ got.name ++ " after " ++ TokenKind.nameOr trailer
  | .spacing decl =>
    "parameter " ++ Quoted.quote decl ++ ": type and name must be separated by a single space"

/-- A problem and the token where it was met. -/
structure ParseError where
  problem : HeaderProblem
  token : Token
  deriving DecidableEq, Repr

/-- The problem's wording, placed at its token: `line L, column C: message`. -/
def ParseError.text (e : ParseError) : String :=
  "line " ++ Decimal.ofNat e.token.line ++ ", column " ++ Decimal.ofNat e.token.column ++ ": " ++
    e.problem.message

/-- A parameter declaration as read: the type token, the type it names and the name token. -/
structure Declaration where
  typeToken : Token
  type : TypeName
  name? : Option Token
  deriving DecidableEq, Repr

namespace Declaration

/-- The parameter a declaration declares. -/
def toParameter (d : Declaration) : Parameter :=
  ⟨d.type, (d.name?.map fun n => Utf8.ascii n.lexeme).getD ""⟩

/-- The layout problem of a declaration whose type and name are not separated by exactly one
space, placed at the name. -/
def layout? (d : Declaration) : Option ParseError :=
  match d.name? with
  | some n =>
    if n.space = [32] then none
    else some ⟨.spacing (d.typeToken.lexeme ++ n.space ++ n.lexeme), n⟩
  | none => none

end Declaration

namespace Header

section Reading

-- `eof` is the end token of the text being read.
variable (eof : Token)

/-- The token that reading looks at. -/
def peek (rest : List Token) : Token := rest.headD eof

/-- The token after it; the end token when there is none. -/
def peekNext : List Token → Token
  | _ :: t :: _ => t
  | _ => eof

/-- A problem at the token that reading looks at. -/
def fail {α : Type} (rest : List Token) (p : HeaderProblem) : Except ParseError α :=
  .error ⟨p, peek eof rest⟩

/-- Takes a token of kind `k`, if it comes next. -/
def expect (k : Option TokenKind) (rest : List Token) : Except ParseError (List Token) :=
  match rest with
  | t :: rest' => if some t.kind = k then .ok rest' else fail eof rest (.missing k t.kind)
  | [] => fail eof rest (.missing k eof.kind)

/-- Takes a token of kind `k` that touches the one before it. -/
def expectAdjacent (k : TokenKind) (rest : List Token) : Except ParseError (List Token) :=
  match rest with
  | t :: rest' =>
    if t.kind = k then (if t.adjacent then .ok rest' else fail eof rest (.spaceBefore k))
    else fail eof rest (.missing (some k) t.kind)
  | [] => fail eof rest (.missing (some k) eof.kind)

/-- Reads one declaration: a type token, then a name unless the style lets it be left out. -/
def declaration (style : DeclStyle) (rest : List Token) :
    Except ParseError (Declaration × List Token) :=
  match rest with
  | t :: rest' =>
    match t.typeName? with
    | some ty =>
      match rest' with
      | n :: rest'' =>
        if n.kind = .ident then .ok (⟨t, ty, some n⟩, rest'')
        else if style = .anonymous then .ok (⟨t, ty, none⟩, rest')
        else fail eof rest' (.noParamName t.lexeme)
      | [] =>
        if style = .anonymous then .ok (⟨t, ty, none⟩, [])
        else fail eof [] (.noParamName t.lexeme)
    | none => fail eof rest (.noParamType t.kind)
  | [] => fail eof [] (.noParamType eof.kind)

theorem declaration_rest_lt (style : DeclStyle) (rest : List Token) (d : Declaration)
    (r : List Token) (h : declaration eof style rest = .ok (d, r)) : r.length < rest.length := by
  unfold declaration at h
  split at h
  · split at h
    · split at h
      · split at h
        · cases h; simp only [List.length_cons]; omega
        · split at h
          · cases h; simp only [List.length_cons]; omega
          · simp [fail] at h
      · split at h
        · cases h; simp only [List.length_cons]; omega
        · simp [fail] at h
    · simp [fail] at h
  · simp [fail] at h

/-- Reads declarations separated by commas that touch the declaration before them; answers
with the declarations read, and the tokens after the last one or the problem met. -/
def declarations (style : DeclStyle) (rest : List Token) :
    List Declaration × Except ParseError (List Token) :=
  match h : declaration eof style rest with
  | .error e => ([], .error e)
  | .ok (d, rest') =>
    match rest' with
    | c :: rest'' =>
      if c.kind = .comma && c.adjacent then
        have : rest''.length < rest.length := by
          have := declaration_rest_lt eof style rest d (c :: rest'') h
          simp only [List.length_cons] at this
          omega
        let more := declarations style rest''
        (d :: more.1, more.2)
      else ([d], .ok rest')
    | [] => ([d], .ok [])
termination_by rest.length

/-- Whether the list is `void)`, both touching what stands before them. -/
def voidList (rest : List Token) : Bool :=
  let t := peek eof rest
  let u := peekNext eof rest
  t.typeName? == some .void && t.adjacent && u.kind == .closeParen && u.adjacent

/-- Reads the text between the parentheses: `void`, nothing, or declarations, the first of
them touching `(`. -/
def paramList (style : DeclStyle) (rest : List Token) :
    List Declaration × Except ParseError (List Token) :=
  if voidList eof rest then ([], .ok rest.tail)
  else
    let t := peek eof rest
    if t.kind = .closeParen && t.adjacent then ([], .ok rest)
    else if !t.adjacent then ([], fail eof rest .spaceAfterOpen)
    else declarations eof style rest

/-- Reads the return type, the name and `(`. -/
def opening (rest : List Token) : Except ParseError (TypeName × String × List Token) :=
  match rest with
  | t :: rest' =>
    match t.typeName? with
    | some ty =>
      match rest' with
      | n :: rest'' =>
        if n.kind = .ident && !n.adjacent then
          (expectAdjacent eof .openParen rest'').map fun r => (ty, Utf8.ascii n.lexeme, r)
        else fail eof rest' (.noName n.kind)
      | [] => fail eof [] (.noName eof.kind)
    | none => fail eof rest (.noReturnType t.kind)
  | [] => fail eof [] (.noReturnType eof.kind)

/-- Reads `)`, the trailer and, for a whole-line rule, the end of the text. -/
def closing (rule : HeaderRule) (rest : List Token) : Except ParseError (List Token) := do
  let rest ← expectAdjacent eof .closeParen rest
  let rest ← expect eof rule.trailer rest
  match rest with
  | t :: _ =>
    if rule.wholeLine then fail eof rest (.trailing t.kind rule.trailer) else pure rest
  | [] => pure []

end Reading

/-- What reading a header gives: the signature and the tokens after the header, or the first
problem; and the declarations read on the way. -/
structure Outcome where
  result : Except ParseError (Signature × List Token)
  decls : List Declaration

/-- Reads a header under `rule` from the tokens `rest`, before the end token `eof`. -/
def read (rule : HeaderRule) (eof : Token) (rest : List Token) : Outcome :=
  match opening eof rest with
  | .error e => ⟨.error e, []⟩
  | .ok (ret, name, rest₁) =>
    let (decls, after) := paramList eof rule.decl rest₁
    match after with
    | .error e => ⟨.error e, decls⟩
    | .ok rest₂ =>
      ⟨(closing eof rule rest₂).map fun r => (⟨name, decls.map (·.toParameter), ret⟩, r), decls⟩

namespace Outcome

/-- The first layout problem among the declarations read. -/
def layout? (o : Outcome) : Option ParseError := (o.decls.filterMap (·.layout?)).head?

/-- The signature read, if any. -/
def signature? (o : Outcome) : Option Signature :=
  match o.result with
  | .ok (s, _) => some s
  | .error _ => none

/-- The problem met, if any. -/
def problem? (o : Outcome) : Option ParseError :=
  match o.result with
  | .ok _ => none
  | .error e => some e

end Outcome

end Header

end ShaderHeaders
