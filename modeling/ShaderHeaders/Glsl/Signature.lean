import ShaderHeaders.Glsl.TypeName

/-!
# Function signatures

A signature is a function's name, its return type and its parameters; a parameter is a type
and a name, the name empty when the parameter is anonymous. A signature prints as the header
`vec4 foo(float x, float y)`, an empty list as `(void)`, and as the prototype line with `;`
after it.

A prototype is satisfied by a definition with the same name, return type and parameter types;
parameter names do not count (`satisfiedBy_iff`).
-/

namespace ShaderHeaders

/-- A declared parameter: its type, and its name (empty when anonymous). -/
structure Parameter where
  type : TypeName
  name : String
  deriving DecidableEq, Repr

/-- A function signature. -/
structure Signature where
  name : String
  params : List Parameter
  returnType : TypeName
  deriving DecidableEq, Repr

namespace Parameter

/-- A parameter declared without a name. -/
def anonymous (p : Parameter) : Bool := p.name.isEmpty

/-- The declaration as written: the type, then the name after one space. -/
def render (p : Parameter) : String :=
  if p.anonymous then p.type.render else p.type.render ++ " " ++ p.name

end Parameter

namespace Signature

/-- The text between the parentheses of a header: `void` for no parameters, else the
declarations separated by `, `. -/
def renderParams : List Parameter → String
  | [] => "void"
  | p :: ps => ps.foldl (fun acc q => acc ++ ", " ++ q.render) p.render

/-- The function header, `ret name(params)`. -/
def render (s : Signature) : String :=
  s.returnType.render ++ " " ++ s.name ++ "(" ++ renderParams s.params ++ ")"

/-- The forward declaration line of a signature. -/
def prototype (s : Signature) : String := s.render ++ ";"

/-- A definition `o` satisfies the prototype `s`: same name, same return type, same parameter
types in the same order. -/
def satisfiedBy (s o : Signature) : Bool :=
  s.name == o.name && s.returnType == o.returnType &&
    s.params.map (·.type) == o.params.map (·.type)

theorem satisfiedBy_iff (s o : Signature) :
    s.satisfiedBy o = true ↔
      s.name = o.name ∧ s.returnType = o.returnType ∧
        s.params.map (·.type) = o.params.map (·.type) := by
  simp [satisfiedBy, and_assoc]

end Signature

end ShaderHeaders
