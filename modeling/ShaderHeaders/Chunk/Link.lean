import ShaderHeaders.Chunk.Basic

/-!
# Links between chunks

Every prototype that a chunk declares is linked to the chunks whose definition satisfies it,
in the order of the chunks; a chunk listed twice provides twice. Links follow the chunks, and
within a chunk its prototypes, in order. A link with no provider is unresolved.

Definitions are first grouped by function name, since only a definition of the same name can
satisfy a prototype.

* `Link.resolve` links the prototypes of a list of chunks.
-/

namespace ShaderHeaders

/-- A prototype declared by a chunk, and the chunks that provide it. -/
structure Link where
  source : String
  prototype : Signature
  providers : List String

namespace Link

/-- Some chunk provides the prototype. -/
def resolved (l : Link) : Bool := !l.providers.isEmpty

/-- Chunks with a definition, grouped by its name; groups keep the order of the chunks and
appear in the order their names are first met. -/
def byName (chunks : List Chunk) : List (String × List Chunk) :=
  chunks.foldl (fun groups c =>
    match c.definition? with
    | none => groups
    | some d =>
      if groups.any (·.1 == d.name) then
        groups.map fun g => if g.1 == d.name then (g.1, g.2 ++ [c]) else g
      else groups ++ [(d.name, [c])]) []

/-- The chunks whose definition has a given name. -/
def named (groups : List (String × List Chunk)) (name : String) : List Chunk :=
  ((groups.find? (·.1 == name)).map (·.2)).getD []

/-- Links every prototype of every chunk to the chunks whose definition satisfies it. -/
def resolve (chunks : List Chunk) : List Link :=
  let groups := byName chunks
  chunks.flatMap fun c => c.prototypes.map fun p =>
    ⟨c.path, p, ((named groups p.name).filter fun d =>
      match d.definition? with
      | some s => p.satisfiedBy s
      | none => false).map (·.path)⟩

end Link

end ShaderHeaders
