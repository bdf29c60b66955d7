import ShaderHeaders.Glsl.Definition
import ShaderHeaders.Glsl.Prototype
import ShaderHeaders.Text.Timestamp

/-!
# Shader chunks

A chunk is one shader source file: its path, when it was last changed, the signature of its
first definition (or the message that says why it has none) and the prototypes it declares.
A chunk without a definition still declares its prototypes.

* `Chunk.extract` reads a chunk from its text.
-/

namespace ShaderHeaders

/-- One shader source file and the signatures found in it. -/
structure Chunk where
  path : String
  modTime : Timestamp
  /-- The chunk's definition, or why it has none. -/
  definition : Except String Signature
  prototypes : List Signature

namespace Chunk

/-- The definition, when there is one. -/
def definition? (c : Chunk) : Option Signature :=
  match c.definition with
  | .ok s => some s
  | .error _ => none

/-- Why there is no definition; empty when there is one. -/
def error (c : Chunk) : String :=
  match c.definition with
  | .ok _ => ""
  | .error e => e

/-- The chunk of a text under the standard grammar. -/
def extract (path : String) (modTime : Timestamp) (source : List UInt8) : Chunk where
  path := path
  modTime := modTime
  definition := (Grammar.standard.definition? source).mapError Malformed.message
  prototypes := Grammar.standard.prototypes source

end Chunk

end ShaderHeaders
