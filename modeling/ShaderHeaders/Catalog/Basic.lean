import ShaderHeaders.Chunk.Json
import ShaderHeaders.Store.Bolt

/-!
# The catalog

The catalog keeps chunks in a store of buckets. The bucket `chunks` holds the JSON of each chunk
at the bytes of its path. The bucket `definitions` indexes them: for each name of a function a
stored chunk defines, it holds a bucket whose keys are the paths of those chunks, with empty
values. Each call that changes the catalog is one transaction of the store, so a call that
fails leaves the store as it was.

* `Catalog.openIn` opens the catalog kept in the bytes of a file, making its two buckets;
* `Catalog.put` stores a chunk at its path, first taking the path out of the index entry of the
  chunk it replaces (`Catalog.unindex`), then indexing the new chunk's definition;
  `Catalog.delete` removes a path the same way; `Catalog.clear` empties both buckets;
* `Catalog.get`, `Catalog.list` and `Catalog.definitionsNamed` read.
-/

namespace ShaderHeaders

/-- Why a chunk could not be read: there is none at the path, or another reason. -/
inductive CatalogError where
  | notFound (path : String)
  | failed (message : String)
  deriving DecidableEq, Repr

/-- The wording of each failure. -/
def CatalogError.message : CatalogError → String
  | .notFound p => "chunk not found: " ++ p
  | .failed m => m

namespace Catalog

open Bolt

/-- The name of the bucket of chunks. -/
def chunksBucket : List UInt8 := [0x63, 0x68, 0x75, 0x6E, 0x6B, 0x73]

/-- The name of the bucket of the index. -/
def definitionsBucket : List UInt8 := [0x64, 0x65, 0x66, 0x69, 0x6E, 0x69, 0x74, 0x69, 0x6F, 0x6E, 0x73]

variable {σ : Type} (B : Store σ)

/-- A refusal of the store, as the catalog passes it on. -/
def lift (r : Except Bolt.Error σ) : Except String σ := r.mapError Bolt.Error.message

/-- Makes the bucket `name` at the top unless it is there. -/
def ensureBucket (name : String) (key : List UInt8) (s : σ) : Except String σ :=
  (B.createBucketIfNotExists s [] key).mapError fun e =>
    "failed to create bucket " ++ name ++ ": " ++ e.message

/-- `Open`: the catalog kept in the bytes of a file, its two buckets made if need be. -/
def openIn (file : List UInt8) : Except String σ := do
  let s ← (B.openFile file).mapError ("failed to open bolt db: " ++ ·)
  match B.update s fun s => ensureBucket B "chunks" chunksBucket s >>=
      ensureBucket B "definitions" definitionsBucket with
  | (s, none) => .ok s
  | (_, some e) => .error e

/-- Takes a path out of the index entry of the chunk stored at it, dropping the entry when no
path is left in it. -/
def unindex (s : σ) (key : List UInt8) (path : String) : Except String σ :=
  match B.get s [chunksBucket] key with
  | none => .ok s
  | some data =>
    match Chunk.decode data with
    | .error e => .error ("decode chunk " ++ path ++ ": " ++ e)
    | .ok old =>
      match old.definition with
      | .error _ => .ok s
      | .ok d =>
        let name := Utf8.bytes d.name
        if !B.hasBucket s [definitionsBucket, name] then .ok s
        else do
          let s ← lift (B.delete s [definitionsBucket, name] key)
          if (B.entries s [definitionsBucket, name]).isEmpty then
            lift (B.deleteBucket s [definitionsBucket] name)
          else pure s

/-- `Put`: stores a chunk at its path, replacing what was there. The store after the call, and
why it failed if it did. -/
def put (s : σ) (c : Chunk) : σ × Option String :=
  match c.encode with
  | .error e => (s, some e)
  | .ok data =>
    let key := Utf8.bytes c.path
    B.update s fun s => do
      let s ← unindex B s key c.path
      let s ← lift (B.put s [chunksBucket] key data)
      match c.definition with
      | .error _ => pure s
      | .ok d =>
        let s ← lift (B.createBucketIfNotExists s [definitionsBucket] (Utf8.bytes d.name))
        lift (B.put s [definitionsBucket, Utf8.bytes d.name] key [])

/-- `Get`: the chunk stored at a path. -/
def get (s : σ) (path : String) : Except CatalogError Chunk :=
  match B.get s [chunksBucket] (Utf8.bytes path) with
  | none => .error (.notFound path)
  | some data => (Chunk.decode data).mapError .failed

/-- `Delete`: removes the chunk stored at a path; a path that holds nothing is no error. -/
def delete (s : σ) (path : String) : σ × Option String :=
  B.update s fun s => do
    let s ← unindex B s (Utf8.bytes path) path
    lift (B.delete s [chunksBucket] (Utf8.bytes path))

/-- `List`: every chunk, in the order of the bucket's keys. A key that holds a bucket has no
value to read. -/
def list (s : σ) : Except String (List Chunk) :=
  (B.entries s [chunksBucket]).mapM fun (k, slot) =>
    let data := match slot with
      | .value v => v
      | .bucket => []
    (Chunk.decode data).mapError fun e => "decode chunk " ++ Utf8.lossy k ++ ": " ++ e

/-- `DefinitionsNamed`: the paths indexed under a name, in the order of the keys. -/
def definitionsNamed (s : σ) (name : String) : List String :=
  if B.hasBucket s [definitionsBucket, Utf8.bytes name] then
    (B.entries s [definitionsBucket, Utf8.bytes name]).map fun e => Utf8.lossy e.1
  else []

/-- `Clear`: both buckets emptied. -/
def clear (s : σ) : σ × Option String :=
  B.update s fun s => do
    let s ← lift (B.deleteBucket s [] chunksBucket)
    let s ← lift (B.createBucket s [] chunksBucket)
    let s ← lift (B.deleteBucket s [] definitionsBucket)
    lift (B.createBucket s [] definitionsBucket)

end Catalog

end ShaderHeaders
