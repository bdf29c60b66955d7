import ShaderHeaders.Path
import ShaderHeaders.Text.Timestamp

/-!
# File trees

A project lives in a tree of directories and files. A directory keeps its entries in
increasing order of name, which is the order in which a walk visits them. A file holds bytes
and the time it was last changed.

Looking a path up can fail three ways, each with its standard wording: a component is
missing, a component before the last is a file, or a file was expected and a directory found.

* `Tree.lookup`, `Tree.readFile`, `Tree.mkdirAll`, `Tree.write`.
-/

namespace ShaderHeaders

/-- What a file holds: its bytes. -/
structure Content where
  bytes ::
  text : List UInt8

/-- A directory of named entries, kept in increasing order of name, or a file. -/
inductive Tree where
  | file (content : Content) (modTime : Timestamp)
  | dir (entries : List (String × Tree))

/-- Why a path could not be used. -/
inductive FsError where
  | notExist
  | notDir
  | isDir
  deriving DecidableEq, Repr

namespace FsError

/-- The wording of each failure. -/
def message : FsError → String
  | notExist => "no such file or directory"
  | notDir => "not a directory"
  | isDir => "is a directory"

/-- The failure of an operation on a path, as `op path: reason`. -/
def describe (op path : String) (e : FsError) : String := op ++ " " ++ path ++ ": " ++ e.message

end FsError

/-- The components of an absolute path after cleaning; the root has none. -/
def Path.components (p : String) : List String :=
  (Path.parts (Path.clean p)).filter (· ≠ "")

namespace Tree

/-- The empty directory. -/
def empty : Tree := .dir []

/-- What stands at the path of components `cs` below the tree. -/
def lookup : Tree → List String → Except FsError Tree
  | t, [] => .ok t
  | .file _ _, _ :: _ => .error .notDir
  | .dir es, c :: cs =>
    match es.find? (·.1 == c) with
    | some (_, t) => lookup t cs
    | none => .error .notExist

/-- Whether a path holds a directory. -/
def isDirAt (t : Tree) (cs : List String) : Bool :=
  match t.lookup cs with
  | .ok (.dir _) => true
  | _ => false

/-- The content of the file at a path. -/
def readFile (t : Tree) (cs : List String) : Except FsError Content :=
  match t.lookup cs with
  | .ok (.file c _) => .ok c
  | .ok (.dir _) => .error .isDir
  | .error e => .error e

/-- Puts an entry into a list kept in increasing order of name, replacing one of that name. -/
def insertEntry (name : String) (t : Tree) : List (String × Tree) → List (String × Tree)
  | [] => [(name, t)]
  | (n, u) :: rest =>
    if name < n then (name, t) :: (n, u) :: rest
    else if name = n then (name, t) :: rest
    else (n, u) :: insertEntry name t rest

/-- The tree with `f` applied to what stands at a path, directories made on the way; `none`
when a component on the way is a file, with the number of components up to it. -/
def update (f : Option Tree → Tree) : Tree → List String → Nat → Except Nat Tree
  | t, [], _ => .ok (f (some t))
  | .file _ _, _ :: _, depth => .error depth
  | .dir es, c :: cs, depth =>
    let here := (es.find? (·.1 == c)).map (·.2)
    match cs with
    | [] => .ok (.dir (insertEntry c (f here) es))
    | _ :: _ =>
      match (here.getD (.dir [])).update f cs (depth + 1) with
      | .ok t' => .ok (.dir (insertEntry c t' es))
      | .error d => .error d

/-- Makes every directory on a path; fails at the first component that is a file, with its
components. -/
def mkdirAll (t : Tree) (cs : List String) : Except (List String) Tree :=
  match t.update (fun here => match here with
      | some u => u
      | none => .dir []) cs 1 with
  | .ok t' =>
    if t'.isDirAt cs then .ok t' else .error cs
  | .error d => .error (cs.take d)

/-- Writes a file at a path whose directory exists, replacing what was there. -/
def write (t : Tree) (cs : List String) (c : Content) (modTime : Timestamp) : Tree :=
  match t.update (fun _ => .file c modTime) cs 1 with
  | .ok t' => t'
  | .error _ => t

end Tree

end ShaderHeaders
