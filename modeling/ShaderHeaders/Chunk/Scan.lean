import ShaderHeaders.Chunk.Basic
import ShaderHeaders.Files.Tree
import ShaderHeaders.Log

/-!
# Finding chunks in a directory tree

Scanning walks the tree below a root, the entries of each directory in increasing order of
name and each directory before what it holds. A directory other than the root whose path
relative to the root, followed by `/`, matches an exclude pattern is skipped with all it holds.
A file is a chunk when its relative path matches an include pattern (every path, when no
include pattern is given) and no exclude pattern. How a pattern matches a path is the
selection's own; the program matches glob patterns, where `**` spans directories. A root that
is a file is the one entry of its walk, with the relative path `.`.

The walk records, at debug level, each skipped directory and each chunk with a definition,
and warns of each chunk without one.

* `Scan.run` scans a tree from a root.
-/

namespace ShaderHeaders

namespace Scan

/-- Which files are chunks: include and exclude patterns, and how a pattern matches a path. -/
structure Selection where
  includes : List String
  excludes : List String
  isMatch : String → String → Bool

namespace Selection

/-- The patterns that decide inclusion; every path when none is given. -/
def includePatterns (s : Selection) : List String :=
  if s.includes.isEmpty then ["**/*"] else s.includes

/-- Whether some include pattern matches a relative path. -/
def included (s : Selection) (rel : String) : Bool :=
  s.includePatterns.any fun p => s.isMatch p rel

/-- Whether some exclude pattern matches a relative path. -/
def excluded (s : Selection) (rel : String) : Bool :=
  s.excludes.any fun p => s.isMatch p rel

end Selection

/-- What a scan met, in walk order. -/
inductive Event where
  | skipped (rel : String)
  | chunk (c : Chunk)

/-- The relative path of `name` inside the directory at `rel`. -/
def child (rel name : String) : String := if rel = "." then name else rel ++ "/" ++ name

/-- The event of a file at a relative path, if it is a chunk. -/
def fileEvent (s : Selection) (rel : String) (content : Content) (modTime : Timestamp) :
    List Event :=
  if s.included rel && !s.excluded rel then [.chunk (Chunk.extract rel modTime content.text)]
  else []

mutual

/-- The events of the walk of a tree at a relative path. -/
def walk (s : Selection) (rel : String) : Tree → List Event
  | .file content modTime => fileEvent s rel content modTime
  | .dir es => walkEntries s rel es

/-- The events of the walk of the entries of a directory at a relative path. -/
def walkEntries (s : Selection) (rel : String) : List (String × Tree) → List Event
  | [] => []
  | (name, .dir es) :: rest =>
    let path := child rel name
    (if s.excluded (path ++ "/") then [.skipped path] else walkEntries s path es) ++
      walkEntries s rel rest
  | (name, .file content modTime) :: rest =>
    fileEvent s (child rel name) content modTime ++ walkEntries s rel rest

end

/-- The log record of an event. -/
def Event.record : Event → LogRecord
  | .skipped rel => ⟨.debug, "skipping directory", [("path", .text rel)]⟩
  | .chunk c =>
    match c.definition with
    | .error e => ⟨.warn, "chunk has no function definition", [("path", .text c.path), ("error", .text e)]⟩
    | .ok d => ⟨.debug, "extracted chunk", [("path", .text c.path), ("definition", .text d.render),
        ("prototypes", .int c.prototypes.length)]⟩

/-- The chunks among the events. -/
def chunks (es : List Event) : List Chunk :=
  es.filterMap fun
    | .chunk c => some c
    | .skipped _ => none

/-- Scans the tree from the absolute path `root`: the events in walk order, or why the root
cannot be read. -/
def run (s : Selection) (t : Tree) (root : String) : Except String (List Event) :=
  match t.lookup (Path.components root) with
  | .error e => .error (FsError.describe "lstat" root e)
  | .ok u => .ok (walk s "." u)

end Scan

end ShaderHeaders
