/-!
# Slash-separated paths

A path is a text of components separated by `/`; it is absolute when it starts with `/`. The
clean form of a path drops empty components and `.`, lets `..` cancel the component before it
(at the root it is dropped, at the front of a relative path it stays), and is `.` when nothing
is left of a relative path.

* `Path.clean`, `Path.join`, `Path.dir`, `Path.resolve` (a path read from a working
  directory).
-/

namespace ShaderHeaders.Path

/-- The components of a path, empty ones included. -/
def parts (p : String) : List String := p.splitOn "/"

/-- A path is absolute when it starts at the root. -/
def isAbs (p : String) : Bool := p.startsWith "/"

/-- Pushes one component on a stack of clean components, last first. -/
def push (rooted : Bool) (stack : List String) (c : String) : List String :=
  if c = "" || c = "." then stack
  else if c = ".." then
    match stack with
    | top :: rest => if top = ".." then c :: stack else rest
    | [] => if rooted then [] else [c]
  else c :: stack

/-- The clean form of a path. -/
def clean (p : String) : String :=
  let rooted := isAbs p
  let stack := (parts p).foldl (push rooted) []
  let body := "/".intercalate stack.reverse
  if rooted then "/" ++ body else if body.isEmpty then "." else body

/-- The path of `a` and `b` one under the other, cleaned; an empty side is left out, and two
empty sides give the empty path. -/
def join (a b : String) : String :=
  if a.isEmpty then (if b.isEmpty then "" else clean b)
  else if b.isEmpty then clean a
  else clean (a ++ "/" ++ b)

/-- The path of the directory that holds `p`. -/
def dir (p : String) : String :=
  let ps := parts p
  match ps.dropLast with
  | [] => if isAbs p then "/" else "."
  | [""] => "/"
  | front => clean ("/".intercalate front)

/-- A path read from the working directory `cwd`: an absolute one stands as it is, cleaned. -/
def resolve (cwd p : String) : String := if isAbs p then clean p else join cwd p

end ShaderHeaders.Path
