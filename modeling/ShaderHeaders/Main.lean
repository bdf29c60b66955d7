import ShaderHeaders.Cli.Run

/-!
# The command line

`shadersig ARGS…` runs one command line over a file tree read from the disk: the files that the
arguments name, relative to the working directory, and the configuration files of the working
directory. Standard input is read when an argument is `-`. What the run printed goes to standard
output and standard error; a failure is reported as `Error: …` on standard error, with exit
status `1`.

Directories are not listed, so `index` sees the files read, and a catalog lives as long as the
run that made it.
-/

namespace ShaderHeaders.Cli

/-- The paths a command line may read: every argument that is not a flag, and the project's
configuration files. -/
def candidates (args : List String) : List String :=
  args.filter (fun a => !a.startsWith "-" && !a.isEmpty) ++
    ["shadersig.yaml", ".shadersig/config.yaml"]

/-- The tree with a file's bytes at a path, directories made on the way. -/
def Workspace.withFile (w : Workspace) (t : Tree) (p : String) (bytes : List UInt8) : Tree :=
  let cs := w.locate p
  let t := match t.mkdirAll cs.dropLast with
    | .ok t' => t'
    | .error _ => t
  t.write cs (.bytes bytes) w.clock

/-- The tree of the working directory alone. -/
def Workspace.base (w : Workspace) : Tree :=
  match Tree.empty.mkdirAll (Path.components w.cwd) with
  | .ok t => t
  | .error _ => Tree.empty

end ShaderHeaders.Cli

open ShaderHeaders

/-- Reads the rest of a stream. -/
partial def readAll (s : IO.FS.Stream) (acc : ByteArray) : IO ByteArray := do
  let chunk ← s.read 65536
  if chunk.isEmpty then pure acc else readAll s (acc ++ chunk)

/-- Reads the files a command line may use into a tree. -/
def loadTree (w : Cli.Workspace) (paths : List String) : IO Tree :=
  paths.foldlM (fun t p => do
    let .ok bytes ← (IO.FS.readBinFile (Path.resolve w.cwd p)).toBaseIO | pure t
    pure (w.withFile t p bytes.toList)) w.base

/-- Runs the command line given as arguments. -/
def main (args : List String) : IO UInt32 := do
  let cwd := (← IO.currentDir).toString
  let stdin ← if args.contains "-" then readAll (← IO.getStdin) ByteArray.empty
    else pure ByteArray.empty
  let w : Cli.Workspace := ⟨cwd, stdin.toList, ⟨0⟩⟩
  let t ← loadTree w (Cli.candidates args)
  let o := Cli.run Cli.Libraries.standard w t args
  IO.print o.stdout
  IO.eprint o.stderr
  match o.failure with
  | some f =>
    IO.eprintln ("Error: " ++ f.message)
    pure 1
  | none => pure 0
