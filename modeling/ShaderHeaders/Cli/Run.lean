import ShaderHeaders.Cli.Command
import ShaderHeaders.Cli.Report
import ShaderHeaders.Config.Load
import ShaderHeaders.Chunk.Scan
import ShaderHeaders.Catalog.Basic
import ShaderHeaders.Store.Table
import ShaderHeaders.Glob

/-!
# Running a command line

A run finds the command named by the arguments, reads its flags, and then:

* prints the command's help when `--help` is given or the command only lists others;
* checks the number of positional arguments;
* sets up: the project directory (`--dir`, else the working directory), the configuration
  (`--config`, else the project's own file, else the defaults) and the logger (`--log-level`
  over the configured level);
* runs the command.

Commands read and write a file tree. `index` scans a directory for chunks and stores them in
the catalog, cleared first, one transaction per chunk; `deps` and `lookup` read the catalog
`index` left. The catalog's file holds the bytes of its store: a run opens the store on them
and writes the store's file back when it has changed it.

The libraries a run calls on are its parameters (`Libraries`): the lookup of a command and the
check of its arguments, the flag parser, the YAML decoder of configuration files and encoder of
reports, the glob matcher of the scan, and the store. `Libraries.standard` are those the program
runs with.

A run writes to standard output and standard error as it goes, so that what it printed before
failing is kept.

* `Cli.run L w t args` is the outcome of one command line over the tree `t`.
-/

namespace ShaderHeaders.Cli

/-- The program's version. -/
def version : String := "0.1.0-dev"

/-- What a run is given besides its arguments and the tree: the working directory, standard
input, and the time stamped on the files it writes. -/
structure Workspace where
  cwd : String
  stdin : List UInt8
  clock : Timestamp

/-- Why a run failed: the message, and whether a chunk was malformed. -/
structure Failure where
  message : String
  malformed : Bool
  deriving DecidableEq, Repr

/-- What a run has done so far: the file tree, and what it printed. -/
structure Session where
  tree : Tree
  stdout : String
  stderr : String

/-- A step of a run: it may fail, and keeps what was done before the failure. -/
abbrev Step := ExceptT Failure (StateM Session)

/-- Prints to standard output. -/
def emit (s : String) : Step Unit := modify fun st => { st with stdout := st.stdout ++ s }

/-- Prints to standard error. -/
def note (s : String) : Step Unit := modify fun st => { st with stderr := st.stderr ++ s }

/-- Fails with a message. -/
def fail {α : Type} (m : String) : Step α := throw ⟨m, false⟩

/-- A result, its error a failure of the run. -/
def lift {α : Type} : Except String α → Step α
  | .ok a => pure a
  | .error e => fail e

/-- A step whose failure is told with a prefix. -/
def within {α : Type} (pre : String) (s : Step α) : Step α :=
  tryCatch s fun e => throw { e with message := pre ++ e.message }

/-- The file tree. -/
def currentTree : Step Tree := do return (← get).tree

/-- Replaces the file tree. -/
def setTree (t : Tree) : Step Unit := modify fun st => { st with tree := t }

/-- The libraries a run calls on, over stores whose states are `σ`. -/
structure Libraries (σ : Type) where
  /-- The command a command line names, and the words after its name. -/
  findCommand : List String → Except String (Cmd × List String)
  /-- Checks the positional arguments of a command. -/
  checkArgs : Cmd → List String → Except String Unit
  /-- Reads the flags among words, given the flags a command takes. -/
  parseFlags : List Flag → List String → Except String Parsed
  /-- Decodes a configuration file over the defaults. -/
  decodeConfig : List UInt8 → Except String Config
  /-- Writes a YAML document. -/
  encodeYaml : Yaml.Value → String
  /-- Whether a glob pattern matches a path. -/
  matchGlob : String → String → Bool
  /-- The store the catalog is kept in. -/
  store : Bolt.Store σ

/-- The libraries the program runs with. -/
def Libraries.standard : Libraries Bolt.Table where
  findCommand := Cmd.find
  checkArgs := Cmd.checkArgs
  parseFlags := Flags.parse
  decodeConfig := Config.ofYaml
  encodeYaml v := v.document 2
  matchGlob := Glob.isMatch
  store := Bolt.table

section

variable {σ : Type} (L : Libraries σ)

/-- The components of a path, from the working directory when relative. -/
def Workspace.locate (w : Workspace) (p : String) : List String :=
  Path.components (Path.resolve w.cwd p)

/-- What a command sees once set up: the project directory, the configuration, the logger. -/
structure App where
  rootDir : String
  config : Config
  logger : Logger

/-- Writes a log record. -/
def App.log (a : App) (r : LogRecord) : Step Unit := note (a.logger.write r)

/-- Sets a command up from its flags. -/
def setup (w : Workspace) (p : Parsed) : Step App := do
  let rootDir := if (p.text "dir").isEmpty then w.cwd else p.text "dir"
  let t ← currentTree
  let loaded :=
    if (p.text "config").isEmpty then Config.loadFromDir L.decodeConfig t w.cwd rootDir
    else Config.load L.decodeConfig t w.cwd (p.text "config")
  let cfg ← within "failed to load config: " (lift loaded)
  let cfg := if (p.text "log-level").isEmpty then cfg else { cfg with logLevel := p.text "log-level" }
  let level ← lift (LogLevel.parse cfg.logLevel)
  pure ⟨rootDir, cfg, ⟨level, if cfg.logFormat = "json" then .json else .text⟩⟩

/-- Prints a report in the format of the flag, else the configured one. -/
def App.show (a : App) (format : String) (r : Report) : Step Unit := do
  emit (← lift (r.render L.encodeYaml (if format.isEmpty then a.config.outputFormat else format)))

/-- The text of a chunk named on the command line; `-` is standard input. -/
def readSource (w : Workspace) (path : String) : Step (List UInt8) := do
  if path = "-" then pure w.stdin
  else
    match (← currentTree).readFile (w.locate path) with
    | .ok c => pure c.text
    | .error .isDir => fail ("failed to read chunk: " ++ FsError.describe "read" path .isDir)
    | .error e => fail ("failed to read chunk: " ++ FsError.describe "open" path e)

/-- The first directory on the way to `dir` that is a file, as a prefix of `dir`: where making
the directories stops. A missing directory ends the search, as all below it can be made. -/
def blockedAt (t : Tree) (w : Workspace) (dir : String) : Option String :=
  let parts := Path.parts (Path.clean dir)
  let prefixes := ((List.range parts.length).map fun i => "/".intercalate (parts.take (i + 1))).filter
    (· ≠ "")
  let rec go : List String → Option String
    | [] => none
    | p :: rest =>
      match t.lookup (w.locate p) with
      | .ok (.file _ _) => some p
      | .ok (.dir _) => go rest
      | .error _ => none
  go prefixes

/-- Writes the file of a store at `dbPath`. -/
def saveCatalog (w : Workspace) (dbPath : String) (s : σ) : Step Unit := do
  setTree ((← currentTree).write (w.locate dbPath) (.bytes (L.store.file s)) w.clock)

/-- `catalog.Open`: opens the catalog at `dbPath`, making its directory and, when there is no
file, an empty one. -/
def openCatalog (w : Workspace) (dbPath : String) : Step σ := do
  let dir := Path.dir dbPath
  let t ← currentTree
  match blockedAt t w dir with
  | some p =>
    fail ("failed to create catalog directory: " ++ FsError.describe "mkdir" p .notDir)
  | none =>
    let t := match t.mkdirAll (w.locate dir) with
      | .ok t' => t'
      | .error _ => t
    setTree t
    let bytes ← match t.lookup (w.locate dbPath) with
      | .ok (.dir _) => fail ("failed to open bolt db: " ++ FsError.describe "open" dbPath .isDir)
      | .ok (.file c _) => pure c.text
      | .error _ => pure []
    let s ← lift (Catalog.openIn L.store bytes)
    saveCatalog L w dbPath s
    pure s

/-- Stores chunks one after another, each in its own transaction; the store reached, and the
first chunk refused with why. -/
def putAll (B : Bolt.Store σ) (s : σ) : List Chunk → σ × Option (Chunk × String)
  | [] => (s, none)
  | ch :: rest =>
    match Catalog.put B s ch with
    | (s', none) => putAll B s' rest
    | (s', some e) => (s', some (ch, e))

/-- `parse`: the first function definition of a chunk. -/
def parseChunk (w : Workspace) (a : App) (format path : String) : Step Unit := do
  let source ← readSource w path
  match Grammar.standard.definition? source with
  | .error m => do
    note m.context
    throw ⟨path ++ ": " ++ m.message, true⟩
  | .ok sig => do
    a.log ⟨.debug, "parsed definition",
      [("file", .text path), ("name", .text sig.name), ("params", .int sig.params.length)]⟩
    a.show L format (.signature sig)

/-- `prototypes`: the prototypes a chunk declares. -/
def listPrototypes (w : Workspace) (a : App) (format path : String) : Step Unit := do
  let source ← readSource w path
  let protos := Grammar.standard.prototypes source
  a.log ⟨.debug, "found prototypes", [("file", .text path), ("count", .int protos.length)]⟩
  a.show L format (.prototypes protos)

/-- Rebuilds the catalog at `dbPath` from chunks: opens it, clears it, and stores the chunks one
after another, writing the store's file back after each change. -/
def rebuildCatalog (w : Workspace) (dbPath : String) (found : List Chunk) : Step Unit := do
  let s ← within "failed to open catalog: " (openCatalog L w dbPath)
  let (s, cleared) := Catalog.clear L.store s
  saveCatalog L w dbPath s
  if let some e := cleared then fail ("failed to clear catalog: " ++ e)
  let (s, refused) := putAll L.store s found
  saveCatalog L w dbPath s
  if let some (ch, e) := refused then fail ("failed to store " ++ ch.path ++ ": " ++ e)

/-- `index`: scans a directory and rebuilds the catalog from its chunks. -/
def indexChunks (w : Workspace) (a : App) (args : List String) : Step Unit := do
  let path := match args with
    | p :: _ => Path.resolve w.cwd p
    | [] => a.rootDir
  let t ← currentTree
  match t.lookup (w.locate path) with
  | .error e => fail ("path does not exist: " ++ FsError.describe "stat" path e)
  | .ok (.file _ _) => fail ("path is not a directory: " ++ path)
  | .ok (.dir _) => do
    let selection : Scan.Selection :=
      ⟨a.config.chunks.includes.getD [], a.config.chunks.excludes.getD [], L.matchGlob⟩
    let events ← within "scan failed: " (lift (Scan.run selection t (Path.resolve w.cwd path)))
    events.forM fun e => a.log e.record
    let found := Scan.chunks events
    let dbPath := a.config.catalogIn a.rootDir
    rebuildCatalog L w dbPath found
    a.log ⟨.info, "catalog updated", [("path", .text dbPath), ("chunks", .int found.length)]⟩
    let definitions := (found.filter fun ch => ch.definition?.isSome).length
    let prototypes := found.foldl (fun n ch => n + ch.prototypes.length) 0
    emit ("Indexed " ++ Decimal.ofNat found.length ++ " chunks (" ++ Decimal.ofNat definitions ++
      " definitions, " ++ Decimal.ofNat prototypes ++ " prototypes) into " ++ dbPath ++ "\n")

/-- The catalog of the project, which `index` must have made. -/
def existingCatalog (w : Workspace) (a : App) : Step σ := do
  let dbPath := a.config.catalogIn a.rootDir
  match (← currentTree).lookup (w.locate dbPath) with
  | .error .notExist => fail ("no catalog at " ++ dbPath ++ ", run 'shadersig index' first")
  | .error e => fail (FsError.describe "stat" dbPath e)
  | .ok _ => openCatalog L w dbPath

/-- `deps`: links every prototype in the catalog to the chunks providing it; with `strict`, an
unprovided prototype fails the run after the report. -/
def resolveDeps (w : Workspace) (a : App) (format : String) (strict : Bool) : Step Unit := do
  let s ← existingCatalog L w a
  let chunks ← within "failed to read catalog: " (lift (Catalog.list L.store s))
  let links := Link.resolve chunks
  let unresolved := links.filter fun l => !l.resolved
  unresolved.forM fun l =>
    a.log ⟨.warn, "unresolved prototype", [("chunk", .text l.source), ("prototype", .text l.prototype.render)]⟩
  a.show L format (.links links)
  if strict && !unresolved.isEmpty then
    fail (Decimal.ofNat unresolved.length ++ " unresolved prototype(s)")

/-- `lookup`: the chunks that define a function. -/
def lookupDefinition (w : Workspace) (a : App) (format name : String) : Step Unit := do
  let s ← existingCatalog L w a
  let paths := Catalog.definitionsNamed L.store s name
  if paths.isEmpty then fail ("no chunk defines " ++ Quoted.text name)
  else
    let found ← paths.mapM fun p => lift ((Catalog.get L.store s p).mapError CatalogError.message)
    a.show L format (.chunks found)

/-- Whether a text can stand between backquotes: no backquote, no control character but tab,
no byte-order mark. -/
def canBackquote (s : String) : Bool :=
  s.toList.all fun c =>
    c.toNat ≠ 96 && c.toNat ≠ 0x7F && c.toNat ≠ 0xFEFF && (c.toNat ≥ 0x20 || c = '\t')

/-- Help topics as the help command names them back: each between backquotes when it can be,
else quoted. -/
def topics (args : List String) : String :=
  "[" ++ " ".intercalate (args.map fun s =>
    if canBackquote s then "`" ++ s ++ "`" else Quoted.text s) ++ "]"

/-- `help`: the help of the command the arguments name. -/
def helpFor (args : List String) : Step Unit :=
  match L.findCommand args with
  | .error _ => emit ("Unknown help topic " ++ topics args ++ "\n" ++ Cmd.root.usage false)
  | .ok (c, _) => emit c.helpText

/-- Runs a command once set up. -/
def perform (w : Workspace) (a : App) (c : Cmd) (p : Parsed) : Step Unit :=
  let arg := p.positional.headD ""
  match c with
  | .parse => parseChunk L w a (p.text "format") arg
  | .prototypes => listPrototypes L w a (p.text "format") arg
  | .index => indexChunks L w a p.positional
  | .deps => resolveDeps L w a (p.text "format") (p.on "strict")
  | .lookup => lookupDefinition L w a (p.text "format") arg
  | .version => emit ("shadersig version " ++ version ++ "\n")
  | .help => helpFor L p.positional
  | _ => pure ()

/-- Runs a command line. -/
def execute (w : Workspace) (args : List String) : Step Unit := do
  let (c, rest) ← lift (L.findCommand args)
  let p ← lift (L.parseFlags c.flagsWithHelp rest)
  if p.on "help" || !c.runnable then emit c.helpText
  else do
    lift (L.checkArgs c p.positional)
    let a ← setup L w p
    perform L w a c p

/-- What a run leaves: what it printed, why it failed if it did, and the file tree. -/
structure Outcome where
  stdout : String
  stderr : String
  failure : Option Failure
  tree : Tree

/-- The exit status: `1` after a failure, else `0`. -/
def Outcome.exitCode (o : Outcome) : Nat := if o.failure.isSome then 1 else 0

/-- The outcome of a command line over a file tree. -/
def run (w : Workspace) (t : Tree) (args : List String) : Outcome :=
  let (r, st) := (execute L w args).run.run ⟨t, "", ""⟩
  ⟨st.stdout, st.stderr, (match r with | .error f => some f | .ok () => none), st.tree⟩

end

end ShaderHeaders.Cli
