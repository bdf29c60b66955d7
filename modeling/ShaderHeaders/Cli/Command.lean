import ShaderHeaders.Cli.Flags
import ShaderHeaders.Text.Decimal

/-!
# The command tree

The program `shadersig` has the subcommands `parse`, `prototypes`, `index`, `deps`, `lookup`
and `version`, a `help` command and a `completion` command with one subcommand per shell. The
flags `--config`, `--dir`/`-d` and `--log-level` belong to the root and are inherited by every
subcommand; `--format`/`-f` belongs to the commands that print results, `--strict` to `deps`;
every command has `--help`/`-h`.

The command to run is found by walking the words of the command line that are not flags: a
flag that takes a value (or is unknown) hides the word after it. A word that names no command
of the root is an error with suggestions: commands at edit distance two or less, or starting
with the word, ignoring case.

* `Cmd.find args` is the command and the arguments left for it, or the error;
* `Cmd.help` and `Cmd.usage` are the help and usage texts.
-/

namespace ShaderHeaders.Cli

/-- The commands of the program. -/
inductive Cmd where
  | root
  | parse
  | prototypes
  | index
  | deps
  | lookup
  | version
  | help
  | completion
  | bash
  | zsh
  | fish
  | powershell
  deriving DecidableEq, Repr

/-- How many positional arguments a command takes. -/
inductive Arity where
  | any
  | none
  | exactly (n : Nat)
  | atMost (n : Nat)
  | subcommands
  deriving DecidableEq, Repr

namespace Cmd

/-- The text of the `Use` line: the name and what follows it. -/
def use : Cmd → String
  | root => "shadersig"
  | parse => "parse <file>"
  | prototypes => "prototypes <file>"
  | index => "index [path]"
  | deps => "deps"
  | lookup => "lookup <function>"
  | version => "version"
  | help => "help [command]"
  | completion => "completion"
  | bash => "bash"
  | zsh => "zsh"
  | fish => "fish"
  | powershell => "powershell"

/-- The name of a command: the first word of its `Use` line. -/
def name (c : Cmd) : String := (c.use.splitOn " ").headD ""

/-- The subcommands, in the order they were added. -/
def children : Cmd → List Cmd
  | root => [parse, prototypes, index, deps, lookup, version, help, completion]
  | completion => [bash, zsh, fish, powershell]
  | _ => []

/-- The command a subcommand belongs to. -/
def parent : Cmd → Option Cmd
  | root => none
  | bash | zsh | fish | powershell => some completion
  | _ => some root

/-- The names from the root down to the command. -/
def path : Cmd → String
  | root => "shadersig"
  | bash | zsh | fish | powershell => "shadersig completion"
  | _ => "shadersig"

/-- The full command path, as in `shadersig completion bash`. -/
def commandPath (c : Cmd) : String := if c = root then "shadersig" else c.path ++ " " ++ c.name

/-- Whether a command does something itself (the root and `completion` only list others). -/
def runnable (c : Cmd) : Bool := !(c = root || c = completion)

/-- How many positional arguments a command takes. -/
def arity : Cmd → Arity
  | root => .subcommands
  | help => .any
  | parse | prototypes | lookup => .exactly 1
  | index => .atMost 1
  | _ => .none

/-- The one-line description. -/
def short : Cmd → String
  | root => "Extract function signatures from GLSL shader chunks"
  | parse => "Print the first function definition of a chunk"
  | prototypes => "Print the function prototypes declared by a chunk"
  | index => "Index shader chunks into the signature catalog"
  | deps => "Resolve chunk prototypes against catalog definitions"
  | lookup => "Show the chunks that define a function"
  | version => "Print the shadersig version"
  | help => "Help about any command"
  | completion => "Generate the autocompletion script for the specified shell"
  | bash => "Generate the autocompletion script for bash"
  | zsh => "Generate the autocompletion script for zsh"
  | fish => "Generate the autocompletion script for fish"
  | powershell => "Generate the autocompletion script for powershell"

/-- The long description, empty when there is none. -/
def long : Cmd → String
  | root => "shadersig reads GLSL shader chunks and reports the function each chunk\ndefines and the prototypes it expects other chunks to provide.\n\nExample usage:\n  shadersig parse transform.glsl      # First function definition\n  shadersig prototypes transform.glsl # Forward declarations\n  shadersig index shaders/            # Build the signature catalog\n  shadersig deps                      # Resolve prototypes against the catalog"
  | parse => "Parse the first function definition in a shader chunk and print its\nname, parameters and return type. Use \"-\" to read from stdin.\n\nOn failure the chunk is printed with the location of the problem."
  | prototypes => "List every line of a shader chunk that is a function prototype such as\n\"vec4 map(vec4);\", in source order. Use \"-\" to read from stdin."
  | index => "Scan a directory for shader chunks and store their signatures in the\ncatalog (.shadersig/catalog.db in the project directory by default).\nThe catalog is rebuilt from scratch on every run.\n\nExamples:\n  shadersig index                 # Index the project directory\n  shadersig index shaders/        # Index a sub-directory"
  | deps => "For every prototype declared by an indexed chunk, list the chunks whose\nfunction definition satisfies it. A definition satisfies a prototype when the\nname, return type and parameter types agree."
  | help => "Help provides help for any command in the application.\nSimply type shadersig help [path to command] for full details."
  | completion => "Generate the autocompletion script for shadersig for the specified shell.\nSee each sub-command's help for details on how to use the generated script.\n"
  | bash => "Generate the autocompletion script for the bash shell.\n\nThis script depends on the 'bash-completion' package.\nIf it is not installed already, you can install it via your OS's package manager.\n\nTo load completions in your current shell session:\n\n\tsource <(shadersig completion bash)\n\nTo load completions for every new session, execute once:\n\n#### Linux:\n\n\tshadersig completion bash > /etc/bash_completion.d/shadersig\n\n#### macOS:\n\n\tshadersig completion bash > $(brew --prefix)/etc/bash_completion.d/shadersig\n\nYou will need to start a new shell for this setup to take effect.\n"
  | zsh => "Generate the autocompletion script for the zsh shell.\n\nIf shell completion is not already enabled in your environment you will need\nto enable it.  You can execute the following once:\n\n\techo \"autoload -U compinit; compinit\" >> ~/.zshrc\n\nTo load completions in your current shell session:\n\n\tsource <(shadersig completion zsh)\n\nTo load completions for every new session, execute once:\n\n#### Linux:\n\n\tshadersig completion zsh > \"$\x7bfpath[1]\x7d/_shadersig\"\n\n#### macOS:\n\n\tshadersig completion zsh > $(brew --prefix)/share/zsh/site-functions/_shadersig\n\nYou will need to start a new shell for this setup to take effect.\n"
  | fish => "Generate the autocompletion script for the fish shell.\n\nTo load completions in your current shell session:\n\n\tshadersig completion fish | source\n\nTo load completions for every new session, execute once:\n\n\tshadersig completion fish > ~/.config/fish/completions/shadersig.fish\n\nYou will need to start a new shell for this setup to take effect.\n"
  | powershell => "Generate the autocompletion script for powershell.\n\nTo load completions in your current shell session:\n\n\tshadersig completion powershell | Out-String | Invoke-Expression\n\nTo load completions for every new session, add the output of the above command\nto your powershell profile.\n"
  | _ => ""

/-- The flags a command declares for itself. -/
def localFlags : Cmd → List Flag
  | parse | prototypes | lookup => [formatFlag]
  | deps => [formatFlag, ⟨"strict", none, true, "fail when a prototype has no provider"⟩]
  | bash | zsh | fish | powershell => [⟨"no-descriptions", none, true, "disable completion descriptions"⟩]
  | _ => []
where
  formatFlag : Flag := ⟨"format", some 'f', false, "output format: text, json, yaml (default from config)"⟩

/-- The flags of the root that every command inherits. -/
def rootFlags : List Flag :=
  [⟨"config", none, false, "config file (default is ./shadersig.yaml)"⟩,
   ⟨"dir", some 'd', false, "project directory (default is current directory)"⟩,
   ⟨"log-level", none, false, "log level: debug, info, warn, error"⟩]

/-- The flags a command inherits from the root. -/
def inherited (c : Cmd) : List Flag := if c = root then [] else rootFlags

/-- The flags of a command's own: its local ones, and for the root its inherited-by-all ones. -/
def ownFlags (c : Cmd) : List Flag := if c = root then rootFlags else c.localFlags

/-- The `--help` switch of a command. -/
def helpFlag (c : Cmd) : Flag := ⟨"help", some 'h', true, "help for " ++ c.name⟩

/-- The flags known while the command line is searched for the command. -/
def flags (c : Cmd) : List Flag := c.ownFlags ++ c.inherited

/-- The flags a command reads its arguments with. -/
def flagsWithHelp (c : Cmd) : List Flag := c.flags ++ [c.helpFlag]

/-- Whether a command is offered: runnable or with subcommands, and not `help`. -/
def available (c : Cmd) : Bool := c ≠ help && (c.runnable || !c.children.isEmpty)

end Cmd

namespace Find

/-- Whether `s` is a flag that takes its value from the next word: `--name` of a known text
flag or an unknown one, or `-x` likewise. -/
def takesNext (fs : List Flag) (s : String) : Bool :=
  if s.contains '=' then false
  else if s.startsWith "--" then
    match Flags.byName fs (s.drop 2).toString with
    | some f => !f.switch
    | none => true
  else if s.startsWith "-" && (Utf8.bytes s).length = 2 then
    match (Utf8.bytes s).drop 1 with
    | b :: _ =>
      match Flags.byShorthand fs b with
      | some f => !f.switch
      | none => true
    | [] => true
  else false

/-- The words that are not flags or flag values, up to `--`. -/
def strip (fs : List Flag) : Nat → List String → List String
  | 0, _ => []
  | _, [] => []
  | fuel + 1, s :: rest =>
    if s = "--" then []
    else if takesNext fs s then
      match rest with
      | _ :: more@(_ :: _) => strip fs fuel more
      | _ => []
    else if !s.isEmpty && !s.startsWith "-" then s :: strip fs fuel rest
    else strip fs fuel rest

/-- The arguments without the first word `x` that is not a flag or flag value. -/
def without (fs : List Flag) (x : String) : Nat → List String → List String
  | 0, args => args
  | _, [] => []
  | fuel + 1, s :: rest =>
    if s = "--" then s :: rest
    else if takesNext fs s then
      match rest with
      | v :: more => s :: v :: without fs x fuel more
      | [] => [s]
    else if !s.startsWith "-" && s = x then rest
    else s :: without fs x fuel rest

/-- Walks down the command tree by the non-flag words of the arguments. -/
def descend : Nat → Cmd → List String → Cmd × List String
  | 0, c, args => (c, args)
  | fuel + 1, c, args =>
    match strip c.flags (args.length + 1) args with
    | [] => (c, args)
    | next :: _ =>
      match c.children.find? (·.name = next) with
      | some d => descend fuel d (without c.flags next (args.length + 1) args)
      | none => (c, args)

/-- A text lowered for comparing command names: ASCII capitals, the Kelvin sign and the
dotted capital I. -/
def lowerBytes (s : String) : List UInt8 :=
  Utf8.bytes (String.join (s.toList.map fun c =>
    if 'A' ≤ c && c ≤ 'Z' then String.singleton (Char.ofNat (c.toNat + 32))
    else if c.toNat = 0x212A then "k"
    else if c.toNat = 0x130 then "i" ++ String.singleton (Char.ofNat 0x307)
    else String.singleton c))

/-- The edit distance of two byte strings: one row of the table after another. -/
def distance (s t : List UInt8) : Nat :=
  let first : List Nat := List.range (t.length + 1)
  let last := s.foldl (fun (row : List Nat) (a : UInt8) =>
      let start := row.headD 0 + 1
      let step := fun (acc : List Nat × Nat) (p : (Nat × Nat) × UInt8) =>
        let ((diag, up), b) := p
        let left := acc.2
        let v := if a = b then diag else min (min up left) diag + 1
        (acc.1 ++ [v], v)
      let cells := (row.zip (row.drop 1)).zip t
      (cells.foldl step ([start], start)).1) first
  last.getLastD 0

/-- The commands of the root to suggest for a word that names none. -/
def suggestions (word : String) : List String :=
  (Cmd.root.children.filter Cmd.available).filterMap fun c =>
    let close := distance (lowerBytes word) (lowerBytes c.name) ≤ 2
    let prefixed := (lowerBytes c.name).take (lowerBytes word).length = lowerBytes word
    if close || prefixed then some c.name else none

/-- The error for a word that names no command of the root. -/
def unknownCommand (word : String) : String :=
  let hint := match suggestions word with
    | [] => ""
    | ss => "\n\nDid you mean this?\n" ++ String.join (ss.map fun s => "\t" ++ s ++ "\n")
  "unknown command " ++ Quoted.text word ++ " for " ++ Quoted.text "shadersig" ++ hint

end Find

namespace Cmd

/-- The command named by the arguments and the arguments left for it; a root given a word
that names no command is an error. -/
def find (args : List String) : Except String (Cmd × List String) :=
  let (c, rest) := Find.descend 4 root args
  if c = root then
    match Find.strip c.flags (rest.length + 1) rest with
    | w :: _ => .error (Find.unknownCommand w)
    | [] => .ok (c, rest)
  else .ok (c, rest)

/-- Checks the number of positional arguments. -/
def checkArgs (c : Cmd) (args : List String) : Except String Unit :=
  match c.arity, args with
  | .none, a :: _ => .error ("unknown command " ++ Quoted.text a ++ " for " ++ Quoted.text c.commandPath)
  | .exactly n, _ =>
    if args.length = n then .ok ()
    else .error ("accepts " ++ Decimal.ofNat n ++ " arg(s), received " ++ Decimal.ofNat args.length)
  | .atMost n, _ =>
    if args.length ≤ n then .ok ()
    else .error ("accepts at most " ++ Decimal.ofNat n ++ " arg(s), received " ++
      Decimal.ofNat args.length)
  | _, _ => .ok ()

/-- Spaces to widen `s` to `n` columns. -/
def pad (n : Nat) (s : String) : String := s ++ String.ofList (List.replicate (n - s.length) ' ')

/-- The help lines of some flags, sorted by name, their texts aligned. -/
def flagUsages (fs : List Flag) : String :=
  let sorted := fs.mergeSort fun a b => decide (a.name ≤ b.name)
  let head (f : Flag) : String :=
    let names := match f.shorthand with
      | some c => "  -" ++ String.singleton c ++ ", --" ++ f.name
      | none => "      --" ++ f.name
    if f.switch then names else names ++ " string"
  let width := sorted.foldl (fun m f => max m ((head f).length + 1)) 0
  String.join (sorted.map fun f =>
    head f ++ " " ++ String.ofList (List.replicate (width - (head f).length) ' ') ++ " " ++
      f.usage ++ "\n")

/-- A text without its trailing blanks and line breaks. -/
def trimEnd (s : String) : String :=
  String.ofList (s.toList.reverse.dropWhile (fun c => c = ' ' || c = '\n' || c = '\t' || c = '\r')).reverse

/-- The usage line of a runnable command. -/
def useLine (c : Cmd) : String :=
  let line := if c = root then c.use else c.path ++ " " ++ c.use
  let flagsHidden := c = bash || c = zsh || c = fish || c = powershell
  if flagsHidden then line else line ++ " [flags]"

/-- The usage text of a command; `withHelp` when its `--help` flag is in place. -/
def usage (c : Cmd) (withHelp : Bool) : String :=
  let subs := c.children.filter available
  let listed := (c.children.filter fun d => d.available || d = help).mergeSort
    fun a b => decide (a.name ≤ b.name)
  let width := max 11 (c.children.foldl (fun m d => max m d.name.length) 0)
  let own := c.ownFlags ++ (if withHelp then [c.helpFlag] else [])
  "Usage:" ++
  (if c.runnable then "\n  " ++ c.useLine else "") ++
  (if subs.isEmpty then "" else "\n  " ++ c.commandPath ++ " [command]") ++
  (if subs.isEmpty then "" else
    "\n\nAvailable Commands:" ++ String.join (listed.map fun d => "\n  " ++ pad width d.name ++ " " ++ d.short)) ++
  (if own.isEmpty then "" else "\n\nFlags:\n" ++ trimEnd (flagUsages own)) ++
  (if c.inherited.isEmpty then "" else "\n\nGlobal Flags:\n" ++ trimEnd (flagUsages c.inherited)) ++
  (if subs.isEmpty then "" else
    "\n\nUse \"" ++ c.commandPath ++ " [command] --help\" for more information about a command.") ++
  "\n"

/-- The help text of a command: its description, then its usage. -/
def helpText (c : Cmd) : String :=
  let about := trimEnd (if c.long.isEmpty then c.short else c.long)
  (if about.isEmpty then "" else about ++ "\n\n") ++ c.usage true

end Cmd

end ShaderHeaders.Cli
