import ShaderHeaders.Path
import ShaderHeaders.Text.Quoted

/-!
# Configuration

A project is configured by the chunks to read (include and exclude globs), where its catalog
lives (a relative path is read from the project directory), the output format (`text`, `json`
or `yaml`) and logging (a level and the format `text` or `json`). A list may be left unset,
which is not the same as empty when the configuration is written back.

Log levels are named `debug`, `info` (also the empty name), `warn` or `warning`, and `error`,
in any case.

* `Config.default`, `Config.validate`, `Config.catalogPath`, `LogLevel.parse`.
-/

namespace ShaderHeaders

/-- How severe a log record is. -/
inductive LogLevel where
  | debug
  | info
  | warn
  | error
  deriving DecidableEq, Repr

namespace LogLevel

/-- The number of a level: `-4`, `0`, `4` and `8`. -/
def value : LogLevel → Int
  | debug => -4
  | info => 0
  | warn => 4
  | error => 8

/-- The name of a level in log records. -/
def name : LogLevel → String
  | debug => "DEBUG"
  | info => "INFO"
  | warn => "WARN"
  | error => "ERROR"

/-- Lower case as the level names are compared: ASCII capitals, the dotted capital `İ` to
`i` and the Kelvin sign to `k`; no other character lowers to an ASCII letter. -/
def lower (c : Char) : Char :=
  if 'A' ≤ c ∧ c ≤ 'Z' then Char.ofNat (c.toNat + 32)
  else if c.toNat = 0x130 then 'i'
  else if c.toNat = 0x212A then 'k'
  else c

/-- Why a level name names no level. -/
def unknownMessage (s : String) : String := "unknown log level " ++ Quoted.text s

/-- The level a name names, or why it names none. -/
def parse (s : String) : Except String LogLevel :=
  match String.ofList (s.toList.map lower) with
  | "debug" => .ok debug
  | "info" => .ok info
  | "" => .ok info
  | "warn" => .ok warn
  | "warning" => .ok warn
  | "error" => .ok error
  | _ => .error (unknownMessage s)

end LogLevel

/-- Which files are chunks. -/
structure ChunkSelection where
  includes : Option (List String)
  excludes : Option (List String)
  deriving DecidableEq, Repr

/-- The configuration of a project. -/
structure Config where
  chunks : ChunkSelection
  catalogPath : String
  outputFormat : String
  logLevel : String
  logFormat : String
  deriving DecidableEq, Repr

namespace Config

/-- The configuration of a project without a configuration file. -/
def default : Config where
  chunks := ⟨some ["**/*.glsl", "**/*.vert", "**/*.frag"],
    some ["**/.git/**", "**/node_modules/**", "**/.shadersig/**"]⟩
  catalogPath := ".shadersig/catalog.db"
  outputFormat := "text"
  logLevel := "warn"
  logFormat := "text"

/-- The output formats. -/
def outputFormats : List String := ["text", "json", "yaml"]

/-- The log record formats. -/
def logFormats : List String := ["text", "json"]

/-- Why an output format is not one. -/
def unknownOutput (s : String) : String := "unknown output format " ++ Quoted.text s

/-- Checks the formats and the log level, in that order. -/
def validate (c : Config) : Except String Unit :=
  if !outputFormats.contains c.outputFormat then .error (unknownOutput c.outputFormat)
  else if !logFormats.contains c.logFormat then
    .error ("unknown logging format " ++ Quoted.text c.logFormat)
  else (LogLevel.parse c.logLevel).map fun _ => ()

/-- Where the catalog of a project in directory `dir` lives. -/
def catalogIn (c : Config) (dir : String) : String :=
  if Path.isAbs c.catalogPath then c.catalogPath else Path.join dir c.catalogPath

end Config

end ShaderHeaders
