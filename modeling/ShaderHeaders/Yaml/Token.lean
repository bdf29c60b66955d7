import ShaderHeaders.Text.Decimal

/-!
# YAML tokens, places and problems

A YAML text is cut into tokens before its structure is read. Each token records where it starts
and stops as a `Mark`: the rune index, and the line and column counted from zero. A problem
found on the way names the stage that found it, the construct it was in (with the place that
construct began) and what was wrong (with the place it was seen).

* `Problem.line` is the line a report names: the construct's line when it is past the first,
  else the problem's own; a scanner problem counts lines from one, a parser problem from zero,
  so the same place can be reported one line apart by the two;
* `Problem.message` is the one-line report, `yaml: line N: what`, without the line part when
  the line is zero.
-/

namespace ShaderHeaders.Yaml

/-- A place in a YAML text: rune index, line and column, each counted from zero. -/
structure Mark where
  index : Nat
  line : Nat
  column : Nat
deriving Inhabited, Repr, DecidableEq

/-- The stage of reading that found a problem. -/
inductive Stage
  | reader
  | scanner
  | parser
deriving DecidableEq, Repr, Inhabited

/-- A problem with a YAML text: the construct it was found in, where that construct began,
what was wrong and where it was seen. -/
structure Problem where
  stage : Stage
  context : String
  contextMark : Mark
  problem : String
  problemMark : Mark
deriving Inhabited, Repr

/-- The line a report names, or zero for none. -/
def Problem.line (p : Problem) : Nat :=
  let bump := if p.stage = .scanner then 1 else 0
  if p.contextMark.line ≠ 0 then p.contextMark.line + bump
  else if p.problemMark.line ≠ 0 then p.problemMark.line + bump
  else 0

/-- The one-line report of a problem. -/
def Problem.message (p : Problem) : String :=
  let place := if p.line = 0 then "" else "line " ++ Decimal.ofNat p.line ++ ": "
  "yaml: " ++ place ++ p.problem

/-- How a scalar was written. -/
inductive ScalarStyle
  | plain
  | singleQuoted
  | doubleQuoted
  | literal
  | folded
deriving DecidableEq, Repr, Inhabited

/-- The kinds of YAML token, with what each carries. -/
inductive TokenKind
  | streamStart
  | streamEnd
  | versionDirective (major minor : Nat)
  | tagDirective (handle pre : String)
  | documentStart
  | documentEnd
  | blockSequenceStart
  | blockMappingStart
  | blockEnd
  | flowSequenceStart
  | flowSequenceEnd
  | flowMappingStart
  | flowMappingEnd
  | blockEntry
  | flowEntry
  | key
  | value
  | alias (name : String)
  | anchor (name : String)
  | tag (handle suffix : String)
  | scalar (text : String) (style : ScalarStyle)
deriving Inhabited, Repr

/-- A token with the places where it starts and stops. -/
structure Token where
  kind : TokenKind
  start : Mark
  stop : Mark
deriving Inhabited, Repr

namespace TokenKind

/-- Whether the token is a `-` entry indicator of a block sequence. -/
def isBlockEntry : TokenKind → Bool
  | .blockEntry => true
  | _ => false

/-- Whether the token ends a block collection. -/
def isBlockEnd : TokenKind → Bool
  | .blockEnd => true
  | _ => false

/-- Whether the token is a `?` key indicator. -/
def isKey : TokenKind → Bool
  | .key => true
  | _ => false

/-- Whether the token is a `:` value indicator. -/
def isValue : TokenKind → Bool
  | .value => true
  | _ => false

/-- Whether the token is a `,` between flow entries. -/
def isFlowEntry : TokenKind → Bool
  | .flowEntry => true
  | _ => false

/-- Whether the token closes a flow sequence. -/
def isFlowSequenceEnd : TokenKind → Bool
  | .flowSequenceEnd => true
  | _ => false

/-- Whether the token closes a flow mapping. -/
def isFlowMappingEnd : TokenKind → Bool
  | .flowMappingEnd => true
  | _ => false

end TokenKind

end ShaderHeaders.Yaml
