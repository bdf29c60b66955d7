import ShaderHeaders.Yaml.Scanner
import ShaderHeaders.Yaml.Resolve

/-!
# Reading the first YAML document into nodes

The parser reads tokens from the scanner and builds the nodes of the first document: scalars,
sequences and mappings, each with its tag and the line (from one) where it starts. An empty
entry or value is an empty plain scalar at the place where it is missing. An alias stands for
the node its anchor named; an alias to no anchor is an error.

The grammar is read by descent: a block node, a flow node, the entries of a block sequence
(also one written at the indentation of its mapping key, with no block of its own), a block
mapping, a flow sequence (whose entries may be single `key: value` pairs) and a flow mapping.
A missing `-`, key, `,` or closing bracket is a parser problem that names the collection and
where it began.

* `Yaml.compose text` is the root node of the first document, `none` for a text with no
  document, or the first problem met.
-/

namespace ShaderHeaders.Yaml

/-- A node of a YAML document, with its tag and the line where it starts. -/
inductive Node where
  | scalar (value : String) (tag : String) (style : ScalarStyle) (line : Nat)
  | sequence (items : List Node) (tag : String) (line : Nat)
  | mapping (entries : List (Node × Node)) (tag : String) (line : Nat)
  | alias (name : String) (target : Node) (line : Nat)
deriving Inhabited, Repr

/-- A failure to read a document: a problem of the scanner or parser, or one found while
building nodes. -/
inductive Failure where
  | problem (p : Problem)
  | other (message : String)
deriving Inhabited, Repr

/-- The one-line report of a failure. -/
def Failure.message : Failure → String
  | .problem p => p.message
  | .other m => "yaml: " ++ m

/-- The state of the parser: the scanner, the tag handles in force and the anchors seen. -/
structure Composer where
  scan : Scanner
  handles : List (String × String)
  anchors : List (String × Node)
  open_ : List String
deriving Inhabited

namespace Composer

/-- The next token, scanning as needed. -/
def peek (c : Composer) : Except Failure (Token × Composer) :=
  match c.scan.peek with
  | .ok (t, s) => .ok (t, { c with scan := s })
  | .error p => .error (.problem p)

/-- Moves past the next token. -/
def advance (c : Composer) : Composer := { c with scan := c.scan.advance }

/-- A parser problem in `context` begun at `cm`, seen at `pm`. -/
def fail {α : Type} (context : String) (cm : Mark) (problem : String) (pm : Mark) : Except Failure (α × Composer) :=
  .error (.problem { stage := .parser, context, contextMark := cm, problem, problemMark := pm })

/-- A parser problem with no enclosing construct. -/
def failAt {α : Type} (problem : String) (pm : Mark) : Except Failure (α × Composer) :=
  fail "" ⟨0, 0, 0⟩ problem pm

/-- An empty plain scalar at `m`. -/
def empty (m : Mark) : Node := .scalar "" "!!null" .plain (m.line + 1)

/-- The tag of a node: its own (in short form) unless absent or `!`, else the tag its kind
gives. -/
def tagFor (own : String) (fallback : String) : String :=
  if own ≠ "" && own ≠ "!" then Resolve.shortTag own else fallback

/-- Records a finished node under its anchor. -/
def remember (c : Composer) (anchor : String) (n : Node) : Composer :=
  if anchor.isEmpty then c
  else { c with anchors := (anchor, n) :: c.anchors, open_ := c.open_.erase anchor }

/-- Marks an anchor as naming a node still being read. -/
def opening (c : Composer) (anchor : String) : Composer :=
  if anchor.isEmpty then c else { c with open_ := anchor :: c.open_ }

/-- The properties of a node: an anchor and a tag, in either order. -/
structure Properties where
  anchor : String := ""
  tagged : Bool := false
  handle : String := ""
  suffix : String := ""
  start : Mark
  tagMark : Mark

/-- Reads the anchor and tag before a node. -/
def properties (c : Composer) : Except Failure (Properties × Token × Composer) := do
  let (t, c) ← c.peek
  match t.kind with
  | .anchor name =>
    let (t2, c) ← c.advance.peek
    match t2.kind with
    | .tag h s =>
      let (t3, c) ← c.advance.peek
      pure (({ anchor := name, tagged := true, handle := h, suffix := s, start := t.start,
               tagMark := t2.start } : Properties), t3, c)
    | _ => pure (({ anchor := name, start := t.start, tagMark := t.start } : Properties), t2, c)
  | .tag h s =>
    let (t2, c) ← c.advance.peek
    match t2.kind with
    | .anchor name =>
      let (t3, c) ← c.advance.peek
      pure (({ anchor := name, tagged := true, handle := h, suffix := s, start := t.start,
               tagMark := t.start } : Properties), t3, c)
    | _ => pure (({ tagged := true, handle := h, suffix := s, start := t.start,
                    tagMark := t.start } : Properties), t2, c)
  | _ => pure (({ start := t.start, tagMark := t.start } : Properties), t, c)

/-- The full tag of a node from its handle and suffix. -/
def fullTag (c : Composer) (p : Properties) : Except Failure String :=
  if !p.tagged then .ok ""
  else if p.handle.isEmpty then .ok p.suffix
  else
    match c.handles.lookup p.handle with
    | some pre => .ok (pre ++ p.suffix)
    | none => .error (.problem { stage := .parser, context := "while parsing a node",
                                 contextMark := p.start, problem := "found undefined tag handle",
                                 problemMark := p.tagMark })

mutual

/-- Reads a node: an alias, a scalar, a collection, or properties with nothing after them. -/
def node (block indentless : Bool) : Nat → Composer → Except Failure (Node × Composer)
  | 0, c => .ok (empty ⟨0, 0, 0⟩, c)
  | fuel + 1, c => do
    let (t, c) ← c.peek
    match t.kind with
    | .alias name =>
      if c.open_.contains name then .error (.other ("anchor '" ++ name ++ "' value contains itself"))
      else
        match c.anchors.lookup name with
        | some target => pure (.alias name target (t.start.line + 1), c.advance)
        | none => .error (.other ("unknown anchor '" ++ name ++ "' referenced"))
    | _ =>
      let (p, t, c) ← c.properties
      let tag ← match c.fullTag p with
        | .ok v => pure v
        | .error e => .error e
      let line := p.start.line + 1
      let c := c.opening p.anchor
      match t.kind with
      | .blockEntry =>
        if indentless then
          let (items, c) ← indentlessEntries fuel c []
          let n := Node.sequence items (tagFor tag "!!seq") line
          pure (n, c.remember p.anchor n)
        else nodeRest block tag p t line fuel c
      | _ => nodeRest block tag p t line fuel c

/-- Reads a node after its properties, at token `t`. -/
def nodeRest (block : Bool) (tag : String) (p : Properties) (t : Token) (line : Nat) :
    Nat → Composer → Except Failure (Node × Composer)
  | 0, c => .ok (empty t.start, c)
  | fuel + 1, c => do
    match t.kind with
    | .scalar value style =>
      let fallback :=
        if style ≠ .plain then "!!str"
        else if value = "<<" then "!!merge"
        else Resolve.tagOf value
      let n := Node.scalar value (tagFor tag fallback) style line
      pure (n, c.advance.remember p.anchor n)
    | .flowSequenceStart =>
      let (items, c) ← flowSequence t.start fuel c.advance [] true
      let n := Node.sequence items (tagFor tag "!!seq") line
      pure (n, c.remember p.anchor n)
    | .flowMappingStart =>
      let (entries, c) ← flowMapping t.start fuel c.advance [] true
      let n := Node.mapping entries (tagFor tag "!!map") line
      pure (n, c.remember p.anchor n)
    | .blockSequenceStart =>
      if block then
        let (items, c) ← blockEntries t.start fuel c.advance []
        let n := Node.sequence items (tagFor tag "!!seq") line
        pure (n, c.remember p.anchor n)
      else missing block p t c
    | .blockMappingStart =>
      if block then
        let (entries, c) ← blockPairs t.start fuel c.advance []
        let n := Node.mapping entries (tagFor tag "!!map") line
        pure (n, c.remember p.anchor n)
      else missing block p t c
    | _ => missing block p t c

/-- A node with properties and no content is an empty scalar; with neither it is missing. -/
def missing (block : Bool) (p : Properties) (t : Token) (c : Composer) : Except Failure (Node × Composer) :=
  if !p.anchor.isEmpty || p.tagged then
    let n := Node.scalar "" (tagFor (c.fullTag p |>.toOption |>.getD "") "!!null") .plain
      (p.start.line + 1)
    .ok (n, c.remember p.anchor n)
  else
    fail (if block then "while parsing a block node" else "while parsing a flow node") p.start
      "did not find expected node content" t.start

/-- Reads the entries of a block sequence up to its end. -/
def blockEntries (opened : Mark) : Nat → Composer → List Node → Except Failure ((List Node) × Composer)
  | 0, c, acc => .ok (acc.reverse, c)
  | fuel + 1, c, acc => do
    let (t, c) ← c.peek
    match t.kind with
    | .blockEntry =>
      let (t2, c) ← c.advance.peek
      if t2.kind.isBlockEntry || t2.kind.isBlockEnd then
        blockEntries opened fuel c (empty t.stop :: acc)
      else
        let (item, c) ← node true false fuel c
        blockEntries opened fuel c (item :: acc)
    | .blockEnd => .ok (acc.reverse, c.advance)
    | _ => fail "while parsing a block collection" opened "did not find expected '-' indicator" t.start

/-- Reads the entries of a sequence written at its key's indentation. -/
def indentlessEntries : Nat → Composer → List Node → Except Failure ((List Node) × Composer)
  | 0, c, acc => .ok (acc.reverse, c)
  | fuel + 1, c, acc => do
    let (t, c) ← c.peek
    match t.kind with
    | .blockEntry =>
      let (t2, c) ← c.advance.peek
      if t2.kind.isBlockEntry || t2.kind.isKey || t2.kind.isValue || t2.kind.isBlockEnd then
        indentlessEntries fuel c (empty t.stop :: acc)
      else
        let (item, c) ← node true false fuel c
        indentlessEntries fuel c (item :: acc)
    | _ => .ok (acc.reverse, c)

/-- Reads the key and value pairs of a block mapping up to its end. -/
def blockPairs (opened : Mark) : Nat → Composer → List (Node × Node) →
    Except Failure ((List (Node × Node)) × Composer)
  | 0, c, acc => .ok (acc.reverse, c)
  | fuel + 1, c, acc => do
    let (t, c) ← c.peek
    match t.kind with
    | .key =>
      let (t2, c) ← c.advance.peek
      let (k, c) ←
        if t2.kind.isKey || t2.kind.isValue || t2.kind.isBlockEnd then pure (empty t.stop, c)
        else node true true fuel c
      let (t3, c) ← c.peek
      let (v, c) ←
        if t3.kind.isValue then do
          let (t4, c) ← c.advance.peek
          if t4.kind.isKey || t4.kind.isValue || t4.kind.isBlockEnd then pure (empty t3.stop, c)
          else node true true fuel c
        else pure (empty t3.start, c)
      blockPairs opened fuel c ((k, v) :: acc)
    | .blockEnd => .ok (acc.reverse, c.advance)
    | _ => fail "while parsing a block mapping" opened "did not find expected key" t.start

/-- Reads the entries of a flow sequence up to its closing bracket. -/
def flowSequence (opened : Mark) : Nat → Composer → List Node → Bool → Except Failure ((List Node) × Composer)
  | 0, c, acc, _ => .ok (acc.reverse, c)
  | fuel + 1, c, acc, first => do
    let (t, c) ← c.peek
    if t.kind.isFlowSequenceEnd then return (acc.reverse, c.advance)
    let (t, c) ←
      if first then pure (t, c)
      else if t.kind.isFlowEntry then c.advance.peek
      else fail "while parsing a flow sequence" opened "did not find expected ',' or ']'" t.start
    match t.kind with
    | .flowSequenceEnd => .ok (acc.reverse, c.advance)
    | .key =>
      let c := c.advance
      let (t2, c) ← c.peek
      let (k, c) ←
        if t2.kind.isValue || t2.kind.isFlowEntry || t2.kind.isFlowSequenceEnd then
          pure (empty t2.start, c)
        else node false false fuel c
      let (t3, c) ← c.peek
      let (v, c) ←
        if t3.kind.isValue then do
          let (t4, c) ← c.advance.peek
          if t4.kind.isFlowEntry || t4.kind.isFlowSequenceEnd then pure (empty t3.start, c)
          else node false false fuel c
        else pure (empty t3.start, c)
      flowSequence opened fuel c (.mapping [(k, v)] "!!map" (t.start.line + 1) :: acc) false
    | _ =>
      let (item, c) ← node false false fuel c
      flowSequence opened fuel c (item :: acc) false

/-- Reads the pairs of a flow mapping up to its closing brace; a key alone has an empty
value. -/
def flowMapping (opened : Mark) : Nat → Composer → List (Node × Node) → Bool →
    Except Failure ((List (Node × Node)) × Composer)
  | 0, c, acc, _ => .ok (acc.reverse, c)
  | fuel + 1, c, acc, first => do
    let (t, c) ← c.peek
    if t.kind.isFlowMappingEnd then return (acc.reverse, c.advance)
    let (t, c) ←
      if first then pure (t, c)
      else if t.kind.isFlowEntry then c.advance.peek
      else fail "while parsing a flow mapping" opened "did not find expected ',' or '\x7d'" t.start
    match t.kind with
    | .flowMappingEnd => .ok (acc.reverse, c.advance)
    | .key =>
      let (t2, c) ← c.advance.peek
      let (k, c) ←
        if t2.kind.isValue || t2.kind.isFlowEntry || t2.kind.isFlowMappingEnd then
          pure (empty t2.start, c)
        else node false false fuel c
      let (t3, c) ← c.peek
      let (v, c) ←
        if t3.kind.isValue then do
          let (t4, c) ← c.advance.peek
          if t4.kind.isFlowEntry || t4.kind.isFlowMappingEnd then pure (empty t4.start, c)
          else node false false fuel c
        else pure (empty t3.start, c)
      flowMapping opened fuel c ((k, v) :: acc) false
    | _ =>
      let (k, c) ← node false false fuel c
      let (t3, c) ← c.peek
      flowMapping opened fuel c ((k, empty t3.start) :: acc) false

end

/-- The tag handles every document knows. -/
def standardHandles : List (String × String) := [("!", "!"), ("!!", "tag:yaml.org,2002:")]

/-- Reads the directives before a document, then installs the standard handles. -/
def directives : Nat → Composer → Bool → Except Failure (Unit × Composer)
  | 0, c, _ => .ok ((), c)
  | fuel + 1, c, seenVersion => do
    let (t, c) ← c.peek
    match t.kind with
    | .versionDirective major minor =>
      if seenVersion then failAt "found duplicate %YAML directive" t.start
      else if major ≠ 1 || minor ≠ 1 then failAt "found incompatible YAML document" t.start
      else directives fuel c.advance true
    | .tagDirective handle pre =>
      if (c.handles.lookup handle).isSome then failAt "found duplicate %TAG directive" t.start
      else directives fuel { c.advance with handles := c.handles ++ [(handle, pre)] } seenVersion
    | _ =>
      let extra := standardHandles.filter fun (h, _) => (c.handles.lookup h).isNone
      .ok ((), { c with handles := c.handles ++ extra })

/-- Reads the first document of a stream: its root node, or `none` when the stream holds no
document. -/
def document (c : Composer) : Except Failure ((Option Node) × Composer) := do
  let fuel := 4 * c.scan.text.size + 16
  let (_, c) ← c.peek
  let c := c.advance
  let (t, c) ← c.peek
  let isStart (k : TokenKind) : Bool :=
    match k with
    | .versionDirective _ _ | .tagDirective _ _ | .documentStart => true
    | _ => false
  match t.kind with
  | .streamEnd => pure (none, c)
  | k =>
    let (root, c) ← if !isStart k then do
        let (_, c) ← directives fuel c false
        node true false fuel c
      else do
        let (_, c) ← directives fuel c false
        let (t, c) ← c.peek
        match t.kind with
        | .documentStart =>
          let c := c.advance
          let (t, c) ← c.peek
          match t.kind with
          | .versionDirective _ _ | .tagDirective _ _ | .documentStart | .documentEnd
          | .streamEnd => pure (empty t.start, c)
          | _ => node true false fuel c
        | _ => failAt "did not find expected <document start>" t.start
    let (t, c) ← c.peek
    match t.kind with
    | .documentEnd => pure (some root, c.advance)
    | _ => pure (some root, c)

end Composer

/-- The root node of the first document of a YAML text, `none` when there is none, or the
first failure. -/
def compose (bytes : List UInt8) : Except Failure (Option Node) :=
  match Scanner.start bytes with
  | .error p => .error (.problem p)
  | .ok s =>
    match Composer.document ⟨s, [], [], []⟩ with
    | .ok (n, _) => .ok n
    | .error e => .error e

end ShaderHeaders.Yaml
