import ShaderHeaders.Cli.Run
import ShaderHeaders.Proofs.FileTree
import ShaderHeaders.Proofs.TableLaws

/-!
# The steps of a run

A step of a run may fail, and keeps what it did to the session before failing. `Step.exec`
runs a step from a session; the lemmas below run the steps a command is made of, one at a time,
as a proof executes them symbolically.

* Libraries: what a run of `index`, `deps` and `lookup` relies on of the libraries it is given
  is `Libraries.Documented`, what their documentation says; the libraries the program runs with
  are such (`Libraries.standard_documented`).
* Set up: in a project with no configuration file, `setup` takes the defaults
  (`setup_default`), so that the catalog lives at `.shadersig/catalog.db`.
* Opening the catalog: `openCatalog` fails, or makes the catalog's directory, opens the store on
  the bytes of the file there (none when there is no file) and writes the store's file back
  (`openCatalog_ok`); a stored file is opened as it is (`openCatalog_stored`).
-/

namespace ShaderHeaders.Cli

open ShaderHeaders.Path

/-- What a step gives, and the session it leaves, when run from a session. -/
def Step.exec {α : Type} (s : Step α) (st : Session) : Except Failure α × Session := s.run.run st

/-! ## Running steps -/

section Exec

variable {α β : Type} (st : Session)

@[simp] theorem exec_pure (a : α) : Step.exec (pure a : Step α) st = (.ok a, st) := rfl

theorem exec_bind (x : Step α) (f : α → Step β) :
    Step.exec (x >>= f) st =
      match Step.exec x st with
      | (.ok a, st') => Step.exec (f a) st'
      | (.error e, st') => (.error e, st') := by
  simp only [Step.exec]
  rcases h : x.run.run st with ⟨_ | a, st'⟩ <;> simp [ExceptT.run_bind, StateT.run_bind, h] <;> rfl

theorem exec_map (f : α → β) (x : Step α) :
    Step.exec (f <$> x) st =
      match Step.exec x st with
      | (.ok a, st') => (.ok (f a), st')
      | (.error e, st') => (.error e, st') := by
  rw [← bind_pure_comp, exec_bind]
  rcases Step.exec x st with ⟨_ | a, st'⟩ <;> rfl

@[simp] theorem exec_emit (s : String) :
    Step.exec (emit s) st = (.ok (), { st with stdout := st.stdout ++ s }) := rfl

@[simp] theorem exec_note (s : String) :
    Step.exec (note s) st = (.ok (), { st with stderr := st.stderr ++ s }) := rfl

@[simp] theorem exec_fail (m : String) : Step.exec (fail m : Step α) st = (.error ⟨m, false⟩, st) :=
  rfl

@[simp] theorem exec_throw (e : Failure) : Step.exec (throw e : Step α) st = (.error e, st) := rfl

@[simp] theorem exec_lift_ok (a : α) : Step.exec (lift (.ok a)) st = (.ok a, st) := rfl

@[simp] theorem exec_lift_error (m : String) :
    Step.exec (lift (.error m) : Step α) st = (.error ⟨m, false⟩, st) := rfl

@[simp] theorem exec_currentTree : Step.exec currentTree st = (.ok st.tree, st) := rfl

@[simp] theorem exec_setTree (t : Tree) :
    Step.exec (setTree t) st = (.ok (), { st with tree := t }) := rfl

theorem exec_within (pre : String) (s : Step α) :
    Step.exec (within pre s) st =
      match Step.exec s st with
      | (.ok a, st') => (.ok a, st')
      | (.error e, st') => (.error { e with message := pre ++ e.message }, st') := by
  simp only [Step.exec]
  rcases h : s.run.run st with ⟨_ | a, st'⟩ <;>
  · have h' : StateT.run s st = _ := h
    show (ExceptT.tryCatch s _).run.run st = _
    simp only [ExceptT.tryCatch, ExceptT.run_mk, StateT.run_bind, h']
    rfl

/-- Writing log records changes only standard error. -/
theorem exec_forM_log {γ : Type} (a : App) (g : γ → LogRecord) :
    ∀ (xs : List γ) (st : Session), ∃ err,
      Step.exec (xs.forM fun x => a.log (g x)) st = (.ok (), { st with stderr := err })
  | [], st => ⟨st.stderr, rfl⟩
  | x :: xs, st => by
    obtain ⟨err, h⟩ := exec_forM_log a g xs { st with stderr := st.stderr ++ a.logger.write (g x) }
    refine ⟨err, ?_⟩
    rw [List.forM, exec_bind]
    exact h

@[simp] theorem exec_saveCatalog {σ : Type} (L : Libraries σ) (w : Workspace) (dbPath : String)
    (s : σ) : Step.exec (saveCatalog L w dbPath s) st =
      (.ok (), { st with tree := st.tree.write (w.locate dbPath) (.bytes (L.store.file s)) w.clock }) :=
  rfl

end Exec

section Outcome

variable {σ : Type} (L : Libraries σ)

/-- The outcome of a run is what its steps leave, run from the tree with nothing printed. -/
theorem run_eq (w : Workspace) (t : Tree) (args : List String) :
    run L w t args =
      let r := Step.exec (execute L w args) ⟨t, "", ""⟩
      ⟨r.2.stdout, r.2.stderr, (match r.1 with | .error f => some f | .ok () => none), r.2.tree⟩ :=
  rfl

theorem exitCode_run_eq_zero {w : Workspace} {t : Tree} {args : List String} :
    (run L w t args).exitCode = 0 ↔ (Step.exec (execute L w args) ⟨t, "", ""⟩).1 = .ok () := by
  rw [run_eq]
  rcases Step.exec (execute L w args) ⟨t, "", ""⟩ with ⟨_ | ⟨⟩, st⟩ <;> simp [Outcome.exitCode]

end Outcome

/-! ## The command library and the flag parser the program runs with -/

theorem Cmd.name_eq_head (c : Cmd) :
    c.name = ((c.use.toList.splitOn ' ').map String.ofList).headD "" := by
  rw [Cmd.name, show " " = String.singleton ' ' from rfl, splitOn_singleton]

theorem ne_of_startsWith_dash {s t : String} (hs : s.startsWith "-" = false)
    (ht : t.startsWith "-" = true) : s ≠ t := by
  rintro rfl
  simp [hs] at ht

/-- A word that does not start with `-` is not a flag taking the next word. -/
theorem Find.takesNext_of_not_dash (fs : List Flag) {s : String} (h : s.startsWith "-" = false) :
    Find.takesNext fs s = false := by
  have h2 : s.startsWith "--" = false := by
    simp only [String.startsWith_string_eq_false_iff] at h ⊢
    exact fun hp => h ((show "-".toList <+: "--".toList by decide).trans hp)
  simp [Find.takesNext, h, h2]

/-- A command without subcommands is found by its name, and is given the words after it. -/
theorem Cmd.find_leaf {d : Cmd} (hd : d.children = []) (hroot : d ≠ .root) {w : String}
    (hw : w.startsWith "-" = false) (hne : w ≠ "")
    (hfind : Cmd.root.children.find? (·.name = w) = some d) (args : List String) :
    Cmd.find (w :: args) = .ok (d, args) := by
  have hdd : w ≠ "--" := ne_of_startsWith_dash hw (by simp)
  have hstrip : ∀ fuel, Find.strip Cmd.root.flags (fuel + 1) (w :: args) =
      w :: Find.strip Cmd.root.flags fuel args := by
    intro fuel
    simp [Find.strip, hdd, Find.takesNext_of_not_dash _ hw, hne, hw]
  have hwithout : ∀ fuel, Find.without Cmd.root.flags w (fuel + 1) (w :: args) = args := by
    intro fuel
    simp [Find.without, hdd, Find.takesNext_of_not_dash _ hw, hw]
  -- the root descends to `d` by the first word, and `d` has nowhere further to go
  have hdescend : Find.descend 4 .root (w :: args) = (d, args) := by
    rw [Find.descend, List.length_cons, hstrip]
    simp only [hfind, hwithout, Find.descend]
    split <;> simp [hd]
  simp [Cmd.find, hdescend, hroot]

@[simp] theorem Cmd.name_index : Cmd.index.name = "index" := by
  rw [Cmd.name_eq_head]
  decide

@[simp] theorem Cmd.name_deps : Cmd.deps.name = "deps" := by
  rw [Cmd.name_eq_head]
  decide

@[simp] theorem Cmd.name_lookup : Cmd.lookup.name = "lookup" := by
  rw [Cmd.name_eq_head]
  decide

/-- `index`, `deps` and `lookup` are found by their names. -/
theorem Cmd.find_named {d : Cmd} (hd : d ∈ [Cmd.index, Cmd.deps, Cmd.lookup])
    (args : List String) : Cmd.find (d.name :: args) = .ok (d, args) := by
  simp only [List.mem_cons, List.not_mem_nil, or_false] at hd
  rcases hd with rfl | rfl | rfl <;>
    simp only [Cmd.name_index, Cmd.name_deps, Cmd.name_lookup] <;>
    exact Cmd.find_leaf rfl (by decide) (by simp) (by simp)
      (by simp only [Cmd.name_eq_head]; decide) args

/-- Words that do not start with `-` are read as positional arguments. -/
theorem Flags.go_words (fs : List Flag) :
    ∀ (ws : List String) (fuel : Nat) (p : Parsed), ws.length < fuel →
      (∀ w ∈ ws, w.startsWith "-" = false) →
      Flags.go fs fuel ws p = .ok { p with positional := p.positional ++ ws }
  | [], fuel, p, _, _ => by
    cases fuel <;> simp [Flags.go]
  | w :: ws, fuel + 1, p, hlen, hw => by
    rw [List.forall_mem_cons] at hw
    rw [Flags.go, if_pos (by simp [hw.1]),
      Flags.go_words fs ws fuel _ (by simp at hlen; omega) hw.2]
    simp

theorem Flags.parse_words (fs : List Flag) {ws : List String}
    (hw : ∀ w ∈ ws, w.startsWith "-" = false) : Flags.parse fs ws = .ok ⟨[], ws⟩ := by
  rw [Flags.parse, Flags.go_words fs ws _ _ (by omega) hw]
  rfl

theorem Flags.parse_strict :
    Flags.parse Cmd.deps.flagsWithHelp ["--strict"] = .ok ⟨[("strict", "true")], []⟩ := by
  have hname : ("--strict".drop 2).toString = "strict" := by decide
  have hsplit : "strict".splitOn "=" = ["strict"] := by
    rw [show "=" = String.singleton '=' from rfl, splitOn_singleton]
    decide
  have hflag : Flags.byName Cmd.deps.flagsWithHelp "strict" =
      some ⟨"strict", none, true, "fail when a prototype has no provider"⟩ := by decide
  rw [Flags.parse, Flags.go, if_neg (by simp; decide), if_neg (by decide),
    if_pos (by simp)]
  simp only [Flags.long, hname, hsplit, hflag, show "strict".startsWith "-" = false by simp,
    show "strict".startsWith "=" = false by simp]
  rfl

theorem Flags.parse_help_lookup :
    Flags.parse Cmd.lookup.flagsWithHelp ["--help"] = .ok ⟨[("help", "true")], []⟩ := by
  have hname : ("--help".drop 2).toString = "help" := by decide
  have hsplit : "help".splitOn "=" = ["help"] := by
    rw [show "=" = String.singleton '=' from rfl, splitOn_singleton]
    decide
  -- no flag of `lookup` but its own `--help` is named `help`
  have hown : Cmd.lookup.flags.find? (·.name = "help") = none := by decide
  have hflag : Flags.byName Cmd.lookup.flagsWithHelp "help" = some Cmd.lookup.helpFlag := by
    simp [Flags.byName, Cmd.flagsWithHelp, List.find?_append, hown, Cmd.helpFlag]
  rw [Flags.parse, Flags.go, if_neg (by simp; decide), if_neg (by decide),
    if_pos (by simp)]
  simp only [Flags.long, hname, hsplit, hflag, show "help".startsWith "-" = false by simp,
    show "help".startsWith "=" = false by simp]
  rfl

/-! ## What a run relies on of its libraries -/

/-- Whether an arity lets a command take a number of positional arguments. -/
def Arity.allows : Arity → Nat → Bool
  | .none, n => n == 0
  | .exactly k, n => n == k
  | .atMost k, n => decide (n ≤ k)
  | .any, _ => true
  | .subcommands, _ => true

/-- What a run of `index`, `deps` and `lookup` relies on of its libraries, as they document it:
the store keeps the store's laws; `index`, `deps` and `lookup` are found by their names and given
the words after them; words that do not start with `-` are positional arguments
and set no flag; `--strict` alone sets the switch; and a command takes as many positional
arguments as its arity allows. -/
structure Libraries.Documented {σ : Type} (L : Libraries σ) : Prop where
  store_laws : L.store.Laws
  find_named : ∀ d ∈ [Cmd.index, Cmd.deps, Cmd.lookup], ∀ args,
    L.findCommand (d.name :: args) = .ok (d, args)
  parse_words : ∀ fs ws, (∀ w ∈ ws, w.startsWith "-" = false) → L.parseFlags fs ws = .ok ⟨[], ws⟩
  parse_strict : L.parseFlags Cmd.deps.flagsWithHelp ["--strict"] = .ok ⟨[("strict", "true")], []⟩
  check_allowed : ∀ c args, c.arity.allows args.length = true → L.checkArgs c args = .ok ()

theorem Cmd.checkArgs_of_allows {c : Cmd} {args : List String}
    (h : c.arity.allows args.length = true) : c.checkArgs args = .ok () := by
  unfold Cmd.checkArgs
  split <;> simp_all [Arity.allows]

/-- The libraries the program runs with are as documented. -/
theorem Libraries.standard_documented : Libraries.standard.Documented where
  store_laws := Bolt.table_laws
  find_named _ hd args := Cmd.find_named hd args
  parse_words fs _ hw := Flags.parse_words fs hw
  parse_strict := Flags.parse_strict
  check_allowed _ _ h := Cmd.checkArgs_of_allows h

/-! ## Set up with the defaults -/

theorem Workspace.locate_ofComponents (w : Workspace) {cs : List String} (h : ∀ c ∈ cs, Plain c) :
    w.locate (ofComponents cs) = cs := by
  rw [Workspace.locate, resolve_ofComponents _ h, components_ofComponents h]

theorem plain_append {cs rs : List String} (h : ∀ c ∈ cs, Plain c) (hr : ∀ c ∈ rs, Plain c) :
    ∀ c ∈ cs ++ rs, Plain c := fun c hc => (List.mem_append.1 hc).elim (h c) (hr c)

/-- Without a configuration the catalog of a project lives at `.shadersig/catalog.db` in it. -/
theorem catalogIn_default {cs : List String} (h : ∀ c ∈ cs, Plain c) :
    Config.default.catalogIn (ofComponents cs) = ofComponents (cs ++ [".shadersig", "catalog.db"]) := by
  have hrel : ".shadersig/catalog.db" = "/".intercalate [".shadersig", "catalog.db"] := by decide
  rw [Config.catalogIn, show Config.default.catalogPath = ".shadersig/catalog.db" from rfl,
    if_neg (by simp [isAbs]), hrel, join_ofComponents h (by decide) (by simp)]

/-- A project with nothing at either configuration path is configured by the defaults, whatever
the decoder of configuration files. -/
theorem loadFromDir_default (decode : List UInt8 → Except String Config) {t : Tree}
    {cs : List String} (h : ∀ c ∈ cs, Plain c)
    (hfirst : (t.lookup (cs ++ ["shadersig.yaml"])).toBool = false)
    (hsecond : (t.lookup (cs ++ [".shadersig", "config.yaml"])).toBool = false) :
    Config.loadFromDir decode t (ofComponents cs) (ofComponents cs) = .ok Config.default := by
  have hrel : ".shadersig/config.yaml" = "/".intercalate [".shadersig", "config.yaml"] := by decide
  have h₁ : join (ofComponents cs) "shadersig.yaml" = ofComponents (cs ++ ["shadersig.yaml"]) := by
    have hr : ∀ c ∈ ["shadersig.yaml"], Plain c := by decide
    simpa using join_ofComponents h hr (by simp)
  have h₂ : join (ofComponents cs) ".shadersig/config.yaml" =
      ofComponents (cs ++ [".shadersig", "config.yaml"]) := by
    rw [hrel]
    exact join_ofComponents h (by decide) (by simp)
  have hp₁ := plain_append h (show ∀ c ∈ ["shadersig.yaml"], Plain c by decide)
  have hp₂ := plain_append h (show ∀ c ∈ [".shadersig", "config.yaml"], Plain c by decide)
  simp only [Config.loadFromDir, h₁, h₂, resolve_ofComponents _ hp₁, resolve_ofComponents _ hp₂,
    components_ofComponents hp₁, components_ofComponents hp₂, hfirst, hsecond]
  rfl

/-- The app a command runs in, in a project configured by the defaults. -/
def defaultApp (w : Workspace) : App := ⟨w.cwd, Config.default, ⟨.warn, .text⟩⟩

/-- Given no directory, configuration or log level, a command in a project without a
configuration file runs in the working directory with the defaults. -/
theorem setup_default {σ : Type} (L : Libraries σ) {w : Workspace} {p : Parsed} {st : Session}
    {cs : List String} (h : ∀ c ∈ cs, Plain c) (hcwd : w.cwd = ofComponents cs)
    (hdir : p.text "dir" = "") (hconfig : p.text "config" = "") (hlevel : p.text "log-level" = "")
    (hfirst : (st.tree.lookup (cs ++ ["shadersig.yaml"])).toBool = false)
    (hsecond : (st.tree.lookup (cs ++ [".shadersig", "config.yaml"])).toBool = false) :
    Step.exec (setup L w p) st = (.ok (defaultApp w), st) := by
  have hload : Config.loadFromDir L.decodeConfig st.tree w.cwd w.cwd = .ok Config.default := by
    rw [hcwd]
    exact loadFromDir_default L.decodeConfig h hfirst hsecond
  have hempty : "".isEmpty = true := rfl
  simp only [setup, hdir, hconfig, hlevel, exec_bind, exec_currentTree, hempty, if_true, hload,
    exec_within, exec_lift_ok]
  rfl

/-! ## Where making the catalog's directory stops -/

theorem intercalate_empty_cons {l : List String} (hl : l ≠ []) :
    "/".intercalate ("" :: l) = ofComponents l := by
  obtain ⟨x, rest, rfl⟩ := List.exists_cons_of_ne_nil hl
  rw [String.intercalate_cons_cons, String.empty_append]
  rfl

/-- The directories on the way to an absolute path of plain components are looked at from the
first component down. -/
theorem blockedAt_ofComponents (t : Tree) (w : Workspace) {ds : List String} (hds : ds ≠ [])
    (h : ∀ c ∈ ds, Plain c) :
    blockedAt t w (ofComponents ds) =
      blockedAt.go t w ((List.range ds.length).map fun i => ofComponents (ds.take (i + 1))) := by
  have hparts : parts (clean (ofComponents ds)) = "" :: ds := by
    rw [clean_ofComponents h, parts_ofComponents h, if_neg hds]
  have hne : ∀ i, ofComponents (ds.take (i + 1)) ≠ "" := fun i => ofComponents_ne_empty _
  simp only [blockedAt, hparts, List.length_cons, List.range_succ_eq_map, List.map_cons,
    List.map_map]
  congr 1
  rw [List.filter_cons_of_neg (by simp), List.filter_eq_self.2]
  · congr 1
    funext i
    simp only [Function.comp_apply, Nat.succ_eq_add_one, List.take_succ_cons]
    exact intercalate_empty_cons (by simp [hds])
  · intro p hp
    obtain ⟨i, -, rfl⟩ := List.mem_map.1 hp
    have hi := hne i
    rw [← intercalate_empty_cons (by simp [hds])] at hi
    exact decide_eq_true hi

/-- The search stops at no file exactly when none of the paths it looks at is a file: those
after a missing one are missing too, as each lies below the ones before. -/
theorem blockedAt_go_eq_none_iff {t : Tree} {w : Workspace} :
    ∀ {ps : List String}, (ps.map w.locate).Pairwise (· <+: ·) →
      (blockedAt.go t w ps = none ↔ ∀ p ∈ ps, ∀ c m, t.lookup (w.locate p) ≠ .ok (.file c m))
  | [], _ => by simp [blockedAt.go]
  | p :: rest, hchain => by
    rw [List.map_cons, List.pairwise_cons] at hchain
    rw [blockedAt.go, List.forall_mem_cons]
    split
    · rename_i c m hfile
      exact iff_of_false (by simp) fun hall => hall.1 c m hfile
    · rename_i es hes
      rw [blockedAt_go_eq_none_iff hchain.2, hes]
      simp
    · rename_i e hes
      -- below a missing directory everything is missing
      refine iff_of_true rfl ⟨by simp [hes], fun q hq c m => ?_⟩
      obtain ⟨u, hu⟩ := hchain.1 _ (List.mem_map_of_mem hq)
      rw [← hu, Tree.lookup_append, hes]
      simp [Except.bind]

theorem locate_prefixes (w : Workspace) {ds : List String} (h : ∀ c ∈ ds, Plain c) :
    ((List.range ds.length).map fun i => ofComponents (ds.take (i + 1))).map w.locate =
      (List.range ds.length).map fun i => ds.take (i + 1) := by
  simp only [List.map_map]
  refine List.map_congr_left fun i _ => ?_
  exact w.locate_ofComponents fun c hc => h c (List.mem_of_mem_take hc)

/-- Making the directories of a path stops at no file exactly when no directory on the way is a
file. -/
theorem blockedAt_eq_none_iff {t : Tree} {w : Workspace} {ds : List String} (hds : ds ≠ [])
    (h : ∀ c ∈ ds, Plain c) :
    blockedAt t w (ofComponents ds) = none ↔
      ∀ k, 0 < k → k ≤ ds.length → ∀ c m, t.lookup (ds.take k) ≠ .ok (.file c m) := by
  have hchain : (((List.range ds.length).map fun i => ofComponents (ds.take (i + 1))).map
      w.locate).Pairwise (· <+: ·) := by
    rw [locate_prefixes w h, List.pairwise_map]
    exact List.pairwise_lt_range.imp fun hij => List.take_prefix_take_left (by omega)
  have hloc : ∀ k, w.locate (ofComponents (ds.take k)) = ds.take k := fun k =>
    w.locate_ofComponents fun c hc => h c (List.mem_of_mem_take hc)
  rw [blockedAt_ofComponents t w hds h, blockedAt_go_eq_none_iff hchain]
  constructor
  · intro hall k hk hkl c m
    have hmem : ofComponents (ds.take k) ∈
        (List.range ds.length).map fun i => ofComponents (ds.take (i + 1)) :=
      List.mem_map.2 ⟨k - 1, List.mem_range.2 (by omega), by rw [Nat.sub_add_cancel hk]⟩
    simpa [hloc] using hall _ hmem c m
  · intro hall p hp c m
    obtain ⟨i, hi, rfl⟩ := List.mem_map.1 hp
    rw [hloc]
    exact hall (i + 1) (by omega) (by simp at hi; omega) c m

/-! ## Opening the catalog -/

section Open

variable {σ : Type} (L : Libraries σ) {w : Workspace} {st st' : Session} {ds : List String}
  {b : String}

/-- Opening the store on bytes, then writing its file: the store the bytes open as, and its
file written. -/
theorem exec_openIn_save {bytes : List UInt8} {dbPath : String} {s : σ}
    (h : Step.exec (do
      let s ← lift (Catalog.openIn L.store bytes)
      saveCatalog L w dbPath s
      pure s) st = (.ok s, st')) :
    Catalog.openIn L.store bytes = .ok s ∧
      st' = { st with tree := st.tree.write (w.locate dbPath) (.bytes (L.store.file s)) w.clock } := by
  cases hs : Catalog.openIn L.store bytes with
  | error e => simp [hs, exec_bind] at h
  | ok s' =>
    simp only [hs, exec_bind, exec_lift_ok, exec_saveCatalog, exec_pure, Prod.mk.injEq,
      Except.ok.injEq] at h
    obtain ⟨rfl, rfl⟩ := h
    exact ⟨rfl, rfl⟩

/-- Opening the catalog at `ds ++ [b]` either fails or makes the directory `ds`, opens the store
on what the file there holds, and writes the store's file back; it prints nothing. -/
theorem openCatalog_ok (hds : ds ≠ []) (h : ∀ c ∈ ds ++ [b], Plain c)
    (hroot : ∀ c m, st.tree ≠ .file c m) {s : σ}
    (hopen : Step.exec (openCatalog L w (ofComponents (ds ++ [b]))) st = (.ok s, st')) :
    ∃ t₁ bytes, st.tree.mkdirAll ds = .ok t₁ ∧ Catalog.openIn L.store bytes = .ok s ∧
      st' = { st with tree := t₁.write (ds ++ [b]) (.bytes (L.store.file s)) w.clock } := by
  have hd : ∀ c ∈ ds, Plain c := fun c hc => h c (List.mem_append_left _ hc)
  have hdir : Path.dir (ofComponents (ds ++ [b])) = ofComponents ds :=
    dir_ofComponents hd hds (h b (by simp))
  have hloc : w.locate (ofComponents (ds ++ [b])) = ds ++ [b] := w.locate_ofComponents h
  unfold openCatalog at hopen
  cases hb : blockedAt st.tree w (ofComponents ds) with
  | some p => simp [hdir, exec_bind, hb] at hopen
  | none =>
    -- nothing on the way is a file, so the directories are made
    have hno : ∀ k ≤ ds.length, ∀ c m, st.tree.lookup (ds.take k) ≠ .ok (.file c m) := by
      intro k hk c m
      rcases Nat.eq_zero_or_pos k with rfl | hpos
      · simpa using hroot c m
      · exact (blockedAt_eq_none_iff hds hd).1 hb k hpos hk c m
    obtain ⟨t₁, ht₁⟩ := Tree.exists_mkdirAll_eq_ok hno
    simp only [hdir, exec_bind, exec_currentTree, w.locate_ofComponents hd, hloc, hb, ht₁,
      exec_setTree] at hopen
    -- the store is opened on the bytes of the file, or on none
    split at hopen
    · simp [exec_bind] at hopen
    · rename_i c m hfile
      rw [pure_bind] at hopen
      obtain ⟨hs, rfl⟩ := exec_openIn_save L hopen
      exact ⟨t₁, c.text, ht₁, hs, by rw [hloc]⟩
    · rw [pure_bind] at hopen
      obtain ⟨hs, rfl⟩ := exec_openIn_save L hopen
      exact ⟨t₁, [], ht₁, hs, by rw [hloc]⟩

/-- A stored file that opens is opened as it is. -/
theorem openCatalog_stored (hds : ds ≠ []) (h : ∀ c ∈ ds ++ [b], Plain c) {c : Content}
    {m : Timestamp} (hc : st.tree.lookup (ds ++ [b]) = .ok (.file c m)) {s : σ}
    (hs : Catalog.openIn L.store c.text = .ok s) :
    ∃ t₁, Step.exec (openCatalog L w (ofComponents (ds ++ [b]))) st = (.ok s, { st with tree := t₁ }) := by
  have hd : ∀ c ∈ ds, Plain c := fun c hc => h c (List.mem_append_left _ hc)
  have hdir : Path.dir (ofComponents (ds ++ [b])) = ofComponents ds :=
    dir_ofComponents hd hds (h b (by simp))
  -- every directory on the way to the file is one
  have hdirs : ∀ k ≤ ds.length, ∃ es, st.tree.lookup (ds.take k) = .ok (.dir es) := by
    intro k hk
    refine Tree.dir_of_lookup_append (u := .file c m) (m := ds.drop k ++ [b]) ?_ (by simp)
    rw [← List.append_assoc, List.take_append_drop]
    exact hc
  have hno : ∀ k ≤ ds.length, ∀ c m, st.tree.lookup (ds.take k) ≠ .ok (.file c m) := by
    intro k hk c m hfile
    obtain ⟨es, hes⟩ := hdirs k hk
    rw [hes] at hfile
    cases hfile
  have hb : blockedAt st.tree w (ofComponents ds) = none :=
    (blockedAt_eq_none_iff hds hd).2 fun k _ hk => hno k hk
  obtain ⟨t₁, ht₁⟩ := Tree.exists_mkdirAll_eq_ok hno
  obtain ⟨es, hes⟩ := hdirs ds.length le_rfl
  rw [List.take_length] at hes
  have hkeep : t₁.lookup (ds ++ [b]) = .ok (.file c m) := by
    rw [Tree.lookup_mkdirAll_append ht₁ hes, hc]
  refine ⟨t₁.write (ds ++ [b]) (.bytes (L.store.file s)) w.clock, ?_⟩
  unfold openCatalog
  simp only [hdir, exec_bind, exec_currentTree, w.locate_ofComponents hd,
    w.locate_ofComponents h, hb, ht₁, exec_setTree, hkeep, pure_bind, hs, exec_lift_ok,
    exec_saveCatalog, exec_pure]

/-- Where nothing stands at the catalog's path and no file on the way, the store is opened on no
bytes. -/
theorem openCatalog_fresh (hds : ds ≠ []) (h : ∀ c ∈ ds ++ [b], Plain c)
    (hno : ∀ k ≤ ds.length, ∀ c m, st.tree.lookup (ds.take k) ≠ .ok (.file c m))
    (hnone : (st.tree.lookup (ds ++ [b])).toBool = false) {s : σ}
    (hs : Catalog.openIn L.store [] = .ok s) :
    ∃ st', Step.exec (openCatalog L w (ofComponents (ds ++ [b]))) st = (.ok s, st') := by
  have hd : ∀ c ∈ ds, Plain c := fun c hc => h c (List.mem_append_left _ hc)
  have hdir : Path.dir (ofComponents (ds ++ [b])) = ofComponents ds :=
    dir_ofComponents hd hds (h b (by simp))
  have hb : blockedAt st.tree w (ofComponents ds) = none :=
    (blockedAt_eq_none_iff hds hd).2 fun k _ hk => hno k hk
  obtain ⟨t₁, ht₁⟩ := Tree.exists_mkdirAll_eq_ok hno
  -- the catalog's path still leads nowhere once its directory is made
  have hmissing : (t₁.lookup (ds ++ [b])).toBool = false :=
    Tree.lookup_mkdirAll_below_of_error ht₁ (by simp) hnone
  unfold openCatalog
  simp only [hdir, exec_bind, exec_currentTree, w.locate_ofComponents hd,
    w.locate_ofComponents h, hb, ht₁, exec_setTree]
  cases hl : t₁.lookup (ds ++ [b]) with
  | ok u => simp [hl, Except.toBool] at hmissing
  | error e =>
    exact ⟨{ st with tree := t₁.write (ds ++ [b]) (.bytes (L.store.file s)) w.clock },
      by simp [hs, exec_bind, exec_map, w.locate_ofComponents h]⟩

end Open

/-- A command line that names a runnable command, without `--help`, with as many arguments as
the command takes and a set up that succeeds, runs the command. -/
theorem exec_execute {σ : Type} (L : Libraries σ) {w : Workspace} {args rest : List String}
    {d : Cmd} {p : Parsed} {a : App} {st : Session} (hfind : L.findCommand args = .ok (d, rest))
    (hparse : L.parseFlags d.flagsWithHelp rest = .ok p) (hhelp : p.on "help" = false)
    (hrun : d.runnable = true) (hargs : L.checkArgs d p.positional = .ok ())
    (hsetup : Step.exec (setup L w p) st = (.ok a, st)) :
    Step.exec (execute L w args) st = Step.exec (perform L w a d p) st := by
  simp only [execute, exec_bind, hfind, exec_lift_ok, hparse, hhelp, hrun, Bool.not_true,
    Bool.or_false, Bool.false_eq_true, if_false, hargs, hsetup]

/-- Such a command line, whose flags leave the set up alone, in a project without a
configuration file, runs the command with the defaults. -/
theorem exec_execute_default {σ : Type} (L : Libraries σ) {w : Workspace} {args rest : List String}
    {d : Cmd} {p : Parsed} {st : Session} {cs : List String} (hcs : ∀ c ∈ cs, Plain c)
    (hcwd : w.cwd = ofComponents cs)
    (hfirst : (st.tree.lookup (cs ++ ["shadersig.yaml"])).toBool = false)
    (hsecond : (st.tree.lookup (cs ++ [".shadersig", "config.yaml"])).toBool = false)
    (hfind : L.findCommand args = .ok (d, rest)) (hparse : L.parseFlags d.flagsWithHelp rest = .ok p)
    (hflags : p.on "help" = false ∧ p.text "dir" = "" ∧ p.text "config" = "" ∧ p.text "log-level" = "")
    (hrun : d.runnable = true) (hargs : L.checkArgs d p.positional = .ok ()) :
    Step.exec (execute L w args) st = Step.exec (perform L w (defaultApp w) d p) st :=
  have ⟨hhelp, hdir, hconfig, hlevel⟩ := hflags
  exec_execute L hfind hparse hhelp hrun hargs
    (setup_default L hcs hcwd hdir hconfig hlevel hfirst hsecond)

end ShaderHeaders.Cli
