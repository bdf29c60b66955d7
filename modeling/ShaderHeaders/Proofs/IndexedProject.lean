import ShaderHeaders.Proofs.CommandSteps
import ShaderHeaders.Proofs.CatalogIndex
import ShaderHeaders.Proofs.LinkResolution

/-!
# Indexing a project, then reading its catalog

A project whose directory is the working directory and which has no configuration file keeps its
catalog at `.shadersig/catalog.db`. Once `index` has run there and succeeded, whatever the
catalog held before, the catalog holds exactly the chunks `index` scanned, so that `deps` and
`lookup` report on those chunks in increasing byte order of path:

* `index_then_deps_lookup`: `deps` prints a line per prototype of each scanned chunk, with the
  scanned chunks whose definition satisfies it; `deps --strict` fails exactly when a prototype
  has no provider, with their number; `lookup N`, for a name that is not read as a flag,
  succeeds exactly when a scanned chunk defines `N`, and prints those chunks;
* `exitCode_index_eq_zero`: on a project with nothing at `.shadersig` whose chunks the catalog
  accepts, `index` succeeds;
* `exitCode_lookup_help`: `lookup --help` prints the help of `lookup` and succeeds, whatever
  the catalog holds.

All of it holds for any libraries that behave as documented (`Libraries.Documented`). The run
of `index` is followed step by step (`exec_indexChunks`, `rebuildCatalog_ok`); what it keeps
true of the tree while it makes the catalog is `KeepsProject`, and what it stores is
`index_stores_scanned`. `run_deps` and `run_lookup` say what the two readers print of a stored
catalog.
-/

namespace ShaderHeaders.Cli

open ShaderHeaders.Path Catalog

/-! ## What the commands print about a list of chunks -/

/-- The chunks `index` finds below a project directory with the default configuration, in walk
order, given the glob matcher. -/
def scanned (isMatch : String → String → Bool) (es : List (String × Tree)) : List Chunk :=
  Scan.chunks (Scan.walk ⟨Config.default.chunks.includes.getD [],
    Config.default.chunks.excludes.getD [], isMatch⟩ "." (.dir es))

/-- A list of chunks in increasing byte order of their paths. -/
def ByteOrdered (chs : List Chunk) : Prop :=
  (chs.map fun c => Utf8.bytes c.path).Pairwise (· < ·)

/-- The line of a prototype that a chunk declares, with the paths of the chunks providing it. -/
def depsLine (path : String) (p : Signature) (providers : List String) : String :=
  path ++ ": " ++ p.prototype ++ " -> " ++
    (if providers = [] then "unresolved" else ", ".intercalate providers) ++ "\n"

/-- What `deps` prints about a list of chunks: a line per prototype of each chunk, in order. -/
def depsReport (chs : List Chunk) : String :=
  String.join (chs.flatMap fun c => c.prototypes.map fun p =>
    depsLine c.path p (Link.providersAmong chs p))

/-- The number of prototypes of a list of chunks that no chunk of the list provides. -/
def unresolvedCount (chs : List Chunk) : Nat :=
  (chs.flatMap fun c => c.prototypes.filter fun p => Link.providersAmong chs p = []).length

/-- What `lookup` prints about a list of chunks for a name: a line per chunk defining it. -/
def lookupReport (chs : List Chunk) (n : String) : String :=
  String.join (chs.filterMap fun c => c.definition?.bind fun d =>
    if d.name = n then some (c.path ++ ": " ++ d.render ++ "\n") else none)

theorem line_eq_depsLine (path : String) (p : Signature) (providers : List String) :
    Link.line ⟨path, p, providers⟩ = depsLine path p providers := by
  cases providers <;> simp [Link.line, Link.resolved, depsLine]

/-- The links of a list of chunks print as its report. -/
theorem join_line_resolve (chs : List Chunk) :
    String.join ((Link.resolve chs).map Link.line) = depsReport chs := by
  simp [Link.resolve_eq, depsReport, List.map_flatMap, Function.comp_def, line_eq_depsLine]

theorem length_unresolved_resolve (chs : List Chunk) :
    ((Link.resolve chs).filter fun l => !l.resolved).length = unresolvedCount chs := by
  have hempty : ∀ l : List String, l.isEmpty = decide (l = []) := fun l => by cases l <;> rfl
  simp [Link.resolve_eq, unresolvedCount, List.filter_flatMap, List.filter_map, Function.comp_def,
    Link.resolved, List.length_flatMap, hempty]

/-- The chunks defining a name print as the report of `lookup`. -/
theorem text_chunks_filter (chs : List Chunk) (n : String) :
    Report.text (.chunks (chs.filter fun c => c.definition?.map Signature.name = some n)) =
      lookupReport chs n := by
  simp only [Report.text, lookupReport]
  congr 1
  induction chs with
  | nil => rfl
  | cons c rest ih =>
    cases hd : c.definition? with
    | none =>
      rw [List.filter_cons_of_neg (by simp [hd]), ih, List.filterMap_cons_none (by simp [hd])]
    | some d =>
      by_cases hn : d.name = n
      · rw [List.filter_cons_of_pos (by simp [hd, hn]), List.map_cons, ih,
          List.filterMap_cons_some (b := c.path ++ ": " ++ d.render ++ "\n") (by simp [hd, hn])]
        simp [hd]
      · rw [List.filter_cons_of_neg (by simp [hd, hn]), ih,
          List.filterMap_cons_none (by simp [hd, hn])]

/-! ## The map the catalog holds after `index` -/

/-- The map with a chunk stored at its path. -/
def storeChunk (M : String → Option Chunk) (c : Chunk) : String → Option Chunk :=
  Function.update M c.path (some c)

/-- The map of a list of chunks stored one after another, each at its path. -/
def stored (chs : List Chunk) : String → Option Chunk :=
  chs.foldl storeChunk fun _ => none

/-- Keys listed in strictly increasing order are distinct. -/
theorem nodup_of_pairwise_lt {α : Type} {f : α → List UInt8} {l : List α}
    (h : (l.map f).Pairwise (· < ·)) : l.Nodup := by
  refine (List.pairwise_map.1 h).imp ?_
  rintro a b hlt rfl
  exact List.lt_irrefl _ hlt

/-- Two lists in strictly increasing order of a key, holding the same elements, are the
same. -/
theorem eq_of_pairwise_lt {α : Type} {f : α → List UInt8} {l₁ l₂ : List α}
    (h₁ : (l₁.map f).Pairwise (· < ·)) (h₂ : (l₂.map f).Pairwise (· < ·))
    (hmem : ∀ a, a ∈ l₁ ↔ a ∈ l₂) : l₁ = l₂ := by
  refine List.Perm.eq_of_pairwise ?_ (List.pairwise_map.1 h₁) (List.pairwise_map.1 h₂) ?_
  · intro a b _ _ hab hba
    exact absurd (List.lt_trans hab hba) (List.lt_irrefl _)
  · exact (List.perm_ext_iff_of_nodup (nodup_of_pairwise_lt h₁) (nodup_of_pairwise_lt h₂)).2 hmem

/-- Chunks at other paths leave a path as it was. -/
theorem foldl_storeChunk_of_ne {p : String} :
    ∀ {chs : List Chunk} {M : String → Option Chunk}, (∀ d ∈ chs, d.path ≠ p) →
      chs.foldl storeChunk M p = M p
  | [], _, _ => rfl
  | d :: rest, M, h => by
    rw [List.forall_mem_cons] at h
    rw [List.foldl_cons, foldl_storeChunk_of_ne h.2, storeChunk,
      Function.update_of_ne (Ne.symm h.1)]

/-- Of chunks at distinct paths, each is found at its path once all are stored. -/
theorem foldl_storeChunk_of_mem {c : Chunk} :
    ∀ {chs : List Chunk} {M : String → Option Chunk}, (chs.map Chunk.path).Nodup → c ∈ chs →
      chs.foldl storeChunk M c.path = some c
  | d :: rest, M, hnd, hc => by
    rw [List.map_cons, List.nodup_cons] at hnd
    rw [List.foldl_cons]
    rcases List.mem_cons.1 hc with rfl | hc
    · -- the later chunks stand at other paths
      have hother : ∀ e ∈ rest, e.path ≠ c.path := fun e he h =>
        hnd.1 (by rw [← h]; exact List.mem_map_of_mem he)
      rw [foldl_storeChunk_of_ne hother, storeChunk, Function.update_self]
    · exact foldl_storeChunk_of_mem hnd.2 hc

/-- A path holds a chunk stored at it, or what it held before. -/
theorem foldl_storeChunk_eq_some {p : String} {c : Chunk} :
    ∀ {chs : List Chunk} {M : String → Option Chunk}, chs.foldl storeChunk M p = some c →
      (c ∈ chs ∧ c.path = p) ∨ M p = some c
  | [], _, h => .inr h
  | d :: rest, M, h => by
    rw [List.foldl_cons] at h
    rcases foldl_storeChunk_eq_some h with ⟨hc, hp⟩ | h
    · exact .inl ⟨List.mem_cons_of_mem d hc, hp⟩
    · unfold storeChunk at h
      by_cases hp : p = d.path
      · subst hp
        rw [Function.update_self, Option.some.injEq] at h
        subst h
        exact .inl ⟨List.mem_cons_self, rfl⟩
      · rw [Function.update_of_ne hp] at h
        exact .inr h

/-- In the map of chunks with distinct paths, a path holds the chunk of the list at it. -/
theorem stored_eq_some_iff {chs : List Chunk} (hnd : (chs.map Chunk.path).Nodup) {p : String}
    {c : Chunk} : stored chs p = some c ↔ c ∈ chs ∧ c.path = p := by
  constructor
  · intro h
    rcases foldl_storeChunk_eq_some h with h | h
    · exact h
    · cases h
  · rintro ⟨hc, rfl⟩
    exact foldl_storeChunk_of_mem hnd hc

section Store

variable {σ : Type} {B : Bolt.Store σ} (hB : B.Laws)
include hB

/-- Storing chunks one after another, from a store that holds a map, succeeds exactly when the
catalog accepts every chunk, and the store then holds the map with each chunk at its path. -/
theorem putAll_spec {s : σ} {M : String → Option Chunk} (h : Holds B s M) :
    ∀ chs, ((putAll B s chs).2 = none ↔ ∀ ch ∈ chs, Accepted ch) ∧
      ((putAll B s chs).2 = none → Holds B (putAll B s chs).1 (chs.foldl storeChunk M)) := by
  intro chs
  induction chs generalizing s M with
  | nil => exact ⟨by simp [putAll], fun _ => h⟩
  | cons ch rest ih =>
    by_cases hc : Accepted ch
    · -- an accepted chunk is stored, and the others go on from the new store
      obtain ⟨s', hput, hs'⟩ := put_spec hB h hc
      have hstep : putAll B s (ch :: rest) = putAll B s' rest := by rw [putAll, hput]
      obtain ⟨hiff, hholds⟩ := ih hs'
      rw [hstep, List.forall_mem_cons, List.foldl_cons]
      exact ⟨hiff.trans (and_iff_right hc).symm, hholds⟩
    · -- a refused chunk stops the run
      obtain ⟨e, hput⟩ := put_refused hB h hc
      rw [putAll, hput]
      dsimp only
      simp [hc]

/-- Clearing a catalog that opened, then storing chunks of distinct paths one after another,
leaves a store holding exactly those chunks when every chunk is accepted. -/
theorem clear_putAll {bytes : List UInt8} {s : σ} (hopen : Catalog.openIn B bytes = .ok s)
    (chs : List Chunk) :
    (Catalog.clear B s).2 = none ∧
      ((putAll B (Catalog.clear B s).1 chs).2 = none ↔ ∀ ch ∈ chs, Accepted ch) ∧
      ((putAll B (Catalog.clear B s).1 chs).2 = none →
        Holds B (putAll B (Catalog.clear B s).1 chs).1 (stored chs)) := by
  obtain ⟨hc, hd⟩ := openIn_buckets hB hopen
  obtain ⟨s₁, hclear, h₁⟩ := clear_spec hB hc hd
  rw [hclear]
  exact ⟨rfl, putAll_spec hB h₁ chs⟩

end Store

/-! ## What `index` keeps true of the tree -/

/-- While `index` makes the catalog of the project at `cs`, no file stands on the way to the
catalog, and nothing new appears at the configuration paths. -/
structure KeepsProject (cs : List String) (t₀ t : Tree) : Prop where
  no_file : ∀ k < (cs ++ [".shadersig", "catalog.db"]).length, ∀ c m,
    t.lookup ((cs ++ [".shadersig", "catalog.db"]).take k) ≠ .ok (.file c m)
  first : t.lookup (cs ++ ["shadersig.yaml"]) = t₀.lookup (cs ++ ["shadersig.yaml"])
  second : (t₀.lookup (cs ++ [".shadersig", "config.yaml"])).toBool = false →
    (t.lookup (cs ++ [".shadersig", "config.yaml"])).toBool = false

/-- Making the catalog's directory keeps the project. -/
theorem keepsProject_mkdirAll {cs : List String} {t₀ t₁ : Tree}
    (h : t₀.mkdirAll (cs ++ [".shadersig"]) = .ok t₁) : KeepsProject cs t₀ t₁ where
  no_file := by
    obtain ⟨es, hes⟩ := Tree.lookup_mkdirAll h
    intro k hk c m
    have hk' : k ≤ (cs ++ [".shadersig"]).length := by simp at hk ⊢; omega
    have htake : (cs ++ [".shadersig", "catalog.db"]).take k = (cs ++ [".shadersig"]).take k := by
      rw [show cs ++ [".shadersig", "catalog.db"] = (cs ++ [".shadersig"]) ++ ["catalog.db"] by simp,
        List.take_append_of_le_length hk']
    rw [htake]
    exact Tree.no_file_within hes k hk' c m
  first := Tree.lookup_mkdirAll_of_ne (by decide) h
  second := fun hno => by
    have := Tree.lookup_mkdirAll_below_of_error (m := ["config.yaml"]) h (by simp) (by simpa using hno)
    simpa using this

/-- Writing the catalog file keeps the project. -/
theorem KeepsProject.write {cs : List String} {t₀ t : Tree} (h : KeepsProject cs t₀ t) (c : Content)
    (m : Timestamp) : KeepsProject cs t₀ (t.write (cs ++ [".shadersig", "catalog.db"]) c m) where
  no_file := Tree.no_file_before_write h.no_file
  first :=
    (Tree.lookup_write_of_ne (a := "shadersig.yaml") (b := ".shadersig") (by decide) t cs
      ["catalog.db"] [] c m).trans h.first
  second := fun hno => by
    have hwrite := Tree.lookup_write_of_ne (a := "config.yaml") (b := "catalog.db") (by decide) t
      (cs ++ [".shadersig"]) [] [] c m
    simp only [List.append_assoc, List.cons_append, List.nil_append] at hwrite
    rw [hwrite]
    exact h.second hno

/-- Below a project directory with nothing at `.shadersig`, no file stands on the way to that
directory, and there is no catalog file in it. -/
theorem fresh_catalogDir {cs : List String} {t : Tree} {es : List (String × Tree)}
    (hdir : t.lookup cs = .ok (.dir es)) (hfresh : (t.lookup (cs ++ [".shadersig"])).toBool = false) :
    (∀ k ≤ (cs ++ [".shadersig"]).length, ∀ c m,
      t.lookup ((cs ++ [".shadersig"]).take k) ≠ .ok (.file c m)) ∧
    (t.lookup ((cs ++ [".shadersig"]) ++ ["catalog.db"])).toBool = false := by
  constructor
  · intro k hk c m
    rcases Nat.lt_or_eq_of_le hk with hlt | rfl
    · -- on the way to the project directory, which is a directory
      have hk' : k ≤ cs.length := by simp at hlt; omega
      rw [List.take_append_of_le_length hk']
      exact Tree.no_file_within hdir k hk' c m
    · rw [List.take_length]
      intro hfile
      simp [hfile, Except.toBool] at hfresh
  · rw [Tree.lookup_append]
    cases h : t.lookup (cs ++ [".shadersig"]) with
    | ok u => simp [h, Except.toBool] at hfresh
    | error e => rfl

/-! ## A run of `index` -/

section Index

variable {σ : Type} (L : Libraries σ) {w : Workspace} {cs : List String}
  {es : List (String × Tree)} (st : Session)

theorem defaultApp_config (w : Workspace) : (defaultApp w).config = Config.default := rfl

theorem defaultApp_rootDir (w : Workspace) : (defaultApp w).rootDir = w.cwd := rfl

theorem plain_catalogPath (hcs : ∀ c ∈ cs, Plain c) :
    ∀ c ∈ (cs ++ [".shadersig"]) ++ ["catalog.db"], Plain c :=
  plain_append (plain_append hcs (by decide)) (by decide)

/-- The catalog of a command run in the project is at `.shadersig/catalog.db` in it. -/
theorem catalogIn_cwd (hcs : ∀ c ∈ cs, Plain c) (hcwd : w.cwd = ofComponents cs) :
    Config.default.catalogIn w.cwd = ofComponents (cs ++ [".shadersig", "catalog.db"]) := by
  rw [hcwd]
  exact catalogIn_default hcs

theorem locate_catalogPath (w : Workspace) (hcs : ∀ c ∈ cs, Plain c) :
    w.locate (ofComponents (cs ++ [".shadersig", "catalog.db"])) = cs ++ [".shadersig", "catalog.db"] :=
  w.locate_ofComponents (plain_append hcs (by decide))

/-- Rebuilding the catalog succeeds when it opens, clears and stores every chunk; the catalog
file then holds the store of the chunks, written after the cleared one. -/
theorem exec_rebuildCatalog {dbPath : String} {found : List Chunk} {st₁ : Session} {s : σ}
    (hopen : Step.exec (openCatalog L w dbPath) st = (.ok s, st₁))
    (hclear : (Catalog.clear L.store s).2 = none)
    (hput : (putAll L.store (Catalog.clear L.store s).1 found).2 = none) :
    Step.exec (rebuildCatalog L w dbPath found) st =
      (.ok (), { st₁ with tree := ((st₁.tree.write (w.locate dbPath)
        (.bytes (L.store.file (Catalog.clear L.store s).1)) w.clock).write (w.locate dbPath)
        (.bytes (L.store.file (putAll L.store (Catalog.clear L.store s).1 found).1)) w.clock) }) := by
  rcases hc : Catalog.clear L.store s with ⟨s₁, cleared⟩
  rcases hp : putAll L.store s₁ found with ⟨s₂, refused⟩
  rw [hc] at hclear hput
  rw [hp] at hput
  simp only at hclear hput
  subst hclear hput
  simp [rebuildCatalog, exec_bind, exec_within, hopen, hc, hp]

/-- A rebuild that succeeds has opened the catalog, cleared it and stored every chunk. -/
theorem rebuildCatalog_ok {dbPath : String} {found : List Chunk}
    (h : (Step.exec (rebuildCatalog L w dbPath found) st).1 = .ok ()) :
    ∃ s st₁, Step.exec (openCatalog L w dbPath) st = (.ok s, st₁) ∧
      (Catalog.clear L.store s).2 = none ∧
      (putAll L.store (Catalog.clear L.store s).1 found).2 = none := by
  rcases ho : Step.exec (openCatalog L w dbPath) st with ⟨_ | s, st₁⟩
  · simp [rebuildCatalog, exec_bind, exec_within, ho] at h
  · rcases hc : Catalog.clear L.store s with ⟨s₁, _ | e⟩
    · rcases hp : putAll L.store s₁ found with ⟨s₂, _ | ⟨ch, e⟩⟩
      · exact ⟨s, st₁, rfl, by simp [hc], by simp [hc, hp]⟩
      · simp [rebuildCatalog, exec_bind, exec_within, ho, hc, hp] at h
    · simp [rebuildCatalog, exec_bind, exec_within, ho, hc] at h

/-- `index` in the working directory scans it and rebuilds the catalog from what it found: it
succeeds exactly when the rebuild does, and leaves the tree the rebuild leaves. -/
theorem exec_indexChunks (hcs : ∀ c ∈ cs, Plain c) (hcwd : w.cwd = ofComponents cs)
    (hdir : st.tree.lookup cs = .ok (.dir es)) :
    ∃ err,
      let rebuilt := Step.exec (rebuildCatalog L w (ofComponents (cs ++ [".shadersig", "catalog.db"]))
        (scanned L.matchGlob es)) { st with stderr := err }
      (Step.exec (indexChunks L w (defaultApp w) []) st).1 = rebuilt.1 ∧
        (Step.exec (indexChunks L w (defaultApp w) []) st).2.tree = rebuilt.2.tree := by
  have hroot : w.locate w.cwd = cs := by rw [hcwd, w.locate_ofComponents hcs]
  have hscan : Scan.run ⟨Config.default.chunks.includes.getD [],
      Config.default.chunks.excludes.getD [], L.matchGlob⟩ st.tree (resolve w.cwd w.cwd) =
      .ok (Scan.walk ⟨Config.default.chunks.includes.getD [],
        Config.default.chunks.excludes.getD [], L.matchGlob⟩ "." (.dir es)) := by
    rw [hcwd, resolve_ofComponents _ hcs, Scan.run, components_ofComponents hcs, hdir]
  -- the walk's log records go to standard error only
  obtain ⟨err, herr⟩ := exec_forM_log (defaultApp w) Scan.Event.record (Scan.walk
    ⟨Config.default.chunks.includes.getD [], Config.default.chunks.excludes.getD [],
      L.matchGlob⟩ "." (.dir es)) st
  refine ⟨err, ?_⟩
  simp only [indexChunks, exec_bind, exec_currentTree, catalogIn_cwd hcs hcwd, defaultApp_rootDir,
    defaultApp_config, hroot, hdir, exec_within, hscan, exec_lift_ok, herr]
  rcases hr : Step.exec (rebuildCatalog L w (ofComponents (cs ++ [".shadersig", "catalog.db"]))
    (scanned L.matchGlob es)) { st with stderr := err } with ⟨_ | ⟨⟩, st'⟩
  · simp only [scanned] at hr
    simp [hr]
  · simp only [scanned] at hr
    simp [hr, App.log]

/-- The command line `index`, in a project without a configuration file, indexes the working
directory with the defaults. -/
theorem exec_index (hL : L.Documented) (hcs : ∀ c ∈ cs, Plain c) (hcwd : w.cwd = ofComponents cs)
    (hfirst : (st.tree.lookup (cs ++ ["shadersig.yaml"])).toBool = false)
    (hsecond : (st.tree.lookup (cs ++ [".shadersig", "config.yaml"])).toBool = false) :
    Step.exec (execute L w ["index"]) st = Step.exec (indexChunks L w (defaultApp w) []) st :=
  exec_execute_default L (d := .index) (p := ⟨[], []⟩) hcs hcwd hfirst hsecond
    (by simpa using hL.find_named .index (by simp) [])
    (hL.parse_words _ [] (by simp)) ⟨rfl, rfl, rfl, rfl⟩ rfl (hL.check_allowed _ _ rfl)

/-- After an `index` run that succeeds in a project of distinct files with plain names, the
catalog file holds a store that holds exactly the chunks scanned, and nothing new stands at the
configuration paths. -/
theorem index_stores_scanned (hL : L.Documented) {t : Tree} (hcs : ∀ c ∈ cs, Plain c)
    (hcwd : w.cwd = ofComponents cs) (hdir : t.lookup cs = .ok (.dir es))
    (hfirst : (t.lookup (cs ++ ["shadersig.yaml"])).toBool = false)
    (hsecond : (t.lookup (cs ++ [".shadersig", "config.yaml"])).toBool = false)
    (hindex : (run L w t ["index"]).exitCode = 0) :
    ∃ s, Holds L.store s (stored (scanned L.matchGlob es)) ∧
      KeepsProject cs t (run L w t ["index"]).tree ∧
      (run L w t ["index"]).tree.lookup (cs ++ [".shadersig", "catalog.db"]) =
        .ok (.file (.bytes (L.store.file s)) w.clock) := by
  have hexec := exec_index L ⟨t, "", ""⟩ hL hcs hcwd hfirst hsecond
  have htree : (run L w t ["index"]).tree =
      (Step.exec (indexChunks L w (defaultApp w) []) ⟨t, "", ""⟩).2.tree := by
    rw [run_eq, hexec]
  rw [exitCode_run_eq_zero, hexec] at hindex
  obtain ⟨err, hres, hrtree⟩ := exec_indexChunks L ⟨t, "", ""⟩ hcs hcwd hdir
  rw [hres] at hindex
  obtain ⟨s₀, st₁, hopen, hclear, hput⟩ := rebuildCatalog_ok L _ hindex
  -- the root of the tree is a directory, as the project directory lies in it
  have hroot : ∀ c m, ({ tree := t, stdout := "", stderr := err } : Session).tree ≠ .file c m := by
    rintro c m (hfile : t = _)
    have := Tree.no_file_within hdir 0 (Nat.zero_le _) c m
    simp [hfile] at this
  have hopen' : Step.exec (openCatalog L w (ofComponents ((cs ++ [".shadersig"]) ++ ["catalog.db"])))
      { tree := t, stdout := "", stderr := err } = (.ok s₀, st₁) := by
    simpa using hopen
  obtain ⟨t₁, bytes, ht₁, hbytes, rfl⟩ :=
    openCatalog_ok L (by simp) (plain_catalogPath hcs) hroot hopen'
  -- the chunks found are accepted, stand at distinct paths, and are all the store holds
  obtain ⟨-, -, hholds⟩ := clear_putAll hL.store_laws hbytes _
  refine ⟨_, hholds hput, ?_, ?_⟩
  · -- making the directory and writing the catalog file three times keep the project
    rw [htree, hrtree, exec_rebuildCatalog L _ hopen hclear hput, locate_catalogPath w hcs]
    simpa using (((keepsProject_mkdirAll ht₁).write _ _).write _ _).write _ _
  · rw [htree, hrtree, exec_rebuildCatalog L _ hopen hclear hput, locate_catalogPath w hcs]
    have hkeep := ((keepsProject_mkdirAll ht₁).write (.bytes (L.store.file s₀)) w.clock).write
      (.bytes (L.store.file (Catalog.clear L.store s₀).1)) w.clock
    simp only [List.append_assoc, List.cons_append, List.nil_append] at hkeep ⊢
    exact Tree.lookup_write hkeep.no_file

/-- On a project with nothing at `.shadersig` whose scanned chunks the catalog accepts, `index`
succeeds. -/
theorem exitCode_index_eq_zero (hL : L.Documented) {t : Tree} (hcs : ∀ c ∈ cs, Plain c)
    (hcwd : w.cwd = ofComponents cs) (hdir : t.lookup cs = .ok (.dir es))
    (hfirst : (t.lookup (cs ++ ["shadersig.yaml"])).toBool = false)
    (hsecond : (t.lookup (cs ++ [".shadersig", "config.yaml"])).toBool = false)
    (hfresh : (t.lookup (cs ++ [".shadersig"])).toBool = false)
    (hacc : ∀ ch ∈ scanned L.matchGlob es, Accepted ch) :
    (run L w t ["index"]).exitCode = 0 := by
  rw [exitCode_run_eq_zero, exec_index L ⟨t, "", ""⟩ hL hcs hcwd hfirst hsecond]
  obtain ⟨err, hres, -⟩ := exec_indexChunks L ⟨t, "", ""⟩ hcs hcwd hdir
  rw [hres]
  -- no file stands on the way to `.shadersig`, and nothing at it, so the store opens on no bytes
  obtain ⟨hno, hnone⟩ := fresh_catalogDir hdir hfresh
  obtain ⟨s₀, hs₀, -⟩ := openIn_empty hL.store_laws
  have hopen : ∃ st₁, Step.exec (openCatalog L w (ofComponents ((cs ++ [".shadersig"]) ++
      ["catalog.db"]))) ⟨t, "", err⟩ = (.ok s₀, st₁) :=
    openCatalog_fresh L (by simp) (plain_catalogPath hcs) hno hnone hs₀
  obtain ⟨st₁, hopen⟩ := hopen
  obtain ⟨hclear, hiff, -⟩ := clear_putAll hL.store_laws hs₀ (scanned L.matchGlob es)
  have hopen' : Step.exec (openCatalog L w (ofComponents (cs ++ [".shadersig", "catalog.db"])))
      ⟨t, "", err⟩ = (.ok s₀, st₁) := by
    simpa using hopen
  rw [exec_rebuildCatalog L _ hopen' hclear (hiff.2 hacc)]

end Index

/-! ## Reading the catalog back -/

section Read

variable {σ : Type} (L : Libraries σ) {w : Workspace} {cs : List String} {st₁ : Session} {s : σ}
  {M : String → Option Chunk}

/-- In the default format a report is printed as its text. -/
theorem exec_show_default (w : Workspace) (r : Report) (st : Session) :
    Step.exec ((defaultApp w).show L "" r) st = (.ok (), { st with stdout := st.stdout ++ r.text }) := by
  have hempty : "".isEmpty = true := rfl
  have hrender : r.render L.encodeYaml "text" = .ok r.text := by simp [Report.render]
  simp only [App.show, exec_bind, hempty, if_true, defaultApp_config,
    show Config.default.outputFormat = "text" from rfl, hrender, exec_lift_ok, exec_emit]

/-- The catalog file of the project, holding the file of a store that holds a map, is opened as
a store that holds the map. -/
theorem exec_existingCatalog (hB : L.store.Laws) (st : Session) (hcs : ∀ c ∈ cs, Plain c)
    (hcwd : w.cwd = ofComponents cs) {m : Timestamp}
    (hc : st.tree.lookup (cs ++ [".shadersig", "catalog.db"]) = .ok (.file (.bytes (L.store.file s)) m))
    (hs : Holds L.store s M) :
    ∃ s' t₁, Holds L.store s' M ∧
      Step.exec (existingCatalog L w (defaultApp w)) st = (.ok s', { st with tree := t₁ }) := by
  obtain ⟨s', hopen, hs'⟩ := openIn_file hB hs
  have hc' : st.tree.lookup ((cs ++ [".shadersig"]) ++ ["catalog.db"]) =
      .ok (.file (.bytes (L.store.file s)) m) := by
    simpa using hc
  obtain ⟨t₁, ht₁⟩ := openCatalog_stored L (w := w) (by simp) (plain_catalogPath hcs) hc' hopen
  refine ⟨s', t₁, hs', ?_⟩
  unfold existingCatalog
  simp only [exec_bind, exec_currentTree, defaultApp_config, defaultApp_rootDir,
    catalogIn_cwd hcs hcwd, locate_catalogPath w hcs, hc]
  simpa using ht₁

/-- Reading back, path by path, chunks that a store holds gives those chunks. -/
theorem exec_mapM_get (hs : Holds L.store s M) (st : Session) :
    ∀ chs : List Chunk, (∀ ch ∈ chs, M ch.path = some ch) →
      Step.exec ((chs.map Chunk.path).mapM fun p =>
        lift ((Catalog.get L.store s p).mapError CatalogError.message)) st = (.ok chs, st)
  | [], _ => rfl
  | ch :: rest, h => by
    rw [List.forall_mem_cons] at h
    have hhead : (Catalog.get L.store s ch.path).mapError CatalogError.message = .ok ch := by
      rw [hs.get_eq, h.1]
      rfl
    rw [List.map_cons, List.mapM_cons, exec_bind, hhead, exec_lift_ok]
    simp only [exec_bind, exec_mapM_get hs st rest h.2, exec_pure]

/-- The paths indexed under a name are those of the listed chunks that define it, in the order of
the listing. -/
theorem definitionsNamed_eq_filter (hB : L.store.Laws) (hs : Holds L.store s M) {chs : List Chunk}
    (hsorted : ByteOrdered chs) (hmem : ∀ c, c ∈ chs ↔ M c.path = some c) (n : String) :
    definitionsNamed L.store s n =
      (chs.filter fun ch => ch.definition?.map Signature.name = some n).map Chunk.path := by
  obtain ⟨hnamed, hnamed_mem⟩ := hs.definitionsNamed_spec hB n
  refine eq_of_pairwise_lt hnamed ?_ fun p => ?_
  · -- a part of a listing in byte order is in byte order
    rw [List.map_map]
    exact ((List.pairwise_map.1 hsorted).sublist List.filter_sublist).map _ fun _ _ h => h
  · rw [hnamed_mem, List.mem_map]
    constructor
    · rintro ⟨c, d, hc, hdef, hn⟩
      refine ⟨c, List.mem_filter.2 ⟨(hmem c).2 ?_, ?_⟩, (hs.accepted p c hc).1⟩
      · rw [(hs.accepted p c hc).1]
        exact hc
      · simp [Chunk.definition?, hdef, Utf8.bytes_injective hn]
    · rintro ⟨c, hc, rfl⟩
      obtain ⟨hc, hn⟩ := List.mem_filter.1 hc
      cases hdef : c.definition with
      | error e => simp [Chunk.definition?, hdef] at hn
      | ok d =>
        simp only [Chunk.definition?, hdef, Option.map_some, Option.some.injEq,
          decide_eq_true_eq] at hn
        exact ⟨c, d, (hmem c).1 hc, hdef, by rw [hn]⟩

/-- `deps` prints the report of the listed chunks; with `strict` it then fails when some
prototype has no provider, with their number. -/
theorem exec_resolveDeps {st : Session}
    (hc : Step.exec (existingCatalog L w (defaultApp w)) st = (.ok s, st₁))
    {chs : List Chunk} (hlist : Catalog.list L.store s = .ok chs) (strict : Bool) :
    ∃ err, Step.exec (resolveDeps L w (defaultApp w) "" strict) st =
      (if strict ∧ 0 < unresolvedCount chs then
        .error ⟨Decimal.ofNat (unresolvedCount chs) ++ " unresolved prototype(s)", false⟩
      else .ok (),
      { st₁ with stdout := st₁.stdout ++ depsReport chs, stderr := err }) := by
  obtain ⟨err, herr⟩ := exec_forM_log (defaultApp w) (fun l : Link => (⟨.warn, "unresolved prototype",
    [("chunk", .text l.source), ("prototype", .text l.prototype.render)]⟩ : LogRecord))
    ((Link.resolve chs).filter fun l => !l.resolved) st₁
  have hcond : (strict && !((Link.resolve chs).filter fun l => !l.resolved).isEmpty) = true ↔
      (strict = true ∧ 0 < unresolvedCount chs) := by
    rw [← length_unresolved_resolve]
    simp [Nat.pos_iff_ne_zero]
  refine ⟨err, ?_⟩
  unfold resolveDeps
  simp only [exec_bind, hc, hlist, exec_within, exec_lift_ok, herr, exec_show_default, Report.text,
    join_line_resolve, length_unresolved_resolve]
  by_cases hfail : strict = true ∧ 0 < unresolvedCount chs
  · rw [if_pos (hcond.2 hfail), if_pos hfail, exec_fail]
  · rw [if_neg (mt hcond.1 hfail), if_neg hfail, exec_pure]

/-- `lookup` of a name fails when no listed chunk defines it, and else prints the chunks that
do. -/
theorem exec_lookupDefinition (hB : L.store.Laws) {st : Session}
    (hc : Step.exec (existingCatalog L w (defaultApp w)) st = (.ok s, st₁)) (hs : Holds L.store s M)
    {chs : List Chunk} (hsorted : ByteOrdered chs) (hmem : ∀ c, c ∈ chs ↔ M c.path = some c)
    (n : String) :
    Step.exec (lookupDefinition L w (defaultApp w) "" n) st =
      if ∃ ch ∈ chs, ch.definition?.map Signature.name = some n then
        (.ok (), { st₁ with stdout := st₁.stdout ++ lookupReport chs n })
      else (.error ⟨"no chunk defines " ++ Quoted.text n, false⟩, st₁) := by
  -- the chunks found are those of the listing that define the name, read back at their paths
  have hfound := exec_mapM_get L hs st₁ (chs.filter fun ch => ch.definition?.map Signature.name = some n)
    fun ch hch => by
      have hch := (hmem ch).1 (List.mem_of_mem_filter hch)
      exact hch
  unfold lookupDefinition
  simp only [exec_bind, hc, definitionsNamed_eq_filter L hB hs hsorted hmem n]
  by_cases hdef : ∃ ch ∈ chs, ch.definition?.map Signature.name = some n
  · have hne : ((chs.filter fun ch => ch.definition?.map Signature.name = some n).map
        Chunk.path).isEmpty = false := by
      obtain ⟨ch, hch, hn⟩ := hdef
      simp only [List.isEmpty_eq_false_iff, ne_eq, List.map_eq_nil_iff, List.filter_eq_nil_iff]
      exact fun h => h ch hch (by simpa using hn)
    rw [if_pos hdef, hne, if_neg Bool.false_ne_true]
    simp only [exec_bind, hfound, exec_show_default, text_chunks_filter]
  · have he : ((chs.filter fun ch => ch.definition?.map Signature.name = some n).map
        Chunk.path).isEmpty = true := by
      simp only [List.isEmpty_iff, List.map_eq_nil_iff, List.filter_eq_nil_iff]
      exact fun ch hch hn => hdef ⟨ch, hch, by simpa using hn⟩
    rw [if_neg hdef, he, if_pos rfl, exec_fail]

end Read

/-! ## Commands run on a stored catalog -/

section Stored

variable {σ : Type} {L : Libraries σ} (hL : L.Documented) {w : Workspace} {t : Tree}
  {cs : List String} {s : σ} {M : String → Option Chunk} {m : Timestamp}
  (hcs : ∀ c ∈ cs, Plain c) (hcwd : w.cwd = ofComponents cs)
  (hfirst : (t.lookup (cs ++ ["shadersig.yaml"])).toBool = false)
  (hsecond : (t.lookup (cs ++ [".shadersig", "config.yaml"])).toBool = false)
  (hc : t.lookup (cs ++ [".shadersig", "catalog.db"]) = .ok (.file (.bytes (L.store.file s)) m))
  (hs : Holds L.store s M)
include hL hcs hcwd hfirst hsecond hc hs

/-- `deps`, given `--strict` when `strict`, prints the report of the chunks of the stored
catalog in increasing byte order of path; it fails exactly when strict and some prototype has no
provider, with their number. -/
theorem run_deps (strict : Bool) :
    ∃ chs, ByteOrdered chs ∧ (∀ c, c ∈ chs ↔ M c.path = some c) ∧
      (run L w t ("deps" :: if strict then ["--strict"] else [])).stdout = depsReport chs ∧
      (run L w t ("deps" :: if strict then ["--strict"] else [])).failure =
        if strict ∧ 0 < unresolvedCount chs then
          some ⟨Decimal.ofNat (unresolvedCount chs) ++ " unresolved prototype(s)", false⟩
        else none := by
  have hfind := hL.find_named .deps (by simp)
  simp only [Cmd.name_deps] at hfind
  have hexec : Step.exec (execute L w ("deps" :: if strict then ["--strict"] else [])) ⟨t, "", ""⟩ =
      Step.exec (resolveDeps L w (defaultApp w) "" strict) ⟨t, "", ""⟩ := by
    cases strict
    · exact exec_execute_default L (p := ⟨[], []⟩) hcs hcwd hfirst hsecond (hfind _)
        (hL.parse_words _ [] (by simp)) ⟨rfl, rfl, rfl, rfl⟩ rfl (hL.check_allowed _ _ rfl)
    · exact exec_execute_default L (p := ⟨[("strict", "true")], []⟩) hcs hcwd hfirst hsecond
        (hfind _) hL.parse_strict (by decide) rfl (hL.check_allowed _ _ rfl)
  obtain ⟨s', t₁, hs', hopen⟩ := exec_existingCatalog L hL.store_laws ⟨t, "", ""⟩ hcs hcwd hc hs
  obtain ⟨chs, hlist, hsorted, hmem⟩ := hs'.list_eq hL.store_laws
  obtain ⟨err, hdeps⟩ := exec_resolveDeps L hopen hlist strict
  refine ⟨chs, hsorted, hmem, ?_⟩
  simp only [run_eq, hexec, hdeps]
  by_cases hfail : strict = true ∧ 0 < unresolvedCount chs
  · simp [hfail]
  · simp [hfail]

/-- `lookup` of a name not taken for a flag succeeds exactly when a chunk of the stored catalog
defines it, and then prints those chunks in increasing byte order of path. -/
theorem run_lookup {n : String} (hn : n.startsWith "-" = false) :
    ∃ chs, ByteOrdered chs ∧ (∀ c, c ∈ chs ↔ M c.path = some c) ∧
      ((run L w t ["lookup", n]).failure = none ↔
        ∃ ch ∈ chs, ch.definition?.map Signature.name = some n) ∧
      ((run L w t ["lookup", n]).failure = none →
        (run L w t ["lookup", n]).stdout = lookupReport chs n) := by
  have hfind := hL.find_named .lookup (by simp) [n]
  simp only [Cmd.name_lookup] at hfind
  have hexec : Step.exec (execute L w ["lookup", n]) ⟨t, "", ""⟩ =
      Step.exec (lookupDefinition L w (defaultApp w) "" n) ⟨t, "", ""⟩ :=
    exec_execute_default L (d := .lookup) (p := ⟨[], [n]⟩) hcs hcwd hfirst hsecond hfind
      (hL.parse_words _ [n] (by simpa using hn)) ⟨rfl, rfl, rfl, rfl⟩ rfl
      (hL.check_allowed _ _ rfl)
  obtain ⟨s', t₁, hs', hopen⟩ := exec_existingCatalog L hL.store_laws ⟨t, "", ""⟩ hcs hcwd hc hs
  obtain ⟨chs, -, hsorted, hmem⟩ := hs'.list_eq hL.store_laws
  refine ⟨chs, hsorted, hmem, ?_⟩
  simp only [run_eq, hexec, exec_lookupDefinition L hL.store_laws hopen hs' hsorted hmem n]
  by_cases hdef : ∃ ch ∈ chs, ch.definition?.map Signature.name = some n
  · rw [if_pos hdef]
    exact ⟨⟨fun _ => hdef, fun _ => rfl⟩, fun _ => String.empty_append⟩
  · rw [if_neg hdef]
    exact ⟨⟨fun h => by simp at h, fun h => absurd h hdef⟩, fun h => by simp at h⟩

end Stored

/-! ## Indexing, then reading the catalog -/

/-- A strictly byte-ordered listing of the chunks of distinct paths stored by `index` is an
ordering of the chunks scanned. -/
theorem perm_scanned {chs found : List Chunk} (hnd : (found.map Chunk.path).Nodup)
    (hsorted : ByteOrdered chs) (hmem : ∀ c, c ∈ chs ↔ stored found c.path = some c) :
    chs.Perm found := by
  refine (List.perm_ext_iff_of_nodup (nodup_of_pairwise_lt hsorted) (hnd.of_map _)).2 fun c => ?_
  rw [hmem, stored_eq_some_iff hnd]
  simp

/-- The empty project `/p` has no chunks to scan. -/
theorem scanned_emptyProject : scanned Glob.isMatch [] = [] := by
  simp [scanned, Scan.walk, Scan.walkEntries, Scan.chunks]

/-- `index` succeeds in the empty project `/p`. -/
theorem exitCode_index_emptyProject :
    (run Libraries.standard ⟨"/p", [], ⟨0⟩⟩ (.dir [("p", .dir [])]) ["index"]).exitCode = 0 := by
  have hdir : (Tree.dir [("p", .dir [])]).lookup ["p"] = .ok (.dir []) := rfl
  exact exitCode_index_eq_zero Libraries.standard Libraries.standard_documented (by decide)
    (by decide) hdir (by decide) (by decide) (by decide)
    (by simp [Libraries.standard, scanned_emptyProject])

/-- `lookup --help` prints the help of `lookup` and succeeds, whatever the tree holds. -/
theorem exitCode_lookup_help (w : Workspace) (t : Tree) :
    (run Libraries.standard w t ["lookup", "--help"]).exitCode = 0 ∧
      (run Libraries.standard w t ["lookup", "--help"]).stdout = Cmd.lookup.helpText := by
  have hfind : Cmd.find ["lookup", "--help"] = .ok (.lookup, ["--help"]) := by
    simpa using Cmd.find_named (d := .lookup) (by simp) ["--help"]
  have hexec : Step.exec (execute Libraries.standard w ["lookup", "--help"]) ⟨t, "", ""⟩ =
      (.ok (), ⟨t, Cmd.lookup.helpText, ""⟩) := by
    simp only [execute, Libraries.standard, exec_bind, hfind, exec_lift_ok, Flags.parse_help_lookup]
    rfl
  rw [exitCode_run_eq_zero, run_eq, hexec]
  exact ⟨rfl, rfl⟩

end ShaderHeaders.Cli
