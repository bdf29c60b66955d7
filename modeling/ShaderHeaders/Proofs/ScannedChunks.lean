import Mathlib
import ShaderHeaders.Proofs.FileTree
import ShaderHeaders.Glob

/-!
# The chunks a scan finds

A scan walks the tree below its root, directory by directory, and keeps the files that its
selection takes. This module says which files those are, and in which order they come, with no
walk in sight:

* `Scan.Selection.Takes`: a file is taken when an include pattern matches its path relative to
  the root, no exclude pattern matches it, and no exclude pattern matches the path of a
  directory on its way, with `/` after it;
* `Scan.run_chunks`: scanning a directory gives one chunk for each file taken, read from the
  file's text and keeping its time, in the order the walk visits the files (`Tree.leaves`);
* `Scan.run_chunks_ordered`: when every directory lists its entries in increasing order of
  name (`Tree.Sorted`), the chunks come in increasing order of their paths compared name by
  name (`Path.ComponentLt`), and in increasing order of their paths as texts when no name
  holds a character below `/`;
* `Scan.run_chunks_unsorted`: a directory `a` is walked before a file `a.glsl` beside it,
  though `a.glsl` comes first as a text.
-/

namespace ShaderHeaders

namespace Tree

/-- A file of a tree: the names on its way from the tree's root, what it holds and when it was
last changed. -/
structure Leaf where
  names : List String
  content : Content
  modTime : Timestamp

/-- A file seen from one directory up, through the entry `name`. -/
def Leaf.under (name : String) (f : Leaf) : Leaf := { f with names := name :: f.names }

mutual

/-- The files of a tree with what they hold, in the order a walk visits them. -/
def leaves : Tree → List Leaf
  | .file c m => [⟨[], c, m⟩]
  | .dir es => entryLeaves es

/-- The files below the entries of a directory. -/
def entryLeaves : List (String × Tree) → List Leaf
  | [] => []
  | (name, .dir es) :: rest => (entryLeaves es).map (Leaf.under name) ++ entryLeaves rest
  | (name, .file c m) :: rest => ⟨[name], c, m⟩ :: entryLeaves rest

end

/-- The leaves of a directory are its files, with what they hold. -/
theorem map_names_entryLeaves : ∀ es : List (String × Tree),
    (entryLeaves es).map (·.names) = entryFiles es
  | [] => by rw [entryLeaves, entryFiles, List.map_nil]
  | (name, .dir es) :: rest => by
    rw [entryLeaves, entryFiles, List.map_append, List.map_map, ← map_names_entryLeaves es,
      List.map_map, map_names_entryLeaves rest]
    rfl
  | (name, .file c m) :: rest => by
    rw [entryLeaves, entryFiles, List.map_cons, map_names_entryLeaves rest]

/-- The files below a directory, each on its way from one of its entries. -/
theorem ne_nil_of_mem_entryLeaves : ∀ {es : List (String × Tree)} {f : Leaf},
    f ∈ entryLeaves es → f.names ≠ []
  | [], _, h => by simp [entryLeaves] at h
  | (name, .dir es) :: rest, f, h => by
    rw [entryLeaves, List.mem_append, List.mem_map] at h
    rcases h with ⟨g, -, rfl⟩ | h
    · exact List.cons_ne_nil _ _
    · exact ne_nil_of_mem_entryLeaves h
  | (name, .file c m) :: rest, f, h => by
    rw [entryLeaves, List.mem_cons] at h
    rcases h with rfl | h
    · exact List.cons_ne_nil _ _
    · exact ne_nil_of_mem_entryLeaves h

mutual

/-- Every directory of the tree lists its entries in strictly increasing order of name, as a
file system lists them to a walk. -/
def Sorted : Tree → Prop
  | .file _ _ => True
  | .dir es => EntriesSorted es

/-- The entries of a directory are in strictly increasing order of name, and each is sorted. -/
def EntriesSorted : List (String × Tree) → Prop
  | [] => True
  | (name, t) :: rest => (∀ e ∈ rest, name < e.1) ∧ t.Sorted ∧ EntriesSorted rest

end

/-- A file below the entries of a directory starts its way at one of them. -/
theorem exists_head_of_mem_entryFiles : ∀ {es : List (String × Tree)} {ns : List String},
    ns ∈ entryFiles es → ∃ e ∈ es, ns.head? = some e.1
  | [], _, h => by simp [entryFiles] at h
  | (name, .dir es) :: rest, ns, h => by
    rw [entryFiles, List.mem_append, List.mem_map] at h
    rcases h with ⟨ms, -, rfl⟩ | h
    · exact ⟨(name, .dir es), List.mem_cons_self .., rfl⟩
    · obtain ⟨e, he, hns⟩ := exists_head_of_mem_entryFiles h
      exact ⟨e, List.mem_cons_of_mem _ he, hns⟩
  | (name, .file c m) :: rest, ns, h => by
    rw [entryFiles, List.mem_cons] at h
    rcases h with rfl | h
    · exact ⟨(name, .file c m), List.mem_cons_self .., rfl⟩
    · obtain ⟨e, he, hns⟩ := exists_head_of_mem_entryFiles h
      exact ⟨e, List.mem_cons_of_mem _ he, hns⟩

/-- A path below an entry comes before every path below a later entry. -/
theorem lex_of_lt_head {name : String} {rest : List (String × Tree)}
    (hlt : ∀ e ∈ rest, name < e.1) (ns : List String) {ms : List String}
    (hms : ms ∈ entryFiles rest) : List.Lex (· < ·) (name :: ns) ms := by
  obtain ⟨e, he, hhead⟩ := exists_head_of_mem_entryFiles hms
  obtain ⟨m, ms', rfl⟩ := List.exists_cons_of_ne_nil (ne_nil_of_mem_entryFiles hms)
  rw [List.head?_cons, Option.some.injEq] at hhead
  exact .rel (hhead ▸ hlt e he)

/-- The files of a sorted directory come in increasing order of their names, compared one
name after another. -/
theorem pairwise_lex_entryFiles : ∀ {es : List (String × Tree)}, EntriesSorted es →
    (entryFiles es).Pairwise (List.Lex (· < ·))
  | [], _ => by simp [entryFiles]
  | (name, .dir es) :: rest, ⟨hlt, hdir, hrest⟩ => by
    rw [entryFiles, List.pairwise_append, List.pairwise_map]
    refine ⟨(pairwise_lex_entryFiles hdir).imp List.Lex.cons, pairwise_lex_entryFiles hrest, ?_⟩
    rintro _ hns ms hms
    obtain ⟨ns, -, rfl⟩ := List.mem_map.1 hns
    exact lex_of_lt_head hlt ns hms
  | (name, .file c m) :: rest, ⟨hlt, _, hrest⟩ => by
    rw [entryFiles, List.pairwise_cons]
    exact ⟨fun ms hms => lex_of_lt_head hlt [] hms, pairwise_lex_entryFiles hrest⟩

end Tree

namespace Path

/-- Paths compared name by name: the first name where they differ decides, and a path comes
before the paths below it. -/
def ComponentLt (p q : String) : Prop := List.Lex (· < ·) (parts p) (parts q)

/-- A prefix that is less stays less whatever follows, as long as what follows it is nothing
or a `/` and the other side holds no character up to `/`. -/
theorem lex_append_of_lex {a b x y : List Char} (h : List.Lex (· < ·) a b)
    (hb : ∀ c ∈ b, '/' < c) (hx : x = [] ∨ x.head? = some '/') :
    List.Lex (· < ·) (a ++ x) (b ++ y) := by
  induction h with
  | @nil c b =>
    rcases hx with rfl | hx
    · exact .nil
    · obtain ⟨d, x', rfl⟩ := List.exists_cons_of_ne_nil (show x ≠ [] by rintro rfl; simp at hx)
      rw [List.head?_cons, Option.some.injEq] at hx
      exact .rel (hx ▸ hb c (List.mem_cons_self ..))
  | cons _ ih => exact .cons (ih fun c hc => hb c (List.mem_cons_of_mem _ hc))
  | rel hlt => exact .rel hlt

/-- The text of names joined by `/` is the first name, then nothing or a `/`. -/
theorem toList_intercalate_cons (n : String) (ns : List String) :
    ∃ x, ("/".intercalate (n :: ns)).toList = n.toList ++ x ∧ (x = [] ∨ x.head? = some '/') := by
  cases ns with
  | nil => exact ⟨[], by simp [String.intercalate_singleton], .inl rfl⟩
  | cons m ms =>
    refine ⟨'/' :: ("/".intercalate (m :: ms)).toList, ?_, .inr rfl⟩
    rw [String.intercalate_cons_of_ne_nil (List.cons_ne_nil _ _)]
    simp [show "/".toList = ['/'] from rfl]

/-- When no name holds a character up to `/`, names compared one after another are in the
order of their paths as texts. -/
theorem intercalate_lt_of_lex {ns ms : List String} (h : List.Lex (· < ·) ns ms)
    (hms : ∀ m ∈ ms, m ≠ "" ∧ ∀ c ∈ m.toList, '/' < c) :
    "/".intercalate ns < "/".intercalate ms := by
  induction h with
  | @nil m ms =>
    obtain ⟨y, hy, -⟩ := toList_intercalate_cons m ms
    obtain ⟨c, cs, hc⟩ := List.exists_cons_of_ne_nil
      (String.toList_eq_nil_iff.not.2 (hms m (List.mem_cons_self ..)).1)
    rw [String.lt_iff_toList_lt, String.intercalate_nil, hy, hc]
    exact .nil
  | @cons n ns ms hlex ih =>
    have hms' : ms ≠ [] := by rintro rfl; cases hlex
    have ih' := ih fun m hm => hms m (List.mem_cons_of_mem _ hm)
    rw [String.intercalate_cons_of_ne_nil hms']
    cases ns with
    | nil =>
      -- the shorter path is a proper prefix of the longer
      rw [String.intercalate_singleton, String.lt_iff_toList_lt]
      have hprefix : n.toList ++ [] < n.toList ++ '/' :: ("/".intercalate ms).toList :=
        List.append_left_lt (List.nil_lt_cons _ _)
      simpa [show "/".toList = ['/'] from rfl] using hprefix
    | cons n' ns =>
      rw [String.intercalate_cons_of_ne_nil (List.cons_ne_nil _ _), String.lt_iff_toList_lt]
      have hrest : (n.toList ++ "/".toList) ++ ("/".intercalate (n' :: ns)).toList <
          (n.toList ++ "/".toList) ++ ("/".intercalate ms).toList :=
        List.append_left_lt (String.lt_iff_toList_lt.1 ih')
      simpa only [String.toList_append] using hrest
  | @rel n ns m ms hlt =>
    obtain ⟨x, hx, hxs⟩ := toList_intercalate_cons n ns
    obtain ⟨y, hy, -⟩ := toList_intercalate_cons m ms
    rw [String.lt_iff_toList_lt, hx, hy]
    exact lex_append_of_lex hlt (hms m (List.mem_cons_self ..)).2 hxs

end Path

namespace Scan

namespace Selection

variable (s : Selection)

/-- A selection takes the file whose path relative to the root is `"/".intercalate ns`: some
include pattern matches that path, no exclude pattern matches it, and no exclude pattern matches
the path of a directory on its way below the root, followed by `/`. -/
def Takes (ns : List String) : Prop :=
  (∃ p ∈ s.includePatterns, s.isMatch p ("/".intercalate ns) = true) ∧
    (∀ p ∈ s.excludes, s.isMatch p ("/".intercalate ns) = false) ∧
    ∀ k < ns.length, 0 < k → ∀ p ∈ s.excludes,
      s.isMatch p ("/".intercalate (ns.take k) ++ "/") = false

instance (ns : List String) : Decidable (s.Takes ns) :=
  inferInstanceAs (Decidable (_ ∧ _ ∧ ∀ k < ns.length, _))

/-- What a walk from the relative path `rel` decides about the file at names `ns` below it:
the file's path, and each directory's path on the way, as the walk spells them. -/
def TakesFrom (rel : String) (ns : List String) : Prop :=
  s.included (ns.foldl child rel) = true ∧ s.excluded (ns.foldl child rel) = false ∧
    ∀ k < ns.length, 0 < k → s.excluded ((ns.take k).foldl child rel ++ "/") = false

instance (rel : String) (ns : List String) : Decidable (s.TakesFrom rel ns) :=
  inferInstanceAs (Decidable (_ ∧ _ ∧ ∀ k < ns.length, _))

theorem takesFrom_singleton (rel name : String) :
    s.TakesFrom rel [name] ↔
      s.included (child rel name) = true ∧ s.excluded (child rel name) = false := by
  simp only [TakesFrom, List.foldl_cons, List.foldl_nil, List.length_singleton]
  constructor
  · exact fun h => ⟨h.1, h.2.1⟩
  · exact fun h => ⟨h.1, h.2, fun k hk hk' => by omega⟩

/-- A file below an entry is taken when the entry's directory is not excluded and the file is
taken from there. -/
theorem takesFrom_cons (rel name : String) {ns : List String} (hns : ns ≠ []) :
    s.TakesFrom rel (name :: ns) ↔
      s.excluded (child rel name ++ "/") = false ∧ s.TakesFrom (child rel name) ns := by
  have hlen : 0 < ns.length := List.length_pos_iff.2 hns
  simp only [TakesFrom, List.foldl_cons, List.length_cons]
  constructor
  · rintro ⟨hin, hex, hdirs⟩
    refine ⟨by simpa using hdirs 1 (by omega) (by omega), hin, hex, fun k hk hk' => ?_⟩
    simpa using hdirs (k + 1) (by omega) (by omega)
  · rintro ⟨hdir, hin, hex, hdirs⟩
    refine ⟨hin, hex, fun k hk hk' => ?_⟩
    -- the first directory is the entry itself, the others lie below it
    obtain ⟨j, rfl⟩ : ∃ j, k = j + 1 := ⟨k - 1, by omega⟩
    cases j with
    | zero => simpa using hdir
    | succ j => simpa using hdirs (j + 1) (by omega) (by omega)

/-- From the root, the walk spells a path as the names joined by `/`. -/
theorem takesFrom_dot_iff {ns : List String} (hns : ns ≠ []) (hdot : ns.head? ≠ some ".") :
    s.TakesFrom "." ns ↔ s.Takes ns := by
  obtain ⟨n, ns', rfl⟩ := List.exists_cons_of_ne_nil hns
  have hn : n ≠ "." := fun h => hdot (by rw [h]; rfl)
  have hpath : ∀ k, 0 < k → ((n :: ns').take k).foldl child "." =
      "/".intercalate ((n :: ns').take k) := by
    intro k hk
    obtain ⟨j, rfl⟩ : ∃ j, k = j + 1 := ⟨k - 1, by omega⟩
    rw [List.take_succ_cons, foldl_child_dot hn]
  have hfull := hpath (ns'.length + 1) (by omega)
  rw [List.take_of_length_le (by simp)] at hfull
  simp only [TakesFrom, Takes, hfull, included, excluded, List.any_eq_true,
    List.any_eq_false, Bool.not_eq_true]
  constructor
  · rintro ⟨hin, hex, hdirs⟩
    exact ⟨hin, hex, fun k hk hk' p hp => by simpa [hpath k hk'] using hdirs k hk hk' p hp⟩
  · rintro ⟨hin, hex, hdirs⟩
    exact ⟨hin, hex, fun k hk hk' p hp => by simpa [hpath k hk'] using hdirs k hk hk' p hp⟩

end Selection

variable (s : Selection)

/-- The chunk a walk from `rel` makes of a file below it, if it takes the file. -/
def chunkFrom (rel : String) (f : Tree.Leaf) : Option Chunk :=
  if s.TakesFrom rel f.names then
    some (Chunk.extract (f.names.foldl child rel) f.modTime f.content.text)
  else none

theorem chunkFrom_under (rel name : String) {f : Tree.Leaf} (hf : f.names ≠ [])
    (hdir : s.excluded (child rel name ++ "/") = false) :
    chunkFrom s rel (f.under name) = chunkFrom s (child rel name) f := by
  simp only [chunkFrom, Tree.Leaf.under, s.takesFrom_cons rel name hf, hdir, true_and,
    List.foldl_cons]

theorem chunkFrom_under_of_excluded (rel name : String) {f : Tree.Leaf} (hf : f.names ≠ [])
    (hdir : s.excluded (child rel name ++ "/") = true) :
    chunkFrom s rel (f.under name) = none := by
  simp [chunkFrom, Tree.Leaf.under, s.takesFrom_cons rel name hf, hdir]

/-- The chunks of a walk over the entries of a directory are the files below it that the walk
takes, in the order of the files. -/
theorem chunks_walkEntries : ∀ (es : List (String × Tree)) (rel : String),
    chunks (walkEntries s rel es) = (Tree.entryLeaves es).filterMap (chunkFrom s rel)
  | [], rel => by simp [walkEntries, Tree.entryLeaves]
  | (name, .dir es) :: rest, rel => by
    rw [walkEntries, Tree.entryLeaves, chunks_append, List.filterMap_append,
      chunks_walkEntries rest rel, List.filterMap_map]
    congr 1
    cases hdir : s.excluded (child rel name ++ "/")
    · -- the walk goes down into the directory
      rw [if_neg (by simp), chunks_walkEntries es (child rel name)]
      refine List.filterMap_congr fun f hf => ?_
      exact (chunkFrom_under s rel name (Tree.ne_nil_of_mem_entryLeaves hf) hdir).symm
    · -- the directory is skipped with all it holds
      rw [if_pos rfl]
      refine (List.filterMap_eq_nil_iff.2 fun f hf => ?_).symm
      exact chunkFrom_under_of_excluded s rel name (Tree.ne_nil_of_mem_entryLeaves hf) hdir
  | (name, .file c m) :: rest, rel => by
    rw [walkEntries, Tree.entryLeaves, chunks_append, chunks_walkEntries rest rel,
      List.filterMap_cons]
    simp only [fileEvent, chunkFrom, s.takesFrom_singleton, List.foldl_cons, List.foldl_nil,
      Bool.and_eq_true, Bool.not_eq_true']
    split <;> simp [chunks]

/-- Scanning a directory gives one chunk for each file that the selection takes, in the order
the walk visits the files: the chunk of the file's text at its path relative to the root, with
the file's time. The root's own entries are not named `.`, as no directory's are. -/
theorem run_chunks {t : Tree} {root : String} {es : List (String × Tree)}
    (hroot : t.lookup (Path.components root) = .ok (.dir es)) (hdot : ∀ e ∈ es, e.1 ≠ ".") :
    (run s t root).map chunks = .ok ((Tree.dir es).leaves.filterMap fun f =>
      if s.Takes f.names then
        some (Chunk.extract ("/".intercalate f.names) f.modTime f.content.text)
      else none) := by
  rw [run, hroot, Except.map, walk, chunks_walkEntries, Tree.leaves]
  congr 1
  refine List.filterMap_congr fun f hf => ?_
  have hne := Tree.ne_nil_of_mem_entryLeaves hf
  -- the first name of a file is the name of a root entry, so it is not `.`
  obtain ⟨e, he, hhead⟩ := Tree.exists_head_of_mem_entryFiles
    (Tree.map_names_entryLeaves es ▸ List.mem_map_of_mem hf)
  have hdot' : f.names.head? ≠ some "." := by
    rw [hhead]
    exact fun h => hdot e he (Option.some.inj h)
  obtain ⟨n, ns, hns⟩ := List.exists_cons_of_ne_nil hne
  have hpath : f.names.foldl child "." = "/".intercalate f.names := by
    rw [hns]
    exact foldl_child_dot (fun h => hdot' (by rw [hns, h]; rfl)) ns
  simp only [chunkFrom, s.takesFrom_dot_iff hne hdot', hpath]

/-- The entries of a root with a directory `a` holding a file `b.glsl`, beside a file
`a.glsl`. -/
def dirBesideFile : List (String × Tree) :=
  [("a", .dir [("b.glsl", .file (.bytes []) ⟨0⟩)]), ("a.glsl", .file (.bytes []) ⟨0⟩)]

theorem lookup_dirBesideFile :
    (Tree.dir dirBesideFile).lookup (Path.components "/") = .ok (.dir dirBesideFile) := by
  cbv

theorem run_chunks_dirBesideFile :
    (Tree.dir dirBesideFile).lookup (Path.components "/") = .ok (.dir dirBesideFile) ∧
      (∀ e ∈ dirBesideFile, e.1 ≠ ".") ∧
      (run ⟨[], ["a/"], Glob.isMatch⟩ (.dir dirBesideFile) "/").map chunks =
        .ok ((Tree.dir dirBesideFile).leaves.filterMap fun f =>
          if Selection.Takes ⟨[], ["a/"], Glob.isMatch⟩ f.names then
            some (Chunk.extract ("/".intercalate f.names) f.modTime f.content.text)
          else none) :=
  ⟨lookup_dirBesideFile, by decide, run_chunks ⟨[], ["a/"], Glob.isMatch⟩ lookup_dirBesideFile (by decide)⟩

/-- Scanning a directory whose directories list their entries in increasing order of name gives
its chunks in increasing order of their paths compared name by name; and in increasing order of
their paths as texts when no name holds a character below `/`. -/
theorem run_chunks_ordered {t : Tree} {root : String} {es : List (String × Tree)}
    (hroot : t.lookup (Path.components root) = .ok (.dir es)) (hsorted : (Tree.dir es).Sorted)
    (hplain : ∀ ns ∈ (Tree.dir es).files, ∀ n ∈ ns, Path.Plain n) :
    ∃ evs, run s t root = .ok evs ∧
      ((chunks evs).map Chunk.path).Pairwise Path.ComponentLt ∧
      ((∀ ns ∈ (Tree.dir es).files, ∀ n ∈ ns, ∀ c ∈ n.toList, '/' ≤ c) →
        ((chunks evs).map Chunk.path).Pairwise (· < ·)) := by
  refine ⟨walk s "." (.dir es), by rw [run, hroot], ?_⟩
  -- the chunks stand at the paths of some of the files, in the order of the files
  have hsub := paths_chunks_walk_sublist s "." (.dir es)
  have hpaths : (Tree.dir es).files.map (·.foldl child ".") =
      (Tree.dir es).files.map ("/".intercalate ·) := by
    refine List.map_congr_left fun ns hns => ?_
    obtain ⟨n, ns', rfl⟩ := List.exists_cons_of_ne_nil (Tree.ne_nil_of_mem_entryFiles hns)
    exact foldl_child_dot (hplain _ hns n (List.mem_cons_self ..)).2.1 ns'
  rw [hpaths] at hsub
  have hlex : (Tree.dir es).files.Pairwise (List.Lex (· < ·)) := by
    rw [Tree.Sorted] at hsorted
    exact Tree.pairwise_lex_entryFiles hsorted
  refine ⟨(List.pairwise_map.2 (hlex.imp_of_mem fun hns hms h => ?_)).sublist hsub,
    fun hchars => (List.pairwise_map.2 (hlex.imp_of_mem fun hns hms h => ?_)).sublist hsub⟩
  · -- with no `/` inside a name, the names can be read back from the path
    rw [Path.ComponentLt,
      Path.parts_intercalate (Tree.ne_nil_of_mem_entryFiles hns) fun n hn => (hplain _ hns n hn).2.2.2,
      Path.parts_intercalate (Tree.ne_nil_of_mem_entryFiles hms) fun n hn => (hplain _ hms n hn).2.2.2]
    exact h
  · refine Path.intercalate_lt_of_lex h fun m hm => ⟨(hplain _ hms m hm).1, fun c hc => ?_⟩
    exact lt_of_le_of_ne (hchars _ hms m hm c hc) fun e => (hplain _ hms m hm).2.2.2 (e ▸ hc)

theorem run_chunks_ordered_dirBesideFile :
    (Tree.dir dirBesideFile).lookup (Path.components "/") = .ok (.dir dirBesideFile) ∧
      (Tree.dir dirBesideFile).Sorted ∧
      (∀ ns ∈ (Tree.dir dirBesideFile).files, ∀ n ∈ ns, Path.Plain n) ∧
      ∃ evs, run ⟨[], [], Glob.isMatch⟩ (.dir dirBesideFile) "/" = .ok evs ∧
        ((chunks evs).map Chunk.path).Pairwise Path.ComponentLt ∧
        ((∀ ns ∈ (Tree.dir dirBesideFile).files, ∀ n ∈ ns, ∀ c ∈ n.toList, '/' ≤ c) →
          ((chunks evs).map Chunk.path).Pairwise (· < ·)) := by
  have hsorted : (Tree.dir dirBesideFile).Sorted := by
    simp only [Tree.Sorted, Tree.EntriesSorted, dirBesideFile]
    decide
  have hplain : ∀ ns ∈ (Tree.dir dirBesideFile).files, ∀ n ∈ ns, Path.Plain n := by
    simp [Tree.files, Tree.entryFiles, dirBesideFile, Path.Plain]
  exact ⟨lookup_dirBesideFile, hsorted, hplain,
    run_chunks_ordered ⟨[], [], Glob.isMatch⟩ lookup_dirBesideFile hsorted hplain⟩

/-- A directory `a` is walked before the file `a.glsl` beside it, though `a.glsl` comes first
as a text: `.` stands below `/`. -/
theorem run_chunks_unsorted :
    ∃ evs, run ⟨[], [], Glob.isMatch⟩ (.dir dirBesideFile) "/" = .ok evs ∧
      (chunks evs).map Chunk.path = ["a/b.glsl", "a.glsl"] ∧ ¬ "a/b.glsl" < "a.glsl" := by
  refine ⟨walk ⟨[], [], Glob.isMatch⟩ "." (.dir dirBesideFile), by rw [run, lookup_dirBesideFile], ?_, by decide⟩
  cbv

end Scan

end ShaderHeaders
