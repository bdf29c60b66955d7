import Mathlib.Data.List.Nodup
import ShaderHeaders.Chunk.Scan
import ShaderHeaders.Proofs.PathText

/-!
# Updating a file tree, and walking it

A tree is updated at a path by `Tree.update`, on which writing a file and making directories
rest. What an update does is said through lookups:

* `Tree.lookup_update`: the path updated reads what the update put there;
* `Tree.lookup_update_of_ne`: a path that leaves the updated one at some component reads as
  before, whatever directories the update made on the way;
* `Tree.exists_file_of_update_error`: an update fails only at a file on the way.

A walk of a tree visits its files in the order of `Tree.files`, skipping some; when the names
on the way to the files are plain and the files distinct, the chunks a scan finds have
distinct paths (`Scan.nodup_paths_chunks`).
-/

namespace ShaderHeaders

namespace Tree

variable {f : Option Tree → Tree}

/-! ## Looking up -/

/-- Putting an entry in a directory changes what is found under its name only. -/
theorem find?_insertEntry (c c' : String) (u : Tree) (es : List (String × Tree)) :
    (insertEntry c u es).find? (·.1 == c') =
      if c = c' then some (c, u) else es.find? (·.1 == c') := by
  induction es with
  | nil => by_cases h : c = c' <;> simp [insertEntry, h]
  | cons e rest ih =>
    obtain ⟨n, v⟩ := e
    by_cases hlt : c < n
    · rw [insertEntry, if_pos hlt]
      by_cases hcc : c = c' <;> simp [hcc]
    · by_cases hn : c = n
      · subst hn
        rw [insertEntry, if_neg hlt, if_pos rfl]
        by_cases hcc : c = c' <;> simp [hcc]
      · rw [insertEntry, if_neg hlt, if_neg hn]
        by_cases hnc : n = c'
        · have hcc : c ≠ c' := fun h => hn (h.trans hnc.symm)
          simp [hnc, hcc]
        · simp [hnc, ih]

@[simp] theorem lookup_nil (t : Tree) : t.lookup [] = .ok t := by
  cases t <;> rfl

theorem lookup_dir_cons (es : List (String × Tree)) (c : String) (cs : List String) :
    (Tree.dir es).lookup (c :: cs) =
      match es.find? (·.1 == c) with
      | some (_, t) => t.lookup cs
      | none => .error .notExist := rfl

theorem lookup_empty_dir {cs : List String} (h : cs ≠ []) : (Tree.dir []).lookup cs = .error .notExist := by
  obtain ⟨c, cs, rfl⟩ := List.exists_cons_of_ne_nil h
  rfl

/-- Looking up a longer path looks up the rest below what the first part reads. -/
theorem lookup_append : ∀ (t : Tree) (l m : List String),
    t.lookup (l ++ m) = (t.lookup l).bind (·.lookup m)
  | t, [], m => by simp [Except.bind]
  | .file _ _, _ :: _, _ => rfl
  | .dir es, c :: l, m => by
    rw [List.cons_append, lookup_dir_cons, lookup_dir_cons]
    cases es.find? (·.1 == c) with
    | none => rfl
    | some e => exact lookup_append e.2 l m

/-- Whatever lies below a path lies below directories. -/
theorem dir_of_lookup_append {t u : Tree} {l m : List String} (h : t.lookup (l ++ m) = .ok u)
    (hm : m ≠ []) : ∃ es, t.lookup l = .ok (.dir es) := by
  rw [lookup_append] at h
  cases hl : t.lookup l with
  | error e => rw [hl] at h; cases h
  | ok v =>
    rw [hl] at h
    cases v with
    | dir es => exact ⟨es, rfl⟩
    | file c m' =>
      obtain ⟨x, xs, rfl⟩ := List.exists_cons_of_ne_nil hm
      cases h

/-! ## Updates -/

/-- After an update, the path updated reads what the update put there. -/
theorem lookup_update : ∀ {t : Tree} {cs : List String} {d : Nat} {t' : Tree},
    t.update f cs d = .ok t' → t'.lookup cs = .ok (f (t.lookup cs).toOption)
  | t, [], d, t', h => by
    rw [update, Except.ok.injEq] at h
    subst h
    simp [Except.toOption]
  | .file _ _, _ :: _, _, _, h => by cases h
  | .dir es, [c], d, t', h => by
    rw [update, Except.ok.injEq] at h
    subst h
    rw [lookup_dir_cons, find?_insertEntry, if_pos rfl, lookup_dir_cons]
    cases es.find? (·.1 == c) <;> simp [Except.toOption]
  | .dir es, c :: c' :: cs, d, t', h => by
    -- the update goes on below `c`, in a new empty directory if there was none
    rw [update] at h
    split at h
    · rename_i t'' hsub
      cases h
      rw [lookup_dir_cons, find?_insertEntry, if_pos rfl]
      simp only
      rw [lookup_update hsub, lookup_dir_cons]
      cases es.find? (·.1 == c) with
      | none => simp [lookup_empty_dir, Except.toOption]
      | some e => rfl
    · cases h

/-- An update fails only at a file on the way. -/
theorem exists_file_of_update_error : ∀ {t : Tree} {cs : List String} {d e : Nat},
    t.update f cs d = .error e → ∃ k < cs.length, ∃ c m, t.lookup (cs.take k) = .ok (.file c m)
  | _, [], _, _, h => by cases h
  | .file c m, _ :: _, _, _, _ => ⟨0, by simp, c, m, rfl⟩
  | .dir es, [c], d, e, h => by
    rw [update] at h
    cases h
  | .dir es, c :: c' :: cs, d, e, h => by
    rw [update] at h
    split at h
    · cases h
    · rename_i e' hsub
      obtain ⟨k, hk, c₀, m₀, hfile⟩ := exists_file_of_update_error hsub
      refine ⟨k + 1, by simp at hk ⊢; omega, c₀, m₀, ?_⟩
      rw [List.take_succ_cons, lookup_dir_cons]
      cases hf : es.find? (·.1 == c) with
      | some e₀ =>
        rw [hf] at hfile
        exact hfile
      | none =>
        -- a new empty directory holds no file
        rw [hf, Option.map_none, Option.getD_none] at hfile
        cases k with
        | zero => simp at hfile
        | succ k =>
          rw [lookup_empty_dir (by simp)] at hfile
          cases hfile

/-- A path that leaves the updated one at some component reads as before. -/
theorem lookup_update_of_ne {a b : String} (hab : a ≠ b) (bs qs : List String) :
    ∀ {t : Tree} {pre : List String} {d : Nat} {t' : Tree},
      t.update f (pre ++ b :: bs) d = .ok t' →
        t'.lookup (pre ++ a :: qs) = t.lookup (pre ++ a :: qs)
  | .file _ _, [], _, _, h => by cases h
  | .file _ _, _ :: _, _, _, h => by cases h
  | .dir es, [], d, t', h => by
    rw [List.nil_append] at h
    have hne : ¬ (b = a) := fun h => hab h.symm
    cases bs with
    | nil =>
      rw [update, Except.ok.injEq] at h
      subst h
      simp only [List.nil_append, lookup_dir_cons, find?_insertEntry, if_neg hne]
    | cons b' bs =>
      rw [update] at h
      split at h
      · cases h
        simp only [List.nil_append, lookup_dir_cons, find?_insertEntry, if_neg hne]
      · cases h
  | .dir es, p :: pre, d, t', h => by
    have hlong : p :: pre ++ b :: bs = p :: (pre ++ b :: bs) := rfl
    obtain ⟨x, xs, hx⟩ : ∃ x xs, pre ++ b :: bs = x :: xs := List.exists_cons_of_ne_nil (by simp)
    rw [hlong, hx, update, ← hx] at h
    split at h
    · rename_i t'' hsub
      cases h
      rw [List.cons_append, lookup_dir_cons, find?_insertEntry, if_pos rfl]
      simp only
      rw [lookup_update_of_ne hab bs qs hsub, lookup_dir_cons]
      cases es.find? (·.1 == p) with
      | none => simp [lookup_empty_dir]
      | some e => rfl
    · cases h

/-- An update at a path with no file on the way succeeds. -/
theorem exists_update_eq_ok {t : Tree} {cs : List String} {d : Nat}
    (hno : ∀ k < cs.length, ∀ c m, t.lookup (cs.take k) ≠ .ok (.file c m)) :
    ∃ t', t.update f cs d = .ok t' := by
  cases h : t.update f cs d with
  | ok t' => exact ⟨t', rfl⟩
  | error e =>
    obtain ⟨k, hk, c, m, hfile⟩ := exists_file_of_update_error h
    exact absurd hfile (hno k hk c m)

/-- No file stands on the way to a path that can be looked up. -/
theorem no_file_before {t u : Tree} {cs : List String} (h : t.lookup cs = .ok u) :
    ∀ k < cs.length, ∀ c m, t.lookup (cs.take k) ≠ .ok (.file c m) := by
  intro k hk c m hfile
  rw [← List.take_append_drop k cs] at h
  obtain ⟨es, hes⟩ := dir_of_lookup_append h (by simp; omega)
  rw [hes] at hfile
  cases hfile

/-- Neither a directory nor anything on the way to it is a file. -/
theorem no_file_within {t : Tree} {cs : List String} {es : List (String × Tree)}
    (h : t.lookup cs = .ok (.dir es)) : ∀ k ≤ cs.length, ∀ c m, t.lookup (cs.take k) ≠ .ok (.file c m) := by
  intro k hk c m
  rcases Nat.lt_or_eq_of_le hk with hk | rfl
  · exact no_file_before h k hk c m
  · rw [List.take_length, h]
    simp

/-! ## Writing a file and making directories -/

/-- A file written at a path with no file on the way is there to be read. -/
theorem lookup_write {t : Tree} {cs : List String} {c : Content} {m : Timestamp}
    (hno : ∀ k < cs.length, ∀ c m, t.lookup (cs.take k) ≠ .ok (.file c m)) :
    (t.write cs c m).lookup cs = .ok (.file c m) := by
  obtain ⟨t', ht'⟩ := exists_update_eq_ok (f := fun _ => .file c m) (d := 1) hno
  rw [write, ht']
  exact lookup_update ht'

/-- Writing a file at a path with no file on the way keeps the way free of files. -/
theorem no_file_before_write {t : Tree} {cs : List String} {c : Content} {m : Timestamp}
    (hno : ∀ k < cs.length, ∀ c m, t.lookup (cs.take k) ≠ .ok (.file c m)) :
    ∀ k < cs.length, ∀ c' m', (t.write cs c m).lookup (cs.take k) ≠ .ok (.file c' m') :=
  no_file_before (lookup_write hno)

theorem lookup_write_of_ne {a b : String} (hab : a ≠ b) (t : Tree) (pre bs qs : List String)
    (c : Content) (m : Timestamp) :
    (t.write (pre ++ b :: bs) c m).lookup (pre ++ a :: qs) = t.lookup (pre ++ a :: qs) := by
  unfold write
  split
  · exact lookup_update_of_ne hab bs qs ‹_›
  · rfl

/-- Making the directories of a path with no file on it, the path itself included, succeeds
and leaves a directory there. -/
theorem exists_mkdirAll_eq_ok {t : Tree} {cs : List String}
    (hno : ∀ k ≤ cs.length, ∀ c m, t.lookup (cs.take k) ≠ .ok (.file c m)) :
    ∃ t', t.mkdirAll cs = .ok t' := by
  unfold mkdirAll
  split
  · rename_i t' ht'
    -- what was at the path is kept, and it is no file
    have hdir : t'.isDirAt cs = true := by
      rw [isDirAt, lookup_update ht']
      cases hl : t.lookup cs with
      | error e => rfl
      | ok u =>
        cases u with
        | dir es => rfl
        | file c m => exact absurd (by rw [List.take_length]; exact hl) (hno cs.length le_rfl c m)
    exact ⟨t', if_pos hdir⟩
  · rename_i e he
    obtain ⟨k, hk, c, m, hfile⟩ := exists_file_of_update_error he
    exact absurd hfile (hno k hk.le c m)

theorem lookup_mkdirAll {t t' : Tree} {cs : List String} (h : t.mkdirAll cs = .ok t') :
    ∃ es, t'.lookup cs = .ok (.dir es) := by
  unfold mkdirAll at h
  split at h
  · rename_i t'' ht''
    split at h
    · rename_i hdir
      cases h
      unfold isDirAt at hdir
      split at hdir
      · exact ⟨_, ‹_›⟩
      · cases hdir
    · cases h
  · cases h

/-- Below the directory made, a path reads what it read below the directory that was there, or
nothing when there was none. -/
theorem lookup_mkdirAll_below {t t' : Tree} {cs : List String} (h : t.mkdirAll cs = .ok t')
    (m : List String) : t'.lookup (cs ++ m) = ((t.lookup cs).toOption.getD (.dir [])).lookup m := by
  unfold mkdirAll at h
  split at h
  · rename_i t'' ht''
    split at h
    · cases h
      rw [lookup_append, lookup_update ht'']
      cases t.lookup cs <;> rfl
    · cases h
  · cases h

/-- A path below the directory made that led nowhere still leads nowhere. -/
theorem lookup_mkdirAll_below_of_error {t t' : Tree} {cs : List String} (h : t.mkdirAll cs = .ok t')
    {m : List String} (hm : m ≠ []) (hno : (t.lookup (cs ++ m)).toBool = false) :
    (t'.lookup (cs ++ m)).toBool = false := by
  rw [lookup_mkdirAll_below h]
  rw [lookup_append] at hno
  cases hcs : t.lookup cs with
  | ok u =>
    rw [hcs] at hno
    exact hno
  | error e => simp [Except.toOption, lookup_empty_dir hm, Except.toBool]

/-- Making directories that exist changes nothing below them. -/
theorem lookup_mkdirAll_append {t t' u : Tree} {cs : List String} (h : t.mkdirAll cs = .ok t')
    (hu : t.lookup cs = .ok u) (m : List String) : t'.lookup (cs ++ m) = t.lookup (cs ++ m) := by
  rw [lookup_mkdirAll_below h, lookup_append, hu]
  rfl

theorem lookup_mkdirAll_of_ne {a b : String} (hab : a ≠ b) {t t' : Tree} {pre bs qs : List String}
    (h : t.mkdirAll (pre ++ b :: bs) = .ok t') : t'.lookup (pre ++ a :: qs) = t.lookup (pre ++ a :: qs) := by
  unfold mkdirAll at h
  split at h
  · split at h
    · cases h
      exact lookup_update_of_ne hab bs qs ‹_›
    · cases h
  · cases h

/-! ## The files of a tree -/

mutual

/-- The files of a tree, each as the names on its way from the tree's root, in the order a walk
visits them. -/
def files : Tree → List (List String)
  | .file _ _ => [[]]
  | .dir es => entryFiles es

/-- The files below the entries of a directory. -/
def entryFiles : List (String × Tree) → List (List String)
  | [] => []
  | (name, .dir es) :: rest => (entryFiles es).map (name :: ·) ++ entryFiles rest
  | (name, .file _ _) :: rest => [name] :: entryFiles rest

end

theorem ne_nil_of_mem_entryFiles {es : List (String × Tree)} {ns : List String}
    (h : ns ∈ entryFiles es) : ns ≠ [] := by
  induction es with
  | nil => simp [entryFiles] at h
  | cons e rest ih =>
    obtain ⟨name, u⟩ := e
    cases u with
    | dir es' =>
      rw [entryFiles, List.mem_append, List.mem_map] at h
      rcases h with ⟨ns', -, rfl⟩ | h
      · exact List.cons_ne_nil _ _
      · exact ih h
    | file c m =>
      rw [entryFiles, List.mem_cons] at h
      rcases h with rfl | h
      · exact List.cons_ne_nil _ _
      · exact ih h

end Tree

namespace Path

theorem components_ofComponents {cs : List String} (h : ∀ c ∈ cs, Plain c) :
    components (ofComponents cs) = cs := by
  rw [components, clean_ofComponents h, filter_parts_ofComponents h]

end Path

namespace Scan

variable (s : Selection)

@[simp] theorem chunks_nil : chunks [] = [] := rfl

@[simp] theorem chunks_append (l m : List Event) : chunks (l ++ m) = chunks l ++ chunks m := by
  simp [chunks, List.filterMap_append]

theorem paths_chunks_fileEvent_sublist (rel : String) (c : Content) (m : Timestamp) :
    ((chunks (fileEvent s rel c m)).map Chunk.path).Sublist [rel] := by
  unfold fileEvent
  split
  · simp [chunks, Chunk.extract]
  · simp

/-- Going down a relative path other than `.` adds the names after slashes. -/
theorem foldl_child {rel : String} (hrel : rel ≠ ".") (ns : List String) :
    ns.foldl child rel = "/".intercalate (rel :: ns) := by
  induction ns generalizing rel with
  | nil => simp [String.intercalate_singleton]
  | cons n ns ih =>
    have hlong : rel ++ "/" ++ n ≠ "." := by
      intro h
      -- the slash would have to be the dot
      have hmem : '/' ∈ (rel ++ "/" ++ n).toList := by simp
      rw [h] at hmem
      exact absurd hmem (by decide)
    rw [List.foldl_cons, child, if_neg hrel, ih hlong, String.intercalate_cons_append,
      String.intercalate_cons_cons]

theorem foldl_child_dot {n : String} (hn : n ≠ ".") (ns : List String) :
    (n :: ns).foldl child "." = "/".intercalate (n :: ns) := by
  rw [List.foldl_cons, child, if_pos rfl, foldl_child hn]

mutual

/-- The chunks of a walk stand at paths of files of the tree, in the order of the files. -/
theorem paths_chunks_walk_sublist : ∀ (rel : String) (t : Tree),
    ((chunks (walk s rel t)).map Chunk.path).Sublist (t.files.map (·.foldl child rel))
  | rel, .file c m => by
    rw [walk, Tree.files]
    exact paths_chunks_fileEvent_sublist s rel c m
  | rel, .dir es => by
    rw [walk, Tree.files]
    exact paths_chunks_walkEntries_sublist rel es

theorem paths_chunks_walkEntries_sublist : ∀ (rel : String) (es : List (String × Tree)),
    ((chunks (walkEntries s rel es)).map Chunk.path).Sublist
      ((Tree.entryFiles es).map (·.foldl child rel))
  | rel, [] => by simp [walkEntries, Tree.entryFiles]
  | rel, (name, .dir es) :: rest => by
    rw [walkEntries, Tree.entryFiles, chunks_append, List.map_append, List.map_append]
    refine List.Sublist.append ?_ (paths_chunks_walkEntries_sublist rel rest)
    split
    · simp [chunks]
    · -- the walk below `name` goes on from its relative path
      have hbelow := paths_chunks_walkEntries_sublist (child rel name) es
      simpa [Function.comp_def] using hbelow
  | rel, (name, .file c m) :: rest => by
    rw [walkEntries, Tree.entryFiles, chunks_append, List.map_append, List.map_cons,
      ← List.singleton_append]
    exact (paths_chunks_fileEvent_sublist s _ c m).append
      (paths_chunks_walkEntries_sublist rel rest)

end

/-- The chunks found in a directory whose files have distinct paths of plain names stand at
distinct paths. -/
theorem nodup_paths_chunks {es : List (String × Tree)} (hnd : (Tree.dir es).files.Nodup)
    (hplain : ∀ ns ∈ (Tree.dir es).files, ∀ n ∈ ns, Path.Plain n) :
    ((chunks (walk s "." (.dir es))).map Chunk.path).Nodup := by
  refine (List.Nodup.map_on ?_ hnd).sublist (paths_chunks_walk_sublist s "." (.dir es))
  -- a file's path is its names joined by slashes, from which the names can be read back
  have hpath : ∀ ns ∈ (Tree.dir es).files, ns.foldl child "." = "/".intercalate ns := by
    intro ns hns
    obtain ⟨n, ns', rfl⟩ := List.exists_cons_of_ne_nil (Tree.ne_nil_of_mem_entryFiles hns)
    exact foldl_child_dot (hplain _ hns n (List.mem_cons_self ..)).2.1 ns'
  intro ns hns ms hms heq
  rw [hpath ns hns, hpath ms hms] at heq
  have hback := congrArg Path.parts heq
  rwa [Path.parts_intercalate (Tree.ne_nil_of_mem_entryFiles hns) fun c hc => (hplain ns hns c hc).2.2.2,
    Path.parts_intercalate (Tree.ne_nil_of_mem_entryFiles hms) fun c hc => (hplain ms hms c hc).2.2.2]
    at hback

end Scan

end ShaderHeaders
