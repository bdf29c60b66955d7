import ShaderHeaders.Proofs.CatalogIndex
import ShaderHeaders.Proofs.TableLaws

/-!
# Histories of catalog calls

A history is a list of the calls that change the catalog (`Catalog.Request`): puts, deletes
and clears, each of which may fail. Each call keeps the store holding the map the call stands
for (`Catalog.Holds.handle`), so replaying a history from a freshly opened empty catalog keeps
the store holding the map the history leaves (`Catalog.replay_holds`). What can be read off
such a store gives the two theorems of this file:

* `Catalog.replay_index`: after any history, the index lists a path under a name exactly when
  the chunk stored at the path defines a function of that name, no name has an empty bucket,
  and `definitionsNamed` gives those paths once each, in increasing byte order;
* `Catalog.replay_refines`: after any history, `get` and `list` read the map the history
  leaves, a put succeeds exactly when its chunk is accepted and leaves the store as it was when
  it fails, and deletes and clears succeed.

Both hold over any store that keeps the store's laws, and so over `Bolt.table`.
-/

namespace ShaderHeaders.Catalog

open Bolt Store

/-- A call that changes the catalog. -/
inductive Request where
  | put (c : Chunk)
  | delete (path : String)
  | clear

section Replay

variable {σ : Type} (B : Store σ)

/-- The store after a call, whether it succeeded or failed. -/
def Request.handle (s : σ) : Request → σ
  | .put c => (Catalog.put B s c).1
  | .delete p => (Catalog.delete B s p).1
  | .clear => (Catalog.clear B s).1

/-- The store after each call of a history in turn. -/
def replay (s : σ) (rs : List Request) : σ :=
  rs.foldl (fun s r => r.handle B s) s

/-- What a call does to the map the catalog stands for: a put of an accepted chunk sets its
path, a delete removes its path, a clear empties the map. -/
def Request.apply (M : String → Option Chunk) : Request → String → Option Chunk
  | .put c => if Accepted c then Function.update M c.path (some c) else M
  | .delete p => Function.update M p none
  | .clear => fun _ => none

/-- The map a history leaves, from the empty map. -/
def contents (rs : List Request) : String → Option Chunk :=
  rs.foldl (fun M r => r.apply M) fun _ => none

/-- The index is in step with the chunks: a name's bucket lists a key exactly when the chunk
stored at the key defines a function of that name, no name's bucket is empty, and
`definitionsNamed` gives the paths whose chunk defines the name, in increasing byte order. -/
def IndexInStep (s : σ) : Prop :=
  (∀ n k, B.slot s [definitionsBucket, n] k ≠ none ↔
    ∃ data c d, B.get s [chunksBucket] k = some data ∧ Chunk.decode data = .ok c ∧
      c.definition = .ok d ∧ Utf8.bytes d.name = n) ∧
  (∀ n, B.slot s [definitionsBucket] n = some .bucket → B.entries s [definitionsBucket, n] ≠ []) ∧
  ∀ name, ((definitionsNamed B s name).map Utf8.bytes).Pairwise (· < ·) ∧
    ∀ p, p ∈ definitionsNamed B s name ↔
      ∃ c d, Catalog.get B s p = .ok c ∧ c.definition = .ok d ∧ d.name = name

/-- The catalog reads as the map `M`: `get` gives its chunk at each path or reports the path
missing, `list` gives its chunks in increasing byte order of their paths, a put succeeds
exactly when its chunk is accepted and leaves the store as it was when it fails, and deletes
and clears succeed. -/
def ReadsAs (s : σ) (M : String → Option Chunk) : Prop :=
  (∀ p, Catalog.get B s p = match M p with
    | some c => .ok c
    | none => .error (.notFound p)) ∧
  (∃ cs, Catalog.list B s = .ok cs ∧ (cs.map fun c => Utf8.bytes c.path).Pairwise (· < ·) ∧
    ∀ c, c ∈ cs ↔ M c.path = some c) ∧
  (∀ c, ((Catalog.put B s c).2 = none ↔ Accepted c) ∧
    ((Catalog.put B s c).2 ≠ none → (Catalog.put B s c).1 = s)) ∧
  (∀ p, (Catalog.delete B s p).2 = none) ∧
  (Catalog.clear B s).2 = none

end Replay

section Holding

variable {σ : Type} {B : Store σ} (hB : B.Laws) {s : σ} {M : String → Option Chunk}

/-- A name's bucket lists a key exactly when the stored chunk at the key defines the name. -/
theorem Holds.slot_index_ne_none_iff (h : Holds B s M) (n k : List UInt8) :
    B.slot s [definitionsBucket, n] k ≠ none ↔
      ∃ data c d, B.get s [chunksBucket] k = some data ∧ Chunk.decode data = .ok c ∧
        c.definition = .ok d ∧ Utf8.bytes d.name = n := by
  constructor
  · intro hk
    obtain ⟨p, rfl⟩ := h.index_keys n k hk
    rw [h.index_at] at hk
    obtain ⟨c, d, hc, hdef, hn⟩ : Defines M n p := by
      by_contra hd
      exact hk (if_neg hd)
    have hget : B.get s [chunksBucket] (Utf8.bytes p) = some (storedBytes c) :=
      get_eq_some_iff.2 (by rw [h.chunk_at, hc]; rfl)
    exact ⟨_, c, d, hget, decode_storedBytes (h.accepted p c hc).2.2.2.1, hdef, hn⟩
  · rintro ⟨data, c, d, hget, hdec, hdef, hn⟩
    have hslot := get_eq_some_iff.1 hget
    obtain ⟨p, rfl⟩ := h.chunk_keys k (by simp [hslot])
    rw [h.chunk_at] at hslot
    -- the stored bytes are those of the map's chunk, which they decode to
    obtain ⟨c', hc', hx⟩ := Option.map_eq_some_iff.1 hslot
    obtain rfl : storedBytes c' = data := Slot.value.inj hx
    rw [decode_storedBytes (h.accepted p c' hc').2.2.2.1] at hdec
    have hcc : c' = c := Except.ok.inj hdec
    subst hcc
    rw [h.index_at, if_pos ⟨c', d, hc', hdef, hn⟩]
    simp

include hB

/-- A name that has a bucket has some path listed in it. -/
theorem Holds.entries_index_ne_nil (h : Holds B s M) {n : List UInt8}
    (hn : B.slot s [definitionsBucket] n = some .bucket) : B.entries s [definitionsBucket, n] ≠ [] := by
  rw [h.name_at] at hn
  obtain ⟨p, hp⟩ : ∃ p, Defines M n p := by
    by_contra hno
    rw [if_neg hno] at hn
    cases hn
  rw [Ne, hB.entries_eq_nil_iff, not_forall]
  exact ⟨Utf8.bytes p, by rw [h.index_at, if_pos hp]; simp⟩

/-- The index of a store that holds a map is in step with its chunks. -/
theorem Holds.indexInStep (h : Holds B s M) : IndexInStep B s := by
  refine ⟨h.slot_index_ne_none_iff, fun n hn => h.entries_index_ne_nil hB hn, fun name => ?_⟩
  obtain ⟨hsorted, hmem⟩ := h.definitionsNamed_spec hB name
  refine ⟨hsorted, fun p => (hmem p).trans ?_⟩
  -- a path defines the name in the map exactly when `get` reads a chunk that does
  rw [h.get_eq p]
  constructor
  · rintro ⟨c, d, hc, hdef, hn⟩
    exact ⟨c, d, by simp [hc], hdef, Utf8.bytes_injective hn⟩
  · rintro ⟨c, d, hget, hdef, rfl⟩
    cases hc : M p with
    | none => simp [hc] at hget
    | some c' =>
      simp only [hc, Except.ok.injEq] at hget
      subst hget
      exact ⟨c', d, hc, hdef, rfl⟩

/-- A store that holds a map reads as the map. -/
theorem Holds.readsAs (h : Holds B s M) : ReadsAs B s M := by
  refine ⟨h.get_eq, h.list_eq hB, fun c => ?_, fun p => ?_, ?_⟩
  · by_cases hc : Accepted c
    · obtain ⟨s', hput, -⟩ := put_spec hB h hc
      simp [hput, hc]
    · obtain ⟨e, hput⟩ := put_refused hB h hc
      simp [hput, hc]
  · obtain ⟨s', hdel, -⟩ := delete_spec hB h p
    simp [hdel]
  · obtain ⟨s', hclear, -⟩ := clear_spec hB h.chunks_bucket h.definitions_bucket
    simp [hclear]

/-- One call keeps the store holding the map the call stands for. -/
theorem Holds.handle (h : Holds B s M) (r : Request) : Holds B (r.handle B s) (r.apply M) := by
  cases r with
  | put c =>
    by_cases hc : Accepted c
    · obtain ⟨s', hput, hs'⟩ := put_spec hB h hc
      rw [Request.handle, Request.apply, hput, if_pos hc]
      exact hs'
    · obtain ⟨e, hput⟩ := put_refused hB h hc
      rw [Request.handle, Request.apply, hput, if_neg hc]
      exact h
  | delete p =>
    obtain ⟨s', hdel, hs'⟩ := delete_spec hB h p
    rw [Request.handle, Request.apply, hdel]
    exact hs'
  | clear =>
    obtain ⟨s', hclear, hs'⟩ := clear_spec hB h.chunks_bucket h.definitions_bucket
    rw [Request.handle, Request.apply, hclear]
    exact hs'

/-- A history keeps the store holding the map the history makes of the one it held. -/
theorem Holds.replay (h : Holds B s M) (rs : List Request) :
    Holds B (replay B s rs) (rs.foldl (fun M r => r.apply M) M) := by
  induction rs generalizing s M with
  | nil => exact h
  | cons r rs ih => exact ih (h.handle hB r)

/-- From a freshly opened empty file, any history keeps the store holding the map it leaves. -/
theorem replay_holds :
    ∃ s₀, Catalog.openIn B [] = .ok s₀ ∧ ∀ rs, Holds B (replay B s₀ rs) (contents rs) := by
  obtain ⟨s₀, hopen, h₀⟩ := openIn_empty hB
  exact ⟨s₀, hopen, fun rs => h₀.replay hB rs⟩

/-- After any history of puts, deletes and clears from a freshly opened empty catalog, the
index is in step with the stored chunks. -/
theorem replay_index :
    ∃ s₀, Catalog.openIn B [] = .ok s₀ ∧ ∀ rs, IndexInStep B (replay B s₀ rs) := by
  obtain ⟨s₀, hopen, hrun⟩ := replay_holds hB
  exact ⟨s₀, hopen, fun rs => (hrun rs).indexInStep hB⟩

/-- After any history of puts, deletes and clears from a freshly opened empty catalog, the
catalog reads as the map the history leaves. -/
theorem replay_refines :
    ∃ s₀, Catalog.openIn B [] = .ok s₀ ∧ ∀ rs, ReadsAs B (replay B s₀ rs) (contents rs) := by
  obtain ⟨s₀, hopen, hrun⟩ := replay_holds hB
  exact ⟨s₀, hopen, fun rs => (hrun rs).readsAs hB⟩

end Holding

/-- The table store keeps the index in step over every history. -/
theorem replay_index_table :
    ∃ s₀, Catalog.openIn Bolt.table [] = .ok s₀ ∧
      ∀ rs, IndexInStep Bolt.table (replay Bolt.table s₀ rs) :=
  replay_index table_laws

/-- The table store reads as the map of every history. -/
theorem replay_refines_table :
    ∃ s₀, Catalog.openIn Bolt.table [] = .ok s₀ ∧
      ∀ rs, ReadsAs Bolt.table (replay Bolt.table s₀ rs) (contents rs) :=
  replay_refines table_laws

end ShaderHeaders.Catalog
