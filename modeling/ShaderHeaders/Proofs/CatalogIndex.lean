import ShaderHeaders.Catalog.Basic
import ShaderHeaders.Proofs.ChunkJson
import ShaderHeaders.Proofs.LawfulStore

/-!
# The catalog's store holds a map, and its index stays in step

Over any store that keeps the store's laws, the catalog's store holds a map from paths to
chunks (`Catalog.Holds`): the bucket of chunks has, at the bytes of each path of the map, the
bytes stored for its chunk; the index has a bucket for each name some chunk defines, listing
exactly the paths of those chunks. Opening an empty file gives the empty map; each call keeps
the store holding the map the call stands for (`put_spec`, `delete_spec`, `clear_spec`); and
reading a store that holds a map reads the map (`Holds.get_eq`, `Holds.list_eq`,
`Holds.definitionsNamed_spec`).

* `Catalog.replay_index`: after any history of calls, a path is indexed under a name exactly
  when the chunk stored at it defines a function of that name, no name is indexed without a
  path, and `definitionsNamed` lists those paths once each, in increasing byte order, each
  reading back as a chunk with such a definition.
* `Catalog.replay_refines`: after any history, the catalog reads as the map the history leaves,
  where a put of an accepted chunk sets its path, a delete removes a path and a clear empties the
  map; a put succeeds exactly when the chunk is accepted, and one that fails leaves the store as
  it was.
-/

namespace ShaderHeaders

/-- The bytes of a text tell the text. -/
theorem Utf8.bytes_injective {s t : String} (h : Utf8.bytes s = Utf8.bytes t) : s = t := by
  rw [← Utf8.lossy_bytes s, h, Utf8.lossy_bytes]

/-- A computation that succeeded keeps its value when its failures are reworded. -/
theorem except_mapError_ok {ε ε' γ : Type} (f : ε → ε') (a : γ) :
    (Except.ok a : Except ε γ).mapError f = .ok a :=
  rfl

/-- A failure is reworded by `mapError`. -/
theorem except_mapError_error {ε ε' γ : Type} (f : ε → ε') (e : ε) :
    (Except.error e : Except ε γ).mapError f = .error (f e) :=
  rfl

namespace Catalog

open Bolt Store

/-! ## The chunks the catalog accepts -/

/-- A chunk the catalog stores: its path is a key of the store (not empty, at most
`maxKeySize` bytes), it has a JSON form, and a definition it has names a function, whose name
is the key of its index bucket. -/
def Accepted (c : Chunk) : Prop :=
  c.path ≠ "" ∧ (Utf8.bytes c.path).length ≤ maxKeySize ∧ c.Encodable ∧
    ∀ d, c.definition = .ok d → d.name ≠ ""

instance (c : Chunk) : Decidable (Accepted c) :=
  match h : c.definition with
  | .ok d => decidable_of_iff
      (c.path ≠ "" ∧ (Utf8.bytes c.path).length ≤ maxKeySize ∧ c.Encodable ∧ d.name ≠ "")
      (by simp [Accepted, h])
  | .error _ => decidable_of_iff
      (c.path ≠ "" ∧ (Utf8.bytes c.path).length ≤ maxKeySize ∧ c.Encodable)
      (by simp [Accepted, h])

/-- The bytes stored for a chunk: its encoding, or nothing when it has none. -/
def storedBytes (c : Chunk) : List UInt8 :=
  match c.encode with
  | .ok bs => bs
  | .error _ => []

theorem encode_eq_storedBytes {c : Chunk} (h : c.Encodable) : c.encode = .ok (storedBytes c) := by
  obtain ⟨bs, hbs⟩ := (c.encode_isOk_iff).2 h
  rw [storedBytes, hbs]

theorem decode_storedBytes {c : Chunk} (h : c.Encodable) : Chunk.decode (storedBytes c) = .ok c :=
  Chunk.decode_encode (encode_eq_storedBytes h)

theorem bytes_ne_nil {s : String} (h : s ≠ "") : Utf8.bytes s ≠ [] := fun e =>
  h (Utf8.bytes_injective (e.trans Utf8.bytes_empty.symm))

/-- The chunk at `p` in `M` defines a function whose name has the bytes `n`. -/
def Defines (M : String → Option Chunk) (n : List UInt8) (p : String) : Prop :=
  ∃ c d, M p = some c ∧ c.definition = .ok d ∧ Utf8.bytes d.name = n

/-- A path whose chunk is `c` defines the names of `c`'s definition. -/
theorem defines_iff_of_eq {M : String → Option Chunk} {p : String} {c : Chunk} (hM : M p = some c)
    (n : List UInt8) : Defines M n p ↔ ∃ d, c.definition = .ok d ∧ Utf8.bytes d.name = n := by
  constructor
  · rintro ⟨c', d, hc', hd, hn⟩
    rw [hM, Option.some.injEq] at hc'
    subst hc'
    exact ⟨d, hd, hn⟩
  · rintro ⟨d, hd, hn⟩
    exact ⟨c, d, hM, hd, hn⟩

theorem defines_update_none {M : String → Option Chunk} {n : List UInt8} {p q : String} :
    Defines (Function.update M p none) n q ↔ q ≠ p ∧ Defines M n q := by
  by_cases hq : q = p
  · subst hq
    simp [Defines]
  · simp [Defines, hq]

theorem defines_update_some {M : String → Option Chunk} {n : List UInt8} {p q : String}
    {c : Chunk} :
    Defines (Function.update M p (some c)) n q ↔
      if q = p then ∃ d, c.definition = .ok d ∧ Utf8.bytes d.name = n else Defines M n q := by
  by_cases hq : q = p
  · subst hq
    simp [Defines]
  · simp [Defines, hq]

/-! ## A store that holds a map -/

section Holds

variable {σ : Type} (B : Store σ)

open Classical in
/-- The index holds the names the chunks of `M` define: a bucket at each name some chunk
defines, holding an empty value at the bytes of each path whose chunk defines it, and nothing
else. -/
structure IndexHolds (s : σ) (M : String → Option Chunk) : Prop where
  name_at : ∀ n, B.slot s [definitionsBucket] n =
    if ∃ p, Defines M n p then some .bucket else none
  index_at : ∀ n p, B.slot s [definitionsBucket, n] (Utf8.bytes p) =
    if Defines M n p then some (.value []) else none
  index_keys : ∀ n k, B.slot s [definitionsBucket, n] k ≠ none → ∃ p, k = Utf8.bytes p

/-- Both buckets are there, and the bucket of chunks holds `M`: the bytes stored for each
chunk at the bytes of its path, and nothing else. -/
structure ChunksHold (s : σ) (M : String → Option Chunk) : Prop where
  chunks_bucket : B.slot s [] chunksBucket = some .bucket
  definitions_bucket : B.slot s [] definitionsBucket = some .bucket
  chunk_at : ∀ p, B.slot s [chunksBucket] (Utf8.bytes p) =
    (M p).map fun c => .value (storedBytes c)
  chunk_keys : ∀ k, B.slot s [chunksBucket] k ≠ none → ∃ p, k = Utf8.bytes p

/-- The catalog's store holds the map `M` from paths to accepted chunks, each at its own path. -/
structure Holds (s : σ) (M : String → Option Chunk) : Prop extends
    ChunksHold B s M, IndexHolds B s M where
  accepted : ∀ p c, M p = some c → c.path = p ∧ Accepted c

end Holds

/-! ## Reading a store that holds a map -/

/-- Reading items one after another succeeds when each reads as what `g` gives it, and gives
those. -/
theorem mapM_eq_ok_filterMap {α β ε : Type} {f : α → Except ε β} {g : α → Option β} :
    ∀ {l : List α}, (∀ a ∈ l, ∃ b, g a = some b ∧ f a = .ok b) → l.mapM f = .ok (l.filterMap g)
  | [], _ => rfl
  | a :: l, h => by
    obtain ⟨b, hg, hf⟩ := h a List.mem_cons_self
    simp [List.mapM_cons, hf, hg, mapM_eq_ok_filterMap fun x hx => h x (List.mem_cons_of_mem _ hx),
      except_ok_bind, pure, Except.pure]

section Reading

variable {σ : Type} {B : Store σ} (hB : B.Laws) {s : σ} {M : String → Option Chunk}

/-- `Get` reads the chunk the map has at the path, or finds none. -/
theorem Holds.get_eq (h : Holds B s M) (p : String) :
    Catalog.get B s p = match M p with
      | some c => .ok c
      | none => .error (.notFound p) := by
  have hslot := h.chunk_at p
  cases hM : M p with
  | none =>
    rw [hM] at hslot
    simp [Catalog.get, get_eq_none_of_slot hslot (by simp)]
  | some c =>
    rw [hM] at hslot
    have henc := (h.accepted p c hM).2.2.2.1
    rw [Catalog.get, (get_eq_some_iff).2 hslot]
    dsimp only
    rw [decode_storedBytes henc]
    rfl

include hB

/-- `List` reads the chunks of the map, in increasing byte order of their paths. -/
theorem Holds.list_eq (h : Holds B s M) :
    ∃ cs, Catalog.list B s = .ok cs ∧ (cs.map fun c => Utf8.bytes c.path).Pairwise (· < ·) ∧
      ∀ c, c ∈ cs ↔ M c.path = some c := by
  -- each entry of the bucket of chunks is the stored chunk of the path its key spells
  have hentry : ∀ e ∈ B.entries s [chunksBucket], ∃ p c, e.1 = Utf8.bytes p ∧ M p = some c ∧
      e.2 = .value (storedBytes c) := by
    rintro ⟨k, x⟩ he
    have hslot := (hB.mem_entries_iff).1 he
    obtain ⟨p, rfl⟩ := h.chunk_keys k (by simp [hslot])
    rw [h.chunk_at p] at hslot
    obtain ⟨c, hc, hx⟩ := Option.map_eq_some_iff.1 hslot
    exact ⟨p, c, rfl, hc, hx.symm⟩
  refine ⟨_, mapM_eq_ok_filterMap (g := fun e => M (Utf8.lossy e.1)) fun e he => ?_, ?_, fun c => ?_⟩
  · obtain ⟨p, c, hk, hc, hx⟩ := hentry e he
    have henc := (h.accepted p c hc).2.2.2.1
    refine ⟨c, by rw [hk, Utf8.lossy_bytes, hc], ?_⟩
    obtain ⟨k, x⟩ := e
    simp only at hx
    simp [hx, decode_storedBytes henc, except_mapError_ok]
  · -- the paths are the keys, in the order the bucket lists them
    have hkeys : ((B.entries s [chunksBucket]).filterMap fun e => M (Utf8.lossy e.1)).map
        (fun c => Utf8.bytes c.path) = (B.entries s [chunksBucket]).map Prod.fst := by
      rw [List.map_filterMap]
      refine (List.filterMap_eq_map_iff_forall_eq_some.2 fun e he => ?_)
      obtain ⟨p, c, hk, hc, -⟩ := hentry e he
      simp [hk, Utf8.lossy_bytes, hc, (h.accepted p c hc).1]
    rw [hkeys]
    exact hB.sorted s [chunksBucket]
  · simp only [List.mem_filterMap]
    constructor
    · rintro ⟨e, he, hc⟩
      obtain ⟨p, c', hk, hc', -⟩ := hentry e he
      rw [hk, Utf8.lossy_bytes, hc'] at hc
      have hcc : c = c' := (Option.some.inj hc).symm
      subst hcc
      rw [(h.accepted p c hc').1]
      exact hc'
    · intro hc
      refine ⟨(Utf8.bytes c.path, .value (storedBytes c)), (hB.mem_entries_iff).2 ?_, ?_⟩
      · simp [h.chunk_at, hc]
      · simp [Utf8.lossy_bytes, hc]

/-- `DefinitionsNamed` lists the paths whose chunk defines the name, in increasing byte order. -/
theorem Holds.definitionsNamed_spec (h : Holds B s M) (name : String) :
    ((definitionsNamed B s name).map Utf8.bytes).Pairwise (· < ·) ∧
      ∀ p, p ∈ definitionsNamed B s name ↔ Defines M (Utf8.bytes name) p := by
  -- the name's bucket is there exactly when some chunk defines the name
  have hbucket : B.hasBucket s [definitionsBucket, Utf8.bytes name] = true ↔
      ∃ p, Defines M (Utf8.bytes name) p := by
    rw [hasBucket_pair, h.definitions_bucket, h.name_at]
    split <;> simp_all
  -- each key it lists is the bytes of a path whose chunk defines the name
  have hentry : ∀ e ∈ B.entries s [definitionsBucket, Utf8.bytes name],
      ∃ p, e.1 = Utf8.bytes p ∧ Defines M (Utf8.bytes name) p := by
    rintro ⟨k, x⟩ he
    have hslot := (hB.mem_entries_iff).1 he
    obtain ⟨p, rfl⟩ := h.index_keys (Utf8.bytes name) k (by simp [hslot])
    rw [h.index_at] at hslot
    exact ⟨p, rfl, by by_contra hd; simp [hd] at hslot⟩
  unfold definitionsNamed
  by_cases hex : ∃ p, Defines M (Utf8.bytes name) p
  · rw [if_pos (hbucket.2 hex)]
    refine ⟨?_, fun p => ?_⟩
    · have hkeys : ((B.entries s [definitionsBucket, Utf8.bytes name]).map
          fun e => Utf8.lossy e.1).map Utf8.bytes =
          (B.entries s [definitionsBucket, Utf8.bytes name]).map Prod.fst := by
        rw [List.map_map]
        refine List.map_congr_left fun e he => ?_
        obtain ⟨q, hk, -⟩ := hentry e he
        simp [hk, Utf8.lossy_bytes]
      rw [hkeys]
      exact hB.sorted _ _
    · simp only [List.mem_map]
      constructor
      · rintro ⟨e, he, rfl⟩
        obtain ⟨q, hk, hd⟩ := hentry e he
        rw [hk, Utf8.lossy_bytes]
        exact hd
      · intro hd
        refine ⟨(Utf8.bytes p, .value []), (hB.mem_entries_iff).2 ?_, Utf8.lossy_bytes p⟩
        rw [h.index_at, if_pos hd]
  · rw [if_neg fun hb => hex (hbucket.1 hb)]
    exact ⟨List.Pairwise.nil, fun p => by simpa using fun hd => hex ⟨p, hd⟩⟩

end Reading

/-! ## What one change of the store touches -/

theorem chunksBucket_ne_definitionsBucket : chunksBucket ≠ definitionsBucket := by decide

theorem definitionsBucket_ne_chunksBucket : definitionsBucket ≠ chunksBucket := by decide

section Regions

variable {σ : Type} {B : Store σ} {s s' : σ} {o : Option Slot}

/-- A change at a key of the bucket of chunks leaves the top and the index as they were. -/
theorem Sets.chunk_region {k₀ : List UInt8} (h : B.Sets s s' [chunksBucket] k₀ o) :
    (∀ k, B.slot s' [] k = B.slot s [] k) ∧
    (∀ k, B.slot s' [chunksBucket] k = if k = k₀ then o else B.slot s [chunksBucket] k) ∧
    (∀ n, B.slot s' [definitionsBucket] n = B.slot s [definitionsBucket] n) ∧
    ∀ n k, B.slot s' [definitionsBucket, n] k = B.slot s [definitionsBucket, n] k := by
  refine ⟨fun k => h.slot_other (by simp) (by simp), fun k => ?_,
    fun n => h.slot_other (by simp [definitionsBucket_ne_chunksBucket])
      (by simp [List.cons_prefix_cons, chunksBucket_ne_definitionsBucket]),
    fun n k => h.slot_other (by simp)
      (by simp [List.cons_prefix_cons, chunksBucket_ne_definitionsBucket])⟩
  by_cases hk : k = k₀
  · subst hk
    simp [h.slot_self]
  · rw [if_neg hk]
    exact h.slot_other (by simp [hk]) (by simp)

/-- A change at a key of the bucket of a name leaves everything but that slot as it was. -/
theorem Sets.index_region {n₀ k₀ : List UInt8} (h : B.Sets s s' [definitionsBucket, n₀] k₀ o) :
    (∀ k, B.slot s' [] k = B.slot s [] k) ∧
    (∀ k, B.slot s' [chunksBucket] k = B.slot s [chunksBucket] k) ∧
    (∀ n, B.slot s' [definitionsBucket] n = B.slot s [definitionsBucket] n) ∧
    ∀ n k, B.slot s' [definitionsBucket, n] k =
      if n = n₀ ∧ k = k₀ then o else B.slot s [definitionsBucket, n] k := by
  refine ⟨fun k => h.slot_other (by simp) (by simp),
    fun k => h.slot_other (by simp [chunksBucket_ne_definitionsBucket])
      (by simp [List.cons_prefix_cons]),
    fun n => h.slot_other (by simp) (by simp [List.cons_prefix_cons]), fun n k => ?_⟩
  by_cases hnk : n = n₀ ∧ k = k₀
  · obtain ⟨rfl, rfl⟩ := hnk
    simp [h.slot_self]
  · rw [if_neg hnk]
    exact h.slot_other (by simpa using hnk) (by simp [List.cons_prefix_cons])

/-- A change at a name of the index, after which the bucket of that name holds nothing, leaves
the rest of the index and the chunks as they were. -/
theorem Sets.name_region {n₀ : List UInt8} (h : B.Sets s s' [definitionsBucket] n₀ o)
    (hempty : ∀ k, B.slot s' [definitionsBucket, n₀] k = none) :
    (∀ k, B.slot s' [] k = B.slot s [] k) ∧
    (∀ k, B.slot s' [chunksBucket] k = B.slot s [chunksBucket] k) ∧
    (∀ n, B.slot s' [definitionsBucket] n = if n = n₀ then o else B.slot s [definitionsBucket] n) ∧
    ∀ n k, B.slot s' [definitionsBucket, n] k =
      if n = n₀ then none else B.slot s [definitionsBucket, n] k := by
  refine ⟨fun k => h.slot_other (by simp) (by simp),
    fun k => h.slot_other (by simp [chunksBucket_ne_definitionsBucket])
      (by simp [List.cons_prefix_cons]),
    fun n => ?_, fun n k => ?_⟩
  · by_cases hn : n = n₀
    · subst hn
      simp [h.slot_self]
    · rw [if_neg hn]
      exact h.slot_other (by simp [hn]) (by simp)
  · by_cases hn : n = n₀
    · subst hn
      simp [hempty]
    · rw [if_neg hn]
      exact h.slot_other (by simp) (by simp [List.cons_prefix_cons, Ne.symm hn])

end Regions

/-- The index holds a map as it holds any map whose chunks define the same names at the same
paths. -/
theorem IndexHolds.of_defines_iff {σ : Type} {B : Store σ} {s : σ}
    {M M' : String → Option Chunk} (h : IndexHolds B s M)
    (hiff : ∀ n q, Defines M' n q ↔ Defines M n q) : IndexHolds B s M' where
  name_at n := by
    rw [h.name_at]
    have hex : (∃ p, Defines M' n p) ↔ ∃ p, Defines M n p := exists_congr fun p => hiff n p
    by_cases hd : ∃ p, Defines M n p
    · rw [if_pos hd, if_pos (hex.2 hd)]
    · rw [if_neg hd, if_neg fun h' => hd (hex.1 h')]
  index_at n q := by
    rw [h.index_at]
    by_cases hd : Defines M n q
    · rw [if_pos hd, if_pos ((hiff n q).2 hd)]
    · rw [if_neg hd, if_neg fun h' => hd ((hiff n q).1 h')]
  index_keys := h.index_keys

/-! ## Opening and clearing -/

section Fresh

variable {σ : Type} {B : Store σ} (hB : B.Laws) {s : σ}
include hB

/-- A store whose two buckets are there and empty holds the empty map. -/
theorem holds_empty (hc : B.slot s [] chunksBucket = some .bucket)
    (hd : B.slot s [] definitionsBucket = some .bucket) (hce : B.entries s [chunksBucket] = [])
    (hde : B.entries s [definitionsBucket] = []) : Holds B s fun _ => none where
  chunks_bucket := hc
  definitions_bucket := hd
  chunk_at p := by simp [Laws.slot_of_entries_eq_nil hce]
  chunk_keys k hk := absurd (Laws.slot_of_entries_eq_nil hce k) hk
  name_at n := by simp [Laws.slot_of_entries_eq_nil hde, Defines]
  -- no name has a bucket, so nothing is below one
  index_at n p := by
    have hn : B.hasBucket s [definitionsBucket, n] = false := by
      simp [hasBucket_pair, hd, Laws.slot_of_entries_eq_nil hde]
    simp [hB.slot_of_hasBucket_eq_false hn, Defines]
  index_keys n k hk := by
    have hn : B.hasBucket s [definitionsBucket, n] = false := by
      simp [hasBucket_pair, hd, Laws.slot_of_entries_eq_nil hde]
    exact absurd (hB.slot_of_hasBucket_eq_false hn k) hk
  accepted p c h := by simp at h

/-- `Open` of an empty file makes both buckets, and the store holds the empty map. -/
theorem openIn_empty : ∃ s, Catalog.openIn B [] = .ok s ∧ Holds B s fun _ => none := by
  obtain ⟨s₀, h₀, hnone⟩ := hB.openFile_empty
  obtain ⟨s₁, h₁, hs₁, he₁⟩ := hB.createBucketIfNotExists_sets s₀ [] chunksBucket rfl (by decide)
    (hnone _ _)
  have hd₁ : B.slot s₁ [] definitionsBucket = none := by
    rw [hs₁.slot_other (by simp [definitionsBucket_ne_chunksBucket]) (by simp), hnone]
  obtain ⟨s₂, h₂, hs₂, he₂⟩ := hB.createBucketIfNotExists_sets s₁ [] definitionsBucket rfl
    (by decide) hd₁
  -- the index's making leaves the bucket of chunks as it was made
  have hc₂ : B.slot s₂ [] chunksBucket = some .bucket := by
    rw [hs₂.slot_other (by simp [chunksBucket_ne_definitionsBucket]) (by simp), hs₁.slot_self]
  have hce₂ : B.entries s₂ [chunksBucket] = [] :=
    (hB.entries_congr fun k => hs₂.slot_other (by simp)
      (by simp [List.cons_prefix_cons, definitionsBucket_ne_chunksBucket])).trans he₁
  refine ⟨s₂, ?_, holds_empty hB hc₂ hs₂.slot_self hce₂ he₂⟩
  simp [Catalog.openIn, h₀, hB.update_eq, ensureBucket, h₁, h₂, except_ok_bind,
    except_mapError_ok]

/-- `Clear` of a store whose two buckets are there remakes both empty: the store holds the
empty map. -/
theorem clear_spec (hc : B.slot s [] chunksBucket = some .bucket)
    (hd : B.slot s [] definitionsBucket = some .bucket) :
    ∃ s', Catalog.clear B s = (s', none) ∧ Holds B s' fun _ => none := by
  obtain ⟨s₁, h₁, hs₁⟩ := hB.deleteBucket_sets s [] chunksBucket rfl hc
  obtain ⟨s₂, h₂, hs₂, he₂⟩ := hB.createBucket_sets s₁ [] chunksBucket rfl (by decide)
    hs₁.slot_self
  have hd₂ : B.slot s₂ [] definitionsBucket = some .bucket := by
    rw [hs₂.slot_other (by simp [definitionsBucket_ne_chunksBucket]) (by simp),
      hs₁.slot_other (by simp [definitionsBucket_ne_chunksBucket]) (by simp), hd]
  obtain ⟨s₃, h₃, hs₃⟩ := hB.deleteBucket_sets s₂ [] definitionsBucket rfl hd₂
  obtain ⟨s₄, h₄, hs₄, he₄⟩ := hB.createBucket_sets s₃ [] definitionsBucket rfl (by decide)
    hs₃.slot_self
  -- remaking the index leaves the bucket of chunks as it was remade
  have hc₄ : B.slot s₄ [] chunksBucket = some .bucket := by
    rw [hs₄.slot_other (by simp [chunksBucket_ne_definitionsBucket]) (by simp),
      hs₃.slot_other (by simp [chunksBucket_ne_definitionsBucket]) (by simp), hs₂.slot_self]
  have hce₄ : B.entries s₄ [chunksBucket] = [] := by
    have hframe : ∀ k, B.slot s₄ [chunksBucket] k = B.slot s₂ [chunksBucket] k := fun k => by
      rw [hs₄.slot_other (by simp) (by simp [List.cons_prefix_cons, definitionsBucket_ne_chunksBucket]),
        hs₃.slot_other (by simp) (by simp [List.cons_prefix_cons, definitionsBucket_ne_chunksBucket])]
    exact (hB.entries_congr hframe).trans he₂
  refine ⟨s₄, ?_, holds_empty hB hc₄ hs₄.slot_self hce₄ he₄⟩
  simp [Catalog.clear, hB.update_eq, lift, h₁, h₂, h₃, h₄, except_ok_bind, except_mapError_ok]

end Fresh

/-! ## Taking a path out of the index -/

/-- The bucket of chunks holds a map as before when the top and its slots are as before. -/
theorem ChunksHold.congr {σ : Type} {B : Store σ} {s s' : σ} {M : String → Option Chunk}
    (h : ChunksHold B s M) (htop : ∀ k, B.slot s' [] k = B.slot s [] k)
    (hchunk : ∀ k, B.slot s' [chunksBucket] k = B.slot s [chunksBucket] k) : ChunksHold B s' M where
  chunks_bucket := (htop _).trans h.chunks_bucket
  definitions_bucket := (htop _).trans h.definitions_bucket
  chunk_at p := (hchunk _).trans (h.chunk_at p)
  chunk_keys k hk := h.chunk_keys k (by rwa [← hchunk])

section Unindex

variable {M : String → Option Chunk} {name : List UInt8} {p : String}

/-- Taking out a path whose chunk defines only `name` changes no other name's paths. -/
theorem defines_update_none_of_ne (honly : ∀ n, Defines M n p → n = name) {n : List UInt8}
    (hn : n ≠ name) (q : String) : Defines (Function.update M p none) n q ↔ Defines M n q := by
  rw [defines_update_none]
  refine ⟨fun hd => hd.2, fun hd => ⟨fun e => hn (honly n (e ▸ hd)), hd⟩⟩

variable {σ : Type} {B : Store σ} {s s₁ s₂ : σ}

/-- Deleting the path's key from the bucket of its only name, which other paths are still listed
under, leaves the index holding the map without the path. -/
theorem IndexHolds.delete_key (h : IndexHolds B s M) (honly : ∀ n, Defines M n p → n = name)
    (hs₁ : B.Sets s s₁ [definitionsBucket, name] (Utf8.bytes p) none)
    (hrest : ∃ q, Defines (Function.update M p none) name q) :
    IndexHolds B s₁ (Function.update M p none) := by
  obtain ⟨-, -, hname₁, hindex₁⟩ := Sets.index_region hs₁
  -- a name has paths left exactly when it had some
  have hex : ∀ n, (∃ q, Defines (Function.update M p none) n q) ↔ ∃ q, Defines M n q := by
    intro n
    by_cases hn : n = name
    · subst hn
      exact ⟨fun _ => ⟨_, ((defines_update_none).1 hrest.choose_spec).2⟩, fun _ => hrest⟩
    · exact exists_congr (defines_update_none_of_ne honly hn)
  refine ⟨fun n => ?_, fun n q => ?_, fun n k hk => ?_⟩
  · rw [hname₁, h.name_at]
    by_cases hd : ∃ q, Defines M n q
    · rw [if_pos hd, if_pos ((hex n).2 hd)]
    · rw [if_neg hd, if_neg fun h' => hd ((hex n).1 h')]
  · rw [hindex₁, defines_update_none]
    by_cases hq : q = p
    · subst hq
      by_cases hn : n = name
      · simp [hn]
      · rw [if_neg fun e => hn e.1, h.index_at, if_neg fun hd => hn (honly n hd)]
        simp
    · have hk : Utf8.bytes q ≠ Utf8.bytes p := fun e => hq (Utf8.bytes_injective e)
      rw [if_neg fun e => hk e.2, h.index_at]
      by_cases hd : Defines M n q
      · rw [if_pos hd, if_pos ⟨hq, hd⟩]
      · rw [if_neg hd, if_neg fun h' => hd h'.2]
  · rw [hindex₁] at hk
    split at hk
    · exact absurd rfl hk
    · exact h.index_keys n k hk

variable (hB : B.Laws)
include hB

/-- Once the path's key is deleted from the bucket of `name`, the bucket is empty exactly when
no other path is listed under the name. -/
theorem isEmpty_index_iff (h : IndexHolds B s M)
    (hs₁ : B.Sets s s₁ [definitionsBucket, name] (Utf8.bytes p) none) :
    (B.entries s₁ [definitionsBucket, name]).isEmpty = true ↔
      ∀ q, ¬ Defines (Function.update M p none) name q := by
  obtain ⟨-, -, -, hindex₁⟩ := Sets.index_region hs₁
  rw [List.isEmpty_iff, hB.entries_eq_nil_iff]
  simp only [hindex₁, true_and, defines_update_none]
  constructor
  · rintro hnone q ⟨hqp, hq⟩
    have hk : Utf8.bytes q ≠ Utf8.bytes p := fun e => hqp (Utf8.bytes_injective e)
    have := hnone (Utf8.bytes q)
    rw [if_neg hk, h.index_at, if_pos hq] at this
    cases this
  · intro hno k
    split
    · rfl
    · rename_i hk
      by_contra hslot
      obtain ⟨q, rfl⟩ := h.index_keys name _ hslot
      rw [h.index_at] at hslot
      have hq : Defines M name q := by
        by_contra hq
        rw [if_neg hq] at hslot
        exact hslot rfl
      exact hno q ⟨fun e => hk (e ▸ rfl), hq⟩

/-- Deleting the path's key from the bucket of its only name, and then the bucket, which no
other path is listed under, leaves the index holding the map without the path. -/
theorem IndexHolds.delete_bucket (h : IndexHolds B s M) (honly : ∀ n, Defines M n p → n = name)
    (hs₁ : B.Sets s s₁ [definitionsBucket, name] (Utf8.bytes p) none)
    (hs₂ : B.Sets s₁ s₂ [definitionsBucket] name none)
    (hnone : ∀ q, ¬ Defines (Function.update M p none) name q) :
    IndexHolds B s₂ (Function.update M p none) := by
  obtain ⟨-, -, hname₁, hindex₁⟩ := Sets.index_region hs₁
  obtain ⟨-, -, hname₂, hindex₂⟩ := Sets.name_region hs₂ (hB.slot_below_of_sets_none hs₂)
  refine ⟨fun n => ?_, fun n q => ?_, fun n k hk => ?_⟩
  · rw [hname₂]
    by_cases hn : n = name
    · subst hn
      rw [if_pos rfl, if_neg fun ⟨q, hq⟩ => hnone q hq]
    · rw [if_neg hn, hname₁, h.name_at]
      have hex := exists_congr (defines_update_none_of_ne honly hn)
      by_cases hd : ∃ q, Defines M n q
      · rw [if_pos hd, if_pos (hex.2 hd)]
      · rw [if_neg hd, if_neg fun h' => hd (hex.1 h')]
  · rw [hindex₂]
    by_cases hn : n = name
    · subst hn
      rw [if_pos rfl, if_neg (hnone q)]
    · rw [if_neg hn, hindex₁, if_neg fun e => hn e.1, h.index_at,
        ← defines_update_none_of_ne honly hn q]
  · rw [hindex₂] at hk
    split at hk
    · exact absurd rfl hk
    · rw [hindex₁, if_neg fun e => ‹¬n = name› e.1] at hk
      exact h.index_keys n k hk

/-- Taking a path out of the index leaves the chunks as they are, and the index then holds the
map without the path. -/
theorem unindex_spec (h : Holds B s M) (p : String) :
    ∃ s₁, unindex B s (Utf8.bytes p) p = .ok s₁ ∧ ChunksHold B s₁ M ∧
      IndexHolds B s₁ (Function.update M p none) := by
  cases hM : M p with
  | none =>
    have hget : B.get s [chunksBucket] (Utf8.bytes p) = none :=
      get_eq_none_of_slot (h.chunk_at p) (by simp [hM])
    refine ⟨s, by rw [unindex, hget], h.toChunksHold, ?_⟩
    have hsame : Function.update M p none = M := Function.update_eq_self_iff.2 hM.symm
    rw [hsame]
    exact h.toIndexHolds
  | some old =>
    obtain ⟨-, hacc⟩ := h.accepted p old hM
    have hget : B.get s [chunksBucket] (Utf8.bytes p) = some (storedBytes old) :=
      get_eq_some_iff.2 (by rw [h.chunk_at, hM]; rfl)
    have hdec := decode_storedBytes hacc.2.2.1
    -- the stored bytes read back as the old chunk, whose definition decides
    rw [unindex, hget]
    dsimp only
    rw [hdec]
    dsimp only
    cases hdef : old.definition with
    | error e =>
      -- the old chunk defines nothing, so no name lists the path
      refine ⟨s, rfl, h.toChunksHold,
        h.toIndexHolds.of_defines_iff fun n q => ?_⟩
      rw [defines_update_none]
      refine ⟨fun hd => hd.2, fun hd => ⟨?_, hd⟩⟩
      rintro rfl
      obtain ⟨d, hd, -⟩ := (defines_iff_of_eq hM n).1 hd
      rw [hdef] at hd
      cases hd
    | ok d =>
      -- the path is listed under the name its chunk defines, and only there
      have hp : Defines M (Utf8.bytes d.name) p := (defines_iff_of_eq hM _).2 ⟨d, hdef, rfl⟩
      have honly : ∀ n, Defines M n p → n = Utf8.bytes d.name := by
        intro n hn
        obtain ⟨d', hd', rfl⟩ := (defines_iff_of_eq hM n).1 hn
        rw [hdef, Except.ok.injEq] at hd'
        rw [hd']
      have hname : ∃ q, Defines M (Utf8.bytes d.name) q := ⟨p, hp⟩
      have hbucket : B.hasBucket s [definitionsBucket, Utf8.bytes d.name] = true := by
        simp [hasBucket_pair, h.definitions_bucket, h.name_at, hname]
      obtain ⟨s₁, hdel, hs₁⟩ := hB.delete_sets s [definitionsBucket, Utf8.bytes d.name]
        (Utf8.bytes p) hbucket (by simp [h.index_at, hp])
      obtain ⟨htop₁, hchunk₁, hname₁, -⟩ := Sets.index_region hs₁
      have hchunks₁ := h.toChunksHold.congr htop₁ hchunk₁
      have hempty := isEmpty_index_iff hB h.toIndexHolds hs₁
      by_cases he : (B.entries s₁ [definitionsBucket, Utf8.bytes d.name]).isEmpty = true
      · -- no other path is listed under the name: its bucket goes too
        obtain ⟨s₂, hdb, hs₂⟩ := hB.deleteBucket_sets s₁ [definitionsBucket] (Utf8.bytes d.name)
          (by simp [hasBucket_singleton, htop₁, h.definitions_bucket])
          (by rw [hname₁, h.name_at, if_pos hname])
        obtain ⟨htop₂, hchunk₂, -, -⟩ := Sets.name_region hs₂ (hB.slot_below_of_sets_none hs₂)
        refine ⟨s₂, ?_, hchunks₁.congr htop₂ hchunk₂,
          h.toIndexHolds.delete_bucket hB honly hs₁ hs₂ (hempty.1 he)⟩
        simp [hbucket, lift, hdel, List.isEmpty_iff.1 he, hdb, except_ok_bind, except_mapError_ok]
      · refine ⟨s₁, ?_, hchunks₁,
          h.toIndexHolds.delete_key honly hs₁ (not_forall_not.1 (mt hempty.2 he))⟩
        simp [hbucket, lift, hdel, mt List.isEmpty_iff.2 he, except_ok_bind, except_mapError_ok,
          pure, Except.pure]

end Unindex

/-! ## Storing and removing a chunk -/

section Frames

variable {σ : Type} {B : Store σ} {s s' : σ} {M : String → Option Chunk} {p : String}

/-- The index holds a map as before when its names and their buckets are as before. -/
theorem IndexHolds.congr (h : IndexHolds B s M)
    (hname : ∀ n, B.slot s' [definitionsBucket] n = B.slot s [definitionsBucket] n)
    (hindex : ∀ n k, B.slot s' [definitionsBucket, n] k = B.slot s [definitionsBucket, n] k) :
    IndexHolds B s' M where
  name_at n := (hname n).trans (h.name_at n)
  index_at n q := (hindex n _).trans (h.index_at n q)
  index_keys n k hk := h.index_keys n k (by rwa [← hindex])

/-- The bucket of chunks is there to put into. -/
theorem ChunksHold.hasBucket_chunks (h : ChunksHold B s M) :
    B.hasBucket s [chunksBucket] = true := by
  simp [hasBucket_singleton, h.chunks_bucket]

/-- The key of a path among the chunks holds a chunk's bytes or nothing, never a bucket. -/
theorem ChunksHold.slot_ne_bucket (h : ChunksHold B s M) (q : String) :
    B.slot s [chunksBucket] (Utf8.bytes q) ≠ some .bucket := by
  rw [h.chunk_at]
  cases M q <;> simp

/-- Setting the slot of a path in the bucket of chunks to the bytes stored for `o` makes the
bucket hold the map with `o` at the path. -/
theorem ChunksHold.set (h : ChunksHold B s M) {o : Option Chunk}
    (hs : B.Sets s s' [chunksBucket] (Utf8.bytes p) (o.map fun c => .value (storedBytes c))) :
    ChunksHold B s' (Function.update M p o) := by
  obtain ⟨htop, hchunk, -, -⟩ := Sets.chunk_region hs
  refine ⟨(htop _).trans h.chunks_bucket, (htop _).trans h.definitions_bucket, fun q => ?_,
    fun k hk => ?_⟩
  · rw [hchunk]
    by_cases hq : q = p
    · subst hq
      simp
    · rw [if_neg fun e => hq (Utf8.bytes_injective e), h.chunk_at, Function.update_of_ne hq]
  · rw [hchunk] at hk
    split at hk
    · exact ⟨p, ‹_›⟩
    · exact h.chunk_keys k hk

/-- The paths of a map keep their accepted chunks when one path is set to an accepted chunk of
its own, or to nothing. -/
theorem accepted_update (h : ∀ q c, M q = some c → c.path = q ∧ Accepted c) {o : Option Chunk}
    (ho : ∀ c, o = some c → c.path = p ∧ Accepted c) :
    ∀ q c, Function.update M p o q = some c → c.path = q ∧ Accepted c := by
  intro q c hq
  by_cases e : q = p
  · subst e
    rw [Function.update_self] at hq
    exact ho c hq
  · rw [Function.update_of_ne e] at hq
    exact h q c hq

/-- Where a stored chunk defines a name: a chunk at its path that defines `d`. -/
theorem defines_update_defined {c : Chunk} {d : Signature} (hdef : c.definition = .ok d)
    (n : List UInt8) (q : String) :
    Defines (Function.update M p (some c)) n q ↔
      (q = p ∧ n = Utf8.bytes d.name) ∨ Defines (Function.update M p none) n q := by
  rw [defines_update_some, defines_update_none]
  by_cases hq : q = p
  · simp [hq, hdef, eq_comm]
  · simp [hq]

/-- A stored chunk that defines nothing: the same names as with nothing at its path. -/
theorem defines_update_undefined {c : Chunk} {e : String} (hdef : c.definition = .error e)
    (n : List UInt8) (q : String) :
    Defines (Function.update M p (some c)) n q ↔ Defines (Function.update M p none) n q := by
  rw [defines_update_some, defines_update_none]
  by_cases hq : q = p
  · simp [hq, hdef]
  · simp [hq]

open Classical in
/-- Listing a path under a name, the name's bucket made if need be, makes the index hold a map
in which the path defines the name besides what the map it held defines. -/
theorem IndexHolds.add (h : IndexHolds B s M) {name : List UInt8} {M' : String → Option Chunk}
    (hM' : ∀ n q, Defines M' n q ↔ (q = p ∧ n = name) ∨ Defines M n q)
    (hname : ∀ n, B.slot s' [definitionsBucket] n =
      if n = name then some .bucket else B.slot s [definitionsBucket] n)
    (hindex : ∀ n k, B.slot s' [definitionsBucket, n] k =
      if n = name ∧ k = Utf8.bytes p then some (.value []) else B.slot s [definitionsBucket, n] k) :
    IndexHolds B s' M' := by
  refine ⟨fun n => ?_, fun n q => ?_, fun n k hk => ?_⟩
  · rw [hname]
    by_cases hn : n = name
    · rw [if_pos hn, if_pos ⟨p, (hM' n p).2 (Or.inl ⟨rfl, hn⟩)⟩]
    · rw [if_neg hn, h.name_at]
      exact if_congr (exists_congr fun q => by simp [hM', hn]) rfl rfl
  · rw [hindex, h.index_at]
    by_cases hnq : n = name ∧ q = p
    · obtain ⟨rfl, rfl⟩ := hnq
      rw [if_pos ⟨rfl, rfl⟩, if_pos ((hM' _ _).2 (Or.inl ⟨rfl, rfl⟩))]
    · have hk : ¬ (n = name ∧ Utf8.bytes q = Utf8.bytes p) := fun ⟨hn, e⟩ =>
        hnq ⟨hn, Utf8.bytes_injective e⟩
      rw [if_neg hk]
      have hd : Defines M' n q ↔ Defines M n q := by
        rw [hM', or_iff_right]
        exact fun h' => hnq ⟨h'.2, h'.1⟩
      exact if_congr hd.symm rfl rfl
  · rw [hindex] at hk
    split at hk
    · exact ⟨p, ‹_ ∧ _›.2⟩
    · exact h.index_keys n k hk

end Frames

section Steps

variable {σ : Type} {B : Store σ} (hB : B.Laws) {s : σ} {M : String → Option Chunk}
include hB

/-- Making the bucket of a name leaves every slot as it was but the name's own, which then
holds a bucket: when the index holds a map, the name holds a bucket or nothing. -/
theorem IndexHolds.createName (h : IndexHolds B s M) {name : List UInt8}
    (hd : B.slot s [] definitionsBucket = some .bucket) (hn : name ≠ []) :
    ∃ s', B.createBucketIfNotExists s [definitionsBucket] name = .ok s' ∧
      (∀ k, B.slot s' [] k = B.slot s [] k) ∧
      (∀ k, B.slot s' [chunksBucket] k = B.slot s [chunksBucket] k) ∧
      (∀ n, B.slot s' [definitionsBucket] n =
        if n = name then some .bucket else B.slot s [definitionsBucket] n) ∧
      ∀ n k, B.slot s' [definitionsBucket, n] k = B.slot s [definitionsBucket, n] k := by
  have hdefs : B.hasBucket s [definitionsBucket] = true := by simp [hasBucket_singleton, hd]
  cases hslot : B.slot s [definitionsBucket] name with
  | none =>
    obtain ⟨s', hc, hs, he⟩ :=
      hB.createBucketIfNotExists_sets s [definitionsBucket] name hdefs hn hslot
    obtain ⟨htop, hchunk, hname, hindex⟩ :=
      Sets.name_region hs (fun k => Laws.slot_of_entries_eq_nil he k)
    refine ⟨s', hc, htop, hchunk, hname, fun n k => ?_⟩
    rw [hindex]
    split
    · -- the name had no bucket, so nothing was below it
      subst n
      exact (hB.slot_of_hasBucket_eq_false (by simp [hasBucket_pair, hd, hslot]) k).symm
    · rfl
  | some x =>
    cases x with
    | bucket =>
      obtain ⟨s', hc, hsame⟩ :=
        hB.createBucketIfNotExists_keeps s [definitionsBucket] name hdefs hn hslot
      refine ⟨s', hc, fun k => hsame _ _, fun k => hsame _ _, fun n => ?_, fun n k => hsame _ _⟩
      rw [hsame]
      split
      · subst n
        exact hslot
      · rfl
    | value v =>
      have hat := h.name_at name
      rw [hslot] at hat
      split at hat <;> cases hat

/-- `Put` of an accepted chunk succeeds, and the store then holds the map with the chunk at its
path. -/
theorem put_spec (h : Holds B s M) {c : Chunk} (hc : Accepted c) :
    ∃ s', Catalog.put B s c = (s', none) ∧ Holds B s' (Function.update M c.path (some c)) := by
  obtain ⟨hpath, hlen, henc, hname⟩ := hc
  have hkey := bytes_ne_nil hpath
  have haccepted := accepted_update h.accepted (o := some c) fun c' e => by
    cases e
    exact ⟨rfl, hpath, hlen, henc, hname⟩
  obtain ⟨s₁, hun, hchunks₁, hindex₁⟩ := unindex_spec hB h c.path
  -- the chunk's bytes go in at its path
  obtain ⟨s₂, hput₂, hs₂⟩ := hB.put_sets s₁ [chunksBucket] (Utf8.bytes c.path) (storedBytes c)
    hchunks₁.hasBucket_chunks hkey hlen (hchunks₁.slot_ne_bucket c.path)
  have hchunks₂ : ChunksHold B s₂ (Function.update M c.path (some c)) := hchunks₁.set hs₂
  obtain ⟨-, -, hname₂, hindex₂⟩ := Sets.chunk_region hs₂
  have hindex₂' := hindex₁.congr hname₂ hindex₂
  -- the chunk has its bytes, so the transaction runs
  rw [Catalog.put, encode_eq_storedBytes henc]
  dsimp only
  cases hdef : c.definition with
  | error e =>
    refine ⟨s₂, ?_, ⟨hchunks₂, hindex₂'.of_defines_iff (defines_update_undefined hdef),
      haccepted⟩⟩
    simp [hB.update_eq, hun, lift, hput₂, except_ok_bind, except_mapError_ok, pure, Except.pure]
  | ok d =>
    -- the path goes in under the name, whose bucket is made if need be
    obtain ⟨s₃, hcr₃, htop₃, hchunk₃, hname₃, hindex₃⟩ :=
      hindex₂'.createName hB hchunks₂.definitions_bucket (bytes_ne_nil (hname d hdef))
    obtain ⟨s₄, hput₄, hs₄⟩ := hB.put_sets s₃ [definitionsBucket, Utf8.bytes d.name]
      (Utf8.bytes c.path) [] (by simp [hasBucket_pair, htop₃, hchunks₂.definitions_bucket, hname₃])
      hkey hlen (by rw [hindex₃, hindex₂'.index_at]; split <;> simp)
    obtain ⟨htop₄, hchunk₄, hname₄, hindex₄⟩ := Sets.index_region hs₄
    refine ⟨s₄, ?_, ⟨hchunks₂.congr (fun k => (htop₄ k).trans (htop₃ k))
      (fun k => (hchunk₄ k).trans (hchunk₃ k)), hindex₂'.add (defines_update_defined hdef)
      (fun n => (hname₄ n).trans (hname₃ n)) (fun n k => by rw [hindex₄, hindex₃]), haccepted⟩⟩
    simp [hB.update_eq, hun, lift, hput₂, hcr₃, hput₄, except_ok_bind, except_mapError_ok]

/-- `Put` of a chunk the catalog does not accept fails, and leaves the store as it was. -/
theorem put_refused (h : Holds B s M) {c : Chunk} (hc : ¬ Accepted c) :
    ∃ e, Catalog.put B s c = (s, some e) := by
  by_cases henc : c.Encodable
  swap
  · -- a chunk with no JSON form is refused before the transaction
    obtain ⟨e, he⟩ : ∃ e, c.encode = .error e := by
      cases hx : c.encode with
      | ok bs => exact absurd ((c.encode_isOk_iff).1 ⟨bs, hx⟩) henc
      | error e => exact ⟨e, rfl⟩
    rw [Catalog.put, he]
    exact ⟨e, rfl⟩
  rw [Catalog.put, encode_eq_storedBytes henc]
  dsimp only
  obtain ⟨s₁, hun, hchunks₁, -⟩ := unindex_spec hB h c.path
  by_cases hpath : c.path = ""
  · rw [hpath, Utf8.bytes_empty] at hun
    simp [hB.update_eq, hun, lift, hpath, hB.put_keyRequired, except_ok_bind, except_error_bind,
      except_mapError_error]
  by_cases hlen : (Utf8.bytes c.path).length ≤ maxKeySize
  swap
  · simp [hB.update_eq, hun, lift, hB.put_keyTooLarge _ _ _ _ (Nat.lt_of_not_le hlen),
      except_ok_bind, except_error_bind, except_mapError_error]
  -- only the definition's name can be at fault: the bucket of an empty name is refused
  obtain ⟨d, hdef, hname⟩ : ∃ d, c.definition = .ok d ∧ d.name = "" := by
    by_contra hno
    simp only [not_exists, not_and] at hno
    exact hc ⟨hpath, hlen, henc, hno⟩
  obtain ⟨s₂, hput₂, -⟩ := hB.put_sets s₁ [chunksBucket] (Utf8.bytes c.path) (storedBytes c)
    hchunks₁.hasBucket_chunks (bytes_ne_nil hpath) hlen (hchunks₁.slot_ne_bucket c.path)
  simp [hB.update_eq, hun, lift, hput₂, hdef, hname, hB.createBucketIfNotExists_nameRequired,
    except_ok_bind, except_error_bind, except_mapError_ok, except_mapError_error]

/-- `Delete` succeeds, and the store then holds the map without the path. -/
theorem delete_spec (h : Holds B s M) (p : String) :
    ∃ s', Catalog.delete B s p = (s', none) ∧ Holds B s' (Function.update M p none) := by
  obtain ⟨s₁, hun, hchunks₁, hindex₁⟩ := unindex_spec hB h p
  obtain ⟨s₂, hdel, hs₂⟩ := hB.delete_sets s₁ [chunksBucket] (Utf8.bytes p)
    hchunks₁.hasBucket_chunks (hchunks₁.slot_ne_bucket p)
  obtain ⟨-, -, hname₂, hindex₂⟩ := Sets.chunk_region hs₂
  refine ⟨s₂, ?_, ⟨hchunks₁.set (o := none) hs₂, hindex₁.congr hname₂ hindex₂,
    accepted_update h.accepted (by simp)⟩⟩
  simp [Catalog.delete, hB.update_eq, hun, lift, hdel, except_ok_bind, except_mapError_ok]

end Steps

/-! ## Opening a catalog again -/

section Reopen

variable {σ : Type} {B : Store σ} (hB : B.Laws) {s s' : σ} {M : String → Option Chunk}

/-- A store that holds what another holds holds the same map. -/
theorem Holds.of_same (h : Holds B s M) (hs : B.Same s s') : Holds B s' M :=
  ⟨h.toChunksHold.congr (fun _ => hs _ _) (fun _ => hs _ _),
    h.toIndexHolds.congr (fun _ => hs _ _) (fun _ _ => hs _ _), h.accepted⟩

include hB

/-- Making a bucket at the top, when it succeeds, leaves a bucket there and the other keys of
the top as they were. -/
theorem slot_of_createBucketIfNotExists {k : List UInt8}
    (h : B.createBucketIfNotExists s [] k = .ok s') (hk : k ≠ []) :
    B.slot s' [] k = some .bucket ∧ ∀ k', k' ≠ k → B.slot s' [] k' = B.slot s [] k' := by
  cases hslot : B.slot s [] k with
  | none =>
    obtain ⟨s'', hc, hs, -⟩ := hB.createBucketIfNotExists_sets s [] k rfl hk hslot
    rw [hc] at h
    cases h
    exact ⟨hs.slot_self, fun k' hne => hs.slot_other (by simp [hne]) (by simp)⟩
  | some x =>
    cases x with
    | bucket =>
      obtain ⟨s'', hc, hsame⟩ := hB.createBucketIfNotExists_keeps s [] k rfl hk hslot
      rw [hc] at h
      cases h
      exact ⟨(hsame _ _).trans hslot, fun k' _ => hsame _ _⟩
    | value v =>
      rw [hB.createBucketIfNotExists_incompatible s [] k v rfl hk hslot] at h
      cases h

/-- A catalog that opens has both its buckets. -/
theorem openIn_buckets {bytes : List UInt8} (h : Catalog.openIn B bytes = .ok s) :
    B.slot s [] chunksBucket = some .bucket ∧ B.slot s [] definitionsBucket = some .bucket := by
  -- the file opens, and both buckets are made in one transaction
  cases hf : B.openFile bytes with
  | error e => simp [Catalog.openIn, hf, except_error_bind, except_mapError_error] at h
  | ok s₀ =>
    cases h₁ : B.createBucketIfNotExists s₀ [] chunksBucket with
    | error e =>
      simp [Catalog.openIn, hf, hB.update_eq, ensureBucket, h₁, except_ok_bind, except_error_bind,
        except_mapError_ok, except_mapError_error] at h
    | ok s₁ =>
      cases h₂ : B.createBucketIfNotExists s₁ [] definitionsBucket with
      | error e =>
        simp [Catalog.openIn, hf, hB.update_eq, ensureBucket, h₁, h₂, except_ok_bind,
          except_mapError_ok, except_mapError_error] at h
      | ok s₂ =>
        simp [Catalog.openIn, hf, hB.update_eq, ensureBucket, h₁, h₂, except_ok_bind,
          except_mapError_ok] at h
        subst h
        obtain ⟨hc₁, -⟩ := slot_of_createBucketIfNotExists hB h₁ (by decide)
        obtain ⟨hd₂, hother⟩ := slot_of_createBucketIfNotExists hB h₂ (by decide)
        exact ⟨(hother _ chunksBucket_ne_definitionsBucket).trans hc₁, hd₂⟩

/-- The file of a store that holds a map opens as a catalog that holds the map. -/
theorem openIn_file (h : Holds B s M) :
    ∃ s', Catalog.openIn B (B.file s) = .ok s' ∧ Holds B s' M := by
  obtain ⟨s₀, hf, hsame₀⟩ := hB.openFile_file s
  have h₀ := h.of_same hsame₀
  -- both buckets are there, so making them keeps the store as it is
  obtain ⟨s₁, h₁, hsame₁⟩ :=
    hB.createBucketIfNotExists_keeps s₀ [] chunksBucket rfl (by decide) h₀.chunks_bucket
  have h₁' := h₀.of_same hsame₁
  obtain ⟨s₂, h₂, hsame₂⟩ :=
    hB.createBucketIfNotExists_keeps s₁ [] definitionsBucket rfl (by decide) h₁'.definitions_bucket
  refine ⟨s₂, ?_, h₁'.of_same hsame₂⟩
  simp [Catalog.openIn, hf, hB.update_eq, ensureBucket, h₁, h₂, except_ok_bind,
    except_mapError_ok]

end Reopen

end Catalog

end ShaderHeaders
