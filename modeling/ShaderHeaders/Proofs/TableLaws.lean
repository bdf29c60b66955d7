import ShaderHeaders.Store.Table
import ShaderHeaders.Proofs.JsonText

/-!
# The table keeps the store's laws

The store the program runs with, `Bolt.table`, does what the store documents (`table_laws`).
A change sets one slot of one row and, when it makes or removes a bucket, drops the rows below
it; a bucket is there when the slots on its way hold buckets. So a slot reads as set, and any
other slot outside the bucket below it reads as before, since its way does not pass through
the slot set (`Table.sets_of_rowSlot`). The file of a table is its rows as compact JSON after a
mark, and it reads back as the same rows (`Table.openFile_file`).
-/

namespace ShaderHeaders.Bolt

/-! ## Entries in increasing order of key -/

/-- No key below the first of increasing entries is among them. -/
theorem find?_eq_none_of_lt {k k₀ : List UInt8} {x : Slot} {rest : List (List UInt8 × Slot)}
    (h : Increasing ((k₀, x) :: rest)) (hk : k < k₀) :
    ((k₀, x) :: rest).find? (·.1 == k) = none := by
  simp only [Increasing, List.map_cons, List.pairwise_cons, List.mem_map] at h
  rw [List.find?_eq_none]
  rintro ⟨k', y⟩ hmem hkk
  simp only [beq_iff_eq] at hkk
  subst hkk
  rcases List.mem_cons.1 hmem with he | hmem
  · cases he
    exact List.lt_irrefl _ hk
  · exact List.lt_irrefl _ (List.lt_trans hk (h.1 _ ⟨_, hmem, rfl⟩))

/-- After setting a slot, the key set reads as set, and every other key as before. -/
theorem find?_setEntry {es : List (List UInt8 × Slot)} (h : Increasing es) (k : List UInt8)
    (o : Option Slot) (k' : List UInt8) :
    ((setEntry k o es).find? (·.1 == k')).map (·.2) =
      if k' = k then o else (es.find? (·.1 == k')).map (·.2) := by
  induction es with
  | nil => cases o <;> by_cases hk : k' = k <;> simp [setEntry, hk, Ne.symm]
  | cons e rest ih =>
    obtain ⟨k₀, x⟩ := e
    have hrest : Increasing rest := (List.pairwise_cons.1 h).2
    unfold setEntry
    split
    · rename_i hlt
      -- `k` goes first, below every key there
      by_cases hk : k' = k
      · subst hk
        cases o <;> simp [find?_eq_none_of_lt h hlt]
      · have hne : (k == k') = false := beq_false_of_ne (Ne.symm hk)
        cases o <;> simp [hk, hne]
    split
    · rename_i heq
      subst heq
      -- `k` replaces the first key; the keys after it are above it
      have hnone : rest.find? (·.1 == k) = none := by
        rw [List.find?_eq_none]
        rintro ⟨k'', y⟩ hmem hkk
        simp only [beq_iff_eq] at hkk
        subst hkk
        simp only [Increasing, List.map_cons, List.pairwise_cons, List.mem_map] at h
        exact List.lt_irrefl _ (h.1 _ ⟨_, hmem, rfl⟩)
      by_cases hk : k' = k
      · subst hk
        cases o <;> simp [hnone]
      · have hne : (k == k') = false := beq_false_of_ne (Ne.symm hk)
        cases o <;> simp [hk, hne]
    · rename_i hlt hne
      -- `k` goes further on, above `k₀`
      have hgt : k₀ < k := by
        rcases List.le_total k k₀ with hle | hle
        · rcases List.le_iff_lt_or_eq.1 hle with h' | h'
          · exact absurd h' hlt
          · exact absurd h' hne
        · rcases List.le_iff_lt_or_eq.1 hle with h' | h'
          · exact h'
          · exact absurd h'.symm hne
      by_cases hk₀ : k₀ = k'
      · subst hk₀
        have hk : k₀ ≠ k := fun e => List.lt_irrefl _ (e ▸ hgt)
        simp [hk]
      · have hne₀ : (k₀ == k') = false := beq_false_of_ne hk₀
        simp only [List.find?_cons, hne₀]
        exact ih hrest

namespace Table

variable (t : Table)

/-! ## Rows and slots after a change -/

theorem row_modify (p : List (List UInt8)) (f : List (List UInt8 × Slot) → List (List UInt8 × Slot))
    (hf : ∀ es, Increasing es → Increasing (f es)) (q : List (List UInt8)) :
    (t.modify p f hf).row q = if q = p then f (t.row p) else t.row q := by
  by_cases hq : q = p
  · subst hq
    simp [row, modify]
  · have hpq : (p == q) = false := beq_false_of_ne (Ne.symm hq)
    -- the rows kept are found as before, since the one dropped is not `q`'s
    have hfind : (t.buckets.filter (·.1 != p)).find? (·.1 == q) = t.buckets.find? (·.1 == q) := by
      induction t.buckets with
      | nil => rfl
      | cons b bs ih =>
        obtain ⟨bp, bv⟩ := b
        by_cases hb : bp = p
        · subst hb
          simp [hpq, ih]
        · simp [List.find?_cons, hb, ih]
    simp [row, modify, hq, hpq, hfind]

theorem row_setSlot (p : List (List UInt8)) (k : List UInt8) (o : Option Slot)
    (q : List (List UInt8)) :
    (t.setSlot p k o).row q = if q = p then setEntry k o (t.row p) else t.row q :=
  t.row_modify p _ _ q

theorem row_dropBelow (d q : List (List UInt8)) :
    (t.dropBelow d).row q = if d <+: q then [] else t.row q := by
  unfold row dropBelow
  by_cases hd : d <+: q
  · -- every row of `q` is dropped
    have hnone : (t.buckets.filter fun b => !(d.isPrefixOf b.1)).find? (·.1 == q) = none := by
      rw [List.find?_eq_none]
      intro b hb hbq
      simp only [beq_iff_eq] at hbq
      simp [hbq, List.isPrefixOf_iff_prefix.2 hd] at hb
    simp [hd, hnone]
  · have hfind : (t.buckets.filter fun b => !(d.isPrefixOf b.1)).find? (·.1 == q) =
        t.buckets.find? (·.1 == q) := by
      induction t.buckets with
      | nil => rfl
      | cons b bs ih =>
        obtain ⟨bq, bv⟩ := b
        by_cases hbq : bq = q
        · subst hbq
          have hb : d.isPrefixOf bq = false := by
            rw [Bool.eq_false_iff]
            exact fun h => hd (List.isPrefixOf_iff_prefix.1 h)
          simp [hb]
        · by_cases hb : d.isPrefixOf bq <;> simp [hb, hbq, ih]
    simp [hd, hfind]

theorem rowSlot_setSlot (p : List (List UInt8)) (k : List UInt8) (o : Option Slot)
    (q : List (List UInt8)) (k' : List UInt8) :
    (t.setSlot p k o).rowSlot q k' = if q = p ∧ k' = k then o else t.rowSlot q k' := by
  unfold rowSlot
  rw [row_setSlot]
  by_cases hq : q = p
  · subst hq
    rw [if_pos rfl, find?_setEntry (t.increasing_row q)]
    by_cases hk : k' = k <;> simp [hk]
  · simp [hq]

theorem rowSlot_dropBelow (d q : List (List UInt8)) (k' : List UInt8) :
    (t.dropBelow d).rowSlot q k' = if d <+: q then none else t.rowSlot q k' := by
  unfold rowSlot
  rw [row_dropBelow]
  by_cases hd : d <+: q <;> simp [hd]

/-! ## Buckets on the way -/

/-- The bucket at `ps ++ [k]` below `pre` is there when the one at `ps` is and holds a bucket
at `k`. -/
theorem hasFrom_append_singleton (pre ps : List (List UInt8)) (k : List UInt8) :
    t.hasFrom pre (ps ++ [k]) = (t.hasFrom pre ps && t.rowSlot (pre ++ ps) k == some .bucket) := by
  induction ps generalizing pre with
  | nil => simp [hasFrom]
  | cons k₀ ps ih => simp [hasFrom, ih, Bool.and_assoc]

/-- Whether a bucket is there depends only on the slots on its way. -/
theorem hasFrom_congr {t' : Table} (pre : List (List UInt8)) :
    ∀ {ks : List (List UInt8)}, (∀ j k', j ++ [k'] <+: ks →
      t'.rowSlot (pre ++ j) k' = t.rowSlot (pre ++ j) k') → t'.hasFrom pre ks = t.hasFrom pre ks
  | [], _ => rfl
  | k :: ks, h => by
    have hk : t'.rowSlot pre k = t.rowSlot pre k := by simpa using h [] k (by simp)
    have hks : t'.hasFrom (pre ++ [k]) ks = t.hasFrom (pre ++ [k]) ks :=
      hasFrom_congr (pre ++ [k]) fun j k' hj => by
        simpa using h (k :: j) k' (by simpa using List.prefix_cons_inj k |>.2 hj)
    simp [hasFrom, hk, hks]

/-- What the store reads at a slot: the row's slot, when the bucket is there. -/
theorem slot_table (q : List (List UInt8)) (k : List UInt8) :
    table.slot t q k = if t.has q then t.rowSlot q k else none := by
  simp only [Store.slot, table, entries, rowSlot]
  split <;> simp

/-- Whether the store sees a bucket: whether the table has it. -/
theorem hasBucket_table (q : List (List UInt8)) : table.hasBucket t q = t.has q := by
  -- below a bucket that is there, the store's reading of the way agrees with the table's
  suffices h : ∀ ks pre, t.has pre = true → table.bucketsFrom t pre ks = t.hasFrom pre ks by
    exact h q [] rfl
  intro ks
  induction ks with
  | nil => intro pre _; rfl
  | cons k ks ih =>
    intro pre hpre
    simp only [Store.bucketsFrom, hasFrom, slot_table, hpre, if_true]
    by_cases hk : t.rowSlot pre k = some .bucket
    · have hpre' : t.has (pre ++ [k]) = true := by
        simp [has, hasFrom_append_singleton, hk, show t.hasFrom [] pre = true from hpre]
      simp [hk, ih (pre ++ [k]) hpre']
    · simp [beq_false_of_ne hk]

/-- A table that reads as `t` at every slot on the way of `q` has `q` exactly when `t` does. -/
theorem has_congr {t' : Table} {q : List (List UInt8)}
    (h : ∀ j k', j ++ [k'] <+: q → t'.rowSlot j k' = t.rowSlot j k') : t'.has q = t.has q :=
  t.hasFrom_congr [] fun j k' hj => by simpa using h j k' hj

/-- A table changed at the slot `k` of the bucket `p`, and perhaps below it, sets that slot in
the store's eyes and keeps every other slot outside the bucket below it. -/
theorem sets_of_rowSlot {t' : Table} {p : List (List UInt8)} {k : List UInt8} {o : Option Slot}
    (hp : t.has p = true) (hset : t'.rowSlot p k = o)
    (hkeep : ∀ q k', (q, k') ≠ (p, k) → ¬ (p ++ [k]) <+: q → t'.rowSlot q k' = t.rowSlot q k') :
    table.Sets t t' p k o := by
  -- a slot on the way of a bucket outside the one below `p ++ [k]` is not the slot set
  have hway : ∀ q, ¬ (p ++ [k]) <+: q → ∀ j k', j ++ [k'] <+: q →
      t'.rowSlot j k' = t.rowSlot j k' := by
    intro q hq j k' hj
    refine hkeep j k' (fun e => ?_) (fun hpj => ?_)
    · simp only [Prod.mk.injEq] at e
      obtain ⟨rfl, rfl⟩ := e
      exact hq hj
    · exact hq (hpj.trans ((List.prefix_append j [k']).trans hj))
  refine ⟨?_, fun q k' hne hq => ?_⟩
  · have hp' : t'.has p = true := by
      have hshort : ¬ (p ++ [k]) <+: p := fun h => by
        have := h.length_le
        simp only [List.length_append, List.length_singleton] at this
        omega
      rw [t.has_congr (hway p hshort), hp]
    rw [slot_table, hp', if_pos rfl, hset]
  · rw [slot_table, slot_table, t.has_congr (hway q hq), hkeep q k' hne hq]

/-! ## The calls -/

/-- A slot set with nothing dropped: `Put` and `Delete`. -/
theorem sets_setSlot {p : List (List UInt8)} {k : List UInt8} {o : Option Slot}
    (hp : t.has p = true) : table.Sets t (t.setSlot p k o) p k o :=
  t.sets_of_rowSlot hp (by simp [rowSlot_setSlot]) fun q k' hne _ => by
    rw [rowSlot_setSlot, if_neg fun h => hne (by rw [h.1, h.2])]

/-- A slot set with the rows below it dropped: making and removing a bucket. -/
theorem sets_dropBelow_setSlot {p : List (List UInt8)} {k : List UInt8} {o : Option Slot}
    (hp : t.has p = true) : table.Sets t ((t.dropBelow (p ++ [k])).setSlot p k o) p k o :=
  t.sets_of_rowSlot hp (by simp [rowSlot_setSlot]) fun q k' hne hq => by
    rw [rowSlot_setSlot, if_neg fun h => hne (by rw [h.1, h.2]), rowSlot_dropBelow, if_neg hq]

/-- A bucket just made holds nothing: its rows were dropped. -/
theorem entries_dropBelow_setSlot (p : List (List UInt8)) (k : List UInt8) (o : Option Slot) :
    table.entries ((t.dropBelow (p ++ [k])).setSlot p k o) (p ++ [k]) = [] := by
  have hne : p ++ [k] ≠ p := fun h => by simpa using congrArg List.length h
  simp [table, entries, row_setSlot, row_dropBelow, hne]

/-! ## The file -/

/-- Reading back what was written, item by item. -/
theorem mapM_map_of_inverse {α β : Type} {f : α → β} {g : β → Option α} :
    ∀ {l : List α}, (∀ x ∈ l, g (f x) = some x) → (l.map f).mapM g = some l
  | [], _ => rfl
  | x :: l, h => by
    simp [List.mapM_cons, h x List.mem_cons_self,
      mapM_map_of_inverse fun y hy => h y (List.mem_cons_of_mem _ hy)]

theorem ofBytesJson_bytesJson (bs : List UInt8) : ofBytesJson (bytesJson bs) = some bs := by
  simp [ofBytesJson, bytesJson, Utf8.ascii, Utf8.toNat_charOfNat, Function.comp_def]
  exact fun b _ => b.toNat_lt

theorem ofEntryJson_entryJson (e : List UInt8 × Slot) : ofEntryJson (entryJson e) = some e := by
  obtain ⟨k, x⟩ := e
  cases x <;> simp [entryJson, ofEntryJson, ofBytesJson_bytesJson]

theorem ofRowJson_rowJson (b : List (List UInt8) × List (List UInt8 × Slot)) :
    ofRowJson (rowJson b) = some b := by
  simp [rowJson, ofRowJson, mapM_map_of_inverse fun x _ => ofBytesJson_bytesJson x,
    mapM_map_of_inverse fun x _ => ofEntryJson_entryJson x]

/-- The rows of a table read back from their compact text: a key or a value stands three or four
levels down. -/
theorem reads_rows : Json.Reads 0 (.arr (t.buckets.map rowJson)) := by
  refine Json.reads_arr (by decide) _ fun v hv => ?_
  obtain ⟨b, -, rfl⟩ := List.mem_map.1 hv
  refine Json.reads_arr (by decide) _ fun w hw => ?_
  simp only [List.mem_cons, List.mem_nil_iff, or_false] at hw
  rcases hw with rfl | rfl
  · refine Json.reads_arr (by decide) _ fun u hu => ?_
    obtain ⟨k, -, rfl⟩ := List.mem_map.1 hu
    exact Json.reads_str _ _
  · refine Json.reads_arr (by decide) _ fun u hu => ?_
    obtain ⟨⟨k, x⟩, -, rfl⟩ := List.mem_map.1 hu
    cases x <;>
      exact Json.reads_arr (by decide) _ fun y hy => by
        simp only [List.mem_cons, List.mem_nil_iff, or_false] at hy
        rcases hy with rfl | rfl <;> exact Json.reads_str _ _

/-- The file of a table opens as the table. -/
theorem openFile_file : openFile t.file = .ok t := by
  have hparse : Json.parse (t.file.drop mark.length) = .ok (.arr (t.buckets.map rowJson)) := by
    rw [file, List.drop_left]
    exact Json.parse_compact t.reads_rows
  have hrows : ofJson (.arr (t.buckets.map rowJson)) = some t := by
    simp [ofJson, mapM_map_of_inverse fun b _ => ofRowJson_rowJson b]
    exact fun a b h => t.increasing (a, b) h
  have hmark : mark.isPrefixOf t.file = true :=
    List.isPrefixOf_iff_prefix.2 (List.prefix_append _ _)
  have hne : t.file.isEmpty = false := by simp [file, mark]
  rw [openFile, if_neg (by simp [hne]), if_pos hmark, hparse]
  simp [hrows]

end Table

open Table in
/-- The table keeps every law the store documents. -/
theorem table_laws : table.Laws where
  sorted t p := by
    simp only [table, entries]
    split
    · exact t.increasing_row p
    · exact List.Pairwise.nil
  missing t p h := by
    rw [hasBucket_table] at h
    simp [table, entries, h]
  put_keyRequired t p v := by simp [table, put]
  put_keyTooLarge t p k v h := by
    have hk : k ≠ [] := by
      rintro rfl
      simp [maxKeySize] at h
    simp [table, put, hk, h]
  put_sets t p k v hp hk hlen hslot := by
    rw [hasBucket_table] at hp
    rw [slot_table, hp, if_pos rfl] at hslot
    exact ⟨_, by simp [table, put, hk, hp, hslot, Nat.not_lt.2 hlen], t.sets_setSlot hp⟩
  delete_sets t p k hp hslot := by
    rw [hasBucket_table] at hp
    rw [slot_table, hp, if_pos rfl] at hslot
    exact ⟨_, by simp [table, delete, hp, hslot], t.sets_setSlot hp⟩
  createBucket_sets t p k hp hk hslot := by
    rw [hasBucket_table] at hp
    rw [slot_table, hp, if_pos rfl] at hslot
    exact ⟨_, by simp [table, create, hk, hp, hslot], t.sets_dropBelow_setSlot hp,
      t.entries_dropBelow_setSlot p k _⟩
  createBucketIfNotExists_nameRequired t p := by simp [table, create]
  createBucketIfNotExists_sets t p k hp hk hslot := by
    rw [hasBucket_table] at hp
    rw [slot_table, hp, if_pos rfl] at hslot
    exact ⟨_, by simp [table, create, hk, hp, hslot], t.sets_dropBelow_setSlot hp,
      t.entries_dropBelow_setSlot p k _⟩
  createBucketIfNotExists_incompatible t p k v hp hk hslot := by
    rw [hasBucket_table] at hp
    rw [slot_table, hp, if_pos rfl] at hslot
    simp [table, create, hk, hp, hslot]
  createBucketIfNotExists_keeps t p k hp hk hslot := by
    rw [hasBucket_table] at hp
    rw [slot_table, hp, if_pos rfl] at hslot
    exact ⟨t, by simp [table, create, hk, hp, hslot], fun _ _ => rfl⟩
  deleteBucket_sets t p k hp hslot := by
    rw [hasBucket_table] at hp
    rw [slot_table, hp, if_pos rfl] at hslot
    exact ⟨_, by simp [table, deleteBucket, hp, hslot], t.sets_dropBelow_setSlot hp⟩
  update_eq s f := by
    simp only [table]
    cases f s <;> rfl
  openFile_empty := ⟨empty, rfl, fun q k => by simp [slot_table, rowSlot, row, empty]⟩
  openFile_file t := ⟨t, t.openFile_file, fun _ _ => rfl⟩

end ShaderHeaders.Bolt
