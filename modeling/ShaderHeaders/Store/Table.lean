import ShaderHeaders.Store.Bolt
import ShaderHeaders.Json.Reader

/-!
# A store kept as a table of buckets

The store the program runs with keeps each bucket by its path, with its entries in increasing
order of key. A change to one bucket replaces that bucket's row; removing a bucket removes the
rows of all buckets below it. A bucket is there when each name on its path holds a bucket in
the one before, and a row left below a bucket that is gone is not seen.

The file of a table is a short mark and then the rows as compact JSON, each byte of a key or a
value one character of a string. An empty file is a new store. A file that is not a table is
refused, as the store refuses a file that is not a database: one shorter than its two header
pages of 4096 bytes, whose second header can be partly read, is too small; any other has no
valid header.

* `Bolt.table` is the store.
-/

namespace ShaderHeaders.Bolt

/-- Sets or clears the slot of a key in entries kept in increasing order of key. -/
def setEntry (k : List UInt8) (o : Option Slot) :
    List (List UInt8 × Slot) → List (List UInt8 × Slot)
  | [] => (o.map (k, ·)).toList
  | (k', x) :: rest =>
    if k < k' then (o.map (k, ·)).toList ++ (k', x) :: rest
    else if k = k' then (o.map (k, ·)).toList ++ rest
    else (k', x) :: setEntry k o rest

/-- Entries in strictly increasing order of key. -/
def Increasing (es : List (List UInt8 × Slot)) : Prop := (es.map Prod.fst).Pairwise (· < ·)

instance (es : List (List UInt8 × Slot)) : Decidable (Increasing es) :=
  inferInstanceAs (Decidable (List.Pairwise _ _))

/-- Setting a slot keeps the keys in increasing order. -/
theorem Increasing.setEntry {es : List (List UInt8 × Slot)} (h : Increasing es)
    (k : List UInt8) (o : Option Slot) : Increasing (Bolt.setEntry k o es) := by
  induction es with
  | nil => cases o <;> simp [Bolt.setEntry, Increasing]
  | cons e rest ih =>
    obtain ⟨k', x⟩ := e
    simp only [Increasing, List.map_cons, List.pairwise_cons] at h
    have hrest : Increasing rest := h.2
    unfold Bolt.setEntry
    split
    · rename_i hlt
      cases o with
      | none => simpa [Increasing] using h
      | some y =>
        show Increasing ((k, y) :: (k', x) :: rest)
        simp only [Increasing, List.map_cons, List.pairwise_cons]
        refine ⟨fun a ha => ?_, h⟩
        rcases List.mem_cons.1 ha with rfl | ha
        · exact hlt
        · exact List.lt_trans hlt (h.1 a ha)
    split
    · rename_i heq
      subst heq
      cases o with
      | none => simpa using hrest
      | some y =>
        simp only [Increasing, Option.map_some, Option.toList_some, List.singleton_append,
          List.map_cons, List.pairwise_cons]
        exact ⟨h.1, h.2⟩
    · rename_i hlt hne
      -- the key goes after `k'`: every key of the result past the head stays above `k'`
      have hgt : k' < k := by
        rcases List.le_total k k' with hle | hle
        · rcases List.le_iff_lt_or_eq.1 hle with h' | h'
          · exact absurd h' hlt
          · exact absurd h' hne
        · rcases List.le_iff_lt_or_eq.1 hle with h' | h'
          · exact h'
          · exact absurd h'.symm hne
      have hkeys : ∀ a ∈ (Bolt.setEntry k o rest).map Prod.fst, a = k ∨ a ∈ rest.map Prod.fst := by
        clear ih hrest h
        induction rest with
        | nil => cases o <;> simp [Bolt.setEntry]
        | cons e rest' ih' =>
          obtain ⟨k'', x'⟩ := e
          intro a ha
          unfold Bolt.setEntry at ha
          split at ha
          · cases o <;> simp_all
          split at ha
          · cases o <;> simp_all
          · simp only [List.map_cons, List.mem_cons] at ha
            rcases ha with rfl | ha
            · exact .inr (by simp)
            · rcases ih' a ha with h' | h'
              · exact .inl h'
              · exact .inr (by simp [h'])
      simp only [Increasing, List.map_cons, List.pairwise_cons]
      refine ⟨fun a ha => ?_, ih hrest⟩
      rcases hkeys a ha with rfl | ha'
      · exact hgt
      · exact h.1 a ha'

/-- A store held in memory: the buckets by path, each with its entries in increasing order of
key. -/
structure Table where
  buckets : List (List (List UInt8) × List (List UInt8 × Slot))
  increasing : ∀ b ∈ buckets, Increasing b.2

namespace Table

/-- The table with no buckets. -/
def empty : Table := ⟨[], by simp⟩

/-- The row of a bucket, whether or not the bucket is there. -/
def row (t : Table) (p : List (List UInt8)) : List (List UInt8 × Slot) :=
  ((t.buckets.find? (·.1 == p)).map (·.2)).getD []

/-- What a key holds in the row of a bucket. -/
def rowSlot (t : Table) (p : List (List UInt8)) (k : List UInt8) : Option Slot :=
  ((t.row p).find? (·.1 == k)).map (·.2)

/-- Whether the buckets named by `ks` are there, each inside the one before, below `pre`. -/
def hasFrom (t : Table) (pre : List (List UInt8)) : List (List UInt8) → Bool
  | [] => true
  | k :: ks => t.rowSlot pre k == some .bucket && t.hasFrom (pre ++ [k]) ks

/-- Whether a bucket is there. -/
def has (t : Table) (p : List (List UInt8)) : Bool := t.hasFrom [] p

/-- What a bucket holds: its row, when the bucket is there. -/
def entries (t : Table) (p : List (List UInt8)) : List (List UInt8 × Slot) :=
  if t.has p then t.row p else []

theorem increasing_row (t : Table) (p : List (List UInt8)) : Increasing (t.row p) := by
  unfold row
  cases h : t.buckets.find? (·.1 == p) with
  | none => simp [Increasing]
  | some b => exact t.increasing b (List.mem_of_find?_eq_some h)

/-- The table with the row of bucket `p` set to `f` of it. -/
def modify (t : Table) (p : List (List UInt8))
    (f : List (List UInt8 × Slot) → List (List UInt8 × Slot))
    (hf : ∀ es, Increasing es → Increasing (f es)) : Table where
  buckets := (p, f (t.row p)) :: t.buckets.filter (·.1 != p)
  increasing := by
    intro b hb
    rcases List.mem_cons.1 hb with rfl | hb
    · exact hf _ (t.increasing_row p)
    · exact t.increasing b (List.mem_filter.1 hb).1

/-- The table with the slot of key `k` of bucket `p` set to `o`. -/
def setSlot (t : Table) (p : List (List UInt8)) (k : List UInt8) (o : Option Slot) : Table :=
  t.modify p (setEntry k o) fun _ h => h.setEntry k o

/-- The table without the rows of the bucket `p` and of those below it. -/
def dropBelow (t : Table) (p : List (List UInt8)) : Table where
  buckets := t.buckets.filter fun b => !(p.isPrefixOf b.1)
  increasing := fun b hb => t.increasing b (List.mem_filter.1 hb).1

/-- `Put`. -/
def put (t : Table) (p : List (List UInt8)) (k v : List UInt8) : Except Error Table :=
  if k = [] then .error .keyRequired
  else if maxKeySize < k.length then .error .keyTooLarge
  else if !t.has p then .error .bucketNotFound
  else if t.rowSlot p k = some .bucket then .error .incompatibleValue
  else .ok (t.setSlot p k (some (.value v)))

/-- `Delete`. -/
def delete (t : Table) (p : List (List UInt8)) (k : List UInt8) : Except Error Table :=
  if !t.has p then .error .bucketNotFound
  else if t.rowSlot p k = some .bucket then .error .incompatibleValue
  else .ok (t.setSlot p k none)

/-- `CreateBucket`, or with `keep` `CreateBucketIfNotExists`. -/
def create (keep : Bool) (t : Table) (p : List (List UInt8)) (k : List UInt8) :
    Except Error Table :=
  if k = [] then .error .bucketNameRequired
  else if !t.has p then .error .bucketNotFound
  else
    match t.rowSlot p k with
    | some .bucket => if keep then .ok t else .error .bucketExists
    | some (.value _) => .error .incompatibleValue
    | none => .ok ((t.dropBelow (p ++ [k])).setSlot p k (some .bucket))

/-- `DeleteBucket`. -/
def deleteBucket (t : Table) (p : List (List UInt8)) (k : List UInt8) : Except Error Table :=
  if !t.has p then .error .bucketNotFound
  else
    match t.rowSlot p k with
    | some .bucket => .ok ((t.dropBelow (p ++ [k])).setSlot p k none)
    | some (.value _) => .error .incompatibleValue
    | none => .error .bucketNotFound

/-! ## The file -/

/-- The mark a table's file starts with. -/
def mark : List UInt8 := [0x00, 0x62, 0x6F, 0x6C, 0x74, 0x0A]

/-- A byte string as JSON: one character per byte. -/
def bytesJson (bs : List UInt8) : Json.Value := .str (Utf8.ascii bs)

/-- The bytes of a string of characters each below 256. -/
def ofBytesJson : Json.Value → Option (List UInt8)
  | .str s => if s.toList.all (·.toNat < 256) then some (s.toList.map (·.toNat.toUInt8)) else none
  | _ => none

/-- An entry as JSON: its key, and its value unless it holds a bucket. -/
def entryJson : List UInt8 × Slot → Json.Value
  | (k, .value v) => .arr [bytesJson k, bytesJson v]
  | (k, .bucket) => .arr [bytesJson k]

/-- Reads an entry back. -/
def ofEntryJson : Json.Value → Option (List UInt8 × Slot)
  | .arr [k, v] => do pure ((← ofBytesJson k), .value (← ofBytesJson v))
  | .arr [k] => do pure ((← ofBytesJson k), .bucket)
  | _ => none

/-- A row as JSON: the path of its bucket and its entries. -/
def rowJson (b : List (List UInt8) × List (List UInt8 × Slot)) : Json.Value :=
  .arr [.arr (b.1.map bytesJson), .arr (b.2.map entryJson)]

/-- Reads a row back. -/
def ofRowJson : Json.Value → Option (List (List UInt8) × List (List UInt8 × Slot))
  | .arr [.arr path, .arr es] => do pure ((← path.mapM ofBytesJson), (← es.mapM ofEntryJson))
  | _ => none

/-- The bytes of a table's file. -/
def file (t : Table) : List UInt8 :=
  mark ++ Utf8.bytes (Json.Value.arr (t.buckets.map rowJson)).compact

/-- Why the store refuses a file of `n` bytes that is not one of its own. -/
def refusal (n : Nat) : String :=
  if 2048 < n && n < 8192 then "file size too small" else "invalid database"

/-- Reads the rows of a table back from their JSON. -/
def ofJson (v : Json.Value) : Option Table :=
  match v with
  | .arr rows => do
    let bs ← rows.mapM ofRowJson
    if h : ∀ b ∈ bs, Increasing b.2 then some ⟨bs, h⟩ else none
  | _ => none

/-- Opens the table kept in a file: an empty file is a new table. -/
def openFile (bs : List UInt8) : Except String Table :=
  if bs.isEmpty then .ok empty
  else if mark.isPrefixOf bs then
    match Json.parse (bs.drop mark.length) with
    | .ok v =>
      match ofJson v with
      | some t => .ok t
      | none => .error (refusal bs.length)
    | .error _ => .error (refusal bs.length)
  else .error (refusal bs.length)

end Table

/-- The store the program runs with. -/
def table : Store Table where
  openFile := Table.openFile
  file := Table.file
  entries := Table.entries
  put := Table.put
  delete := Table.delete
  createBucket := Table.create false
  createBucketIfNotExists := Table.create true
  deleteBucket := Table.deleteBucket
  update t f := match f t with
    | .ok t' => (t', none)
    | .error e => (t, some e)

end ShaderHeaders.Bolt
