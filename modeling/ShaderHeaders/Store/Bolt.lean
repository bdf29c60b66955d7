/-!
# A store of nested buckets

The catalog keeps its data in an embedded key/value store: a file of buckets, each mapping
byte-string keys to values or to nested buckets, changed in transactions. The program makes a
handful of calls on the store; `Store σ` is those calls over states `σ`, and `Store.Laws` is what
the store documents of them:

* a bucket lists its keys once each, in increasing byte order (`ForEach`, a cursor);
* a bucket that does not exist holds nothing;
* `Put` refuses an empty key and a key longer than 32768 bytes, and otherwise sets the key;
  `Delete` removes a key, and removing an absent one is no error;
* `CreateBucket` makes an empty bucket, `CreateBucketIfNotExists` also keeps one that is
  there, and refuses an empty name and a key that holds a value; `DeleteBucket` removes a
  bucket with all it holds;
* `Update` keeps the changes of a function that succeeds and rolls all of them back when it
  fails;
* an empty file opens as a store with nothing in it, and the file of a store opens as a store
  holding the same.

What a store holds is read through `Store.slot`, the slot at a key of a bucket. A law about a
change says which slot it sets, and that every other slot is as before, outside the bucket the
change replaces (`Store.Sets`).
-/

namespace ShaderHeaders.Bolt

/-- What a key of a bucket holds: a value, or a nested bucket. -/
inductive Slot where
  | value (v : List UInt8)
  | bucket
  deriving DecidableEq, Repr

/-- Why the store refuses a change. -/
inductive Error where
  | keyRequired
  | keyTooLarge
  | incompatibleValue
  | bucketNameRequired
  | bucketExists
  | bucketNotFound
  deriving DecidableEq, Repr

/-- The wording of each refusal. -/
def Error.message : Error → String
  | .keyRequired => "key required"
  | .keyTooLarge => "key too large"
  | .incompatibleValue => "incompatible value"
  | .bucketNameRequired => "bucket name required"
  | .bucketExists => "bucket already exists"
  | .bucketNotFound => "bucket not found"

/-- The longest key, in bytes. -/
def maxKeySize : Nat := 32768

/-- The calls the program makes on a store whose states are `σ`. A bucket is named by the path
of names that leads to it from the top, which holds only buckets. -/
structure Store (σ : Type) where
  /-- Opens the store kept in the bytes of a file; an empty file is a new store. -/
  openFile : List UInt8 → Except String σ
  /-- The bytes of the store's file. -/
  file : σ → List UInt8
  /-- What a bucket holds, key by key, in the order `ForEach` visits it. -/
  entries : σ → List (List UInt8) → List (List UInt8 × Slot)
  /-- `Put`: sets a key of a bucket to a value. -/
  put : σ → List (List UInt8) → List UInt8 → List UInt8 → Except Error σ
  /-- `Delete`: removes a key of a bucket. -/
  delete : σ → List (List UInt8) → List UInt8 → Except Error σ
  /-- `CreateBucket`: makes a bucket at a key of a bucket. -/
  createBucket : σ → List (List UInt8) → List UInt8 → Except Error σ
  /-- `CreateBucketIfNotExists`: makes a bucket at a key unless one is there. -/
  createBucketIfNotExists : σ → List (List UInt8) → List UInt8 → Except Error σ
  /-- `DeleteBucket`: removes the bucket at a key of a bucket. -/
  deleteBucket : σ → List (List UInt8) → List UInt8 → Except Error σ
  /-- `Update`: runs a function on the store in a transaction; the store after it, and the
  error the function failed with, if it did. -/
  update : σ → (σ → Except String σ) → σ × Option String

namespace Store

variable {σ : Type} (B : Store σ)

/-- What a key of a bucket holds, if anything. -/
def slot (s : σ) (p : List (List UInt8)) (k : List UInt8) : Option Slot :=
  ((B.entries s p).find? (·.1 == k)).map (·.2)

/-- `Get`: the value at a key of a bucket; nothing when the key holds a bucket. -/
def get (s : σ) (p : List (List UInt8)) (k : List UInt8) : Option (List UInt8) :=
  match B.slot s p k with
  | some (.value v) => some v
  | _ => none

/-- Whether the buckets named by `ks` exist, each inside the one before, below the bucket
`pre`. -/
def bucketsFrom (s : σ) (pre : List (List UInt8)) : List (List UInt8) → Bool
  | [] => true
  | k :: ks => B.slot s pre k == some .bucket && bucketsFrom s (pre ++ [k]) ks

/-- `Bucket`: whether a bucket exists. -/
def hasBucket (s : σ) (p : List (List UInt8)) : Bool := B.bucketsFrom s [] p

/-- `s'` holds `o` at key `k` of bucket `p`, and every other slot as `s` does, outside the
bucket `p ++ [k]` and those below it. -/
def Sets (s s' : σ) (p : List (List UInt8)) (k : List UInt8) (o : Option Slot) : Prop :=
  B.slot s' p k = o ∧
    ∀ q k', (q, k') ≠ (p, k) → ¬ (p ++ [k]) <+: q → B.slot s' q k' = B.slot s q k'

/-- `s'` holds what `s` holds. -/
def Same (s s' : σ) : Prop := ∀ q k, B.slot s' q k = B.slot s q k

/-- What the store documents of its calls. -/
structure Laws : Prop where
  /-- `ForEach` and a cursor visit the keys of a bucket once each, in increasing byte order. -/
  sorted : ∀ s p, ((B.entries s p).map Prod.fst).Pairwise (· < ·)
  /-- A bucket that does not exist holds nothing. -/
  missing : ∀ s p, B.hasBucket s p = false → B.entries s p = []
  /-- `Put` refuses an empty key. -/
  put_keyRequired : ∀ s p v, B.put s p [] v = .error .keyRequired
  /-- `Put` refuses a key longer than `maxKeySize`. -/
  put_keyTooLarge : ∀ s p k v, maxKeySize < k.length → B.put s p k v = .error .keyTooLarge
  /-- `Put` sets any other key of a bucket that holds no bucket there. -/
  put_sets : ∀ s p k v, B.hasBucket s p = true → k ≠ [] → k.length ≤ maxKeySize →
    B.slot s p k ≠ some .bucket →
    ∃ s', B.put s p k v = .ok s' ∧ B.Sets s s' p k (some (.value v))
  /-- `Delete` removes a key that holds no bucket, and leaves an absent key absent. -/
  delete_sets : ∀ s p k, B.hasBucket s p = true → B.slot s p k ≠ some .bucket →
    ∃ s', B.delete s p k = .ok s' ∧ B.Sets s s' p k none
  /-- `CreateBucket` makes an empty bucket at a key that holds nothing. -/
  createBucket_sets : ∀ s p k, B.hasBucket s p = true → k ≠ [] → B.slot s p k = none →
    ∃ s', B.createBucket s p k = .ok s' ∧ B.Sets s s' p k (some .bucket) ∧
      B.entries s' (p ++ [k]) = []
  /-- `CreateBucketIfNotExists` refuses an empty name. -/
  createBucketIfNotExists_nameRequired : ∀ s p,
    B.createBucketIfNotExists s p [] = .error .bucketNameRequired
  /-- `CreateBucketIfNotExists` makes an empty bucket at a key that holds nothing. -/
  createBucketIfNotExists_sets : ∀ s p k, B.hasBucket s p = true → k ≠ [] → B.slot s p k = none →
    ∃ s', B.createBucketIfNotExists s p k = .ok s' ∧ B.Sets s s' p k (some .bucket) ∧
      B.entries s' (p ++ [k]) = []
  /-- `CreateBucketIfNotExists` refuses a key that holds a value. -/
  createBucketIfNotExists_incompatible : ∀ s p k v, B.hasBucket s p = true → k ≠ [] →
    B.slot s p k = some (.value v) → B.createBucketIfNotExists s p k = .error .incompatibleValue
  /-- `CreateBucketIfNotExists` keeps a bucket that is there. -/
  createBucketIfNotExists_keeps : ∀ s p k, B.hasBucket s p = true → k ≠ [] →
    B.slot s p k = some .bucket → ∃ s', B.createBucketIfNotExists s p k = .ok s' ∧ B.Same s s'
  /-- `DeleteBucket` removes a bucket with all it holds. -/
  deleteBucket_sets : ∀ s p k, B.hasBucket s p = true → B.slot s p k = some .bucket →
    ∃ s', B.deleteBucket s p k = .ok s' ∧ B.Sets s s' p k none
  /-- `Update` keeps what a function that succeeds did, and rolls back one that fails. -/
  update_eq : ∀ s f, B.update s f = match f s with
    | .ok s' => (s', none)
    | .error e => (s, some e)
  /-- An empty file opens as a store with nothing in it. -/
  openFile_empty : ∃ s, B.openFile [] = .ok s ∧ ∀ q k, B.slot s q k = none
  /-- The file of a store opens as a store holding the same. -/
  openFile_file : ∀ s, ∃ s', B.openFile (B.file s) = .ok s' ∧ B.Same s s'

end Store

end ShaderHeaders.Bolt
