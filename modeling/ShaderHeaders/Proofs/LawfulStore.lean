import Mathlib.Data.List.Sort
import ShaderHeaders.Store.Bolt

/-!
# Reading a store that keeps its laws

What a store holds is read through its slots. A bucket on a path of one or two names is there
when the slots on its way hold buckets; a bucket that is not there holds nothing; and since a
bucket lists each key once, in increasing order, what it lists is exactly its slots that hold
something (`Store.Laws.mem_entries_iff`), and two states with the same slots list the same
(`Store.Laws.entries_congr`).
-/

namespace ShaderHeaders.Bolt.Store

variable {σ : Type} {B : Store σ} {s s' : σ} {p q : List (List UInt8)} {k k' : List UInt8}

@[simp] theorem hasBucket_nil : B.hasBucket s [] = true := rfl

theorem hasBucket_singleton (k : List UInt8) :
    B.hasBucket s [k] = (B.slot s [] k == some .bucket) := by
  simp [hasBucket, bucketsFrom]

theorem hasBucket_pair (k₁ k₂ : List UInt8) :
    B.hasBucket s [k₁, k₂] =
      (B.slot s [] k₁ == some .bucket && B.slot s [k₁] k₂ == some .bucket) := by
  simp [hasBucket, bucketsFrom]

theorem bucketsFrom_append_singleton (pre p : List (List UInt8)) (k : List UInt8) :
    B.bucketsFrom s pre (p ++ [k]) = (B.bucketsFrom s pre p && B.slot s (pre ++ p) k == some .bucket) := by
  induction p generalizing pre with
  | nil => simp [bucketsFrom]
  | cons k' p ih => simp [bucketsFrom, ih, Bool.and_assoc]

/-- A bucket one key below another is there when the other is and the key holds a bucket. -/
theorem hasBucket_append_singleton (p : List (List UInt8)) (k : List UInt8) :
    B.hasBucket s (p ++ [k]) = (B.hasBucket s p && B.slot s p k == some .bucket) := by
  simp [hasBucket, bucketsFrom_append_singleton]

theorem get_eq_some_iff {v : List UInt8} : B.get s p k = some v ↔ B.slot s p k = some (.value v) := by
  unfold get
  split <;> simp_all

theorem get_eq_none_of_slot {x : Option Slot} (h : B.slot s p k = x) (hx : ∀ v, x ≠ some (.value v)) :
    B.get s p k = none := by
  unfold get
  split
  · rename_i v hv
    exact absurd (h.symm.trans hv) (hx v)
  · rfl

namespace Sets

variable {o : Option Slot}

theorem slot_self (h : B.Sets s s' p k o) : B.slot s' p k = o := h.1

theorem slot_other (h : B.Sets s s' p k o) (hne : (q, k') ≠ (p, k)) (hq : ¬ (p ++ [k]) <+: q) :
    B.slot s' q k' = B.slot s q k' :=
  h.2 q k' hne hq

end Sets

namespace Laws

theorem slot_of_entries_eq_nil (h : B.entries s p = []) (k : List UInt8) : B.slot s p k = none := by
  simp [slot, h]

variable (hB : B.Laws)
include hB

theorem slot_of_hasBucket_eq_false (h : B.hasBucket s p = false) (k : List UInt8) :
    B.slot s p k = none := by
  simp [slot, hB.missing s p h]

/-- Nothing is below a key that was set to hold nothing. -/
theorem slot_below_of_sets_none (h : B.Sets s s' p k none) (k' : List UInt8) :
    B.slot s' (p ++ [k]) k' = none :=
  hB.slot_of_hasBucket_eq_false (by simp [hasBucket_append_singleton, h.slot_self]) k'

/-- A bucket lists a key with what it holds exactly when the key's slot holds that. -/
theorem mem_entries_iff {x : Slot} : (k, x) ∈ B.entries s p ↔ B.slot s p k = some x := by
  have hnodup : ((B.entries s p).map Prod.fst).Nodup :=
    (hB.sorted s p).imp fun {a b} (h : a < b) (e : a = b) => by
      subst e
      exact List.lt_irrefl _ h
  constructor
  · intro hmem
    obtain ⟨e, he⟩ : ∃ e, (B.entries s p).find? (·.1 == k) = some e :=
      Option.isSome_iff_exists.1 (List.find?_isSome.2 ⟨_, hmem, by simp⟩)
    -- the entry found has the key `k`, so it is the one listed: keys are listed once
    have hek : e.1 = k := by simpa using List.find?_some he
    have heq : e = (k, x) :=
      List.inj_on_of_nodup_map hnodup (List.mem_of_find?_eq_some he) hmem hek
    simp [slot, he, heq]
  · intro h
    obtain ⟨e, he, rfl⟩ := Option.map_eq_some_iff.1 h
    have hek : e.1 = k := by simpa using List.find?_some he
    rw [← hek]
    exact List.mem_of_find?_eq_some he

/-- A bucket lists nothing exactly when none of its slots holds anything. -/
theorem entries_eq_nil_iff : B.entries s p = [] ↔ ∀ k, B.slot s p k = none := by
  refine ⟨fun h k => slot_of_entries_eq_nil h k, fun h => ?_⟩
  rw [List.eq_nil_iff_forall_not_mem]
  rintro ⟨k, x⟩ hmem
  have hslot := (hB.mem_entries_iff).1 hmem
  simp [h k] at hslot

/-- Two states whose slots agree on a bucket list it alike. -/
theorem entries_congr (h : ∀ k, B.slot s' p k = B.slot s p k) : B.entries s' p = B.entries s p := by
  refine List.Perm.eq_of_pairwise (fun a b _ _ hab hba => ?_) ((hB.sorted s' p).of_map _ fun _ _ h => h)
    ((hB.sorted s p).of_map _ fun _ _ h => h) ?_
  · exact absurd (List.lt_trans hab hba) (List.lt_irrefl _)
  · refine (List.perm_ext_iff_of_nodup ?_ ?_).2 fun e => ?_
    · exact ((hB.sorted s' p).of_map _ fun _ _ h => h).nodup
    · exact ((hB.sorted s p).of_map _ fun _ _ h => h).nodup
    obtain ⟨k, x⟩ := e
    rw [hB.mem_entries_iff, hB.mem_entries_iff, h]

end Laws

end ShaderHeaders.Bolt.Store
