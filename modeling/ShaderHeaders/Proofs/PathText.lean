import Mathlib.Data.String.Basic
import ShaderHeaders.Path

/-!
# Paths as lists of components

`Path.parts` splits a path at every `/`. On an absolute path whose components are *plain*
(nonempty, neither `.` nor `..`, without `/`) the clean form changes nothing, and joining a
relative path or taking the directory acts on the list of components:

* `splitOn_singleton`: splitting a text at a one-character separator splits its characters;
* `Path.clean_of_parts`: a rooted path whose parts are all empty or plain cleans to the path of
  its nonempty parts;
* `Path.resolve_ofComponents`, `Path.join_ofComponents`, `Path.dir_ofComponents`.
-/

namespace ShaderHeaders

open String in
theorem splitOnAux_singleton (s : String) (c : Char) (b i : Pos.Raw) (r : List String) :
    s.splitOnAux (String.singleton c) b i 0 r = s.splitAux (· == c) b i r := by
  have hget : Pos.Raw.get (String.singleton c) 0 = c := by
    have := get_of_valid [] [c]
    rw [List.nil_append] at this
    rw [singleton_eq_ofList]
    exact this
  have hnext : Pos.Raw.next (String.singleton c) 0 = ⟨c.utf8Size⟩ := by
    have := next_of_valid [] c []
    rw [List.nil_append] at this
    rw [singleton_eq_ofList]
    simpa using this
  have hsep : (⟨c.utf8Size⟩ : Pos.Raw).atEnd (String.singleton c) = true := by
    rw [singleton_eq_ofList, atEnd_iff, rawEndPos_ofList]
    simp [utf8Len]
  -- both loops walk the text a character at a time; the separator is matched in one step
  induction h : s.rawEndPos.1 - i.1 using Nat.strong_induction_on generalizing b i r with
  | _ n ih =>
    rw [String.splitOnAux, String.splitAux]
    by_cases hend : i.atEnd s = true
    · simp [hend]
    · have hlt : i.1 < (i.next s).1 := Pos.Raw.lt_next s i
      have hend' : i.1 < s.rawEndPos.1 := by
        rw [atEnd_iff] at hend
        exact Nat.lt_of_not_le hend
      rw [if_neg hend, dif_neg hend, hget]
      by_cases hc : (i.get s == c) = true
      · rw [if_pos hc, if_pos hc, hnext, if_pos hsep]
        have hi : (i.next s).unoffsetBy ⟨c.utf8Size⟩ = i := by
          have : i.get s = c := by simpa using hc
          simp [Pos.Raw.next, Pos.Raw.unoffsetBy, this]
        rw [hi]
        exact ih _ (by omega) _ _ _ rfl
      · rw [if_neg hc, if_neg hc]
        have hi : i.unoffsetBy 0 = i := by simp [Pos.Raw.unoffsetBy]
        rw [hi]
        exact ih _ (by omega) _ _ _ rfl

/-- Splitting a text at a one-character separator splits its characters. -/
theorem splitOn_singleton (s : String) (c : Char) :
    s.splitOn (String.singleton c) = (s.toList.splitOn c).map String.ofList := by
  rw [String.splitOn, if_neg (by simp), splitOnAux_singleton, List.splitOn_eq_splitOnP,
    ← String.splitToList_of_valid]
  rfl

namespace Path

/-- A component that a clean path keeps as it is: nonempty, neither `.` nor `..`, and without
`/`. -/
def Plain (c : String) : Prop := c ≠ "" ∧ c ≠ "." ∧ c ≠ ".." ∧ '/' ∉ c.toList

instance : DecidablePred Plain := fun _ => inferInstanceAs (Decidable (_ ∧ _ ∧ _ ∧ _))

/-- The absolute path of a list of components. -/
def ofComponents (cs : List String) : String := "/" ++ "/".intercalate cs

theorem parts_eq (p : String) : parts p = (p.toList.splitOn '/').map String.ofList := by
  rw [parts, show "/" = String.singleton '/' from rfl, splitOn_singleton]

@[simp] theorem parts_empty : parts "" = [""] := by
  simp [parts_eq]

theorem parts_append_slash (a b : String) : parts (a ++ "/" ++ b) = parts a ++ parts b := by
  simp only [parts_eq, String.toList_append, List.append_assoc]
  rw [show "/".toList = ['/'] from rfl, List.singleton_append, List.splitOn_append_cons_self,
    List.map_append]

theorem parts_intercalate {cs : List String} (hne : cs ≠ []) (h : ∀ c ∈ cs, '/' ∉ c.toList) :
    parts ("/".intercalate cs) = cs := by
  rw [parts_eq, String.toList_intercalate, show "/".toList = ['/'] from rfl,
    List.splitOn_intercalate '/' (by simpa using h) (by simpa using hne), List.map_map]
  simp

theorem parts_ofComponents {cs : List String} (h : ∀ c ∈ cs, Plain c) :
    parts (ofComponents cs) = "" :: (if cs = [] then [""] else cs) := by
  have hslash : "/" ++ "/".intercalate cs = "" ++ "/" ++ "/".intercalate cs := by
    rw [String.empty_append]
  rw [ofComponents, hslash, parts_append_slash, parts_empty]
  split_ifs with hcs
  · simp [hcs]
  · rw [parts_intercalate hcs fun c hc => (h c hc).2.2.2]
    rfl

/-- Pushing empty and plain components: the empty ones are dropped, the plain ones stacked. -/
theorem foldl_push (rooted : Bool) {cs : List String} (h : ∀ c ∈ cs, c = "" ∨ Plain c)
    (stack : List String) : cs.foldl (push rooted) stack = (cs.filter (· ≠ "")).reverse ++ stack := by
  induction cs generalizing stack with
  | nil => simp
  | cons c cs ih =>
    rw [List.forall_mem_cons] at h
    rw [List.foldl_cons, ih h.2]
    rcases h.1 with rfl | ⟨hne, hdot, hdots, -⟩
    · simp [push]
    · simp [push, hne, hdot, hdots]

theorem isAbs_slash_append (s : String) : isAbs ("/" ++ s) = true := by
  simp [isAbs]

theorem isAbs_ofComponents (cs : List String) : isAbs (ofComponents cs) = true :=
  isAbs_slash_append _

theorem ofComponents_ne_empty (cs : List String) : ofComponents cs ≠ "" := by
  intro h
  have := congrArg String.length h
  simp [ofComponents] at this

/-- A rooted path whose parts are all empty or plain cleans to the path of its nonempty
parts. -/
theorem clean_of_parts {p : String} (habs : isAbs p = true) (h : ∀ c ∈ parts p, c = "" ∨ Plain c) :
    clean p = ofComponents ((parts p).filter (· ≠ "")) := by
  rw [clean, foldl_push _ h, List.append_nil, List.reverse_reverse, if_pos habs]
  rfl

theorem mem_parts_ofComponents {cs : List String} (h : ∀ c ∈ cs, Plain c) :
    ∀ c ∈ parts (ofComponents cs), c = "" ∨ Plain c := by
  intro c hc
  rw [parts_ofComponents h] at hc
  split_ifs at hc
  · simp at hc
    exact .inl hc
  · rcases List.mem_cons.1 hc with rfl | hc
    · exact .inl rfl
    · exact .inr (h c hc)

theorem filter_parts_ofComponents {cs : List String} (h : ∀ c ∈ cs, Plain c) :
    (parts (ofComponents cs)).filter (· ≠ "") = cs := by
  rw [parts_ofComponents h]
  split_ifs with hcs
  · simp [hcs]
  · rw [List.filter_cons_of_neg (by simp), List.filter_eq_self]
    exact fun c hc => by simpa using (h c hc).1

theorem clean_ofComponents {cs : List String} (h : ∀ c ∈ cs, Plain c) :
    clean (ofComponents cs) = ofComponents cs := by
  rw [clean_of_parts (isAbs_ofComponents cs) (mem_parts_ofComponents h),
    filter_parts_ofComponents h]

theorem resolve_ofComponents (cwd : String) {cs : List String} (h : ∀ c ∈ cs, Plain c) :
    resolve cwd (ofComponents cs) = ofComponents cs := by
  rw [resolve, if_pos (isAbs_ofComponents cs), clean_ofComponents h]

/-- Joining plain components under an absolute path appends them. -/
theorem join_ofComponents {cs rs : List String} (h : ∀ c ∈ cs, Plain c) (hr : ∀ c ∈ rs, Plain c)
    (hrs : rs ≠ []) : join (ofComponents cs) ("/".intercalate rs) = ofComponents (cs ++ rs) := by
  have hparts : parts (ofComponents cs ++ "/" ++ "/".intercalate rs) =
      parts (ofComponents cs) ++ rs := by
    rw [parts_append_slash, parts_intercalate hrs fun c hc => (hr c hc).2.2.2]
  have hne : ("/".intercalate rs) ≠ "" := by
    intro he
    have := parts_intercalate hrs fun c hc => (hr c hc).2.2.2
    rw [he, parts_empty] at this
    obtain ⟨r, hr'⟩ := List.exists_mem_of_ne_nil rs hrs
    exact (hr r hr').1 (by simpa [← this] using hr')
  have habs : isAbs (ofComponents cs ++ "/" ++ "/".intercalate rs) = true := by
    rw [ofComponents, String.append_assoc, String.append_assoc]
    exact isAbs_slash_append _
  rw [join, if_neg (by simpa using ofComponents_ne_empty cs), if_neg (by simpa using hne),
    clean_of_parts habs, hparts, List.filter_append, filter_parts_ofComponents h,
    List.filter_eq_self.2 fun c hc => by simpa using (hr c hc).1]
  · rw [hparts]
    intro c hc
    rcases List.mem_append.1 hc with hc | hc
    · exact mem_parts_ofComponents h c hc
    · exact .inr (hr c hc)

/-- The directory of an absolute path of plain components is the path without the last. -/
theorem dir_ofComponents {cs : List String} (h : ∀ c ∈ cs, Plain c) (hcs : cs ≠ []) {b : String}
    (hb : Plain b) : dir (ofComponents (cs ++ [b])) = ofComponents cs := by
  have hall : ∀ c ∈ cs ++ [b], Plain c := fun c hc =>
    (List.mem_append.1 hc).elim (h c) fun hc => (List.mem_singleton.1 hc) ▸ hb
  have hfront : (parts (ofComponents (cs ++ [b]))).dropLast = "" :: cs := by
    rw [parts_ofComponents hall, if_neg (by simp), ← List.cons_append, List.dropLast_concat]
  obtain ⟨c, cs', rfl⟩ := List.exists_cons_of_ne_nil hcs
  rw [dir, hfront]
  -- the front of the parts is `""` and the components, which write the path itself
  have hjoin : "/".intercalate ("" :: c :: cs') = ofComponents (c :: cs') := by
    rw [String.intercalate_cons_cons, String.empty_append]
    rfl
  simp only [hjoin, clean_ofComponents h]

end Path

end ShaderHeaders
