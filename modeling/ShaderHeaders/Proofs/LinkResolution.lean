import Mathlib.Data.String.Basic
import ShaderHeaders.Chunk.Link

/-!
# Resolving links

Links are resolved against a list of chunks: grouping the definitions by name first changes
nothing, and a prototype is provided by exactly the chunks whose definition satisfies it, in
the order of the list (`Link.resolve_eq`); a link is resolved exactly when some chunk defines a
function that agrees with its prototype (`Link.resolve_eq_nested`).
-/

namespace ShaderHeaders

namespace Link

/-- The step of `byName`: a chunk with a definition joins the group of its name, which is made
when there is none. -/
def group (groups : List (String × List Chunk)) (c : Chunk) : List (String × List Chunk) :=
  match c.definition? with
  | none => groups
  | some d =>
    if groups.any (·.1 == d.name) then
      groups.map fun g => if g.1 == d.name then (g.1, g.2 ++ [c]) else g
    else groups ++ [(d.name, [c])]

theorem byName_eq (chunks : List Chunk) : byName chunks = chunks.foldl group [] := rfl

/-- One chunk joins the group of the name it defines and no other. -/
theorem named_group (groups : List (String × List Chunk)) (c : Chunk) (n : String) :
    named (group groups c) n =
      named groups n ++ if c.definition?.map Signature.name = some n then [c] else [] := by
  unfold group
  cases hd : c.definition? with
  | none => simp
  | some d =>
    simp only [Option.map_some, Option.some.injEq]
    have hfst : ∀ g : String × List Chunk,
        (if g.1 == d.name then (g.1, g.2 ++ [c]) else g).1 = g.1 := fun g => by split_ifs <;> rfl
    split_ifs with hany hdn hdn
    · -- the group of `n` exists, and gets the chunk
      subst hdn
      obtain ⟨g, hg, hgn⟩ := List.any_eq_true.1 hany
      have hsome : (groups.find? fun g => g.1 == d.name).isSome := List.find?_isSome.2 ⟨g, hg, hgn⟩
      obtain ⟨g₀, hg₀⟩ := Option.isSome_iff_exists.1 hsome
      have hg₀n : g₀.1 = d.name := by simpa using List.find?_some hg₀
      simp only [named, List.find?_map, Function.comp_def, hfst, hg₀]
      simp [hg₀n]
    · -- other groups are left as they are
      simp only [named, List.find?_map, Function.comp_def, hfst, List.append_nil]
      cases hfind : groups.find? (·.1 == n) with
      | none => rfl
      | some g =>
        have hgn : g.1 = n := by simpa using List.find?_some hfind
        simp [hgn, Ne.symm hdn]
    · subst hdn
      have hnone : groups.find? (·.1 == d.name) = none := by
        rw [List.find?_eq_none]
        intro g hg hgd
        exact hany (List.any_eq_true.2 ⟨g, hg, hgd⟩)
      simp [named, List.find?_append, hnone]
    · have hne : ((d.name, [c]).1 == n) = false := by simpa using hdn
      simp [named, List.find?_append, hne]

theorem named_foldl_group (n : String) : ∀ (chunks : List Chunk) (groups : List (String × List Chunk)),
    named (chunks.foldl group groups) n =
      named groups n ++ chunks.filter fun c => c.definition?.map Signature.name = some n
  | [], groups => by simp
  | c :: rest, groups => by
    rw [List.foldl_cons, named_foldl_group n rest, named_group, List.filter_cons]
    by_cases hc : c.definition?.map Signature.name = some n
    · simp [hc]
    · simp [hc]

/-- Grouping definitions by name keeps, under a name, the chunks that define it, in order. -/
theorem named_byName (chunks : List Chunk) (n : String) :
    named (byName chunks) n = chunks.filter fun c => c.definition?.map Signature.name = some n := by
  rw [byName_eq, named_foldl_group]
  rfl

/-- The paths of the chunks of a list whose definition satisfies a prototype, in order. -/
def providersAmong (chunks : List Chunk) (p : Signature) : List String :=
  (chunks.filter fun d => d.definition?.any p.satisfiedBy).map Chunk.path

/-- Every prototype of every chunk is linked, in order, to exactly the chunks whose definition
satisfies it. -/
theorem resolve_eq (chunks : List Chunk) :
    resolve chunks = chunks.flatMap fun c => c.prototypes.map fun p => ⟨c.path, p, providersAmong chunks p⟩ := by
  simp only [resolve, named_byName, List.filter_filter, providersAmong]
  congr
  funext c
  congr
  funext p
  congr 2
  refine List.filter_congr fun d _ => ?_
  -- a definition that satisfies a prototype has the prototype's name
  cases hd : d.definition? with
  | none => simp
  | some s =>
    by_cases hs : p.satisfiedBy s = true
    · have hname : s.name = p.name := ((Signature.satisfiedBy_iff p s).1 hs).1.symm
      simp [hs, hname]
    · simp [hs]

/-- A prototype has a provider exactly when some chunk defines a function of its name, return
type and parameter types. -/
theorem providersAmong_ne_nil_iff (chunks : List Chunk) (p : Signature) :
    providersAmong chunks p ≠ [] ↔ ∃ d ∈ chunks, ∃ s, d.definition? = some s ∧
      s.name = p.name ∧ s.returnType = p.returnType ∧
      s.params.map (·.type) = p.params.map (·.type) := by
  simp only [providersAmong, ne_eq, List.map_eq_nil_iff, List.filter_eq_nil_iff, not_forall,
    not_not, exists_prop]
  refine exists_congr fun d => and_congr_right fun _ => ?_
  cases d.definition? with
  | none => simp
  | some s =>
    simp only [Option.any_some, Signature.satisfiedBy_iff, Option.some.injEq, exists_eq_left']
    exact and_congr eq_comm (and_congr eq_comm eq_comm)

/-- Resolving is the nested loop over the chunks and their prototypes: each link lists the paths
of the chunks, in order and with repetitions, whose definition satisfies its prototype; so a link
is resolved exactly when some chunk defines a function with the prototype's name, return type and
parameter types. -/
theorem resolve_eq_nested (chunks : List Chunk) :
    resolve chunks = (chunks.flatMap fun c => c.prototypes.map fun p =>
      ⟨c.path, p, (chunks.filter fun d => d.definition?.any p.satisfiedBy).map Chunk.path⟩) ∧
    ∀ l ∈ resolve chunks, l.resolved = true ↔ ∃ d ∈ chunks, ∃ s, d.definition? = some s ∧
      s.name = l.prototype.name ∧ s.returnType = l.prototype.returnType ∧
      s.params.map (·.type) = l.prototype.params.map (·.type) := by
  refine ⟨resolve_eq chunks, fun l hl => ?_⟩
  rw [resolve_eq, List.mem_flatMap] at hl
  obtain ⟨c, -, hl⟩ := hl
  obtain ⟨p, -, rfl⟩ := List.mem_map.1 hl
  rw [resolved, Bool.not_eq_true', List.isEmpty_eq_false_iff]
  exact providersAmong_ne_nil_iff chunks p


end Link

end ShaderHeaders
