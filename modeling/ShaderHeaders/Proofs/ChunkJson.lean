import ShaderHeaders.Chunk.Json
import ShaderHeaders.Proofs.SignatureJson
import ShaderHeaders.Proofs.TimestampText

/-!
# A stored chunk reads back

The catalog stores a chunk as the compact text of its JSON value. A chunk has one exactly when
the year of its time has four digits and its signatures spell every type they name
(`Chunk.encode_isOk_iff`), and the text then reads back as the chunk itself, field for field
(`Chunk.decode_encode`): the path, the time to the nanosecond, the definition or the reason there
is none, and the prototypes.
-/

namespace ShaderHeaders

namespace Signature

/-- Every type a signature names, its parameters' and its return type, has a spelling. -/
def Spelled (s : Signature) : Prop :=
  ∀ t ∈ s.params.map (·.type) ++ [s.returnType], t.valid = true

instance (s : Signature) : Decidable s.Spelled :=
  inferInstanceAs (Decidable (∀ t ∈ _, _))

/-- A signature is written exactly when it spells its types, and then as `jsonValue`. -/
theorem toJson_eq_ok_iff (s : Signature) {v : Json.Value} :
    s.toJson = .ok v ↔ s.Spelled ∧ v = s.jsonValue := by
  rw [toJson_eq]
  cases hf : (s.params.map (·.type) ++ [s.returnType]).find? (fun t => !t.valid) with
  | some t =>
    -- the type found has no spelling
    have ht := List.find?_some hf
    simp only [Bool.not_eq_eq_eq_not, Bool.not_true] at ht
    simp only [reduceCtorEq, false_iff, not_and]
    exact fun hs => absurd (hs t (List.mem_of_find?_eq_some hf)) (by simp [ht])
  | none =>
    have hs : s.Spelled := fun t ht => by simpa using List.find?_eq_none.1 hf t ht
    simp only [Except.ok.injEq, hs, true_and]
    exact eq_comm

/-- Writing signatures one after the other succeeds exactly when each spells its types. -/
theorem mapM_toJson_eq_ok_iff (ss : List Signature) {vs : List Json.Value} :
    ss.mapM toJson = .ok vs ↔ (∀ s ∈ ss, s.Spelled) ∧ vs = ss.map jsonValue := by
  induction ss generalizing vs with
  | nil => simp [pure, Except.pure]
  | cons s ss ih =>
    rw [List.mapM_cons]
    cases hs : s.toJson with
    | error e =>
      have hns : ¬ s.Spelled := fun h => by simp [(toJson_eq_ok_iff s).2 ⟨h, rfl⟩] at hs
      simp [except_error_bind, hns]
    | ok v =>
      obtain ⟨hsp, rfl⟩ := (toJson_eq_ok_iff s).1 hs
      cases hss : ss.mapM toJson with
      | error e =>
        have hnss : ¬ ∀ x ∈ ss, x.Spelled := fun h => by simp [(ih).2 ⟨h, rfl⟩] at hss
        simp only [except_ok_bind, except_error_bind, reduceCtorEq, false_iff]
        exact fun h => hnss (List.forall_mem_cons.1 h.1).2
      | ok ws =>
        obtain ⟨hssp, rfl⟩ := ih.1 hss
        have hall : ∀ x ∈ s :: ss, x.Spelled := List.forall_mem_cons.2 ⟨hsp, hssp⟩
        simp only [except_ok_bind, pure, Except.pure, Except.ok.injEq, List.map_cons]
        exact ⟨fun h => ⟨hall, h.symm⟩, fun h => h.2.symm⟩

end Signature

namespace Chunk

/-- A chunk has a JSON form: the year of its time has four digits, and every signature in it
spells its types. -/
def Encodable (c : Chunk) : Prop :=
  (0 ≤ c.modTime.year ∧ c.modTime.year ≤ 9999) ∧
    (∀ d, c.definition = .ok d → d.Spelled) ∧ ∀ s ∈ c.prototypes, s.Spelled

instance (c : Chunk) : Decidable c.Encodable :=
  match h : c.definition with
  | .ok d => decidable_of_iff ((0 ≤ c.modTime.year ∧ c.modTime.year ≤ 9999) ∧ d.Spelled ∧
      ∀ s ∈ c.prototypes, s.Spelled) (by simp [Encodable, h])
  | .error _ => decidable_of_iff ((0 ≤ c.modTime.year ∧ c.modTime.year ≤ 9999) ∧
      ∀ s ∈ c.prototypes, s.Spelled) (by simp [Encodable, h])

/-- The member of a chunk's definition, when it has one. -/
def definitionMember (c : Chunk) : List (String × Json.Value) :=
  match c.definition with
  | .ok d => [("definition", d.jsonValue)]
  | .error _ => []

/-- The member of the reason a chunk has no definition, unless the reason is empty. -/
def errorMember (c : Chunk) : List (String × Json.Value) :=
  if c.error.isEmpty then [] else [("error", .str c.error)]

/-- The members of the JSON object of an encodable chunk. -/
def members (c : Chunk) : List (String × Json.Value) :=
  [("path", .str c.path), ("mod_time", .str c.modTime.render)] ++ c.definitionMember ++
    [("prototypes", .arr (c.prototypes.map Signature.jsonValue))] ++ c.errorMember

/-- The JSON value of an encodable chunk. -/
def jsonValue (c : Chunk) : Json.Value := .obj c.members

/-- A chunk is written exactly when it is encodable, and then as `jsonValue`. -/
theorem toJson_eq_ok_iff (c : Chunk) {v : Json.Value} :
    c.toJson = .ok v ↔ c.Encodable ∧ v = c.jsonValue := by
  obtain ⟨path, t, definition, ps⟩ := c
  by_cases hy : 0 ≤ t.year ∧ t.year ≤ 9999
  case neg => simp [toJson, Encodable, Timestamp.toJson, hy, except_error_bind]
  -- the time is written; then the definition and the prototypes decide
  cases hps : ps.mapM Signature.toJson with
  | error e =>
    have hnps : ¬ ∀ s ∈ ps, s.Spelled := fun h => by
      simp [(Signature.mapM_toJson_eq_ok_iff ps).2 ⟨h, rfl⟩] at hps
    cases definition with
    | error m => simp [toJson, Encodable, Timestamp.toJson, hy, hps, hnps, except_ok_bind,
        except_error_bind, pure, Except.pure]
    | ok d =>
      cases hd : d.toJson <;>
        simp [toJson, Encodable, Timestamp.toJson, hy, hps, hnps, hd, except_ok_bind,
          except_error_bind, pure, Except.pure]
  | ok vs =>
    obtain ⟨hsp, rfl⟩ := (Signature.mapM_toJson_eq_ok_iff ps).1 hps
    cases definition with
    | error m =>
      have henc : Encodable ⟨path, t, .error m, ps⟩ := ⟨hy, ⟨fun _ h => by simp at h, hsp⟩⟩
      simp only [toJson, Timestamp.toJson, if_pos hy, hps, except_ok_bind, pure, Except.pure,
        Except.ok.injEq]
      exact ⟨fun h => ⟨henc, h.symm⟩, fun h => h.2.symm⟩
    | ok d =>
      cases hd : d.toJson with
      | error e =>
        have hnd : ¬ d.Spelled := fun h => by simp [(d.toJson_eq_ok_iff).2 ⟨h, rfl⟩] at hd
        simp [toJson, Encodable, Timestamp.toJson, hy, hd, hnd, except_ok_bind, except_error_bind]
      | ok w =>
        obtain ⟨hdsp, rfl⟩ := (d.toJson_eq_ok_iff).1 hd
        have henc : Encodable ⟨path, t, .ok d, ps⟩ :=
          ⟨hy, ⟨fun _ h => by simp only [Except.ok.injEq] at h; exact h ▸ hdsp, hsp⟩⟩
        simp only [toJson, Timestamp.toJson, if_pos hy, hd, hps, except_ok_bind, pure,
          Except.pure, Except.ok.injEq]
        exact ⟨fun h => ⟨henc, h.symm⟩, fun h => h.2.symm⟩

/-! ## Reading the members back -/

/-- The fields a chunk is read into. -/
def fields (c : Chunk) : Fields := ⟨c.path, c.modTime, c.definition?, c.prototypes, c.error⟩

/-- A chunk's fields make the chunk again: the definition when there is one, else the reason. -/
theorem chunk_fields (c : Chunk) : c.fields.chunk = c := by
  obtain ⟨p, t, d, ps⟩ := c
  cases d <;> rfl

/-- The keys of a chunk's members match only their own fields. -/
@[simp] theorem keyMatches_members :
    Json.keyMatches "mod_time" "path" = false ∧ Json.keyMatches "definition" "path" = false ∧
      Json.keyMatches "definition" "mod_time" = false ∧
      Json.keyMatches "prototypes" "path" = false ∧ Json.keyMatches "prototypes" "mod_time" = false ∧
      Json.keyMatches "prototypes" "definition" = false ∧ Json.keyMatches "error" "path" = false ∧
      Json.keyMatches "error" "mod_time" = false ∧ Json.keyMatches "error" "definition" = false ∧
      Json.keyMatches "error" "prototypes" = false := by
  decide

section Members

variable (r : Reading Fields)

theorem readMember_path (p : String) :
    readMember r ("path", .str p) = .ok { r with value := { r.value with path := p } } := by
  simp [readMember, Reading.text]

theorem readMember_modTime {t : Timestamp} (h : 0 ≤ t.year ∧ t.year ≤ 9999) :
    readMember r ("mod_time", .str t.render) =
      .ok { r with value := { r.value with modTime := t } } := by
  -- the time reader is opened by its equation: unfolding it inside `simp` costs the kernel seconds
  have ht : r.value.modTime.readJson (.str t.render) = .ok t := by
    rw [Timestamp.readJson, Timestamp.ofText?_render h.1 h.2]
  simp [readMember, ht, except_ok_bind, pure, Except.pure]

theorem readMember_definition {d : Signature} (h : d.Spelled) :
    readMember r ("definition", d.jsonValue) =
      .ok { r with value := { r.value with definition := some d } } := by
  have hne : d.jsonValue ≠ .null := by simp [Signature.jsonValue]
  simp only [readMember, Json.keyMatches_self, keyMatches_members, Bool.false_eq_true, if_false,
    if_true]
  rw [readDefinition.eq_2 _ _ hne, Signature.object_jsonValue _ h]
  simp [except_ok_bind, pure, Except.pure, Reading.merge]

theorem readMember_prototypes {ps : List Signature} (h : ∀ s ∈ ps, s.Spelled) :
    readMember r ("prototypes", .arr (ps.map Signature.jsonValue)) =
      .ok { r with value := { r.value with prototypes := ps } } := by
  simp only [readMember, Json.keyMatches_self, keyMatches_members, Bool.false_eq_true, if_false,
    if_true]
  exact Reading.list_array _ _ _ _ fun s hs => Signature.object_jsonValue _ (h s hs) _

theorem readMember_error (e : String) :
    readMember r ("error", .str e) = .ok { r with value := { r.value with error := e } } := by
  simp [readMember, Reading.text]

end Members

/-- The members of an encodable chunk read back into its fields, with no mismatch. -/
theorem readMembers_members {c : Chunk} (h : c.Encodable) :
    readMembers ⟨Fields.zero, none⟩ c.members = .ok ⟨c.fields, none⟩ := by
  obtain ⟨p, t, d, ps⟩ := c
  obtain ⟨hy, hd, hps⟩ := h
  -- the members present depend on whether there is a definition, and on the reason if not
  cases d with
  | ok d =>
    simp [readMembers, members, definitionMember, errorMember, error, readMember_path,
      readMember_modTime _ hy, readMember_definition _ (hd d rfl), readMember_prototypes _ hps,
      except_ok_bind, pure, Except.pure, fields, definition?, Fields.zero]
  | error m =>
    by_cases hm : m.isEmpty
    · simp [readMembers, members, definitionMember, errorMember, error, readMember_path,
        readMember_modTime _ hy, readMember_prototypes _ hps, except_ok_bind, pure, Except.pure,
        fields, definition?, Fields.zero, String.isEmpty_iff.1 hm]
    · simp [readMembers, members, definitionMember, errorMember, error, hm, readMember_path,
        readMember_modTime _ hy, readMember_prototypes _ hps, readMember_error, except_ok_bind,
        pure, Except.pure, fields, definition?, Fields.zero]

/-- An encodable chunk reads back from its JSON value. -/
theorem ofJson_jsonValue {c : Chunk} (h : c.Encodable) : ofJson c.jsonValue = .ok c := by
  simp [ofJson, jsonValue, Reading.object, readMembers_members h, Reading.result, chunk_fields,
    except_ok_bind, pure, Except.pure]

/-- The JSON value of a chunk reads back from its compact text: its signatures stand one and
two levels down. -/
theorem reads_jsonValue (c : Chunk) : Json.Reads 0 c.jsonValue := by
  refine Json.reads_obj (by decide) _ fun m hm => ?_
  simp only [members, definitionMember, errorMember, List.mem_append, List.mem_cons,
    List.mem_nil_iff, or_false] at hm
  rcases hm with (((rfl | rfl) | hm) | rfl) | hm
  · exact Json.reads_str _ _
  · exact Json.reads_str _ _
  · split at hm
    · simp only [List.mem_singleton] at hm
      subst hm
      exact Signature.reads_jsonValue _ (by decide)
    · simp at hm
  · refine Json.reads_arr (by decide) _ fun v hv => ?_
    obtain ⟨s, -, rfl⟩ := List.mem_map.1 hv
    exact Signature.reads_jsonValue _ (by decide)
  · split at hm
    · simp at hm
    · simp only [List.mem_singleton] at hm
      subst hm
      exact Json.reads_str _ _

/-- The bytes stored for a chunk are the compact text of its JSON value, when it is encodable. -/
theorem encode_eq_ok_iff (c : Chunk) {bs : List UInt8} :
    c.encode = .ok bs ↔ c.Encodable ∧ bs = Utf8.bytes c.jsonValue.compact := by
  cases hv : c.toJson with
  | error e =>
    have hnot : ¬ c.Encodable := fun h => by simp [(c.toJson_eq_ok_iff).2 ⟨h, rfl⟩] at hv
    rw [encode, hv]
    constructor
    · intro h
      cases h
    · intro h
      exact absurd h.1 hnot
  | ok v =>
    obtain ⟨henc, rfl⟩ := (c.toJson_eq_ok_iff).1 hv
    rw [encode, hv]
    exact ⟨fun h => ⟨henc, (Except.ok.inj h).symm⟩, fun h => h.2 ▸ rfl⟩

/-- A chunk has stored bytes exactly when it is encodable. -/
theorem encode_isOk_iff (c : Chunk) : (∃ bs, c.encode = .ok bs) ↔ c.Encodable := by
  constructor
  · rintro ⟨bs, h⟩
    exact ((encode_eq_ok_iff c).1 h).1
  · intro h
    exact ⟨_, (encode_eq_ok_iff c).2 ⟨h, rfl⟩⟩

/-- The bytes stored for a chunk read back as the chunk, field for field. -/
theorem decode_encode {c : Chunk} {bs : List UInt8} (h : c.encode = .ok bs) :
    decode bs = .ok c := by
  obtain ⟨henc, rfl⟩ := (encode_eq_ok_iff c).1 h
  rw [decode, Json.parse_compact (reads_jsonValue c)]
  exact ofJson_jsonValue henc

end Chunk

end ShaderHeaders
