import ShaderHeaders.Glsl.Json
import ShaderHeaders.Proofs.JsonText

/-!
# Signatures as JSON, both ways

A signature is written as the object `{"name": …, "params": …, "return_type": …}`. Writing is
total on the signatures whose type names are all valid, and gives for them the value
`Signature.jsonValue`, which names its parts directly (`Signature.toJson_eq`); otherwise the
first invalid type, parameters before the return type, is the reason it fails.

Reading takes the members one after the other (`Signature.readMember`). On this value it gives
the signature again (`Signature.ofJson_jsonValue`); and since its compact text parses to it
(`Json.parse_compact`), so does the text (`Signature.ofJsonText_jsonValue`). An empty parameter
list is written `null`; the array `[]` in its place reads the same, wherever it stands
(`Signature.readMembers_params_nil`).

A reading stops only at a type name that is no spelling (`Signature.readMembers_error`), and it
stops at each of them: at a `return_type` string, or at a `type` string of an object in the
`params` array, wherever in the document it stands (`Signature.readMembers_stops`). Both come
from the same facts about one member, carried over the members by `foldlM_error` and
`foldlM_error_of_mem`.

* `Signature.json_roundTrip` puts these together: when writing fails and why, what is written
  reads back (also with `[]` for no parameters), that a parameter's name is left out exactly
  when it is empty (`Parameter.jsonValue_eq_type_iff`), and which documents are refused.
-/

namespace ShaderHeaders

/-! ## Writing -/

namespace TypeName

/-- A type name has a spelling exactly when it is valid, and it prints as that spelling. -/
theorem spelling?_eq (t : TypeName) : t.spelling? = if t.valid then some t.render else none := by
  by_cases h : t.valid = true
  · have hlt : t.code.toNat < spellings.length := by
      simp only [valid, decide_eq_true_eq, UInt8.lt_iff_toNat_lt] at h
      exact h
    simp [h, render, spelling?, hlt]
  · have hle : spellings.length ≤ t.code.toNat := by
      simp only [valid, decide_eq_true_eq, UInt8.lt_iff_toNat_lt, Nat.not_lt] at h
      exact h
    simp [h, spelling?, hle]

theorem toJson_eq (t : TypeName) :
    t.toJson = if t.valid then .ok (.str t.render) else .error t.jsonMessage := by
  by_cases h : t.valid = true <;> simp [toJson, spelling?_eq, h]

end TypeName

namespace Parameter

/-- The object a parameter of a valid type is written as: its type, then its name unless the
name is empty. -/
def jsonValue (p : Parameter) : Json.Value :=
  .obj ([("type", .str p.type.render)] ++ if p.name.isEmpty then [] else [("name", .str p.name)])

theorem toJson_eq (p : Parameter) :
    p.toJson = if p.type.valid then .ok p.jsonValue else .error p.type.jsonMessage := by
  by_cases h : p.type.valid = true <;>
    simp [toJson, TypeName.toJson_eq, h, jsonValue, bind, Except.bind, pure, Except.pure]

/-- A parameter's name is left out of its object exactly when the name is empty. -/
theorem jsonValue_eq_type_iff (p : Parameter) :
    p.jsonValue = .obj [("type", .str p.type.render)] ↔ p.name = "" := by
  by_cases hn : p.name = ""
  · simp [jsonValue, hn]
  · simp [jsonValue, hn]

/-- Writing a parameter list stops at the first invalid type. -/
theorem mapM_toJson (ps : List Parameter) :
    ps.mapM toJson = match (ps.map (·.type)).find? (fun t => !t.valid) with
      | some t => .error t.jsonMessage
      | none => .ok (ps.map jsonValue) := by
  induction ps with
  | nil => rfl
  | cons p ps ih =>
    by_cases h : p.type.valid = true
    · rw [List.mapM_cons, toJson_eq, if_pos h, ih]
      simp only [List.map_cons, List.find?_cons, h, Bool.not_true]
      cases (ps.map (·.type)).find? (fun t => !t.valid) <;> rfl
    · simp [List.mapM_cons, toJson_eq, h, bind, Except.bind]

end Parameter

namespace Signature

/-- The object a signature with valid types is written as. -/
def jsonValue (s : Signature) : Json.Value :=
  .obj [("name", .str s.name),
    ("params", if s.params.isEmpty then .null else .arr (s.params.map Parameter.jsonValue)),
    ("return_type", .str s.returnType.render)]

/-- Writing a signature fails at the first invalid type, parameters before the return type,
and otherwise gives `jsonValue`. -/
theorem toJson_eq (s : Signature) :
    s.toJson = match (s.params.map (·.type) ++ [s.returnType]).find? (fun t => !t.valid) with
      | some t => .error t.jsonMessage
      | none => .ok s.jsonValue := by
  obtain ⟨name, ps, ret⟩ := s
  rw [List.find?_append]
  cases ps with
  | nil =>
    by_cases h : ret.valid = true <;>
      simp [toJson, jsonValue, TypeName.toJson_eq, h, bind, Except.bind, pure, Except.pure]
  | cons p ps =>
    have hmap := Parameter.mapM_toJson (p :: ps)
    simp only [toJson, jsonValue, List.isEmpty_cons, hmap]
    cases hf : ((p :: ps).map (·.type)).find? (fun t => !t.valid) with
    | some t => rfl
    | none =>
      by_cases h : ret.valid = true <;>
        simp [TypeName.toJson_eq, h, bind, Except.bind, pure, Except.pure, Except.map]

end Signature

/-! ## Reading, one member at a time -/

section Stops

/-- A computation that succeeded hands its value to what follows. Rewriting by it, rather than
unfolding `bind`, keeps the proof terms that the kernel checks small. -/
theorem except_ok_bind {ε γ δ : Type} (a : γ) (g : γ → Except ε δ) : (Except.ok a >>= g) = g a :=
  rfl

/-- A computation that failed stops what follows. -/
theorem except_error_bind {ε γ δ : Type} (e : ε) (g : γ → Except ε δ) :
    (Except.error e >>= g) = .error e :=
  rfl

/-- A bound computation fails with the failure of its first part, or of what follows it. -/
theorem bind_eq_error {γ δ : Type} {x : Except String γ} {g : γ → Except String δ} {e : String}
    (h : x >>= g = .error e) :
    x = .error e ∨ ∃ a, x = .ok a ∧ g a = .error e := by
  cases x with
  | error e' =>
    rw [except_error_bind, Except.error.injEq] at h
    exact .inl (h ▸ rfl)
  | ok a => exact .inr ⟨a, rfl, h⟩

variable {α β : Type} {f : β → α → Except String β}

/-- A fold that meets a step failing from every state fails. -/
theorem foldlM_error_of_mem {a : α} {l : List α} (ha : a ∈ l)
    (hf : ∀ b, ∃ e, f b a = .error e) :
    ∀ b, ∃ e, l.foldlM f b = .error e := by
  induction l with
  | nil => cases ha
  | cons x l ih =>
    intro b
    rw [List.foldlM_cons]
    rcases List.mem_cons.1 ha with rfl | hl
    · obtain ⟨e, he⟩ := hf b
      exact ⟨e, by rw [he]; rfl⟩
    · cases hb : f b x with
      | error e => exact ⟨e, rfl⟩
      | ok b' => exact ih hl b'

/-- Every failure of a fold is the failure of one of its steps. -/
theorem foldlM_error {P : String → Prop} (hf : ∀ b a e, f b a = .error e → P e) :
    ∀ (l : List α) b e, l.foldlM f b = .error e → P e := by
  intro l
  induction l with
  | nil => intro b e h; cases h
  | cons x l ih =>
    intro b e h
    rw [List.foldlM_cons] at h
    cases hb : f b x with
    | error e' =>
      rw [hb] at h
      cases h
      exact hf b x _ hb
    | ok b' =>
      rw [hb] at h
      exact ih b' e h

end Stops

namespace Reading

variable {α β γ : Type}

@[simp] theorem merge_none (r : Reading α) : r.merge none = r := by
  simp [merge]

variable {P : String → Prop}

/-- A record stops only where reading its members stops. -/
theorem object_error {empty : α}
    {members : Reading α → List (String × Json.Value) → Except String (Reading α)}
    {wrong : Json.Value → String} {v : Json.Value} {e : String}
    (hm : ∀ r ms e, members r ms = .error e → P e) (h : object empty members wrong v = .error e) :
    P e := by
  cases v <;> simp only [object] at h
  case obj ms => exact hm _ _ _ h
  all_goals cases h

/-- Items stop only where an item stops. -/
theorem items_error {item : Json.Value → Except String (Reading β)}
    (hi : ∀ v e, item v = .error e → P e) :
    ∀ {vs : List Json.Value} {e : String}, items item vs = .error e → P e
  | [], _, h => by cases h
  | v :: vs, e, h => by
    simp only [items] at h
    rcases bind_eq_error h with hv | ⟨_, -, h⟩
    · exact hi v e hv
    rcases bind_eq_error h with hvs | ⟨⟨_, _⟩, -, h⟩
    · exact items_error hi hvs
    · cases h

/-- An item that stops from any reading stops the items. -/
theorem items_stops {item : Json.Value → Except String (Reading β)} {v : Json.Value}
    (hv : ∃ e, item v = .error e) : ∀ {vs : List Json.Value}, v ∈ vs →
      ∃ e, items item vs = .error e
  | [], hmem => by cases hmem
  | w :: vs, hmem => by
    simp only [items]
    rcases List.mem_cons.1 hmem with rfl | hvs
    · obtain ⟨e, he⟩ := hv
      exact ⟨e, by simp [he, bind, Except.bind]⟩
    · cases hw : item w with
      | error e => exact ⟨e, by simp [bind, Except.bind]⟩
      | ok r =>
        obtain ⟨e, he⟩ := items_stops hv hvs
        exact ⟨e, by simp [he, bind, Except.bind]⟩

/-- A list field stops only where an item stops. -/
theorem list_error {r : Reading α} {field goType : String}
    {item : Json.Value → Except String (Reading β)} {set : α → List β → α} {v : Json.Value}
    {e : String} (hi : ∀ v e, item v = .error e → P e) (h : r.list field goType item set v = .error e) :
    P e := by
  cases v <;> simp only [list] at h
  case arr vs =>
    rcases bind_eq_error h with hvs | ⟨⟨_, _⟩, -, h⟩
    · exact items_error hi hvs
    · cases h
  all_goals cases h

/-- Items written from values that each read back without mismatch read back as those values. -/
theorem items_map {item : Json.Value → Except String (Reading β)} {f : β → Json.Value}
    {xs : List β} (h : ∀ x ∈ xs, item (f x) = .ok ⟨x, none⟩) :
    items item (xs.map f) = .ok (xs, none) := by
  induction xs with
  | nil => rfl
  | cons x xs ih =>
    have hx := h x List.mem_cons_self
    have hxs := ih fun y hy => h y (List.mem_cons_of_mem _ hy)
    simp [items, hx, hxs, bind, Except.bind, pure, Except.pure]

/-- A list written as the array of its items, even when empty, reads back. -/
theorem list_array (r : Reading α) (field goType : String)
    {item : Json.Value → Except String (Reading β)} (set : α → List β → α) {f : β → Json.Value}
    {xs : List β} (h : ∀ x ∈ xs, item (f x) = .ok ⟨x, none⟩) :
    r.list field goType item set (.arr (xs.map f)) = .ok { r with value := set r.value xs } := by
  simp [list, items_map h, bind, Except.bind, pure, Except.pure]

/-- A list written as `null` when empty and as the array of its items otherwise reads back. -/
theorem list_written (r : Reading α) (field goType : String)
    {item : Json.Value → Except String (Reading β)} (set : α → List β → α) {f : β → Json.Value}
    {xs : List β} (h : ∀ x ∈ xs, item (f x) = .ok ⟨x, none⟩) :
    r.list field goType item set (if xs.isEmpty then .null else .arr (xs.map f)) =
      .ok { r with value := set r.value xs } := by
  cases xs with
  | nil => rfl
  | cons x xs => exact list_array r field goType set h

end Reading

namespace Json

@[simp] theorem keyMatches_self (k : String) : keyMatches k k = true := by simp [keyMatches]

/-- The fields of a signature and of a parameter match one another's keys only where equal. -/
@[simp] theorem keyMatches_fields :
    keyMatches "name" "type" = false ∧ keyMatches "params" "name" = false ∧
      keyMatches "return_type" "name" = false ∧ keyMatches "return_type" "params" = false := by
  decide

/-- Among the members `ms`, one whose key matches `field` holds a string that spells no type. -/
def HasUnknownType (field : String) (ms : List (String × Value)) : Prop :=
  ∃ k x, (k, Value.str x) ∈ ms ∧ keyMatches k field = true ∧ TypeName.ofSpelling? x = none

/-- A key that matches one field matches no field that this one does not match. -/
theorem keyMatches_eq_false {k a b : String} (ha : keyMatches k a = true)
    (hab : keyMatches a b = false) : keyMatches k b = false := by
  simp only [keyMatches, beq_iff_eq, beq_eq_false_iff_ne, ne_eq] at ha hab ⊢
  rw [ha]
  exact hab

end Json

namespace TypeName

theorem ofText_render {t : TypeName} (h : t.valid = true) : ofText t.render = .ok t := by
  simp [ofText, ofSpelling?_eq_some.2 ⟨h, rfl⟩]

theorem readField_render {t : TypeName} (h : t.valid = true) (field : String) (t₀ : TypeName) :
    readField field t₀ (.str t.render) = .ok (t, none) := by
  simp [readField, ofText_render h, Except.map]

/-- The message of a reading stopped by a text that spells no type. -/
def IsUnknownMessage (e : String) : Prop := ∃ y, ofSpelling? y = none ∧ e = unknownMessage y

theorem readField_error {field : String} {t : TypeName} {v : Json.Value} {e : String}
    (h : readField field t v = .error e) : IsUnknownMessage e := by
  unfold readField at h
  split at h
  · rename_i s
    cases hs : ofSpelling? s with
    | none => simp [ofText, hs, Except.map] at h; exact ⟨s, hs, h.symm⟩
    | some t' => simp [ofText, hs, Except.map] at h
  all_goals cases h

end TypeName

namespace Parameter

variable {within : String}

theorem readMember_error {r : Reading Parameter} {m : String × Json.Value} {e : String}
    (h : readMember within r m = .error e) : TypeName.IsUnknownMessage e := by
  obtain ⟨k, v⟩ := m
  simp only [readMember] at h
  split at h
  · -- at `type`, reading the type name is the one step that can fail
    rcases bind_eq_error h with hf | ⟨⟨_, _⟩, -, h⟩
    · exact TypeName.readField_error hf
    · cases h
  · split at h <;> cases h

/-- A member `type` whose string spells no type stops the reading of a parameter. -/
theorem readMember_stops {r : Reading Parameter} {k x : String}
    (hk : Json.keyMatches k "type" = true) (hx : TypeName.ofSpelling? x = none) :
    readMember within r (k, .str x) = .error (TypeName.unknownMessage x) := by
  simp [readMember, hk, TypeName.readField, TypeName.ofText, hx, Except.map, bind, Except.bind]

theorem readMembers_error {r : Reading Parameter} {ms : List (String × Json.Value)} {e : String}
    (h : readMembers within r ms = .error e) : TypeName.IsUnknownMessage e :=
  foldlM_error (fun _ _ _ hm => readMember_error hm) ms r e h

theorem readMembers_stops {ms : List (String × Json.Value)} (hbad : Json.HasUnknownType "type" ms)
    (r : Reading Parameter) : ∃ e, readMembers within r ms = .error e := by
  obtain ⟨k, x, hmem, hk, hx⟩ := hbad
  exact foldlM_error_of_mem hmem (fun _ => ⟨_, readMember_stops hk hx⟩) r

theorem ofJson_error {v : Json.Value} {e : String} (h : ofJson within v = .error e) :
    TypeName.IsUnknownMessage e :=
  Reading.object_error (fun _ _ _ hm => readMembers_error hm) h

/-- A parameter written with a valid type reads back. -/
theorem ofJson_jsonValue {p : Parameter} (h : p.type.valid = true) :
    ofJson within p.jsonValue = .ok ⟨p, none⟩ := by
  obtain ⟨t, name⟩ := p
  by_cases hn : name.isEmpty = true
  · obtain rfl : name = "" := by simpa using hn
    simp [ofJson, Reading.object, jsonValue, readMembers, readMember,
      TypeName.readField_render h, bind, Except.bind, pure, Except.pure]
  · simp [ofJson, Reading.object, jsonValue, hn, readMembers, readMember, Reading.text,
      TypeName.readField_render h, bind, Except.bind, pure, Except.pure]

theorem reads_jsonValue (p : Parameter) {depth : Nat} (hdepth : depth < Json.maxDepth) :
    Json.Reads depth p.jsonValue := by
  refine Json.reads_obj hdepth _ fun m hm => ?_
  -- both members hold strings
  obtain ⟨x, hx⟩ : ∃ x, m.2 = .str x := by
    rcases List.mem_append.1 hm with hm | hm
    · obtain rfl := List.mem_singleton.1 hm
      exact ⟨_, rfl⟩
    · split at hm
      · cases hm
      · obtain rfl := List.mem_singleton.1 hm
        exact ⟨_, rfl⟩
  rw [hx]
  exact Json.reads_str _ x

end Parameter

namespace Signature

variable {within : String}

theorem readMember_error {r : Reading Signature} {m : String × Json.Value} {e : String}
    (h : readMember within r m = .error e) : TypeName.IsUnknownMessage e := by
  obtain ⟨k, v⟩ := m
  simp only [readMember] at h
  split at h
  · cases h
  split at h
  · -- at `params`, only reading an array's items can fail
    exact Reading.list_error (fun _ _ hv => Parameter.ofJson_error hv) h
  split at h
  · rcases bind_eq_error h with hf | ⟨⟨_, _⟩, -, h⟩
    · exact TypeName.readField_error hf
    · cases h
  · cases h

/-- A reading of signature members stops only at a text that spells no type. -/
theorem readMembers_error {r : Reading Signature} {ms : List (String × Json.Value)} {e : String}
    (h : readMembers within r ms = .error e) : TypeName.IsUnknownMessage e :=
  foldlM_error (fun _ _ _ hm => readMember_error hm) ms r e h

/-- A member `return_type` whose string spells no type stops the reading. -/
theorem readMember_stops_returnType {r : Reading Signature} {k x : String}
    (hk : Json.keyMatches k "return_type" = true) (hx : TypeName.ofSpelling? x = none) :
    readMember within r (k, .str x) = .error (TypeName.unknownMessage x) := by
  have hn : Json.keyMatches k "name" = false := Json.keyMatches_eq_false hk (by simp)
  have hp : Json.keyMatches k "params" = false := Json.keyMatches_eq_false hk (by simp)
  simp [readMember, hn, hp, hk, TypeName.readField, TypeName.ofText, hx, Except.map, bind,
    Except.bind]

/-- A member `params` holding an object whose `type` spells no type stops the reading. -/
theorem readMember_stops_params {r : Reading Signature} {k : String} {items : List Json.Value}
    {pms : List (String × Json.Value)} (hk : Json.keyMatches k "params" = true)
    (hmem : Json.Value.obj pms ∈ items) (hbad : Json.HasUnknownType "type" pms) :
    ∃ e, readMember within r (k, .arr items) = .error e := by
  have hn : Json.keyMatches k "name" = false := Json.keyMatches_eq_false hk (by simp)
  have hitem : ∃ e, Parameter.ofJson within (.obj pms) = .error e :=
    Parameter.readMembers_stops hbad _
  obtain ⟨e, he⟩ := Reading.items_stops hitem hmem
  exact ⟨e, by simp [readMember, Reading.list, hn, hk, he, bind, Except.bind]⟩

/-- A signature object names a type by a text that spells none: in a `return_type` member, or in
the `type` member of an object in the `params` array. -/
def NamesUnknownType (ms : List (String × Json.Value)) : Prop :=
  Json.HasUnknownType "return_type" ms ∨
    ∃ k items pms, (k, Json.Value.arr items) ∈ ms ∧ Json.keyMatches k "params" = true ∧
      Json.Value.obj pms ∈ items ∧ Json.HasUnknownType "type" pms

/-- Wherever it stands, a type name that is no spelling stops the reading of a signature. -/
theorem readMembers_stops {ms : List (String × Json.Value)} (hbad : NamesUnknownType ms)
    (r : Reading Signature) : ∃ e, readMembers within r ms = .error e := by
  rcases hbad with ⟨k, x, hmem, hk, hx⟩ | ⟨k, items, pms, hmem, hk, hpms, hbad⟩
  · exact foldlM_error_of_mem hmem (fun _ => ⟨_, readMember_stops_returnType hk hx⟩) r
  · exact foldlM_error_of_mem hmem (fun _ => readMember_stops_params hk hpms hbad) r

/-- A document naming a type by a text that spells none is refused, and the reason is such a
text. -/
theorem ofJsonText_unknownType {text : String} {ms : List (String × Json.Value)}
    (hparse : Json.parse (Utf8.bytes text) = .ok (.obj ms)) (hbad : NamesUnknownType ms) :
    ∃ y, TypeName.ofSpelling? y = none ∧
      ofJsonText text = .error (TypeName.unknownMessage y) := by
  obtain ⟨e, he⟩ : ∃ e, readMembers "" ⟨empty, none⟩ ms = .error e := readMembers_stops hbad _
  obtain ⟨y, hy, rfl⟩ := readMembers_error he
  exact ⟨y, hy, by simp [ofJsonText, hparse, ofJson, Reading.object, he, bind, Except.bind]⟩

/-! ## Reading back what is written -/

/-- A signature whose type names are all valid reads back from the value it is written as,
wherever it stands. -/
theorem object_jsonValue (within : String) {s : Signature}
    (h : ∀ t ∈ s.params.map (·.type) ++ [s.returnType], t.valid = true)
    (wrong : Json.Value → String) :
    Reading.object empty (readMembers within) wrong s.jsonValue = .ok ⟨s, none⟩ := by
  obtain ⟨name, ps, ret⟩ := s
  have hret : ret.valid = true := h ret (by simp)
  have hps : ∀ p ∈ ps, Parameter.ofJson within p.jsonValue = .ok ⟨p, none⟩ := fun p hp =>
    Parameter.ofJson_jsonValue (h p.type (by simp; exact .inl ⟨p, hp, rfl⟩))
  simp only [Reading.object, jsonValue, readMembers, List.foldlM_cons, List.foldlM_nil,
    readMember, Json.keyMatches_self, Json.keyMatches_fields, if_true, if_false,
    Bool.false_eq_true, bind, Except.bind]
  rw [Reading.list_written _ _ _ _ hps]
  simp [empty, Reading.text, TypeName.readField_render hret, pure, Except.pure]

theorem ofJson_jsonValue {s : Signature}
    (h : ∀ t ∈ s.params.map (·.type) ++ [s.returnType], t.valid = true) :
    ofJson s.jsonValue = .ok s := by
  simp [ofJson, object_jsonValue "" h, bind, Except.bind, Reading.result]

/-- A signature's value reads back two levels above the deepest a document may nest: a
parameter object stands two below it. -/
theorem reads_jsonValue (s : Signature) {depth : Nat} (hdepth : depth + 2 < Json.maxDepth) :
    Json.Reads depth s.jsonValue := by
  refine Json.reads_obj (by omega) _ fun m hm => ?_
  simp only [List.mem_cons, List.mem_nil_iff, or_false] at hm
  rcases hm with rfl | rfl | rfl
  · exact Json.reads_str _ _
  · dsimp only
    split
    · exact Json.reads_null _
    · refine Json.reads_arr (by omega) _ fun v hv => ?_
      obtain ⟨p, -, rfl⟩ := List.mem_map.1 hv
      exact Parameter.reads_jsonValue p (by omega)
  · exact Json.reads_str _ _

/-- The compact text of a signature's value reads back as the signature. -/
theorem ofJsonText_jsonValue {s : Signature}
    (h : ∀ t ∈ s.params.map (·.type) ++ [s.returnType], t.valid = true) :
    ofJsonText s.jsonValue.compact = .ok s := by
  simp only [ofJsonText, Json.parse_compact (reads_jsonValue s (by decide))]
  exact ofJson_jsonValue h

theorem readMember_params_nil (r : Reading Signature) :
    readMember within r ("params", .arr []) = readMember within r ("params", .null) := by
  simp [readMember, Reading.list, Reading.items, bind, Except.bind, pure, Except.pure]

/-- An empty parameter array reads as `null` does, wherever it stands. -/
theorem readMembers_params_nil (within : String) (r : Reading Signature) (ms₁ ms₂ : List (String × Json.Value)) :
    readMembers within r (ms₁ ++ ("params", .arr []) :: ms₂) =
      readMembers within r (ms₁ ++ ("params", .null) :: ms₂) := by
  simp only [readMembers, List.foldlM_append, List.foldlM_cons, readMember_params_nil]

/-- With `[]` in place of `null`, the text of a signature with no parameters reads back too. -/
theorem ofJsonText_params_nil {s : Signature} (hps : s.params = [])
    (hret : s.returnType.valid = true) :
    ofJsonText (Json.Value.obj [("name", .str s.name), ("params", .arr []),
      ("return_type", .str s.returnType.render)]).compact = .ok s := by
  have hreads : Json.Reads 0 (Json.Value.obj [("name", .str s.name), ("params", .arr []),
      ("return_type", .str s.returnType.render)]) := by
    refine Json.reads_obj (by decide) _ fun m hm => ?_
    simp only [List.mem_cons, List.mem_nil_iff, or_false] at hm
    rcases hm with rfl | rfl | rfl
    · exact Json.reads_str _ _
    · exact Json.reads_arr (by decide) [] (by simp)
    · exact Json.reads_str _ _
  have hvalid : ∀ t ∈ s.params.map (·.type) ++ [s.returnType], t.valid = true := by
    simp [hps, hret]
  -- the same members with `null`, as written, read back
  have hnull := object_jsonValue "" hvalid (Json.valueMismatch · "glsl.Signature")
  simp only [jsonValue, hps, List.isEmpty_nil, if_true, Reading.object] at hnull
  have hswap := readMembers_params_nil "" ⟨empty, none⟩ [("name", .str s.name)]
    [("return_type", .str s.returnType.render)]
  simp only [List.singleton_append] at hswap
  simp [ofJsonText, Json.parse_compact hreads, ofJson, Reading.object, hswap, hnull, bind,
    Except.bind, Reading.result]

/-- Signatures and their JSON text. Writing fails exactly when a type name is invalid (its code
is `9` or more), the first such type, parameters before the return type, giving the message.
What is written reads back as the signature; an empty parameter list is written `null`, and
the same text with `[]` in its place reads back too; a parameter's name is left out exactly
when it is empty. A document whose `return_type`, or the `type` of an object in its `params`
array, is a string that spells no type is refused, with the message of such a string. -/
theorem json_roundTrip :
    (∀ (s : Signature) (e : String), s.toJson = .error e ↔
      ∃ t, (s.params.map (·.type) ++ [s.returnType]).find? (fun t => !t.valid) = some t ∧
        e = t.jsonMessage) ∧
    (∀ (s : Signature) (v : Json.Value), s.toJson = .ok v →
      ofJsonText v.compact = .ok s ∧
      (s.params = [] → ∃ ret,
        v = .obj [("name", .str s.name), ("params", .null), ("return_type", ret)] ∧
        ofJsonText (Json.Value.obj [("name", .str s.name), ("params", .arr []),
          ("return_type", ret)]).compact = .ok s)) ∧
    (∀ (p : Parameter) (v : Json.Value), p.toJson = .ok v →
      (v = .obj [("type", .str p.type.render)] ↔ p.name = "")) ∧
    (∀ (text : String) (ms : List (String × Json.Value)),
      Json.parse (Utf8.bytes text) = .ok (.obj ms) → NamesUnknownType ms →
      ∃ y, TypeName.ofSpelling? y = none ∧
        ofJsonText text = .error (TypeName.unknownMessage y)) := by
  refine ⟨fun s e => ?_, fun s v hv => ?_, fun p v hv => ?_,
    fun _ _ hparse hbad => ofJsonText_unknownType hparse hbad⟩
  · -- writing fails with the message of the first invalid type, and only then
    rw [toJson_eq]
    cases (s.params.map (·.type) ++ [s.returnType]).find? (fun t => !t.valid) with
    | none => simp
    | some t => simp [eq_comm]
  · -- what is written is `jsonValue`, for a signature whose types are all valid
    rw [toJson_eq] at hv
    cases hfind : (s.params.map (·.type) ++ [s.returnType]).find? (fun t => !t.valid) with
    | some t => rw [hfind] at hv; cases hv
    | none =>
      rw [hfind] at hv
      cases hv
      have hvalid : ∀ t ∈ s.params.map (·.type) ++ [s.returnType], t.valid = true := by
        simpa using List.find?_eq_none.1 hfind
      refine ⟨ofJsonText_jsonValue hvalid, fun hps => ⟨.str s.returnType.render, ?_, ?_⟩⟩
      · simp [jsonValue, hps]
      · exact ofJsonText_params_nil hps (hvalid _ (by simp))
  · -- a parameter that can be written at all is written as `jsonValue`
    rw [Parameter.toJson_eq] at hv
    split at hv
    · cases hv
      exact Parameter.jsonValue_eq_type_iff p
    · cases hv

/-- The object `{"return_type":"int2"}` names a type by a text that spells none, and is refused. -/
theorem json_roundTrip_int2 :
    NamesUnknownType [("return_type", .str "int2")] ∧
      ∃ y, TypeName.ofSpelling? y = none ∧
        ofJsonText (Json.Value.obj [("return_type", .str "int2")]).compact =
          .error (TypeName.unknownMessage y) := by
  have hreads : Json.Reads 0 (.obj [("return_type", .str "int2")]) :=
    Json.reads_obj (by decide) _ (by simp [Json.reads_str])
  have hbad : NamesUnknownType [("return_type", .str "int2")] :=
    .inl ⟨"return_type", "int2", List.mem_singleton_self _, Json.keyMatches_self _, by decide⟩
  exact ⟨hbad, json_roundTrip.2.2.2 _ _ (Json.parse_compact hreads) hbad⟩

end Signature

end ShaderHeaders
