import Mathlib.Data.Nat.Find
import ShaderHeaders.Proofs.FirstDefinition
import ShaderHeaders.Proofs.PrototypeLines

/-!
# Printed signatures read back

A signature prints as its header `ret name(params)` (`Signature.render`), and as a prototype
line with `;` after it (`Signature.prototype`). Reading undoes printing on the signatures that
can be written at all, and reads no others:

* `Signature.isDefinition`: the name and every parameter's name are identifiers that spell no
  type, and every type is valid. The header of such a signature, then blanks, `{` and anything,
  has it as its definition; and every definition read from a text is such a signature.
* `Signature.isPrototype`: as for a definition, but a parameter may be anonymous, only not the
  lone anonymous `void`, which prints as `(void)`, the spelling of no parameters. The prototype
  line of such a signature declares it alone; and every prototype of a text is such a
  signature.

The printed header is a `HeaderText` whose blanks are single spaces
(`HeaderText.ofSignature`), so both laws come from the reading of header texts.
-/

namespace ShaderHeaders

open Source Tokens

namespace Utf8

theorem bytes_void : bytes "void" = TypeName.void.word := TypeName.bytes_render (t := .void) rfl

theorem isName_bytes_empty : isName (bytes "") = false := by rw [bytes_empty]; rfl

end Utf8

namespace Parameter

/-- A parameter whose name is a name is not anonymous. -/
theorem anonymous_eq_false {p : Parameter} (h : isName (Utf8.bytes p.name) = true) :
    p.anonymous = false := by
  rw [anonymous, Bool.eq_false_iff]
  intro he
  rw [String.isEmpty_iff.1 he, Utf8.isName_bytes_empty] at h
  cases h

end Parameter

namespace Signature

/-- A signature a definition header can declare: its name and every parameter's name are
    identifiers that spell no type, and every type is valid. -/
def isDefinition (s : Signature) : Bool :=
  isName (Utf8.bytes s.name) && s.returnType.valid &&
    s.params.all fun p => p.type.valid && isName (Utf8.bytes p.name)

/-- A signature a prototype line can declare: as for a definition, but a parameter may be
    anonymous, unless it is a lone anonymous `void`. -/
def isPrototype (s : Signature) : Bool :=
  isName (Utf8.bytes s.name) && s.returnType.valid &&
    (s.params.all fun p => p.type.valid && (p.anonymous || isName (Utf8.bytes p.name))) &&
    s.params != [⟨.void, ""⟩]

theorem isDefinition_iff {s : Signature} :
    s.isDefinition = true ↔ isName (Utf8.bytes s.name) = true ∧ s.returnType.valid = true ∧
      ∀ p ∈ s.params, p.type.valid = true ∧ isName (Utf8.bytes p.name) = true := by
  simp [isDefinition, and_assoc]

theorem isPrototype_iff {s : Signature} :
    s.isPrototype = true ↔ isName (Utf8.bytes s.name) = true ∧ s.returnType.valid = true ∧
      (∀ p ∈ s.params, p.type.valid = true ∧
        (p.anonymous = true ∨ isName (Utf8.bytes p.name) = true)) ∧
      s.params ≠ [⟨.void, ""⟩] := by
  simp [isPrototype, and_assoc]

/-- Every signature a definition can declare, a prototype line can declare too: its parameters
    are named, so none is the lone anonymous `void`. -/
theorem isPrototype_of_isDefinition {s : Signature} (hs : s.isDefinition = true) :
    s.isPrototype = true := by
  obtain ⟨hname, hret, hps⟩ := isDefinition_iff.1 hs
  refine isPrototype_iff.2 ⟨hname, hret, fun p hp => ⟨(hps p hp).1, .inr (hps p hp).2⟩, ?_⟩
  intro hvoid
  have hlone := (hps ⟨.void, ""⟩ (by rw [hvoid]; exact List.mem_singleton_self _)).2
  rw [Utf8.isName_bytes_empty] at hlone
  cases hlone

/-- The parameter list prints as the first declaration, then each other behind `, `. -/
theorem bytes_foldl_render (ps : List Parameter) (a : String) :
    Utf8.bytes (ps.foldl (fun acc q => acc ++ ", " ++ q.render) a) =
      Utf8.bytes a ++ (ps.map fun q => 44 :: 32 :: Utf8.bytes q.render).flatten := by
  induction ps generalizing a with
  | nil => simp
  | cons q ps ih =>
    rw [List.foldl_cons, ih]
    simp [Utf8.bytes_append, Utf8.bytes_of_ascii]

end Signature

namespace DeclText

/-- A parameter written as a declaration: its type alone when anonymous, else its type, one
    space and its name. -/
def ofParameter (p : Parameter) : DeclText :=
  if p.anonymous then bare p.type else ⟨p.type, [32], Utf8.bytes p.name⟩

theorem text_ofParameter {p : Parameter} (hty : p.type.valid = true) :
    (ofParameter p).text = Utf8.bytes p.render := by
  unfold ofParameter Parameter.render
  split
  · simp [text, bare, TypeName.bytes_render hty]
  · simp [text, Utf8.bytes_append, Utf8.bytes_of_ascii, TypeName.bytes_render hty]

theorem spaced_ofParameter (p : Parameter) : (ofParameter p).spaced = true := by
  unfold ofParameter
  split <;> simp [spaced, bare]

theorem parameter_ofParameter {p : Parameter}
    (hname : p.anonymous = true ∨ isName (Utf8.bytes p.name) = true) :
    (ofParameter p).parameter = p := by
  unfold ofParameter
  split
  · -- an anonymous parameter has the empty name, read back from no bytes
    rename_i ha
    have hempty : p.name = "" := String.isEmpty_iff.1 ha
    obtain ⟨t, n⟩ := p
    simp only at hempty
    simp [parameter, bare, hempty, Utf8.ascii]
  · rename_i ha
    have hn : isName (Utf8.bytes p.name) = true := hname.resolve_left ha
    simp [parameter, Utf8.ascii_bytes (isAscii_of_isIdent (isIdent_of_isName hn))]

/-- A parameter declaration is well formed under a style that allows it when anonymous. -/
theorem wf_ofParameter {style : DeclStyle} {p : Parameter} (hty : p.type.valid = true)
    (hname : (p.anonymous = true ∧ style = .anonymous) ∨ isName (Utf8.bytes p.name) = true) :
    (ofParameter p).WF style := by
  unfold ofParameter
  split
  · rename_i ha
    rcases hname with ⟨-, rfl⟩ | hn
    · exact ⟨hty, .inr ⟨rfl, rfl, rfl⟩⟩
    · rw [Parameter.anonymous_eq_false hn] at ha
      cases ha
  · rename_i ha
    rcases hname with ⟨ha', -⟩ | hn
    · exact absurd ha' ha
    · exact ⟨hty, .inl ⟨List.cons_ne_nil _ _, List.forall_mem_singleton.2 rfl, hn⟩⟩

/-- Only the anonymous parameter of a type is written as that type alone. -/
theorem eq_of_ofParameter_eq_bare {p : Parameter} {t : TypeName} (h : ofParameter p = bare t) :
    p = ⟨t, ""⟩ := by
  unfold ofParameter at h
  split at h
  · rename_i ha
    obtain ⟨t', n⟩ := p
    simp only [bare, mk.injEq, and_true] at h
    simp only [Parameter.anonymous, String.isEmpty_iff] at ha
    rw [h, ha]
  · simp [bare] at h

/-- A declaration printed from a parameter holds no newline. -/
theorem ne_newline_of_mem_text_ofParameter {p : Parameter} (hty : p.type.valid = true)
    (hname : p.anonymous = true ∨ isName (Utf8.bytes p.name) = true) :
    ∀ b ∈ (ofParameter p).text, b ≠ 10 := by
  have hword := ne_newline_of_isIdent (TypeName.isIdent_word hty)
  unfold ofParameter
  split
  · simpa [text, bare] using hword
  · rename_i ha
    have hn := ne_newline_of_isIdent (isIdent_of_isName (hname.resolve_left ha))
    simp only [text, List.forall_mem_append, List.forall_mem_cons, List.not_mem_nil,
      false_imp_iff, implies_true, and_true]
    exact ⟨⟨hword, by decide⟩, hn⟩

/-- The name of the parameter a well-formed declaration declares is written with the bytes of
    its name. -/
theorem bytes_parameter_name {style : DeclStyle} {d : DeclText} (hd : d.WF style) :
    Utf8.bytes d.parameter.name = d.name :=
  Utf8.bytes_ascii fun b hb => isAscii_of_mem_text hd b (by simp [text, hb])

theorem isName_of_wf_named {d : DeclText} (hd : d.WF .named) : isName d.name = true := by
  obtain ⟨-, ⟨-, -, hn⟩ | ⟨hstyle, -, -⟩⟩ := hd
  · exact hn
  · cases hstyle

end DeclText

namespace ParamsText

/-- A parameter list written out: `void` when empty, else the declarations, each after the
    first behind a comma and one space. -/
def ofParams : List Parameter → ParamsText
  | [] => void
  | p :: ps => decls (.ofParameter p) (ps.map fun q => ([32], .ofParameter q))

theorem text_ofParams : ∀ {ps : List Parameter}, (∀ p ∈ ps, p.type.valid = true) →
    (ofParams ps).text = Utf8.bytes (Signature.renderParams ps)
  | [], _ => by rw [ofParams, text, Signature.renderParams, Utf8.bytes_void]
  | p :: ps, hty => by
    rw [ofParams, text, Signature.renderParams, Signature.bytes_foldl_render,
      DeclText.text_ofParameter (hty p List.mem_cons_self), moreText, List.map_map]
    congr 2
    refine List.map_congr_left fun q hq => ?_
    simp [DeclText.text_ofParameter (hty q (List.mem_cons_of_mem _ hq))]

theorem parameters_ofParams (ps : List Parameter) :
    (ofParams ps).parameters = ps.map fun p => (DeclText.ofParameter p).parameter := by
  cases ps with
  | nil => rfl
  | cons p ps => simp [ofParams, parameters, declList]

/-- A list whose declarations are all one space apart has no badly spaced declaration. -/
theorem firstBad_eq_none {before : List UInt8} {d : DeclText}
    {ds : List (List UInt8 × DeclText)} (hd : d.spaced = true)
    (hds : ∀ e ∈ ds, e.2.spaced = true) : firstBad before d ds = none := by
  induction ds generalizing before d with
  | nil => simp [firstBad, hd]
  | cons e ds ih =>
    obtain ⟨w, e⟩ := e
    rw [firstBad, if_pos hd]
    exact ih (hds (w, e) List.mem_cons_self) fun e' he' => hds e' (List.mem_cons_of_mem _ he')

theorem badDecl?_ofParams (ps : List Parameter) : (ofParams ps).badDecl? = none := by
  cases ps with
  | nil => rfl
  | cons p ps =>
    refine firstBad_eq_none (DeclText.spaced_ofParameter p) fun e he => ?_
    obtain ⟨q, -, rfl⟩ := List.mem_map.1 he
    exact DeclText.spaced_ofParameter q

/-- A printed list is well formed when its declarations are, unless it is the lone anonymous
    `void`. -/
theorem wf_ofParams {style : DeclStyle} {ps : List Parameter}
    (hps : ∀ p ∈ ps, (DeclText.ofParameter p).WF style) (hvoid : ps ≠ [⟨.void, ""⟩]) :
    (ofParams ps).WF style := by
  cases ps with
  | nil => trivial
  | cons p ps =>
    refine ⟨hps p List.mem_cons_self, fun e he => ?_, fun ⟨hbare, hnil⟩ => hvoid ?_⟩
    · obtain ⟨q, hq, rfl⟩ := List.mem_map.1 he
      exact ⟨List.forall_mem_singleton.2 rfl, hps q (List.mem_cons_of_mem _ hq)⟩
    · rw [DeclText.eq_of_ofParameter_eq_bare hbare, List.map_eq_nil_iff.1 hnil]

theorem ne_newline_of_mem_text_ofParams {ps : List Parameter}
    (hps : ∀ p ∈ ps, p.type.valid = true ∧
      (p.anonymous = true ∨ isName (Utf8.bytes p.name) = true)) :
    ∀ b ∈ (ofParams ps).text, b ≠ 10 := by
  cases ps with
  | nil => exact ne_newline_of_isIdent (TypeName.isIdent_word rfl)
  | cons p ps =>
    intro b hb
    simp only [ofParams, text, moreText, List.map_map, List.mem_append, List.mem_flatten,
      List.mem_map] at hb
    rcases hb with hb | ⟨_, ⟨q, hq, rfl⟩, hb⟩
    · exact DeclText.ne_newline_of_mem_text_ofParameter (hps p List.mem_cons_self).1
        (hps p List.mem_cons_self).2 b hb
    · -- a comma, a space, and a declaration
      have hq' := hps q (List.mem_cons_of_mem _ hq)
      simp only [Function.comp, List.cons_append, List.mem_cons] at hb
      rcases hb with rfl | rfl | hb
      · decide
      · decide
      · exact DeclText.ne_newline_of_mem_text_ofParameter hq'.1 hq'.2 b hb

/-- The declarations of a well-formed list are well formed. -/
theorem wf_of_mem_declList {style : DeclStyle} {p : ParamsText} (hp : p.WF style)
    {d : DeclText} (hd : d ∈ p.declList) : d.WF style := by
  cases p with
  | void => cases hd
  | empty => cases hd
  | decls d₀ ds =>
    obtain ⟨hd₀, hds, -⟩ := hp
    rcases List.mem_cons.1 hd with rfl | hd
    · exact hd₀
    · obtain ⟨e, he, rfl⟩ := List.mem_map.1 hd
      exact (hds e he).2

/-- A well-formed list does not declare the lone anonymous `void` parameter. -/
theorem parameters_ne_lone_void {style : DeclStyle} {p : ParamsText} (hp : p.WF style) :
    p.parameters ≠ [⟨.void, ""⟩] := by
  cases p with
  | void => simp [parameters, declList]
  | empty => simp [parameters, declList]
  | decls d ds =>
    obtain ⟨hd, -, hbare⟩ := hp
    intro hlone
    simp only [parameters, declList, List.map_cons, List.map_map, List.cons.injEq,
      List.map_eq_nil_iff] at hlone
    obtain ⟨hpar, rfl⟩ := hlone
    -- the one declaration has type `void` and no name, so no gap either
    have hname : d.name = [] := by
      rw [← DeclText.bytes_parameter_name hd, hpar, Utf8.bytes_empty]
    have hty : d.type = .void := congrArg Parameter.type hpar
    obtain ⟨-, ⟨-, -, hn⟩ | ⟨-, hgap, -⟩⟩ := hd
    · rw [hname] at hn
      cases hn
    · obtain ⟨t, g, n⟩ := d
      simp only at hname hty hgap
      exact hbare ⟨by rw [hname, hty, hgap]; rfl, rfl⟩

end ParamsText

namespace HeaderText

/-- The header a signature prints as, with the blanks `close` between `)` and the trailer. -/
def ofSignature (s : Signature) (close : List UInt8) : HeaderText :=
  ⟨s.returnType, [32], Utf8.bytes s.name, .ofParams s.params, close⟩

theorem text_ofSignature {s : Signature} (hret : s.returnType.valid = true)
    (hps : ∀ p ∈ s.params, p.type.valid = true) (close : List UInt8) (tb : UInt8) :
    (ofSignature s close).text tb = Utf8.bytes s.render ++ close ++ [tb] := by
  simp [text, afterReturn, ofSignature, Signature.render, Utf8.bytes_append, Utf8.bytes_of_ascii,
    TypeName.bytes_render hret, ParamsText.text_ofParams hps]

theorem badDecl?_ofSignature (s : Signature) (close : List UInt8) :
    (ofSignature s close).badDecl? = none := by
  simp [badDecl?, ofSignature, ParamsText.badDecl?_ofParams]

/-- A printed header reads back the signature it was printed from. -/
theorem signature_ofSignature {s : Signature} (hs : s.isPrototype = true) (close : List UInt8) :
    (ofSignature s close).signature = s := by
  obtain ⟨hname, -, hps, -⟩ := Signature.isPrototype_iff.1 hs
  have hparams : (ParamsText.ofParams s.params).parameters = s.params := by
    rw [ParamsText.parameters_ofParams]
    conv => rhs; rw [← List.map_id s.params]
    exact List.map_congr_left fun p hp => DeclText.parameter_ofParameter (hps p hp).2
  simp [signature, ofSignature, hparams,
    Utf8.ascii_bytes (isAscii_of_isIdent (isIdent_of_isName hname))]

/-- A printed header is well formed under a style that allows its parameters, with blanks
    after `)`. -/
theorem wf_ofSignature {style : DeclStyle} {s : Signature} (hname : isName (Utf8.bytes s.name))
    (hret : s.returnType.valid = true)
    (hps : ∀ p ∈ s.params, (DeclText.ofParameter p).WF style) (hvoid : s.params ≠ [⟨.void, ""⟩])
    {close : List UInt8} (hclose : ∀ b ∈ close, isSpace b = true) :
    (ofSignature s close).WF style where
  ret := hret
  gap_ne_nil := List.cons_ne_nil _ _
  gap := List.forall_mem_singleton.2 rfl
  name := hname
  params := ParamsText.wf_ofParams hps hvoid
  close := hclose

/-- A printed prototype line holds no newline. -/
theorem ne_newline_of_mem_text_ofSignature {s : Signature} (hs : s.isPrototype = true) :
    ∀ b ∈ (ofSignature s []).text 59, b ≠ 10 := by
  obtain ⟨hname, hret, hps, -⟩ := Signature.isPrototype_iff.1 hs
  simp only [text, afterReturn, ofSignature, List.forall_mem_append, List.forall_mem_cons,
    List.not_mem_nil, false_imp_iff, implies_true, and_true, and_assoc]
  exact ⟨ne_newline_of_isIdent (TypeName.isIdent_word hret), by decide,
    ne_newline_of_isIdent (isIdent_of_isName hname), by decide,
    ParamsText.ne_newline_of_mem_text_ofParams hps, by decide, by decide⟩

theorem bytes_signature_name {style : DeclStyle} {h : HeaderText} (hh : h.WF style) :
    Utf8.bytes h.signature.name = h.name :=
  Utf8.bytes_ascii (isAscii_of_isIdent (isIdent_of_isName hh.name))

/-- A well-formed header under the named style declares a signature a definition can. -/
theorem isDefinition_signature {h : HeaderText} (hh : h.WF .named) :
    h.signature.isDefinition = true := by
  refine Signature.isDefinition_iff.2 ⟨by rw [bytes_signature_name hh]; exact hh.name, hh.ret, ?_⟩
  intro p hp
  obtain ⟨d, hd, rfl⟩ := List.mem_map.1 hp
  have hwf := ParamsText.wf_of_mem_declList hh.params hd
  refine ⟨hwf.1, ?_⟩
  rw [DeclText.bytes_parameter_name hwf]
  exact DeclText.isName_of_wf_named hwf

/-- A well-formed header under the anonymous style declares a signature a prototype line
    can. -/
theorem isPrototype_signature {h : HeaderText} (hh : h.WF .anonymous) :
    h.signature.isPrototype = true := by
  refine Signature.isPrototype_iff.2 ⟨by rw [bytes_signature_name hh]; exact hh.name, hh.ret,
    ?_, ParamsText.parameters_ne_lone_void hh.params⟩
  intro p hp
  obtain ⟨d, hd, rfl⟩ := List.mem_map.1 hp
  have hwf := ParamsText.wf_of_mem_declList hh.params hd
  refine ⟨hwf.1, ?_⟩
  rcases hwf.2 with ⟨-, -, hn⟩ | ⟨-, -, hn⟩
  · -- a named declaration
    right
    rw [DeclText.bytes_parameter_name hwf]
    exact hn
  · -- a type alone
    left
    simp [Parameter.anonymous, DeclText.parameter, hn, Utf8.ascii]

end HeaderText

/-! ## Definitions -/

/-- A text in which a definition header occurs has an earliest one. -/
theorem exists_least_occursAt {code : List UInt8}
    (hex : ∃ (x : Nat) (h : HeaderText), h.OccursAt code x) :
    ∃ (x : Nat) (h : HeaderText), h.OccursAt code x ∧
      ∀ y (h' : HeaderText), h'.OccursAt code y → x ≤ y := by
  classical
  obtain ⟨h, ho⟩ := Nat.find_spec hex
  exact ⟨Nat.find hex, h, ho, fun y h' ho' => Nat.find_min' hex ⟨h', ho'⟩⟩

/-- A definition read from a text is the signature of a header occurring in it, with no layout
    problem. -/
theorem exists_occursAt_of_definition?_eq_ok {code : List UInt8} {s : Signature}
    (hs : Grammar.standard.definition? code = .ok s) :
    ∃ (x : Nat) (h : HeaderText), h.OccursAt code x ∧ h.badDecl? = none ∧ h.signature = s := by
  by_cases hex : ∃ (x : Nat) (h : HeaderText), h.OccursAt code x
  · obtain ⟨x, h, ho, hmin⟩ := exists_least_occursAt hex
    rw [definition?_of_least_occursAt ho hmin, HeaderText.definition] at hs
    cases hb : h.badDecl? with
    | none =>
      rw [hb] at hs
      exact ⟨x, h, ho, hb, Except.ok.inj hs⟩
    | some p =>
      rw [hb] at hs
      cases hs
  · rw [definition?_of_not_occursAt fun x h ho => hex ⟨x, h, ho⟩] at hs
    cases hs

/-- Every definition read from a text is a signature a definition can declare. -/
theorem isDefinition_of_definition?_eq_ok {code : List UInt8} {s : Signature}
    (hs : Grammar.standard.definition? code = .ok s) : s.isDefinition = true := by
  obtain ⟨x, h, ho, -, rfl⟩ := exists_occursAt_of_definition?_eq_ok hs
  exact HeaderText.isDefinition_signature ho.wf

/-- The header of a signature a definition can declare, then blanks, `{` and anything, has that
    signature as its definition: the header occurs at the start. -/
theorem definition?_render_of_isDefinition {s : Signature} (hs : s.isDefinition = true)
    {w : List UInt8} (hw : ∀ b ∈ w, isSpace b = true) (r : List UInt8) :
    Grammar.standard.definition? (Utf8.bytes s.render ++ w ++ 123 :: r) = .ok s := by
  obtain ⟨hname, hret, hps⟩ := Signature.isDefinition_iff.1 hs
  have hvoid : s.params ≠ [⟨.void, ""⟩] := (Signature.isPrototype_iff.1
    (Signature.isPrototype_of_isDefinition hs)).2.2.2
  have hcode : Utf8.bytes s.render ++ w ++ 123 :: r =
      (HeaderText.ofSignature s w).text 123 ++ r := by
    rw [HeaderText.text_ofSignature hret fun p hp => (hps p hp).1]
    simp
  have ho : (HeaderText.ofSignature s w).OccursAt (Utf8.bytes s.render ++ w ++ 123 :: r) 0 :=
    { blank := by simp [Lines.last]
      wf := HeaderText.wf_ofSignature hname hret
        (fun p hp => DeclText.wf_ofParameter (hps p hp).1 (.inr (hps p hp).2)) hvoid hw
      starts := by rw [hcode, List.drop_zero]; exact List.prefix_append _ _ }
  rw [definition?_of_least_occursAt ho fun y _ _ => Nat.zero_le y, HeaderText.definition,
    HeaderText.badDecl?_ofSignature,
    HeaderText.signature_ofSignature (Signature.isPrototype_of_isDefinition hs)]

/-- Printing and reading definitions are inverse: a signature a definition can declare is read
    back from its header followed by blanks, `{` and anything; every definition read from a
    text is such a signature; so a definition read from a text is read back from its own
    header. -/
theorem definition?_render :
    (∀ s : Signature, s.isDefinition = true → ∀ w r : List UInt8, (∀ b ∈ w, isSpace b = true) →
      Grammar.standard.definition? (Utf8.bytes s.render ++ w ++ 123 :: r) = .ok s) ∧
    (∀ (code : List UInt8) (s : Signature), Grammar.standard.definition? code = .ok s →
      s.isDefinition = true) ∧
    (∀ (code : List UInt8) (s : Signature), Grammar.standard.definition? code = .ok s →
      ∀ w r : List UInt8, (∀ b ∈ w, isSpace b = true) →
        Grammar.standard.definition? (Utf8.bytes s.render ++ w ++ 123 :: r) = .ok s) :=
  ⟨fun _ hs _ r hw => definition?_render_of_isDefinition hs hw r,
    fun _ _ => isDefinition_of_definition?_eq_ok,
    fun _ _ hs _ r hw => definition?_render_of_isDefinition (isDefinition_of_definition?_eq_ok hs) hw r⟩

/-! ## Prototypes -/

/-- The prototype line of a signature a prototype line can declare declares it alone. -/
theorem prototypes_prototype_of_isPrototype {s : Signature} (hs : s.isPrototype = true) :
    Grammar.standard.prototypes (Utf8.bytes s.prototype) = [s] := by
  obtain ⟨hname, hret, hps, hvoid⟩ := Signature.isPrototype_iff.1 hs
  have hline : Utf8.bytes s.prototype = (HeaderText.ofSignature s []).text 59 := by
    rw [HeaderText.text_ofSignature hret fun p hp => (hps p hp).1, Signature.prototype,
      Utf8.bytes_append]
    simp [Utf8.bytes_of_ascii]
  have hnl := HeaderText.ne_newline_of_mem_text_ofSignature hs
  have hproto : IsPrototypeLine (Utf8.bytes s.prototype) s := by
    refine ⟨hline ▸ hnl, [], [], HeaderText.ofSignature s [], by simp, ?_,
      HeaderText.badDecl?_ofSignature s [], by simp, by simp [hline],
      (HeaderText.signature_ofSignature hs []).symm⟩
    refine HeaderText.wf_ofSignature hname hret (fun p hp => ?_) hvoid (by simp)
    refine DeclText.wf_ofParameter (hps p hp).1 ?_
    rcases (hps p hp).2 with ha | hn
    · exact .inl ⟨ha, rfl⟩
    · exact .inr hn
  rw [Grammar.prototypes, Lines.split_of_forall_ne (hline ▸ hnl), List.filterMap_cons,
    prototypeLine?_of_isPrototypeLine hproto, List.filterMap_nil]

/-- Every prototype of a text is a signature a prototype line can declare. -/
theorem isPrototype_of_mem_prototypes {code : List UInt8} {s : Signature}
    (hs : s ∈ Grammar.standard.prototypes code) : s.isPrototype = true := by
  obtain ⟨line, hl, hline⟩ := List.mem_filterMap.1 hs
  obtain ⟨-, -, -, h, -, hh, -, -, -, rfl⟩ :=
    isPrototypeLine_of_prototypeLine? (Lines.ne_of_mem_split line hl) hline
  exact HeaderText.isPrototype_signature hh

/-- Printing and reading prototypes are inverse: the prototype line of a signature a prototype
    line can declare declares it alone; every prototype of a text is such a signature; and the
    prototype line of a definition read from a text declares that definition alone, which
    satisfies it. -/
theorem prototypes_prototype :
    (∀ s : Signature, s.isPrototype = true →
      Grammar.standard.prototypes (Utf8.bytes s.prototype) = [s]) ∧
    (∀ (code : List UInt8), ∀ s ∈ Grammar.standard.prototypes code, s.isPrototype = true) ∧
    (∀ (code : List UInt8) (d : Signature), Grammar.standard.definition? code = .ok d →
      Grammar.standard.prototypes (Utf8.bytes d.prototype) = [d] ∧ d.satisfiedBy d = true) :=
  ⟨fun _ hs => prototypes_prototype_of_isPrototype hs,
    fun _ _ hs => isPrototype_of_mem_prototypes hs,
    fun _ d hd => ⟨prototypes_prototype_of_isPrototype
      (Signature.isPrototype_of_isDefinition (isDefinition_of_definition?_eq_ok hd)),
      (Signature.satisfiedBy_iff d d).2 ⟨rfl, rfl, rfl⟩⟩⟩

end ShaderHeaders
