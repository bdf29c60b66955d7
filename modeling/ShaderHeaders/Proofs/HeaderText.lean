import ShaderHeaders.Glsl.Header
import ShaderHeaders.Proofs.Words

/-!
# The text of a header

A function header as text, with no tokens in sight:

    T W+ N ( A ) W* trailer

where `T` is the spelling of a type, `W` a blank or a newline, `N` a name, and the list `A` is
`void`, nothing, or declarations `D (, W* D)*`. A declaration is a type and, after blanks, a
name; under the anonymous style the name, with its blanks, may be left out.

`HeaderText` holds the parts of such a text and `HeaderText.text` writes it; `HeaderText.WF`
says that each part is of its kind, and `HeaderText.signature` is the signature the header
declares. A lone anonymous `void` is no list of declarations: it is the spelling of the empty
list. The first declaration whose type and name are not one space apart is found by
`HeaderText.badDecl?`, with the text of the header in front of its name.
-/

namespace ShaderHeaders

open Source

/-- A parameter declaration as written: a type and, after the blanks `gap`, a name; a
    declaration of a type alone has neither. -/
structure DeclText where
  type : TypeName
  gap : List UInt8
  name : List UInt8
  deriving DecidableEq, Repr

namespace DeclText

/-- The text of a declaration. -/
def text (d : DeclText) : List UInt8 := d.type.word ++ d.gap ++ d.name

/-- A declaration is well formed under a style when its type is valid and a name follows it
    after blanks, or, for the anonymous style only, nothing follows it. -/
def WF (style : DeclStyle) (d : DeclText) : Prop :=
  d.type.valid = true ∧
    ((d.gap ≠ [] ∧ (∀ b ∈ d.gap, isSpace b = true) ∧ isName d.name = true) ∨
      (style = .anonymous ∧ d.gap = [] ∧ d.name = []))

/-- The parameter a declaration declares. -/
def parameter (d : DeclText) : Parameter := ⟨d.type, Utf8.ascii d.name⟩

/-- The type and the name stand one space apart, or there is no name. -/
def spaced (d : DeclText) : Bool := d.name.isEmpty || d.gap == [32]

/-- The declaration of a type alone. -/
def bare (t : TypeName) : DeclText := ⟨t, [], []⟩

theorem isAscii_of_mem_text {style : DeclStyle} {d : DeclText} (hd : d.WF style) :
    ∀ b ∈ d.text, isAscii b = true := by
  obtain ⟨hty, ⟨-, hgap, hname⟩ | ⟨-, hgap, hname⟩⟩ := hd
  · intro b hb
    simp only [text, List.mem_append] at hb
    rcases hb with (hb | hb) | hb
    · exact isAscii_of_isIdent (TypeName.isIdent_word hty) b hb
    · exact isAscii_of_isSpace (hgap b hb)
    · exact isAscii_of_isIdent (isIdent_of_isName hname) b hb
  · simpa [text, hgap, hname] using isAscii_of_isIdent (TypeName.isIdent_word hty)

end DeclText

/-- The text between the parentheses of a header: `void`, nothing, or declarations, each after
    the first behind a comma and the blanks after it. -/
inductive ParamsText where
  | void
  | empty
  | decls (first : DeclText) (more : List (List UInt8 × DeclText))
  deriving DecidableEq, Repr

namespace ParamsText

/-- The declarations after the first, each behind a comma and blanks. -/
def moreText (ds : List (List UInt8 × DeclText)) : List UInt8 :=
  (ds.map fun p => 44 :: p.1 ++ p.2.text).flatten

/-- The text of a parameter list. -/
def text : ParamsText → List UInt8
  | void => TypeName.void.word
  | empty => []
  | decls d ds => d.text ++ moreText ds

/-- The declarations of a list, in order. -/
def declList : ParamsText → List DeclText
  | decls d ds => d :: ds.map Prod.snd
  | _ => []

/-- A list is well formed when each declaration is, only blanks follow each comma, and it is
    not a lone anonymous `void`, which spells the empty list. -/
def WF (style : DeclStyle) : ParamsText → Prop
  | void | empty => True
  | decls d ds => d.WF style ∧ (∀ p ∈ ds, (∀ b ∈ p.1, isSpace b = true) ∧ p.2.WF style) ∧
      ¬ (d = .bare .void ∧ ds = [])

/-- The parameters a list declares: none for `void` or nothing. -/
def parameters (p : ParamsText) : List Parameter := p.declList.map DeclText.parameter

/-- From `d` on, the first declaration whose type and name are not one space apart, with the
    text before its name; `before` is the text in front of `d`. -/
def firstBad (before : List UInt8) (d : DeclText) :
    List (List UInt8 × DeclText) → Option (List UInt8 × DeclText)
  | [] => if d.spaced then none else some (before ++ d.type.word ++ d.gap, d)
  | (w, e) :: ds =>
    if d.spaced then firstBad (before ++ d.text ++ 44 :: w) e ds
    else some (before ++ d.type.word ++ d.gap, d)

theorem isAscii_of_mem_text {style : DeclStyle} {p : ParamsText} (hp : p.WF style) :
    ∀ b ∈ p.text, isAscii b = true := by
  cases p with
  | void => exact isAscii_of_isIdent (TypeName.isIdent_word rfl)
  | empty => simp [text]
  | decls d ds =>
    obtain ⟨hd, hds, -⟩ := hp
    intro b hb
    simp only [text, moreText, List.mem_append, List.mem_flatten, List.mem_map] at hb
    rcases hb with hb | ⟨_, ⟨⟨w, e⟩, hwe, rfl⟩, hb⟩
    · exact DeclText.isAscii_of_mem_text hd b hb
    · -- a comma, the blanks after it, and a declaration
      obtain ⟨hw, he⟩ := hds (w, e) hwe
      simp only [List.cons_append, List.mem_cons, List.mem_append] at hb
      rcases hb with rfl | hb | hb
      · rfl
      · exact isAscii_of_isSpace (hw b hb)
      · exact DeclText.isAscii_of_mem_text he b hb

/-- The first badly spaced declaration is one of the list, and its name follows the text found
    in front of it, with `before` in front of the list. -/
theorem firstBad_eq_some {before q : List UInt8} {d e : DeclText}
    {ds : List (List UInt8 × DeclText)} (h : firstBad before d ds = some (q, e)) :
    e ∈ (decls d ds).declList ∧ q ++ e.name <+: before ++ (decls d ds).text := by
  induction ds generalizing before d with
  | nil =>
    unfold firstBad at h
    split at h
    · cases h
    · cases h
      exact ⟨List.mem_cons_self, ⟨[], by simp [text, moreText, DeclText.text]⟩⟩
  | cons p ds ih =>
    obtain ⟨w, e'⟩ := p
    unfold firstBad at h
    split at h
    · obtain ⟨hmem, hpre⟩ := ih h
      exact ⟨List.mem_cons_of_mem _ hmem, by simpa [text, moreText] using hpre⟩
    · cases h
      exact ⟨List.mem_cons_self, ⟨moreText ((w, e') :: ds), by simp [text, DeclText.text]⟩⟩

/-- The first declaration of a list whose type and name are not one space apart, with the text
    of the list before its name. -/
def badDecl? : ParamsText → Option (List UInt8 × DeclText)
  | decls d ds => firstBad [] d ds
  | _ => none

end ParamsText

/-- The parts of a header: the return type, the blanks after it, the name, the parameter list,
    and the blanks between `)` and the trailer. -/
structure HeaderText where
  ret : TypeName
  gap : List UInt8
  name : List UInt8
  params : ParamsText
  close : List UInt8
  deriving DecidableEq, Repr

namespace HeaderText

/-- The text of a header after its return type, up to the trailer byte `tb`. -/
def afterReturn (h : HeaderText) (tb : UInt8) : List UInt8 :=
  h.gap ++ h.name ++ 40 :: h.params.text ++ 41 :: h.close ++ [tb]

/-- The text of a header, up to the trailer byte `tb`. -/
def text (h : HeaderText) (tb : UInt8) : List UInt8 := h.ret.word ++ h.afterReturn tb

/-- A header is well formed when each part is of its kind. -/
structure WF (style : DeclStyle) (h : HeaderText) : Prop where
  ret : h.ret.valid = true
  gap_ne_nil : h.gap ≠ []
  gap : ∀ b ∈ h.gap, isSpace b = true
  name : isName h.name = true
  params : h.params.WF style
  close : ∀ b ∈ h.close, isSpace b = true

/-- The signature a header declares. -/
def signature (h : HeaderText) : Signature := ⟨Utf8.ascii h.name, h.params.parameters, h.ret⟩

/-- The first declaration whose type and name are not one space apart, with the text of the
    header in front of its name. -/
def badDecl? (h : HeaderText) : Option (List UInt8 × DeclText) :=
  h.params.badDecl?.map fun p => (h.ret.word ++ h.gap ++ h.name ++ 40 :: p.1, p.2)

/-- A header starts with the first letter of its return type. -/
theorem exists_text_eq_cons {h : HeaderText} (hret : h.ret.valid = true) (tb : UInt8) :
    ∃ b u, h.text tb = b :: u ∧ isWordStart b = true := by
  have hw := TypeName.isIdent_word hret
  cases hword : h.ret.word with
  | nil => simp [hword, isIdent] at hw
  | cons b w =>
    rw [hword, isIdent, Bool.and_eq_true] at hw
    exact ⟨b, w ++ h.afterReturn tb, by simp [text, hword], hw.1⟩

/-- A header is ASCII up to an ASCII trailer. -/
theorem isAscii_of_mem_text {style : DeclStyle} {h : HeaderText} (hh : h.WF style) {tb : UInt8}
    (htb : isAscii tb = true) : ∀ b ∈ h.text tb, isAscii b = true := by
  simp only [text, afterReturn, List.forall_mem_append, List.forall_mem_cons,
    List.not_mem_nil, false_imp_iff, implies_true, and_true, and_assoc]
  exact ⟨isAscii_of_isIdent (TypeName.isIdent_word hh.ret), fun b hb => isAscii_of_isSpace (hh.gap b hb),
    isAscii_of_isIdent (isIdent_of_isName hh.name), rfl, ParamsText.isAscii_of_mem_text hh.params,
    rfl, fun b hb => isAscii_of_isSpace (hh.close b hb), htb⟩

/-- The first badly spaced declaration of a header is one of its list, and its name follows the
    text in front of it. -/
theorem badDecl?_eq_some {h : HeaderText} {q : List UInt8} {d : DeclText}
    (hb : h.badDecl? = some (q, d)) (tb : UInt8) : d ∈ h.params.declList ∧ q ++ d.name <+: h.text tb := by
  unfold badDecl? at hb
  cases hp : h.params with
  | decls d₀ ds =>
    rw [hp] at hb
    obtain ⟨⟨q', d'⟩, hq, hqd⟩ := Option.map_eq_some_iff.1 hb
    simp only [Prod.mk.injEq] at hqd
    obtain ⟨rfl, rfl⟩ := hqd
    obtain ⟨hmem, u, hu⟩ := ParamsText.firstBad_eq_some hq
    refine ⟨hmem, u ++ 41 :: h.close ++ [tb], ?_⟩
    simp only [List.nil_append] at hu
    simp [text, afterReturn, hp, ← hu]
  | void => simp [hp, ParamsText.badDecl?] at hb
  | empty => simp [hp, ParamsText.badDecl?] at hb

/-- The text before the name of the first badly spaced declaration is a prefix of the
    header. -/
theorem prefix_of_badDecl? {h : HeaderText} {q : List UInt8} {d : DeclText}
    (hb : h.badDecl? = some (q, d)) (tb : UInt8) : q <+: h.text tb :=
  (List.prefix_append q d.name).trans (badDecl?_eq_some hb tb).2

end HeaderText

end ShaderHeaders
