import ShaderHeaders.Proofs.RoundTrip

/-!
# Text after a definition

A definition header ends at the first `{` after its start: before its trailer a header holds
only word bytes, blanks, parentheses and commas (`HeaderText.brace_not_mem_dropLast`). So a
header that starts earlier than another cannot run past that other's `{`, and the earliest
header of a text stays the earliest of the text with anything appended
(`least_occursAt_append`).

* `definition?_append`: once a text has a definition, or a layout problem at a line of its
  own, no text appended after it changes what is read; only "no function definition found"
  can change.
-/

namespace ShaderHeaders

open Source

namespace DeclText

theorem isWordByte_or_isSpace {style : DeclStyle} {d : DeclText} (hd : d.WF style) :
    ∀ b ∈ d.text, isWordByte b = true ∨ isSpace b = true := by
  obtain ⟨hty, ⟨-, hgap, hname⟩ | ⟨-, hgap, hname⟩⟩ := hd
  · intro b hb
    simp only [text, List.mem_append] at hb
    rcases hb with (hb | hb) | hb
    · exact .inl (isWordByte_of_isIdent (TypeName.isIdent_word hty) b hb)
    · exact .inr (hgap b hb)
    · exact .inl (isWordByte_of_isIdent (isIdent_of_isName hname) b hb)
  · intro b hb
    simp only [text, hgap, hname, List.append_nil] at hb
    exact .inl (isWordByte_of_isIdent (TypeName.isIdent_word hty) b hb)

end DeclText

namespace ParamsText

/-- A parameter list is made of word bytes, blanks and commas. -/
theorem isWordByte_or_isSpace_or_comma {style : DeclStyle} {p : ParamsText} (hp : p.WF style) :
    ∀ b ∈ p.text, isWordByte b = true ∨ isSpace b = true ∨ b = 44 := by
  cases p with
  | void => exact fun b hb => .inl (isWordByte_of_isIdent (TypeName.isIdent_word rfl) b hb)
  | empty => simp [text]
  | decls d ds =>
    obtain ⟨hd, hds, -⟩ := hp
    intro b hb
    simp only [text, moreText, List.mem_append, List.mem_flatten, List.mem_map] at hb
    rcases hb with hb | ⟨_, ⟨⟨w, e⟩, hwe, rfl⟩, hb⟩
    · exact (DeclText.isWordByte_or_isSpace hd b hb).imp_right .inl
    · -- a comma, the blanks after it, and a declaration
      obtain ⟨hw, he⟩ := hds (w, e) hwe
      simp only [List.cons_append, List.mem_cons, List.mem_append] at hb
      rcases hb with rfl | hb | hb
      · exact .inr (.inr rfl)
      · exact .inr (.inl (hw b hb))
      · exact (DeclText.isWordByte_or_isSpace he b hb).imp_right .inl

end ParamsText

namespace HeaderText

theorem text_eq_append_trailer (h : HeaderText) (tb : UInt8) :
    h.text tb = (h.ret.word ++ h.gap ++ h.name ++ 40 :: h.params.text ++ 41 :: h.close) ++ [tb] := by
  simp [text, afterReturn]

/-- Before its trailer a header holds no `{`. -/
theorem brace_not_mem_dropLast {style : DeclStyle} {h : HeaderText} (hh : h.WF style)
    (tb : UInt8) : 123 ∉ (h.text tb).dropLast := by
  have hword : ∀ b, isWordByte b = true → b ≠ 123 := by
    rintro b hb rfl
    exact absurd hb (by decide)
  have hspace : ∀ b, isSpace b = true → b ≠ 123 := by
    rintro b hb rfl
    exact absurd hb (by decide)
  rw [text_eq_append_trailer, List.dropLast_concat]
  intro hmem
  simp only [List.mem_append, List.mem_cons] at hmem
  rcases hmem with (((hb | hb) | hb) | hb | hb) | hb | hb
  · exact hword _ (isWordByte_of_isIdent (TypeName.isIdent_word hh.ret) _ hb) rfl
  · exact hspace _ (hh.gap _ hb) rfl
  · exact hword _ (isWordByte_of_isIdent (isIdent_of_isName hh.name) _ hb) rfl
  · exact absurd hb (by decide)
  · rcases ParamsText.isWordByte_or_isSpace_or_comma hh.params _ hb with hb | hb | hb
    · exact hword _ hb rfl
    · exact hspace _ hb rfl
    · exact absurd hb (by decide)
  · exact absurd hb (by decide)
  · exact hspace _ (hh.close _ hb) rfl

/-- A header and a text ending in `{` that start at the same byte: the header ends at that `{`
    or before it, since its own `{` is its last byte. -/
theorem prefix_of_prefix_brace {style : DeclStyle} {h : HeaderText} (hh : h.WF style)
    {v l : List UInt8} (h₁ : h.text 123 <+: l) (h₂ : v ++ [123] <+: l) :
    h.text 123 <+: v ++ [123] := by
  rcases List.prefix_or_prefix_of_prefix h₁ h₂ with hp | ⟨t, ht⟩
  · exact hp
  · cases t with
    | nil =>
      rw [List.append_nil] at ht
      exact ht ▸ List.prefix_refl _
    | cons c t =>
      -- the `{` of `v ++ [123]` would stand before the end of the header
      refine absurd ?_ (brace_not_mem_dropLast hh 123)
      rw [← ht, List.dropLast_append_of_ne_nil (List.cons_ne_nil c t)]
      simp

namespace OccursAt

variable {h : HeaderText} {code : List UInt8} {x : Nat}

theorem lt_length (ho : h.OccursAt code x) : x < code.length := by
  obtain ⟨r, hr⟩ := ho.drop_eq
  obtain ⟨b, u, hu, -⟩ := exists_text_eq_cons ho.wf.ret 123
  have hne : code.drop x ≠ [] := by simp [hr, hu]
  exact Nat.lt_of_not_le fun hle => hne (List.drop_eq_nil_iff.2 hle)

/-- A header that occurs in a text occurs at the same byte of any longer text. -/
theorem append (ho : h.OccursAt code x) (r : List UInt8) : h.OccursAt (code ++ r) x where
  blank := by
    rw [List.take_append_of_le_length ho.lt_length.le]
    exact ho.blank
  wf := ho.wf
  starts := by
    rw [List.drop_append_of_le_length ho.lt_length.le]
    exact ho.starts.trans (List.prefix_append _ _)

/-- A header that occurs in a longer text, and lies within `code`, occurs in `code`. -/
theorem of_append {r : List UInt8} (ho : h.OccursAt (code ++ r) x)
    (hin : h.text 123 <+: code.drop x) : h.OccursAt code x where
  blank := by
    have hx : x ≤ code.length := by
      obtain ⟨b, u, hu, -⟩ := exists_text_eq_cons ho.wf.ret 123
      have hne : code.drop x ≠ [] := fun hnil => by
        rw [hnil, hu] at hin
        exact List.cons_ne_nil _ _ (List.prefix_nil.1 hin)
      exact (Nat.lt_of_not_le fun hle => hne (List.drop_eq_nil_iff.2 hle)).le
    have hblank := ho.blank
    rwa [List.take_append_of_le_length hx] at hblank
  wf := ho.wf
  starts := hin

end OccursAt

end HeaderText

open HeaderText

/-- The earliest header of a text is the earliest of the text with anything appended: a header
    starting before it would run through its `{`. -/
theorem least_occursAt_append {code : List UInt8} {x : Nat} {h : HeaderText}
    (ho : h.OccursAt code x) (hmin : ∀ y (h' : HeaderText), h'.OccursAt code y → x ≤ y)
    (r : List UInt8) : ∀ y (h' : HeaderText), h'.OccursAt (code ++ r) y → x ≤ y := by
  intro y h' ho'
  refine Nat.le_of_not_lt fun hlt => ?_
  obtain ⟨s, hs⟩ := ho.drop_eq
  -- from `y` the text runs through `u`, then the header at `x`, whose last byte is `{`
  have hcode : code.drop y = (code.drop y).take (x - y) ++ code.drop x := by
    conv_lhs => rw [← List.take_append_drop (x - y) (code.drop y)]
    rw [List.drop_drop, Nat.add_sub_cancel' hlt.le]
  have htext : h.text 123 = (h.text 123).dropLast ++ [123] := by
    rw [text_eq_append_trailer, List.dropLast_concat]
  set u := (code.drop y).take (x - y)
  have hfrom : u ++ h.text 123 <+: code.drop y := by
    rw [hcode, hs, ← List.append_assoc]
    exact List.prefix_append _ _
  have hsplit : u ++ h.text 123 = (u ++ (h.text 123).dropLast) ++ [123] := by
    rw [List.append_assoc, ← htext]
  have hbrace : (u ++ (h.text 123).dropLast) ++ [123] <+: (code ++ r).drop y := by
    rw [← hsplit, List.drop_append_of_le_length (hlt.trans ho.lt_length).le]
    exact hfrom.trans (List.prefix_append _ _)
  have hin : h'.text 123 <+: code.drop y := by
    refine (prefix_of_prefix_brace ho'.wf ho'.starts hbrace).trans ?_
    rw [← hsplit]
    exact hfrom
  exact absurd (hmin y h' (ho'.of_append hin)) (Nat.not_le.2 hlt)

namespace Lines

theorem lineAt_append {code : List UInt8} {p : Nat} (hp : p ≤ code.length) (r : List UInt8) :
    lineAt (code ++ r) p = lineAt code p := by
  rw [lineAt, lineAt, List.take_append_of_le_length hp]

theorem columnAt_append {code : List UInt8} {p : Nat} (hp : p ≤ code.length) (r : List UInt8) :
    columnAt (code ++ r) p = columnAt code p := by
  rw [columnAt, columnAt, List.take_append_of_le_length hp]

end Lines

/-- The header at `x` makes the same of a longer text as of `code`, but for the text a layout
    problem carries. -/
theorem HeaderText.definition_append {code : List UInt8} {x : Nat} {h : HeaderText}
    (ho : h.OccursAt code x) (r : List UInt8) :
    h.definition (code ++ r) x = (h.definition code x).mapError fun e => { e with source := code ++ r } := by
  unfold HeaderText.definition
  cases hb : h.badDecl? with
  | none => rfl
  | some p =>
    obtain ⟨before, d⟩ := p
    -- the name of the declaration lies within the header, so within `code`
    have hle : x + before.length ≤ code.length := by
      obtain ⟨r', hr'⟩ := ho.drop_eq
      have hpre := (prefix_of_badDecl? hb 123).length_le
      have hlen := congrArg List.length hr'
      have hx := ho.lt_length
      simp only [List.length_drop, List.length_append] at hlen
      omega
    simp [Except.mapError, Lines.lineAt_append hle, Lines.columnAt_append hle]

/-- Text appended after a definition changes nothing: a text with a definition keeps it, and a
    text with a layout problem at a line of its own keeps that problem, at the same line and
    column and for the same reason. -/
theorem definition?_append (code r : List UInt8) :
    (∀ s, Grammar.standard.definition? code = .ok s →
      Grammar.standard.definition? (code ++ r) = .ok s) ∧
    ∀ e, Grammar.standard.definition? code = .error e → 1 ≤ e.line →
      Grammar.standard.definition? (code ++ r) = .error { e with source := code ++ r } := by
  by_cases hex : ∃ (x : Nat) (h : HeaderText), h.OccursAt code x
  · -- the earliest header of `code` decides both texts
    obtain ⟨x, h, ho, hmin⟩ := exists_least_occursAt hex
    rw [definition?_of_least_occursAt ho hmin,
      definition?_of_least_occursAt (ho.append r) (least_occursAt_append ho hmin r),
      HeaderText.definition_append ho r]
    refine ⟨fun s hs => by rw [hs]; rfl, fun e he _ => by rw [he]; rfl⟩
  · -- without a header there is no definition, and no line
    rw [definition?_of_not_occursAt fun x h ho => hex ⟨x, h, ho⟩]
    refine ⟨fun s hs => (by cases hs), fun e he hline => ?_⟩
    cases he
    simp [Malformed.notFound] at hline

end ShaderHeaders
