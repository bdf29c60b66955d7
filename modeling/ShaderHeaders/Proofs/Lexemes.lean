import ShaderHeaders.Proofs.TokenStream

/-!
# What the tokens of a text are

The lexer cuts a text into tokens that tile it: each token is the blanks before it, then its
lexeme, and reading them one after another gives the text back. This module states, without the
lexer, which lexeme stands at each place (`Lexeme`): the longest token the next bytes allow,
a word or a number running on until a byte that cannot go on with it.

* `Cut.lexeme_take`: the token the lexer cuts from a byte that is no blank is a `Lexeme`;
* `Tokens.scanFrom_induction`: induction along the lexer, one case for a text of blanks and one
  for the token cut after the blanks;
* `Tokens.lexeme_scan`: the spaces and lexemes of the tokens spell the text, every space is
  blanks and newlines, and every token is a `Lexeme` before the text of the tokens after it,
  save the end token, which is last and has no lexeme.
-/

namespace ShaderHeaders

open Source

/-- The bytes a token was read from: its blanks, then its lexeme. -/
def Token.text (t : Token) : List UInt8 := t.space ++ t.lexeme

/-- `Lexeme k w r`: the bytes `w`, when the text `r` follows them, are the longest token at the
front of `w ++ r`, and it has kind `k`. -/
inductive Lexeme : TokenKind → List UInt8 → List UInt8 → Prop where
  /-- One of the six marks, by itself. -/
  | mark {m : UInt8} {k : TokenKind} {r : List UInt8} : markKind? m = some k → Lexeme k [m] r
  /-- A word that spells a type: a letter or `_`, then letters, digits and `_` up to a byte
  that cannot go on with it. -/
  | type {b : UInt8} {w r : List UInt8} {t : TypeName} : isWordStart b = true →
      (∀ x ∈ w, isWordByte x = true) → (∀ x ∈ r.head?, isWordByte x = false) →
      TypeName.ofSpelling? (Utf8.ascii (b :: w)) = some t → Lexeme .type (b :: w) r
  /-- A word that spells no type. -/
  | ident {b : UInt8} {w r : List UInt8} : isWordStart b = true →
      (∀ x ∈ w, isWordByte x = true) → (∀ x ∈ r.head?, isWordByte x = false) →
      TypeName.ofSpelling? (Utf8.ascii (b :: w)) = none → Lexeme .ident (b :: w) r
  /-- A digit, then letters, digits, `_` and `.` up to a byte that cannot go on with it. -/
  | number {b : UInt8} {w r : List UInt8} : isDigit b = true →
      (∀ x ∈ w, isNumberByte x = true) → (∀ x ∈ r.head?, isNumberByte x = false) →
      Lexeme .number (b :: w) r
  /-- Any other rune, whole: the bytes that the rune starting at `b` takes. -/
  | other {b : UInt8} {w r : List UInt8} : isSpace b = false → markKind? b = none →
      isWordStart b = false → isDigit b = false → (Utf8.decode b (w ++ r)).2 = w.length →
      Lexeme .other (b :: w) r

theorem isSpace_eq_false_of_isNumberByte {b : UInt8} (h : isNumberByte b = true) :
    isSpace b = false := by
  simp [isNumberByte, isWordByte, isWordStart, isLetter, isDigit, isSpace, isBlank,
    UInt8.le_iff_toNat_le, ← UInt8.toNat_inj] at h ⊢
  omega

theorem isAscii_of_isNumberByte {b : UInt8} (h : isNumberByte b = true) : isAscii b = true := by
  simp [isNumberByte, isWordByte, isWordStart, isLetter, isDigit, UInt8.le_iff_toNat_le,
    ← UInt8.toNat_inj] at h
  rw [isAscii_iff]
  omega

theorem isNumberByte_of_isDigit {b : UInt8} (h : isDigit b = true) : isNumberByte b = true := by
  simp [isNumberByte, isWordByte, h]

/-- A word is word bytes throughout, its first byte included. -/
theorem isWordByte_of_mem_word {b : UInt8} {w : List UInt8} (hb : isWordStart b = true)
    (hw : ∀ x ∈ w, isWordByte x = true) : ∀ x ∈ b :: w, isWordByte x = true :=
  List.forall_mem_cons.2 ⟨isWordByte_of_isWordStart hb, hw⟩

/-- A number is number bytes throughout, its first digit included. -/
theorem isNumberByte_of_mem_number {b : UInt8} {w : List UInt8} (hb : isDigit b = true)
    (hw : ∀ x ∈ w, isNumberByte x = true) : ∀ x ∈ b :: w, isNumberByte x = true :=
  List.forall_mem_cons.2 ⟨isNumberByte_of_isDigit hb, hw⟩

namespace Lexeme

variable {k : TokenKind} {w r : List UInt8}

theorem ne_nil (h : Lexeme k w r) : w ≠ [] := by
  cases h <;> simp

/-- No lexeme is the end of the text. -/
theorem kind_ne_eof (h : Lexeme k w r) : k ≠ .eof := by
  cases h with
  | mark hm =>
    rintro rfl
    unfold markKind? at hm
    repeat' split at hm
    all_goals simp at hm
  | _ => simp

/-- A lexeme holds no blank and no newline. -/
theorem isSpace_eq_false (h : Lexeme k w r) : ∀ x ∈ w, isSpace x = false := by
  cases h with
  | mark hm =>
    intro x hx
    rw [List.mem_singleton.1 hx]
    exact isSpace_of_markKind? hm
  | type hb hw | ident hb hw =>
    intro x hx
    exact isSpace_eq_false_of_isWordByte (isWordByte_of_mem_word hb hw x hx)
  | number hb hw =>
    intro x hx
    exact isSpace_eq_false_of_isNumberByte (isNumberByte_of_mem_number hb hw x hx)
  | @other b w r hs _ _ _ hk =>
    intro x hx
    rcases List.mem_cons.1 hx with rfl | hx
    · exact hs
    · -- the bytes a rune takes after its first are at least `0x80`
      have hw : w = (w ++ r).take (Utf8.decode b (w ++ r)).2 := by simp [hk]
      rw [hw] at hx
      have h80 := Utf8.le_of_mem_take_decode b _ x hx
      cases hsx : isSpace x
      · rfl
      · have := isAscii_iff.1 (isAscii_of_isSpace hsx)
        rw [UInt8.le_iff_toNat_le] at h80
        simp at h80
        omega

end Lexeme

/-- What is left after dropping a class of bytes does not start with one of them. -/
theorem head?_dropWhile_eq_false (p : UInt8 → Bool) (l : List UInt8) :
    ∀ x ∈ (l.dropWhile p).head?, p x = false := by
  intro x hx
  cases hd : l.dropWhile p with
  | nil => simp [hd] at hx
  | cons y ys =>
    rw [hd, List.head?_cons, Option.mem_some_iff] at hx
    subst hx
    exact (eq_takeWhile_append_of_dropWhile hd).1

namespace Cut

/-- The lexer cuts the longest token: what `Cut.take` cuts from a byte that is no blank is a
`Lexeme` before the rest it leaves. -/
theorem lexeme_take {b : UInt8} (hb : isSpace b = false) (rest : List UInt8) :
    Lexeme (take b rest).kind (take b rest).lexeme (take b rest).rest := by
  cases hm : markKind? b with
  | some k =>
    rw [take_of_markKind? hm]
    exact .mark hm
  | none =>
    by_cases hw : isWordStart b = true
    · -- the word runs over every word byte after `b`
      have hstop := head?_dropWhile_eq_false isWordByte rest
      have hrun : ∀ x ∈ rest.takeWhile isWordByte, isWordByte x = true :=
        fun x hx => List.mem_takeWhile_imp hx
      simp only [take, hm, hw, if_true]
      cases ht : TypeName.ofSpelling? (Utf8.ascii (b :: rest.takeWhile isWordByte)) with
      | some t => simpa [ht] using Lexeme.type hw hrun hstop ht
      | none => simpa [ht] using Lexeme.ident hw hrun hstop ht
    · rw [Bool.not_eq_true] at hw
      by_cases hd : isDigit b = true
      · have hstop := head?_dropWhile_eq_false isNumberByte rest
        simp only [take, hm, hw, hd, if_true, Bool.false_eq_true, if_false]
        exact .number hd (fun x hx => List.mem_takeWhile_imp hx) hstop
      · rw [Bool.not_eq_true] at hd
        -- a single rune: the bytes it takes are there to take
        have hk : (Utf8.decode b (rest.take (Utf8.decode b rest).2 ++
            rest.drop (Utf8.decode b rest).2)).2 = (rest.take (Utf8.decode b rest).2).length := by
          rw [List.take_append_drop, List.length_take_of_le (Utf8.decode_snd_le b rest)]
        simp only [take, hm, hw, hd, Bool.false_eq_true, if_false]
        exact .other hb hm hw hd hk

end Cut

/-- A token list that is one token splits only around it. -/
theorem eq_of_append_cons_eq_singleton {ts₁ ts₂ : List Token} {t u : Token}
    (h : [u] = ts₁ ++ t :: ts₂) : ts₁ = [] ∧ t = u ∧ ts₂ = [] := by
  cases ts₁ with
  | nil => simpa [eq_comm] using h
  | cons v ts₁ => simp at h

namespace Tokens

/-- Induction along the lexer: what holds of every text of blanks, and of blanks, a byte that is
no blank and a rest whenever it holds of what the token cut at that byte leaves, read from the
cursor after the token, holds of every text read from every cursor. -/
theorem scanFrom_induction {motive : Cursor → List UInt8 → Prop}
    (blanks : ∀ c r, (∀ x ∈ r, isSpace x = true) → motive c r)
    (token : ∀ c sp b rest, (∀ x ∈ sp, isSpace x = true) → isSpace b = false →
      motive ((c.skip sp).pass (Cut.take b rest).lexeme.length
        (Utf8.runeCount (Cut.take b rest).lexeme)) (Cut.take b rest).rest →
      motive c (sp ++ b :: rest))
    (c : Cursor) (r : List UInt8) : motive c r := by
  induction c, r using scanFrom.induct with
  | case1 c r hr => exact blanks c r (List.dropWhile_eq_nil_iff.1 hr)
  | case2 c r _ _ b rest hr _ ih =>
    obtain ⟨hb, hsplit⟩ := eq_takeWhile_append_of_dropWhile hr
    rw [hsplit]
    exact token c _ b rest (fun x hx => List.mem_takeWhile_imp hx) hb ih

/-- A text of blanks gives the end token alone. -/
theorem toList_scanFrom_of_all_isSpace (c : Cursor) {r : List UInt8}
    (h : ∀ x ∈ r, isSpace x = true) : (scanFrom c r).toList = [(c.skip r).token .eof [] r] := by
  rw [scanFrom_of_all_isSpace c h]
  rfl

/-- Before a byte that is no blank, the lexer gives the longest token there, then the tokens of
what follows it. -/
theorem toList_scanFrom_append_cons (c : Cursor) {sp : List UInt8}
    (hsp : ∀ x ∈ sp, isSpace x = true) {b : UInt8} (hb : isSpace b = false) (rest : List UInt8) :
    (scanFrom c (sp ++ b :: rest)).toList =
      (c.skip sp).token (Cut.take b rest).kind (Cut.take b rest).lexeme sp ::
      (scanFrom ((c.skip sp).pass (Cut.take b rest).lexeme.length
        (Utf8.runeCount (Cut.take b rest).lexeme)) (Cut.take b rest).rest).toList := by
  rw [scanFrom_append_cons c hsp hb rest]
  rfl

theorem toList_ne_nil (c : Cursor) (r : List UInt8) : (scanFrom c r).toList ≠ [] := by
  simp [toList]

/-- The tokens of a text spell it, blanks included. -/
theorem text_scanFrom (c : Cursor) (r : List UInt8) :
    (scanFrom c r).toList.flatMap Token.text = r := by
  induction c, r using scanFrom_induction with
  | blanks c r hr =>
    rw [toList_scanFrom_of_all_isSpace c hr]
    simp [Token.text, Cursor.token]
  | token c sp b rest hsp hb ih =>
    rw [toList_scanFrom_append_cons c hsp hb, List.flatMap_cons, ih]
    simp only [Token.text, Cursor.token, List.append_assoc, Cut.lexeme_append_rest]

/-- The space of every token is blanks and newlines. -/
theorem isSpace_of_mem_space (c : Cursor) (r : List UInt8) :
    ∀ t ∈ (scanFrom c r).toList, ∀ x ∈ t.space, isSpace x = true := by
  induction c, r using scanFrom_induction with
  | blanks c r hr =>
    rw [toList_scanFrom_of_all_isSpace c hr]
    simpa [Cursor.token] using hr
  | token c sp b rest hsp hb ih =>
    rw [toList_scanFrom_append_cons c hsp hb]
    intro t ht
    rcases List.mem_cons.1 ht with rfl | ht
    · exact hsp
    · exact ih t ht

/-- Every token but the last is a `Lexeme` before the text of the tokens after it; the last is
the end token, with no lexeme. -/
theorem lexeme_scanFrom (c : Cursor) (r : List UInt8) :
    ∀ ts₁ t ts₂, (scanFrom c r).toList = ts₁ ++ t :: ts₂ →
      (ts₂ = [] ∧ t.kind = .eof ∧ t.lexeme = []) ∨
      (ts₂ ≠ [] ∧ t.kind ≠ .eof ∧ Lexeme t.kind t.lexeme (ts₂.flatMap Token.text)) := by
  induction c, r using scanFrom_induction with
  | blanks c r hr =>
    intro ts₁ t ts₂ h
    rw [toList_scanFrom_of_all_isSpace c hr] at h
    obtain ⟨rfl, rfl, rfl⟩ := eq_of_append_cons_eq_singleton h
    simp [Cursor.token]
  | token c sp b rest hsp hb ih =>
    intro ts₁ t ts₂ h
    rw [toList_scanFrom_append_cons c hsp hb] at h
    rcases List.append_eq_cons_iff.1 h.symm with ⟨rfl, hfirst⟩ | ⟨ts₁', rfl, hlater⟩
    · -- the token cut here
      obtain ⟨rfl, rfl⟩ := List.cons.inj hfirst
      refine .inr ⟨toList_ne_nil _ _, (Cut.lexeme_take hb rest).kind_ne_eof, ?_⟩
      rw [text_scanFrom]
      exact Cut.lexeme_take hb rest
    · exact ih ts₁' t ts₂ hlater

/-- The tokens of a text tile it: the spaces and lexemes of the tokens spell the text, every
space is blanks and newlines, the end token comes last and alone and has no lexeme, and every
other token is the longest token that the text after it allows. -/
theorem lexeme_scan (s : List UInt8) :
    (scan s).toList.flatMap Token.text = s ∧
    (∀ t ∈ (scan s).toList, ∀ x ∈ t.space, isSpace x = true) ∧
    ∀ ts₁ t ts₂, (scan s).toList = ts₁ ++ t :: ts₂ →
      (ts₂ = [] ∧ t.kind = .eof ∧ t.lexeme = []) ∨
      (ts₂ ≠ [] ∧ t.kind ≠ .eof ∧ Lexeme t.kind t.lexeme (ts₂.flatMap Token.text)) :=
  ⟨text_scanFrom _ s, isSpace_of_mem_space _ s, lexeme_scanFrom _ s⟩

end Tokens

end ShaderHeaders
