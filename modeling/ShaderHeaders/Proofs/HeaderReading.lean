import ShaderHeaders.Proofs.HeaderText
import ShaderHeaders.Proofs.TokenStream

/-!
# Reading a header, against its text

`Header.read` works on the tokens of a text; `HeaderText` describes the text itself. This
module ties the two together for the tokens the lexer makes of a text, one reading function
at a time.

* Forward: on the tokens of a header's text followed by anything, each reading function reads
  exactly the parts it is meant to, and `read_scanFrom` reads the whole header, declares its
  signature and meets the declarations the text holds (`ParamsText.reads`), so that its first
  layout problem is the first badly spaced declaration of the text (`layout?_read_scanFrom`).
* Backward: whenever `Header.read` succeeds on the tokens of a text, that text starts with a
  well-formed header (`exists_headerText_of_read`).

The return type is the token the reading starts at; everything after it is the stream of the
text after the return type, read from an arbitrary cursor, since which cursor that is only
shows in the positions of tokens.
-/

namespace ShaderHeaders

open Source Tokens

namespace Cursor

@[simp] theorem kind_token (c : Cursor) (k : TokenKind) (lexeme space : List UInt8) :
    (c.token k lexeme space).kind = k := rfl

@[simp] theorem lexeme_token (c : Cursor) (k : TokenKind) (lexeme space : List UInt8) :
    (c.token k lexeme space).lexeme = lexeme := rfl

@[simp] theorem adjacent_token (c : Cursor) (k : TokenKind) (lexeme space : List UInt8) :
    (c.token k lexeme space).adjacent = space.isEmpty := rfl

end Cursor

theorem typeName?_token (c : Cursor) {t : TypeName} (ht : t.valid = true) (sp : List UInt8) :
    (c.token .type t.word sp).typeName? = some t := by
  simp [Token.typeName?, Cursor.token, TypeName.ofSpelling?_ascii_eq_some.2 ⟨ht, rfl⟩]

/-- A token names a type only if it is a type token whose bytes spell it. -/
theorem typeName?_eq_some {t : Token} {ty : TypeName} (h : t.typeName? = some ty) :
    t.kind = .type ∧ ty.valid = true ∧ t.lexeme = ty.word := by
  unfold Token.typeName? at h
  split at h
  · exact ⟨by assumption, TypeName.ofSpelling?_ascii_eq_some.1 h⟩
  · cases h

/-- The tokens a declaration was read from: its type and its name, if any. -/
def Declaration.tokens (D : Declaration) : List Token := D.typeToken :: D.name?.toList

namespace Tokens

/-- Blanks and newlines in front of a text keep a word before them whole. -/
theorem head?_spaces_append {g : List UInt8} (hne : g ≠ []) (hg : ∀ b ∈ g, isSpace b = true)
    (x : List UInt8) : ∀ b ∈ (g ++ x).head?, isWordByte b = false := by
  obtain ⟨b, bs, rfl⟩ := List.exists_cons_of_ne_nil hne
  have hb : isSpace b = true := hg b (by simp)
  simp only [List.cons_append, List.head?_cons, Option.mem_some_iff]
  rintro _ rfl
  cases hw : isWordByte b
  · rfl
  · simp [isSpace_eq_false_of_isWordByte hw] at hb

/-- A mark keeps a word before it whole. -/
theorem head?_mark_cons {m : UInt8} {k : TokenKind} (hm : markKind? m = some k) (x : List UInt8) :
    ∀ b ∈ (m :: x).head?, isWordByte b = false := by
  simpa using isWordByte_of_markKind? hm

/-- A mark with nothing before it is a token that touches the one before. -/
theorem body_scanFrom_mark_cons (c : Cursor) {m : UInt8} {k : TokenKind}
    (hm : markKind? m = some k) (r : List UInt8) :
    (scanFrom c (m :: r)).body = c.token k [m] [] :: (scanFrom (c.after [m]) r).body := by
  simpa using body_scanFrom_mark c (List.forall_mem_nil _) hm r

end Tokens

namespace DeclText

/-- The declaration the parser reads from `d`, written after the blanks `sp`, the cursor `c`
    standing before those blanks. -/
def read (d : DeclText) (c : Cursor) (sp : List UInt8) : Declaration :=
  ⟨(c.after sp).token .type d.type.word sp, d.type,
    if d.name.isEmpty then none
    else some ((((c.after sp).after d.type.word).after d.gap).token .ident d.name d.gap)⟩

theorem toParameter_read (d : DeclText) (c : Cursor) (sp : List UInt8) :
    (d.read c sp).toParameter = d.parameter := by
  by_cases h : d.name.isEmpty
  · have : d.name = [] := List.isEmpty_iff.1 h
    simp [read, Declaration.toParameter, parameter, this, Utf8.ascii]
  · simp [read, Declaration.toParameter, parameter, h, Cursor.token]

/-- The layout problem of a declaration read from its text is at its name, exactly when the
    type and the name are not one space apart. -/
theorem layout?_read (d : DeclText) (c : Cursor) (sp : List UInt8) :
    (d.read c sp).layout? = if d.spaced then none
      else some ⟨.spacing d.text, (((c.after sp).after d.type.word).after d.gap).token .ident d.name
        d.gap⟩ := by
  by_cases h : d.name.isEmpty
  · simp [read, Declaration.layout?, spaced, h]
  · by_cases hg : d.gap = [32]
    · simp [read, Declaration.layout?, spaced, h, hg, Cursor.token]
    · simp [read, Declaration.layout?, spaced, h, hg, Cursor.token, text]

/-- The stream of a declaration's text before a mark starts with the tokens the parser reads
    the declaration from. -/
theorem body_scanFrom (c : Cursor) {sp : List UInt8} (hsp : ∀ b ∈ sp, isSpace b = true)
    {style : DeclStyle} {d : DeclText} (hd : d.WF style) {m : UInt8} {k : TokenKind}
    (hm : markKind? m = some k) (r : List UInt8) :
    (Tokens.scanFrom c (sp ++ (d.text ++ m :: r))).body =
      (d.read c sp).tokens ++ (Tokens.scanFrom ((c.after sp).after d.text) (m :: r)).body := by
  have hmr := Tokens.head?_mark_cons hm r
  obtain ⟨hty, ⟨hgap_ne, hgap, hname⟩ | ⟨-, hgap, hname⟩⟩ := hd
  · -- a named declaration: the type ends at the blanks, the name at the mark
    have hsep := Tokens.head?_spaces_append hgap_ne hgap (d.name ++ m :: r)
    have hne : d.name.isEmpty = false := by
      cases hn : d.name with
      | nil => simp [hn, isName, isIdent] at hname
      | cons _ _ => rfl
    rw [text, List.append_assoc, List.append_assoc,
      Tokens.body_scanFrom_word c hsp (TypeName.isIdent_word hty) hsep,
      Tokens.body_scanFrom_word _ hgap (isIdent_of_isName hname) hmr]
    simp [read, Declaration.tokens, hne, wordKind_word hty, wordKind_of_isName hname]
  · -- a type alone: it ends at the mark
    simp only [text, hgap, hname, List.append_nil]
    rw [Tokens.body_scanFrom_word c hsp (TypeName.isIdent_word hty) hmr]
    simp [read, Declaration.tokens, hname, wordKind_word hty]

end DeclText

namespace ParamsText

/-- The declarations the parser reads from `d` written after the blanks `sp`, and from the
    declarations `ds` behind it. -/
def readFrom (c : Cursor) (sp : List UInt8) (d : DeclText) :
    List (List UInt8 × DeclText) → List Declaration
  | [] => [d.read c sp]
  | (w, e) :: ds => d.read c sp :: readFrom (((c.after sp).after d.text).after [44]) w e ds

/-- The declarations the parser reads from a parameter list, the cursor `c` standing before
    it. -/
def reads (c : Cursor) : ParamsText → List Declaration
  | decls d ds => readFrom c [] d ds
  | _ => []

theorem parameters_readFrom (c : Cursor) (sp : List UInt8) (d : DeclText)
    (ds : List (List UInt8 × DeclText)) :
    (readFrom c sp d ds).map Declaration.toParameter = (decls d ds).parameters := by
  induction ds generalizing c sp d with
  | nil => simp [readFrom, parameters, declList, DeclText.toParameter_read]
  | cons p ds ih =>
    obtain ⟨w, e⟩ := p
    simp only [readFrom, List.map_cons, DeclText.toParameter_read, ih]
    simp [parameters, declList]

theorem parameters_reads (c : Cursor) (p : ParamsText) :
    (p.reads c).map Declaration.toParameter = p.parameters := by
  cases p with
  | void => rfl
  | empty => rfl
  | decls d ds => exact parameters_readFrom c [] d ds

theorem firstBad_append (pre before : List UInt8) (d : DeclText)
    (ds : List (List UInt8 × DeclText)) :
    firstBad (pre ++ before) d ds = (firstBad before d ds).map fun p => (pre ++ p.1, p.2) := by
  induction ds generalizing before d with
  | nil => by_cases hd : d.spaced <;> simp [firstBad, hd]
  | cons p ds ih =>
    obtain ⟨w, e⟩ := p
    by_cases hd : d.spaced
    · simp only [firstBad, hd, if_true]
      rw [← ih]
      simp
    · simp [firstBad, hd]

/-- The first layout problem the parser meets in a list is at the name of its first badly
    spaced declaration, the cursor there being the cursor after the text before that name. -/
theorem layout?_readFrom (c₀ : Cursor) (before sp : List UInt8) (d : DeclText)
    (ds : List (List UInt8 × DeclText)) :
    ((readFrom (c₀.after before) sp d ds).filterMap Declaration.layout?).head? =
      (firstBad (before ++ sp) d ds).map fun p =>
        ⟨.spacing p.2.text, (c₀.after p.1).token .ident p.2.name p.2.gap⟩ := by
  induction ds generalizing before sp d with
  | nil =>
    by_cases hd : d.spaced
    · simp [readFrom, firstBad, DeclText.layout?_read, hd]
    · simp [readFrom, firstBad, DeclText.layout?_read, hd]
  | cons p ds ih =>
    obtain ⟨w, e⟩ := p
    by_cases hd : d.spaced
    · have hc : (((c₀.after before).after sp).after d.text).after [44] =
          c₀.after (before ++ sp ++ d.text ++ [44]) := by simp
      simp only [readFrom, List.filterMap_cons, DeclText.layout?_read, hd, if_true, hc, ih,
        firstBad]
      simp
    · simp [readFrom, firstBad, DeclText.layout?_read, hd]

end ParamsText

/-- The stream of a header's text starts with its return type, as a type token. -/
theorem HeaderText.body_scanFrom_text (c : Cursor) {sp : List UInt8}
    (hsp : ∀ b ∈ sp, isSpace b = true) {style : DeclStyle} {h : HeaderText} (hh : h.WF style)
    (tb : UInt8) (r : List UInt8) :
    (scanFrom c (sp ++ (h.text tb ++ r))).body =
      (c.after sp).token .type h.ret.word sp ::
        (scanFrom ((c.after sp).after h.ret.word) (h.afterReturn tb ++ r)).body := by
  have hsep : ∀ b ∈ (h.afterReturn tb ++ r).head?, isWordByte b = false := by
    have := head?_spaces_append hh.gap_ne_nil hh.gap (h.name ++ 40 :: h.params.text ++
      41 :: h.close ++ [tb] ++ r)
    simpa [HeaderText.afterReturn] using this
  rw [HeaderText.text, List.append_assoc,
    body_scanFrom_word c hsp (TypeName.isIdent_word hh.ret) hsep, wordKind_word hh.ret]

namespace Header

theorem declarations_of_ok_cons {eof : Token} {style : DeclStyle} {rest : List Token}
    {D : Declaration} {u : Token} {rest' : List Token}
    (h : declaration eof style rest = .ok (D, u :: rest')) :
    declarations eof style rest =
      if u.kind = .comma ∧ u.adjacent = true then
        (D :: (declarations eof style rest').1, (declarations eof style rest').2)
      else ([D], .ok (u :: rest')) := by
  rw [declarations]
  split
  · rename_i e he
    rw [h] at he
    cases he
  · rename_i D' r' he
    rw [h] at he
    cases he
    simp

theorem declarations_of_ok_nil {eof : Token} {style : DeclStyle} {rest : List Token}
    {D : Declaration} (h : declaration eof style rest = .ok (D, [])) :
    declarations eof style rest = ([D], .ok []) := by
  rw [declarations]
  split
  · rename_i e he
    rw [h] at he
    cases he
  · rename_i D' r' he
    rw [h] at he
    cases he
    rfl

theorem declarations_of_error {eof : Token} {style : DeclStyle} {rest : List Token}
    {e : ParseError} (h : declaration eof style rest = .error e) :
    declarations eof style rest = ([], .error e) := by
  rw [declarations]
  split
  · rename_i e' he
    rw [h] at he
    cases he
    rfl
  · rename_i D' r' he
    rw [h] at he
    cases he

section Forward

variable (eof : Token)

theorem expectAdjacent_scanFrom (c : Cursor) {m : UInt8} {k : TokenKind}
    (hm : markKind? m = some k) (r : List UInt8) :
    expectAdjacent eof k (scanFrom c (m :: r)).body = .ok (scanFrom (c.after [m]) r).body := by
  simp [body_scanFrom_mark_cons c hm r, expectAdjacent]

theorem expect_scanFrom (c : Cursor) {sp : List UInt8} (hsp : ∀ b ∈ sp, isSpace b = true)
    {m : UInt8} {k : TokenKind} (hm : markKind? m = some k) (r : List UInt8) :
    expect eof (some k) (scanFrom c (sp ++ m :: r)).body =
      .ok (scanFrom ((c.after sp).after [m]) r).body := by
  simp [body_scanFrom_mark c hsp hm r, expect, Cursor.token]

theorem expectAdjacent_token_cons (c : Cursor) (k : TokenKind) (lexeme : List UInt8)
    (rest : List Token) : expectAdjacent eof k (c.token k lexeme [] :: rest) = .ok rest := by
  simp [expectAdjacent, Cursor.token, Token.adjacent]

/-- A declaration read from its text is followed by the token after its text, which is no
    identifier. -/
theorem declaration_tokens_append {style : DeclStyle} {d : DeclText} (hd : d.WF style)
    (c : Cursor) (sp : List UInt8) {u : Token} (hu : u.kind ≠ .ident) (rest : List Token) :
    declaration eof style ((d.read c sp).tokens ++ u :: rest) = .ok (d.read c sp, u :: rest) := by
  have hty := typeName?_token (c.after sp) hd.1 sp
  by_cases hn : d.name.isEmpty
  · -- no name: only the anonymous style allows that
    have hstyle : style = .anonymous := by
      rcases hd.2 with ⟨-, -, hname⟩ | ⟨hs, -, -⟩
      · simp [List.isEmpty_iff.1 hn, isName, isIdent] at hname
      · exact hs
    simp [DeclText.read, Declaration.tokens, hn, declaration, hty, hu, hstyle]
  · simp [DeclText.read, Declaration.tokens, hn, declaration, hty]

theorem comma_mark : markKind? 44 = some .comma := rfl

theorem closeParen_mark : markKind? 41 = some .closeParen := rfl

theorem openParen_mark : markKind? 40 = some .openParen := rfl

/-- The declarations of a list followed by `)` are read to the `)`, as `readFrom` gives
    them. -/
theorem declarations_scanFrom (c : Cursor) {sp : List UInt8} (hsp : ∀ b ∈ sp, isSpace b = true)
    {style : DeclStyle} {d : DeclText} (hd : d.WF style) {ds : List (List UInt8 × DeclText)}
    (hds : ∀ p ∈ ds, (∀ b ∈ p.1, isSpace b = true) ∧ p.2.WF style) (r : List UInt8) :
    declarations eof style
        (scanFrom c (sp ++ (d.text ++ (ParamsText.moreText ds ++ 41 :: r)))).body =
      (ParamsText.readFrom c sp d ds,
        .ok (scanFrom (((c.after sp).after d.text).after (ParamsText.moreText ds)) (41 :: r)).body) := by
  induction ds generalizing c sp d with
  | nil =>
    -- the last declaration: the `)` after it is no comma
    have hclose := body_scanFrom_mark_cons ((c.after sp).after d.text) closeParen_mark r
    simp only [ParamsText.moreText, List.map_nil, List.flatten_nil, List.nil_append,
      Cursor.after_nil]
    rw [DeclText.body_scanFrom c hsp hd closeParen_mark, hclose,
      declarations_of_ok_cons (declaration_tokens_append eof hd c sp (by simp) _)]
    simp [Cursor.token, ParamsText.readFrom]
  | cons p ds ih =>
    -- a comma touching the declaration: the rest of the list is read after it
    obtain ⟨w, e⟩ := p
    obtain ⟨⟨hw, he⟩, hds⟩ := List.forall_mem_cons.1 hds
    have htext : ParamsText.moreText ((w, e) :: ds) ++ 41 :: r =
        44 :: (w ++ (e.text ++ (ParamsText.moreText ds ++ 41 :: r))) := by
      simp [ParamsText.moreText]
    have hcomma := body_scanFrom_mark_cons ((c.after sp).after d.text) comma_mark
      (w ++ (e.text ++ (ParamsText.moreText ds ++ 41 :: r)))
    have hc : (((c.after sp).after d.text).after (ParamsText.moreText ((w, e) :: ds))) =
        (((((c.after sp).after d.text).after [44]).after w).after e.text).after
          (ParamsText.moreText ds) := by
      simp [ParamsText.moreText, ← Cursor.after_append]
    rw [htext, DeclText.body_scanFrom c hsp hd comma_mark, hcomma,
      declarations_of_ok_cons (declaration_tokens_append eof hd c sp (by simp) _)]
    simp [Cursor.token, Token.adjacent, ih _ hw he hds, ParamsText.readFrom, hc]

/-- The stream of a list of declarations closed by `)` starts with the tokens of its first
    declaration and a mark touching them: `)` when that declaration is the only one, `,`
    otherwise. -/
theorem body_scanFrom_decls (c : Cursor) {sp : List UInt8} (hsp : ∀ b ∈ sp, isSpace b = true)
    {style : DeclStyle} {d : DeclText} (hd : d.WF style) (ds : List (List UInt8 × DeclText))
    (r : List UInt8) :
    ∃ m k r', markKind? m = some k ∧ (k = .closeParen ↔ ds = []) ∧
      (scanFrom c (sp ++ (d.text ++ (ParamsText.moreText ds ++ 41 :: r)))).body =
        (d.read c sp).tokens ++ ((c.after sp).after d.text).token k [m] [] ::
          (scanFrom (((c.after sp).after d.text).after [m]) r').body := by
  obtain ⟨m, k, r', hm, hk, hr'⟩ : ∃ m k r', markKind? m = some k ∧
      (k = .closeParen ↔ ds = []) ∧ ParamsText.moreText ds ++ 41 :: r = m :: r' := by
    cases ds with
    | nil => exact ⟨41, .closeParen, r, rfl, by simp, rfl⟩
    | cons p ds =>
      exact ⟨44, .comma, p.1 ++ (p.2.text ++ (ParamsText.moreText ds ++ 41 :: r)), rfl,
        by simp, by simp [ParamsText.moreText]⟩
  refine ⟨m, k, r', hm, hk, ?_⟩
  rw [hr', DeclText.body_scanFrom c hsp hd hm r', body_scanFrom_mark_cons _ hm]

/-- A list read from the tokens of a declaration is the empty list exactly when that
    declaration is `void` alone, touching `(` and `)`. -/
theorem voidList_read_tokens_iff {style : DeclStyle} {d : DeclText} (hd : d.WF style)
    (c : Cursor) (sp : List UInt8) (u : Token) (rest : List Token) :
    voidList eof ((d.read c sp).tokens ++ u :: rest) = true ↔
      d = .bare .void ∧ sp = [] ∧ u.kind = .closeParen ∧ u.adjacent = true := by
  have hty := typeName?_token (c.after sp) hd.1 sp
  by_cases hn : d.name.isEmpty
  · -- the type alone: its gap is empty too
    have hname : d.name = [] := List.isEmpty_iff.1 hn
    have hgap : d.gap = [] := by
      rcases hd.2 with ⟨-, -, hname'⟩ | ⟨-, hgap, -⟩
      · simp [hname, isName, isIdent] at hname'
      · exact hgap
    obtain ⟨ty, g, n⟩ := d
    simp only at hname hgap hty
    subst hname hgap
    simp [DeclText.read, Declaration.tokens, voidList, peek, peekNext, hty, DeclText.bare,
      and_assoc]
  · -- an identifier follows the type
    have hne : d ≠ .bare .void := fun h => by simp [h, DeclText.bare] at hn
    simp [DeclText.read, Declaration.tokens, hn, voidList, peek, peekNext, hne]

/-- The text between the parentheses, followed by `)`, is read to the `)`. -/
theorem paramList_scanFrom (c : Cursor) {style : DeclStyle} {p : ParamsText} (hp : p.WF style)
    (r : List UInt8) :
    paramList eof style (scanFrom c (p.text ++ 41 :: r)).body =
      (p.reads c, .ok (scanFrom (c.after p.text) (41 :: r)).body) := by
  cases p with
  | void =>
    -- `void)`: the spelling of the empty list
    have hv : TypeName.void.valid = true := rfl
    have hvoid := body_scanFrom_word c (List.forall_mem_nil _) (TypeName.isIdent_word hv)
      (head?_mark_cons closeParen_mark r)
    simp only [List.nil_append, Cursor.after_nil, wordKind_word hv] at hvoid
    simp [ParamsText.text, hvoid, body_scanFrom_mark_cons _ closeParen_mark, paramList, voidList,
      peek, peekNext, typeName?_token _ hv, ParamsText.reads]
  | empty =>
    simp [ParamsText.text, body_scanFrom_mark_cons _ closeParen_mark, paramList, voidList, peek,
      Token.typeName?, ParamsText.reads]
  | decls d ds =>
    obtain ⟨hd, hds, hnv⟩ := hp
    have hlist := declarations_scanFrom eof c (List.forall_mem_nil _) hd hds r
    obtain ⟨m, k, r', -, hk, hstream⟩ := body_scanFrom_decls c (List.forall_mem_nil _) hd ds r
    simp only [List.nil_append, Cursor.after_nil] at hlist hstream
    -- a lone `void` is no list of declarations, so the shortcut does not apply
    have hvoid : voidList eof (scanFrom c (d.text ++ (ParamsText.moreText ds ++ 41 :: r))).body =
        false := by
      rw [hstream, Bool.eq_false_iff]
      intro hv
      obtain ⟨rfl, -, hkc, -⟩ := (voidList_read_tokens_iff eof hd c [] _ _).1 hv
      exact hnv ⟨rfl, hk.1 (by simpa using hkc)⟩
    have hpeek : peek eof (scanFrom c (d.text ++ (ParamsText.moreText ds ++ 41 :: r))).body =
        (d.read c []).typeToken := by
      rw [hstream]
      rfl
    simp only [ParamsText.text, List.append_assoc, paramList, hvoid, hpeek, hlist]
    simp [DeclText.read, ParamsText.reads]

/-- `)`, blanks and the trailer close a header, and for a whole-line rule nothing but blanks
    may follow. -/
theorem closing_scanFrom (c : Cursor) {rule : HeaderRule} {k : TokenKind}
    (hk : rule.trailer = some k) {tb : UInt8} (htb : markKind? tb = some k) {close : List UInt8}
    (hc : ∀ b ∈ close, isSpace b = true) (r : List UInt8)
    (hr : rule.wholeLine = true → ∀ b ∈ r, isSpace b = true) :
    closing eof rule (scanFrom c (41 :: (close ++ tb :: r))).body =
      .ok (scanFrom (((c.after [41]).after close).after [tb]) r).body := by
  have htrailer : expect eof rule.trailer (scanFrom (c.after [41]) (close ++ tb :: r)).body =
      .ok (scanFrom (((c.after [41]).after close).after [tb]) r).body := by
    rw [hk]
    exact expect_scanFrom eof _ hc htb r
  simp only [closing, expectAdjacent_scanFrom eof c closeParen_mark, htrailer, bind, Except.bind]
  -- after the trailer, a whole-line rule finds nothing more
  cases hw : rule.wholeLine
  · split
    · rfl
    · rename_i hnil
      rw [hnil]
      rfl
  · rw [(body_eq_nil_iff _ r).2 (hr hw)]
    rfl

/-- The return type, the name and `(` open a header. -/
theorem opening_scanFrom (c : Cursor) {sp : List UInt8} (hsp : ∀ b ∈ sp, isSpace b = true)
    {style : DeclStyle} {h : HeaderText} (hh : h.WF style) (s : List UInt8) :
    opening eof (scanFrom c (sp ++ (h.ret.word ++ (h.gap ++ (h.name ++ 40 :: s))))).body =
      .ok (h.ret, Utf8.ascii h.name,
        (scanFrom (((((c.after sp).after h.ret.word).after h.gap).after h.name).after [40]) s).body) := by
  rw [body_scanFrom_word c hsp (TypeName.isIdent_word hh.ret)
      (head?_spaces_append hh.gap_ne_nil hh.gap _),
    body_scanFrom_word _ hh.gap (isIdent_of_isName hh.name) (head?_mark_cons openParen_mark s),
    body_scanFrom_mark_cons _ openParen_mark]
  have hgap : h.gap.isEmpty = false := List.isEmpty_eq_false_iff.2 hh.gap_ne_nil
  simp [opening, typeName?_token _ hh.ret, wordKind_word hh.ret, wordKind_of_isName hh.name,
    hgap, expectAdjacent_token_cons, Except.map]

/-- A well-formed header followed by anything is read whole: its signature and the tokens
    after its trailer, with the declarations of its list on the way. -/
theorem read_scanFrom (c : Cursor) {sp : List UInt8} (hsp : ∀ b ∈ sp, isSpace b = true)
    {rule : HeaderRule} {h : HeaderText} (hh : h.WF rule.decl) {k : TokenKind}
    (hk : rule.trailer = some k) {tb : UInt8} (htb : markKind? tb = some k) (r : List UInt8)
    (hr : rule.wholeLine = true → ∀ b ∈ r, isSpace b = true) :
    read rule eof (scanFrom c (sp ++ (h.text tb ++ r))).body =
      ⟨.ok (h.signature, (scanFrom ((c.after sp).after (h.text tb)) r).body),
        h.params.reads ((c.after sp).after (h.ret.word ++ h.gap ++ h.name ++ [40]))⟩ := by
  have htext : sp ++ (h.text tb ++ r) = sp ++ (h.ret.word ++ (h.gap ++ (h.name ++
      40 :: (h.params.text ++ 41 :: (h.close ++ tb :: r))))) := by
    simp [HeaderText.text, HeaderText.afterReturn]
  rw [htext, read, opening_scanFrom eof c hsp hh]
  simp only
  rw [paramList_scanFrom eof _ hh.params]
  simp only
  rw [closing_scanFrom eof _ hk htb hh.close r hr]
  simp [Except.map, HeaderText.signature, ParamsText.parameters_reads, HeaderText.text,
    HeaderText.afterReturn, Cursor.after_cons]

/-- The first layout problem met in reading a well-formed header is at the name of the first
    badly spaced declaration of its text. -/
theorem layout?_read_scanFrom (c : Cursor) {sp : List UInt8} (hsp : ∀ b ∈ sp, isSpace b = true)
    {rule : HeaderRule} {h : HeaderText} (hh : h.WF rule.decl) {k : TokenKind}
    (hk : rule.trailer = some k) {tb : UInt8} (htb : markKind? tb = some k) (r : List UInt8)
    (hr : rule.wholeLine = true → ∀ b ∈ r, isSpace b = true) :
    (read rule eof (scanFrom c (sp ++ (h.text tb ++ r))).body).layout? =
      h.badDecl?.map fun p =>
        ⟨.spacing p.2.text, ((c.after sp).after p.1).token .ident p.2.name p.2.gap⟩ := by
  rw [read_scanFrom eof c hsp hh hk htb r hr, Outcome.layout?]
  cases hp : h.params with
  | void => simp [ParamsText.reads, HeaderText.badDecl?, hp, ParamsText.badDecl?]
  | empty => simp [ParamsText.reads, HeaderText.badDecl?, hp, ParamsText.badDecl?]
  | decls d ds =>
    have hl := ParamsText.layout?_readFrom (c.after sp) (h.ret.word ++ h.gap ++ h.name ++ [40]) []
      d ds
    have hb := ParamsText.firstBad_append (h.ret.word ++ h.gap ++ h.name ++ [40]) [] d ds
    simp only [List.append_nil] at hl hb
    rw [hb] at hl
    simp only [ParamsText.reads, hl, HeaderText.badDecl?, hp, ParamsText.badDecl?, Option.map_map]
    congr 1
    funext p
    simp

end Forward

section Backward

variable {eof : Token}

theorem isName_of_wordKind {w : List UInt8} (hw : isIdent w = true)
    (hk : wordKind w = .ident) : isName w = true := by
  unfold wordKind at hk
  cases hs : (TypeName.ofSpelling? (Utf8.ascii w)).isSome
  · simp_all [isName]
  · simp [hs] at hk

theorem exists_cons_of_ok {α : Type} {ts : List Token} {x : α} {f : List Token → Except ParseError α}
    (hnil : f [] ≠ .ok x) (h : f ts = .ok x) : ∃ t ts', ts = t :: ts' := by
  cases ts with
  | nil => exact absurd h hnil
  | cons t ts' => exact ⟨t, ts', rfl⟩

/-- A mark that touches the token before it stands right at the front of the text. -/
theorem eq_of_expectAdjacent {c : Cursor} {s : List UInt8} {rest : List Token} {m : UInt8}
    {k : TokenKind} (hm : markKind? m = some k)
    (h : expectAdjacent eof k (scanFrom c s).body = .ok rest) :
    ∃ c' s', s = m :: s' ∧ rest = (scanFrom c' s').body := by
  obtain ⟨t, ts, hs⟩ := exists_cons_of_ok (by simp [expectAdjacent, fail]) h
  have hk : t.kind = k := by
    by_contra hk
    simp [hs, expectAdjacent, hk, fail] at h
  have hadj : t.adjacent = true := by
    by_contra ha
    simp [hs, expectAdjacent, hk, ha, fail] at h
  simp only [hs, expectAdjacent, hk, hadj, if_true, Except.ok.injEq] at h
  obtain ⟨c', s', hr, -, -, hts⟩ := body_eq_cons_mark hs hm hk
  have hsp : t.space = [] := List.isEmpty_iff.1 hadj
  exact ⟨c', s', by simpa [hsp] using hr, h ▸ hts⟩

/-- A mark that may stand after blanks stands at the front of the text after them. -/
theorem eq_of_expect {c : Cursor} {s : List UInt8} {rest : List Token} {m : UInt8}
    {k : TokenKind} (hm : markKind? m = some k)
    (h : expect eof (some k) (scanFrom c s).body = .ok rest) :
    ∃ c' sp s', (∀ b ∈ sp, isSpace b = true) ∧ s = sp ++ m :: s' ∧
      rest = (scanFrom c' s').body := by
  obtain ⟨t, ts, hs⟩ := exists_cons_of_ok (by simp [expect, fail]) h
  have hk : t.kind = k := by
    by_contra hk
    simp [hs, expect, hk, fail] at h
  simp only [hs, expect, hk, if_true, Except.ok.injEq] at h
  obtain ⟨c', s', hr, hsp, -, hts⟩ := body_eq_cons_mark hs hm hk
  exact ⟨c', t.space, s', hsp, hr, h ▸ hts⟩

/-- A type token and an identifier after it come from a type's spelling, blanks and a name;
    the blanks are not empty, or the two words would have been one. -/
theorem exists_of_type_ident {c : Cursor} {s : List UInt8} {t n : Token} {ts : List Token}
    {ty : TypeName} (hs : (scanFrom c s).body = t :: n :: ts) (hty : t.typeName? = some ty)
    (hn : n.kind = .ident) :
    ∃ (c' : Cursor) (s' : List UInt8), (∀ b ∈ t.space, isSpace b = true) ∧ ty.valid = true ∧
      n.space ≠ [] ∧ (∀ b ∈ n.space, isSpace b = true) ∧ isName n.lexeme = true ∧
      s = t.space ++ (ty.word ++ (n.space ++ (n.lexeme ++ s'))) ∧ ts = (scanFrom c' s').body := by
  obtain ⟨htype, hvalid, hlex⟩ := typeName?_eq_some hty
  obtain ⟨c₁, s₁, hs₁, hsp, -, -, hsep, hts⟩ := body_eq_cons_word hs (Or.inl htype)
  obtain ⟨c₂, s₂, hs₂, hgap, hident, hkind, -, hts'⟩ := body_eq_cons_word hts.symm (Or.inr hn)
  -- the type ends where a byte that is no word byte follows it
  have hgap_ne : n.space ≠ [] := by
    intro hnil
    obtain ⟨b, w, hw⟩ := List.exists_cons_of_ne_nil (show n.lexeme ≠ [] by
      intro he
      simp [he, isIdent] at hident)
    have hb : isWordStart b = true := by
      rw [hw] at hident
      exact (Bool.and_eq_true _ _ ▸ hident).1
    have := hsep b (by simp [hs₂, hnil, hw])
    rw [isWordByte_of_isWordStart hb] at this
    cases this
  refine ⟨c₂, s₂, hsp, hvalid, hgap_ne, hgap, isName_of_wordKind hident (hkind ▸ hn), ?_, hts'⟩
  simp [hs₁, hs₂, hlex]

/-- The text `s` is blanks, well-formed declarations behind commas and blanks, and a text whose
    tokens are `rest`. -/
def DeclsText (style : DeclStyle) (s : List UInt8) (rest : List Token) : Prop :=
  ∃ (sp : List UInt8) (d : DeclText) (ds : List (List UInt8 × DeclText)) (c' : Cursor)
    (s' : List UInt8), (∀ b ∈ sp, isSpace b = true) ∧ d.WF style ∧
    (∀ p ∈ ds, (∀ b ∈ p.1, isSpace b = true) ∧ p.2.WF style) ∧
    s = sp ++ (d.text ++ (ParamsText.moreText ds ++ s')) ∧ rest = (scanFrom c' s').body

/-- A declaration read from the tokens of a text is the text of a well-formed declaration,
    after blanks. -/
theorem exists_declText_of_declaration {style : DeclStyle} {c : Cursor} {s : List UInt8}
    {D : Declaration} {rest : List Token}
    (h : declaration eof style (scanFrom c s).body = .ok (D, rest)) :
    ∃ (sp : List UInt8) (d : DeclText) (c' : Cursor) (s' : List UInt8),
      (∀ b ∈ sp, isSpace b = true) ∧ d.WF style ∧ s = sp ++ (d.text ++ s') ∧
        rest = (scanFrom c' s').body := by
  obtain ⟨t, ts, hs⟩ := exists_cons_of_ok (by simp [declaration, fail]) h
  obtain ⟨ty, hty⟩ : ∃ ty, t.typeName? = some ty := by
    cases hty : t.typeName? with
    | none => simp [hs, declaration, hty, fail] at h
    | some ty => exact ⟨ty, rfl⟩
  obtain ⟨htype, hvalid, hlex⟩ := typeName?_eq_some hty
  obtain ⟨c₁, s₁, hs₁, hsp, -, -, -, hts⟩ := body_eq_cons_word hs (Or.inl htype)
  rw [hlex] at hs₁
  -- the type alone, under the anonymous style, when no identifier follows it
  have hbare : style = .anonymous → rest = ts →
      ∃ (sp : List UInt8) (d : DeclText) (c' : Cursor) (s' : List UInt8),
        (∀ b ∈ sp, isSpace b = true) ∧ d.WF style ∧ s = sp ++ (d.text ++ s') ∧
          rest = (scanFrom c' s').body := by
    rintro rfl rfl
    exact ⟨t.space, .bare ty, c₁, s₁, hsp, ⟨hvalid, Or.inr ⟨rfl, rfl, rfl⟩⟩,
      by simp [hs₁, DeclText.text, DeclText.bare], hts⟩
  cases ts with
  | nil =>
    by_cases hst : style = .anonymous
    · simp only [hs, declaration, hty, hst, if_true, Except.ok.injEq, Prod.mk.injEq] at h
      exact hbare hst h.2.symm
    · simp [hs, declaration, hty, hst, fail] at h
  | cons n ts' =>
    by_cases hn : n.kind = .ident
    · -- a name follows
      simp only [hs, declaration, hty, hn, if_true, Except.ok.injEq, Prod.mk.injEq] at h
      obtain ⟨c₂, s₂, -, -, hgap_ne, hgap, hname, hs', hts'⟩ := exists_of_type_ident hs hty hn
      refine ⟨t.space, ⟨ty, n.space, n.lexeme⟩, c₂, s₂, hsp,
        ⟨hvalid, Or.inl ⟨hgap_ne, hgap, hname⟩⟩, by simp [hs', DeclText.text], ?_⟩
      rw [← h.2, hts']
    · by_cases hst : style = .anonymous
      · simp only [hs, declaration, hty, hn, hst, if_false, if_true, Except.ok.injEq,
          Prod.mk.injEq] at h
        exact hbare hst h.2.symm
      · simp [hs, declaration, hty, hn, hst, fail] at h

/-- The declarations read from the tokens of a text are the text of well-formed declarations,
    after blanks, each after the first behind a comma. -/
theorem exists_of_declarations {style : DeclStyle} {c : Cursor} {s : List UInt8}
    {Ds : List Declaration} {rest : List Token}
    (h : declarations eof style (scanFrom c s).body = (Ds, .ok rest)) :
    DeclsText style s rest := by
  -- induction on a bound of the text's length, which each comma read shortens
  suffices H : ∀ n (c : Cursor) (s : List UInt8) (Ds : List Declaration), s.length < n →
      declarations eof style (scanFrom c s).body = (Ds, .ok rest) → DeclsText style s rest from
    H _ c s Ds (Nat.lt_succ_self _) h
  intro n
  induction n with
  | zero => intro c s Ds hlt; omega
  | succ n ih =>
    intro c s Ds hlt h
    cases hD : declaration eof style (scanFrom c s).body with
    | error e =>
      rw [declarations_of_error hD] at h
      cases h
    | ok res =>
      obtain ⟨D, rest₁⟩ := res
      obtain ⟨sp, d, c₁, s₁, hsp, hd, hs, hrest₁⟩ := exists_declText_of_declaration hD
      rw [hrest₁] at hD
      -- the list ends here unless a comma touching the declaration follows
      have hlast : rest = (scanFrom c₁ s₁).body → DeclsText style s rest :=
        fun hr => ⟨sp, d, [], c₁, s₁, hsp, hd, by simp, by simp [hs, ParamsText.moreText], hr⟩
      cases hts : (scanFrom c₁ s₁).body with
      | nil =>
        rw [hts] at hD
        simp only [declarations_of_ok_nil hD, Prod.mk.injEq, Except.ok.injEq] at h
        exact hlast (hts ▸ h.2.symm)
      | cons u rest₂ =>
        rw [hts] at hD
        rw [declarations_of_ok_cons hD] at h
        by_cases hu : u.kind = .comma ∧ u.adjacent = true
        · simp only [hu, and_self, if_true, Prod.mk.injEq] at h
          obtain ⟨c₂, s₂, hs₁, hrest₂⟩ := eq_of_expectAdjacent comma_mark
            (show expectAdjacent eof .comma (scanFrom c₁ s₁).body = .ok rest₂ by
              simp [hts, expectAdjacent, hu])
          have hlt₂ : s₂.length < n := by
            rw [hs, hs₁] at hlt
            simp only [List.length_append, List.length_cons] at hlt
            omega
          rw [hrest₂] at h
          obtain ⟨sp', d', ds', c', s', hsp', hd', hds', hs₂, hrest⟩ :=
            ih c₂ s₂ _ hlt₂ (Prod.ext rfl h.2)
          refine ⟨sp, d, (sp', d') :: ds', c', s', hsp, hd, ?_, ?_, hrest⟩
          · exact List.forall_mem_cons.2 ⟨⟨hsp', hd'⟩, hds'⟩
          · simp [hs, hs₁, hs₂, ParamsText.moreText]
        · simp only [hu, if_false, Prod.mk.injEq, Except.ok.injEq] at h
          exact hlast (hts ▸ h.2.symm)

/-- A stream read as the list `void` starts with the bytes of `void`, touching `(`. -/
theorem exists_of_voidList {c : Cursor} {s : List UInt8}
    (hv : voidList eof (scanFrom c s).body = true) :
    ∃ (c₁ : Cursor) (s₁ : List UInt8), s = TypeName.void.word ++ s₁ ∧
      (scanFrom c s).body.tail = (scanFrom c₁ s₁).body := by
  obtain ⟨t, ts, hs⟩ : ∃ t ts, (scanFrom c s).body = t :: ts := by
    cases hs : (scanFrom c s).body with
    | nil =>
      -- the end token names no type
      have hvoid := hv
      simp only [hs, voidList, peek, peekNext, List.headD_nil, Bool.and_eq_true, beq_iff_eq]
        at hvoid
      obtain ⟨⟨⟨hty, -⟩, hk⟩, -⟩ := hvoid
      rw [(typeName?_eq_some hty).1] at hk
      cases hk
    | cons t ts => exact ⟨t, ts, rfl⟩
  simp only [hs, voidList, peek, peekNext, List.headD_cons, Bool.and_eq_true, beq_iff_eq] at hv
  obtain ⟨⟨⟨hty, hadj⟩, -⟩, -⟩ := hv
  obtain ⟨htype, -, hlex⟩ := typeName?_eq_some hty
  obtain ⟨c₁, s₁, hs₁, -, -, -, -, hts⟩ := body_eq_cons_word hs (Or.inl htype)
  refine ⟨c₁, s₁, ?_, by rw [hs, List.tail_cons, hts]⟩
  rw [hs₁, List.isEmpty_iff.1 hadj, hlex]
  rfl

/-- A list read from the tokens of a text, when a `)` touching it follows, is the text of a
    well-formed list. -/
theorem exists_paramsText_of_paramList {style : DeclStyle} {c : Cursor} {s : List UInt8}
    {Ds : List Declaration} {rest rest' : List Token}
    (h : paramList eof style (scanFrom c s).body = (Ds, .ok rest))
    (hclose : expectAdjacent eof .closeParen rest = .ok rest') :
    ∃ (p : ParamsText) (c' : Cursor) (s' : List UInt8), p.WF style ∧ s = p.text ++ 41 :: s' ∧
      rest' = (scanFrom c' s').body := by
  unfold paramList at h
  by_cases hv : voidList eof (scanFrom c s).body = true
  · -- `void)`
    simp only [hv, if_true, Prod.mk.injEq, Except.ok.injEq] at h
    obtain ⟨c₁, s₁, hs₁, htail⟩ := exists_of_voidList hv
    rw [← h.2, htail] at hclose
    obtain ⟨c', s', hs', hrest'⟩ := eq_of_expectAdjacent closeParen_mark hclose
    exact ⟨.void, c', s', trivial, by rw [hs₁, hs']; rfl, hrest'⟩
  · rw [if_neg hv] at h
    dsimp only at h
    split at h
    · -- nothing between the parentheses
      simp only [Prod.mk.injEq, Except.ok.injEq] at h
      obtain ⟨c', s', hs', hrest'⟩ := eq_of_expectAdjacent closeParen_mark (h.2 ▸ hclose)
      exact ⟨.empty, c', s', trivial, hs', hrest'⟩
    · split at h
      · simp [fail] at h
      · -- declarations, the first touching `(`
        rename_i ha
        obtain ⟨sp, d, ds, c₁, s₁, hsp, hd, hds, hs, hrest⟩ := exists_of_declarations h
        rw [hrest] at hclose
        obtain ⟨c', s', hs₁, hrest'⟩ := eq_of_expectAdjacent closeParen_mark hclose
        obtain ⟨m, k, r', -, hk, hstream⟩ := body_scanFrom_decls c hsp hd ds s'
        rw [← hs₁, ← hs] at hstream
        have hpeek : peek eof (scanFrom c s).body = (d.read c sp).typeToken := by
          rw [hstream]
          rfl
        have hsp₀ : sp = [] := by
          rw [hpeek] at ha
          simpa [DeclText.read] using ha
        -- a lone `void` there would have been read as the empty list
        have hnv : ¬ (d = .bare .void ∧ ds = []) := by
          rintro ⟨rfl, rfl⟩
          apply hv
          rw [hstream, voidList_read_tokens_iff eof hd]
          simp [hsp₀, hk.2 rfl]
        refine ⟨.decls d ds, c', s', ⟨hd, hds, hnv⟩, ?_, hrest'⟩
        rw [hs, hs₁, hsp₀]
        simp [ParamsText.text]

/-- A header closes with a `)` touching the list and the trailer. -/
theorem exists_of_closing {rule : HeaderRule} {k : TokenKind} (hk : rule.trailer = some k)
    {rest rest'' : List Token} (h : closing eof rule rest = .ok rest'') :
    ∃ rest', expectAdjacent eof .closeParen rest = .ok rest' ∧
      expect eof (some k) rest' = .ok rest'' ∧ (rule.wholeLine = true → rest'' = []) := by
  unfold closing at h
  cases hadj : expectAdjacent eof .closeParen rest with
  | error e => simp [hadj, bind, Except.bind] at h
  | ok rest' =>
    rw [← hk]
    cases hexp : expect eof rule.trailer rest' with
    | error e => simp [hadj, hexp, bind, Except.bind] at h
    | ok r =>
      simp only [hadj, hexp, bind, Except.bind] at h
      refine ⟨rest', rfl, ?_, ?_⟩
      · -- what follows the trailer is what the header leaves
        split at h <;> (try split at h) <;> simp_all [pure, Except.pure, fail]
      · intro hw
        split at h
        · simp [hw, fail] at h
        · simp_all [pure, Except.pure]

/-- A header opens with its return type, blanks, its name and `(`. -/
theorem exists_of_opening {c : Cursor} {s : List UInt8} {ret : TypeName} {name : String}
    {rest : List Token} (h : opening eof (scanFrom c s).body = .ok (ret, name, rest)) :
    ∃ (sp gap nm : List UInt8) (c' : Cursor) (s' : List UInt8), (∀ b ∈ sp, isSpace b = true) ∧
      ret.valid = true ∧ gap ≠ [] ∧ (∀ b ∈ gap, isSpace b = true) ∧ isName nm = true ∧
      name = Utf8.ascii nm ∧ s = sp ++ (ret.word ++ (gap ++ (nm ++ 40 :: s'))) ∧
      rest = (scanFrom c' s').body := by
  obtain ⟨t, ts, hs⟩ := exists_cons_of_ok (by simp [opening, fail]) h
  obtain ⟨ty, hty⟩ : ∃ ty, t.typeName? = some ty := by
    cases hty : t.typeName? with
    | none => simp [hs, opening, hty, fail] at h
    | some ty => exact ⟨ty, rfl⟩
  obtain ⟨n, ts', rfl⟩ : ∃ n ts', ts = n :: ts' := by
    cases ts with
    | nil => simp [hs, opening, hty, fail] at h
    | cons n ts' => exact ⟨n, ts', rfl⟩
  have hn : n.kind = .ident ∧ n.adjacent = false := by
    by_contra hn
    simp_all [opening, fail]
  obtain ⟨c₁, s₁, hsp, hvalid, hgap_ne, hgap, hname, hs₁, hts'⟩ := exists_of_type_ident hs hty hn.1
  simp only [hs, opening, hty, hn, decide_true, Bool.not_false, Bool.and_self, if_true] at h
  -- what is left is `(` touching the name
  cases hp : expectAdjacent eof .openParen ts' with
  | error e => simp [hp, Except.map] at h
  | ok rest' =>
    simp only [hp, Except.map, Except.ok.injEq, Prod.mk.injEq] at h
    obtain ⟨rfl, rfl, rfl⟩ := h
    rw [hts'] at hp
    obtain ⟨c', s', hs', hrest⟩ := eq_of_expectAdjacent openParen_mark hp
    exact ⟨t.space, n.space, n.lexeme, c', s', hsp, hvalid, hgap_ne, hgap, hname, rfl,
      by rw [hs₁, hs'], hrest⟩

/-- Whenever a header is read from the tokens of a text, the text starts, after blanks, with
    a well-formed header, and for a whole-line rule only blanks follow it. -/
theorem exists_headerText_of_read {rule : HeaderRule} {k : TokenKind}
    (hk : rule.trailer = some k) {tb : UInt8} (htb : markKind? tb = some k) {c : Cursor}
    {s : List UInt8} {sig : Signature}
    (h : (read rule eof (scanFrom c s).body).signature? = some sig) :
    ∃ (sp : List UInt8) (hd : HeaderText) (r : List UInt8), (∀ b ∈ sp, isSpace b = true) ∧
      hd.WF rule.decl ∧ s = sp ++ (hd.text tb ++ r) ∧
      (rule.wholeLine = true → ∀ b ∈ r, isSpace b = true) := by
  unfold read at h
  cases ho : opening eof (scanFrom c s).body with
  | error e => simp [ho, Outcome.signature?] at h
  | ok x =>
    obtain ⟨ret, name, rest₁⟩ := x
    obtain ⟨sp, gap, nm, c₁, s₁, hsp, hret, hgap_ne, hgap, hname, -, hs, hrest₁⟩ :=
      exists_of_opening ho
    rw [ho] at h
    cases hp : paramList eof rule.decl rest₁ with
    | mk Ds after =>
      cases after with
      | error e => simp [hp, Outcome.signature?] at h
      | ok rest₂ =>
        cases hc : closing eof rule rest₂ with
        | error e => simp [hp, hc, Outcome.signature?, Except.map] at h
        | ok rest₃ =>
          -- the list, then the `)` and the trailer, each read back to its text
          obtain ⟨rest', hadj, hexp, hwhole⟩ := exists_of_closing hk hc
          rw [hrest₁] at hp
          obtain ⟨p, c₂, s₂, hpw, hs₁, hrest'⟩ := exists_paramsText_of_paramList hp hadj
          rw [hrest'] at hexp
          obtain ⟨c₃, close, r, hclose, hs₂, hrest₃⟩ := eq_of_expect htb hexp
          refine ⟨sp, ⟨ret, gap, nm, p, close⟩, r, hsp,
            ⟨hret, hgap_ne, hgap, hname, hpw, hclose⟩, ?_, ?_⟩
          · simp [hs, hs₁, hs₂, HeaderText.text, HeaderText.afterReturn]
          · intro hw
            exact (body_eq_nil_iff c₃ r).1 (hrest₃ ▸ hwhole hw)

end Backward

end Header

end ShaderHeaders
