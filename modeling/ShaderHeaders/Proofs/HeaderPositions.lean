import ShaderHeaders.Glsl.HeaderParser
import ShaderHeaders.Proofs.HeaderReading
import ShaderHeaders.Proofs.Lexemes

/-!
# Reading a header by positions stays inside the token array

`Header.Parser` reads a header by positions in the whole token array of a text, end token
included; `Header.read` reads it from the list of tokens before the end token. This module shows
that on the tokens of any text the two readings agree step by step: a parser at position `i`
reads what the list reading reads of the tokens from `i` on (`Parser.At`). Since no token before
the end is an end token, the parser never moves past the end token, and every position it reads
lies in the array.

* `Parser.Stream`: what the reading needs of the tokens: no end token before the last, the end
  token last, and every type token naming a type; the lexer's tokens are such a stream
  (`Parser.stream_scanFrom`).
* `Parser.RunsTo` and `Parser.Answers`: a reading returns, gives a value, and leaves the parser
  at the front of given tokens with a given layout problem, never before where it started; they
  compose along `>>=` (`RunsTo.bind`, `Answers.bind`).
* One lemma per reading function, from `peek` and `advance` up to `opening`, `argList` and
  `closing`, each matching the list reading of the same part of a header; `header_answers`
  assembles them.
* `Parser.header_scan`: on the tokens of any text, from any position of the array and under
  any rule, reading a header by positions returns, ends at a position between the start and
  the end token, and answers what `Header.read` answers on the tokens from the start on, with
  the same first layout problem.
-/

namespace ShaderHeaders

namespace Header

namespace Parser

/-- The tokens of a text as the parser reads them: `body`, none of which is an end token and
each type token of which names a type, then the end token `eof`. -/
structure Stream (body : List Token) (eof : Token) : Prop where
  kind_ne : ∀ t ∈ body, t.kind ≠ .eof
  typed : ∀ t ∈ body, t.kind = .type → t.typeName?.isSome
  eof_kind : eof.kind = .eof

/-- The parser reads the stream `body ++ [eof]` and stands at the front of `rest`. -/
structure At (body : List Token) (eof : Token) (p : Parser) (rest : List Token) : Prop where
  tokens : p.tokens = (body ++ [eof]).toArray
  le : p.current ≤ body.length
  rest_eq : rest = body.drop p.current

section Steps

variable {body : List Token} {eof : Token} {p : Parser} {rest : List Token}

theorem run_bind_of {α β : Type} {x : StateT Parser Option α} {f : α → StateT Parser Option β}
    {p p' : Parser} {a : α} (hx : x.run p = some (a, p')) : (x >>= f).run p = (f a).run p' := by
  rw [StateT.run_bind, hx]
  rfl

theorem run_pure {α : Type} (a : α) (p : Parser) :
    (pure a : StateT Parser Option α).run p = some (a, p) := rfl

theorem get_run (p : Parser) : (get : StateT Parser Option Parser).run p = some (p, p) := rfl

/-- Within the stream, the array holds at `i` the token that the list reading looks at after
`i` tokens. -/
theorem getElem?_stream {i : Nat} (hi : i ≤ body.length) :
    (body ++ [eof]).toArray[i]? = some (Header.peek eof (body.drop i)) := by
  rw [List.getElem?_toArray]
  rcases Nat.lt_or_eq_of_le hi with hlt | rfl
  · rw [List.getElem?_append_left hlt, List.getElem?_eq_getElem hlt,
      List.drop_eq_getElem_cons hlt]
    rfl
  · rw [List.getElem?_append_right (Nat.le_refl _), Nat.sub_self, List.drop_length]
    rfl

theorem tokenAt_run (h : At body eof p rest) {i : Nat} (hi : i ≤ body.length) :
    (tokenAt i).run p = some (Header.peek eof (body.drop i), p) := by
  rw [tokenAt, run_bind_of (get_run p), h.tokens, getElem?_stream hi]
  rfl

theorem peek_run (h : At body eof p rest) : peek.run p = some (Header.peek eof rest, p) := by
  rw [peek, run_bind_of (get_run p), tokenAt_run h h.le, ← h.rest_eq]

theorem At.next {t : Token} {r : List Token} (h : At body eof p (t :: r)) :
    At body eof { p with current := p.current + 1 } r where
  tokens := h.tokens
  le := by
    have hlen := congrArg List.length h.rest_eq
    simp only [List.length_cons, List.length_drop] at hlen
    show p.current + 1 ≤ body.length
    omega
  rest_eq := by
    show r = body.drop (p.current + 1)
    rw [← List.tail_drop, ← h.rest_eq, List.tail_cons]

theorem mem_of_at_cons {t : Token} {r : List Token} (h : At body eof p (t :: r)) : t ∈ body :=
  List.mem_of_mem_drop (by rw [← h.rest_eq]; exact List.mem_cons_self ..)

variable (body eof) in
/-- A run of `x` from `p` gives `a` and leaves the parser, with the layout problem `L`, at the
front of `r`, not before the position it started from. -/
def RunsTo {α : Type} (x : StateT Parser Option α) (p : Parser) (a : α) (r : List Token)
    (L : Option ParseError) : Prop :=
  ∃ p', x.run p = some (a, p') ∧ At body eof p' r ∧ p.current ≤ p'.current ∧ p'.layout = L

theorem RunsTo.pure {α : Type} (h : At body eof p rest) (a : α) :
    RunsTo body eof (pure a) p a rest p.layout :=
  ⟨p, rfl, h, Nat.le_refl _, rfl⟩

theorem RunsTo.bind {α β : Type} {x : StateT Parser Option α} {f : α → StateT Parser Option β}
    {a : α} {b : β} {r r' : List Token} {L L' : Option ParseError}
    (hx : RunsTo body eof x p a r L)
    (hf : ∀ p', At body eof p' r → p'.layout = L → RunsTo body eof (f a) p' b r' L') :
    RunsTo body eof (x >>= f) p b r' L' := by
  obtain ⟨p₁, hrun₁, hat₁, hle₁, hL₁⟩ := hx
  obtain ⟨p₂, hrun₂, hat₂, hle₂, hL₂⟩ := hf p₁ hat₁ hL₁
  exact ⟨p₂, by rw [run_bind_of hrun₁, hrun₂], hat₂, Nat.le_trans hle₁ hle₂, hL₂⟩

/-- A step whose run is known, then a run. -/
theorem RunsTo.of_run {α β : Type} {x : StateT Parser Option α} {f : α → StateT Parser Option β}
    {a : α} {b : β} {p' : Parser} {r : List Token} {L : Option ParseError}
    (hx : x.run p = some (a, p')) (hle : p.current ≤ p'.current)
    (hf : RunsTo body eof (f a) p' b r L) : RunsTo body eof (x >>= f) p b r L := by
  obtain ⟨p₂, hrun₂, hat₂, hle₂, hL₂⟩ := hf
  exact ⟨p₂, by rw [run_bind_of hx, hrun₂], hat₂, Nat.le_trans hle hle₂, hL₂⟩

theorem get_runsTo (h : At body eof p rest) : RunsTo body eof get p p rest p.layout :=
  ⟨p, rfl, h, Nat.le_refl _, rfl⟩

theorem peek_runsTo (h : At body eof p rest) :
    RunsTo body eof peek p (Header.peek eof rest) rest p.layout :=
  ⟨p, peek_run h, h, Nat.le_refl _, rfl⟩

/-- A token before the end token is no end token. -/
theorem kind_beq_eof (hs : Stream body eof) {t : Token} {r : List Token}
    (h : At body eof p (t :: r)) : (t.kind == .eof) = false := by
  simpa using hs.kind_ne t (mem_of_at_cons h)

theorem isAtEnd_runsTo (hs : Stream body eof) (h : At body eof p rest) :
    RunsTo body eof isAtEnd p rest.isEmpty rest p.layout := by
  refine (peek_runsTo h).bind fun p' hp' hL => ?_
  cases rest with
  | nil => simpa [Header.peek, hs.eof_kind, hL] using RunsTo.pure hp' true
  | cons t r => simpa [Header.peek, kind_beq_eof hs h, hL] using RunsTo.pure hp' false

/-- `check k` holds where the list reading meets a token of kind `k`. -/
theorem check_runsTo (hs : Stream body eof) (h : At body eof p rest) (k : Option TokenKind) :
    RunsTo body eof (check k) p (rest.head?.any fun t => some t.kind == k) rest p.layout := by
  refine (isAtEnd_runsTo hs h).bind fun p₁ hp₁ hL₁ => ?_
  cases rest with
  | nil => simpa [hL₁] using RunsTo.pure hp₁ false
  | cons t r =>
    refine (peek_runsTo hp₁).bind fun p₂ hp₂ hL₂ => ?_
    simpa [Header.peek, hL₁, hL₂] using RunsTo.pure hp₂ (some t.kind == k)

theorem tokenAt_runsTo (h : At body eof p rest) {i : Nat} (hi : i ≤ body.length) :
    RunsTo body eof (tokenAt i) p (Header.peek eof (body.drop i)) rest p.layout :=
  ⟨p, tokenAt_run h hi, h, Nat.le_refl _, rfl⟩

theorem previous_runsTo (h : At body eof p rest) (hpos : p.current ≠ 0) :
    RunsTo body eof previous p (Header.peek eof (body.drop (p.current - 1))) rest p.layout := by
  refine (get_runsTo h).bind fun p' hp' hL => ?_
  simpa [hpos, hL] using tokenAt_runsTo hp' (Nat.le_trans (Nat.sub_le _ 1) h.le)

/-- Moving past a token other than the end token gives that token. -/
theorem advance_runsTo (hs : Stream body eof) {t : Token} {r : List Token}
    (h : At body eof p (t :: r)) : RunsTo body eof advance p t r p.layout := by
  refine (isAtEnd_runsTo hs h).bind fun p₁ hp₁ hL₁ => ?_
  -- after the move, the token before the parser is the one it looked at
  have hmove : StateT.run (m := Option)
      (modify fun q : Parser => { q with current := q.current + 1 }) p₁ =
      some ((), { p₁ with current := p₁.current + 1 }) := rfl
  have hprev := previous_runsTo hp₁.next (Nat.succ_ne_zero _)
  simp only [Nat.add_sub_cancel, ← hp₁.rest_eq, Header.peek, List.headD_cons] at hprev
  rw [← hL₁]
  simpa using RunsTo.of_run (f := fun _ => previous) hmove (Nat.le_succ _) hprev

theorem peekNext_cons (t : Token) (r : List Token) :
    Header.peekNext eof (t :: r) = Header.peek eof r := by
  cases r <;> rfl

theorem peekNext_runsTo (hs : Stream body eof) (h : At body eof p rest) :
    RunsTo body eof peekNext p (Header.peekNext eof rest) rest p.layout := by
  refine (isAtEnd_runsTo hs h).bind fun p₁ hp₁ hL₁ => ?_
  cases rest with
  | nil => simpa [hL₁, Header.peekNext, Header.peek] using peek_runsTo hp₁
  | cons t r =>
    have hr : body.drop (p₁.current + 1) = r := hp₁.next.rest_eq.symm
    simp only [List.isEmpty_cons, Bool.false_eq_true, if_false]
    refine (get_runsTo hp₁).bind fun p₂ hp₂ hL₂ => ?_
    simpa [hr, hL₁, hL₂, peekNext_cons] using tokenAt_runsTo hp₂ hp₁.next.le

theorem errorf_runsTo (h : At body eof p rest) (q : HeaderProblem) :
    RunsTo body eof (errorf q) p ⟨q, Header.peek eof rest⟩ rest p.layout := by
  refine (peek_runsTo h).bind fun p' hp' hL => ?_
  simpa [hL] using RunsTo.pure hp' (⟨q, Header.peek eof rest⟩ : ParseError)

/-- Failing at the token looked at, with a problem that names its kind. -/
theorem errorAtKind_runsTo {γ : Type} (h : At body eof p rest) (P : TokenKind → HeaderProblem)
    (wrap : ParseError → γ) :
    RunsTo body eof (peek >>= fun t => errorf (P t.kind) >>= fun e => pure (wrap e)) p
      (wrap ⟨P (Header.peek eof rest).kind, Header.peek eof rest⟩) rest p.layout := by
  refine (peek_runsTo h).bind fun p₁ hp₁ hL₁ => ?_
  refine (errorf_runsTo hp₁ _).bind fun p₂ hp₂ hL₂ => ?_
  simpa [hL₁, hL₂] using RunsTo.pure hp₂ _

theorem expectErr_ok (hs : Stream body eof) (h : At body eof p rest) {k : Option TokenKind}
    {r : List Token} (hx : Header.expect eof k rest = .ok r) :
    RunsTo body eof (expectErr k) p none r p.layout := by
  obtain ⟨t, rest', rfl⟩ := Header.exists_cons_of_ok (by simp [Header.expect, Header.fail]) hx
  have hk : some t.kind = k := by
    by_contra hk
    simp [Header.expect, hk, Header.fail] at hx
  simp only [Header.expect, hk, if_true, Except.ok.injEq] at hx
  subst hx hk
  refine (check_runsTo hs h _).bind fun p₁ hp₁ hL₁ => ?_
  simp only [List.head?_cons, Option.any_some, beq_self_eq_true, if_true]
  refine (advance_runsTo hs hp₁).bind fun p₂ hp₂ hL₂ => ?_
  simpa [hL₁, hL₂] using RunsTo.pure hp₂ none

theorem expectErr_error (hs : Stream body eof) (h : At body eof p rest) {k : Option TokenKind}
    {e : ParseError} (hx : Header.expect eof k rest = .error e) :
    RunsTo body eof (expectErr k) p (some e) rest p.layout := by
  -- the list reading fails exactly where the check fails, at the token the parser looks at
  obtain ⟨hno, rfl⟩ : (rest.head?.any fun t => some t.kind == k) = false ∧
      e = ⟨.missing k (Header.peek eof rest).kind, Header.peek eof rest⟩ := by
    cases rest with
    | nil =>
      simp only [Header.expect, Header.fail, Except.error.injEq] at hx
      exact ⟨rfl, hx.symm⟩
    | cons t r =>
      by_cases hk : some t.kind = k
      · simp [Header.expect, hk] at hx
      · simp only [Header.expect, hk, if_false, Header.fail, Except.error.injEq] at hx
        simpa [Header.peek, hk] using hx.symm
  refine (check_runsTo hs h k).bind fun p₁ hp₁ hL₁ => ?_
  rw [hno, if_neg Bool.false_ne_true]
  refine (peek_runsTo hp₁).bind fun p₂ hp₂ hL₂ => ?_
  refine (errorf_runsTo hp₂ _).bind fun p₃ hp₃ hL₃ => ?_
  simpa [hL₁, hL₂, hL₃] using RunsTo.pure hp₃ _

/-- Where no token of kind `k` with blanks before it comes next, taking a touching token of
kind `k` is taking a token of kind `k`. -/
theorem expectAdjacent_eq_expect {k : TokenKind}
    (hno : (rest.head?.any fun t => t.kind == k && !t.adjacent) = false) :
    Header.expectAdjacent eof k rest = Header.expect eof (some k) rest := by
  cases rest with
  | nil => rfl
  | cons t r =>
    by_cases hk : t.kind = k
    · have ha : t.adjacent = true := by simpa [hk] using hno
      simp [Header.expectAdjacent, Header.expect, hk, ha]
    · simp [Header.expectAdjacent, Header.expect, hk]

theorem expectAdjacent_ok (hs : Stream body eof) (h : At body eof p rest) {k : TokenKind}
    {r : List Token} (hx : Header.expectAdjacent eof k rest = .ok r) :
    RunsTo body eof (expectAdjacent k) p none r p.layout := by
  obtain ⟨t, rest', rfl⟩ :=
    Header.exists_cons_of_ok (by simp [Header.expectAdjacent, Header.fail]) hx
  have hk : t.kind = k := by
    by_contra hk
    simp [Header.expectAdjacent, hk, Header.fail] at hx
  have ha : t.adjacent = true := by
    by_contra ha
    simp [Header.expectAdjacent, hk, ha, Header.fail] at hx
  have hexp : Header.expect eof (some k) (t :: rest') = .ok r := by
    rw [← expectAdjacent_eq_expect (by simp [ha])]
    exact hx
  refine (check_runsTo hs h _).bind fun p₁ hp₁ hL₁ => ?_
  simp only [List.head?_cons, Option.any_some, hk, beq_self_eq_true, if_true]
  refine (peek_runsTo hp₁).bind fun p₂ hp₂ hL₂ => ?_
  simpa [Header.peek, ha, hL₁, hL₂] using expectErr_ok hs hp₂ hexp

theorem expectAdjacent_error (hs : Stream body eof) (h : At body eof p rest) {k : TokenKind}
    {e : ParseError} (hx : Header.expectAdjacent eof k rest = .error e) :
    RunsTo body eof (expectAdjacent k) p (some e) rest p.layout := by
  refine (check_runsTo hs h _).bind fun p₁ hp₁ hL₁ => ?_
  by_cases hbad : (rest.head?.any fun t => t.kind == k && !t.adjacent) = true
  · -- a token of kind `k` with blanks before it
    obtain ⟨t, r, rfl⟩ : ∃ t r, rest = t :: r := by
      cases rest with
      | nil => simp at hbad
      | cons t r => exact ⟨t, r, rfl⟩
    simp only [List.head?_cons, Option.any_some, Bool.and_eq_true, beq_iff_eq,
      Bool.not_eq_true'] at hbad
    have he : e = ⟨.spaceBefore k, t⟩ := by
      simp only [Header.expectAdjacent, hbad, if_true, Bool.false_eq_true, if_false, Header.fail,
        Except.error.injEq] at hx
      exact hx.symm
    subst he
    simp only [List.head?_cons, Option.any_some, hbad.1, beq_self_eq_true, if_true]
    refine (peek_runsTo hp₁).bind fun p₂ hp₂ hL₂ => ?_
    simp only [Header.peek, List.headD_cons, hbad.2, Bool.not_false, if_true]
    refine (errorf_runsTo hp₂ _).bind fun p₃ hp₃ hL₃ => ?_
    simpa [Header.peek, hL₁, hL₂, hL₃] using RunsTo.pure hp₃ _
  · -- otherwise the reading is that of `expectErr`, after the check and a look at the token
    have hexp : Header.expect eof (some k) rest = .error e := by
      rw [← expectAdjacent_eq_expect (by simpa using hbad)]
      exact hx
    simp only
    split
    · rename_i hcheck
      have ha : (Header.peek eof rest).adjacent = true := by
        cases rest with
        | nil => simp at hcheck
        | cons t r => simp_all [Header.peek]
      refine (peek_runsTo hp₁).bind fun p₂ hp₂ hL₂ => ?_
      simpa [ha, hL₁, hL₂] using expectErr_error hs hp₂ hexp
    · simpa [hL₁] using expectErr_error hs hp₁ hexp

/-- How the list reading of one declaration succeeds: a token naming a type, then a name, or,
where the style lets it be left out, no name. -/
theorem declaration_ok_cases {style : DeclStyle} {d : Declaration} {r : List Token}
    (hx : Header.declaration eof style rest = .ok (d, r)) :
    ∃ t ty rest', rest = t :: rest' ∧ t.typeName? = some ty ∧
      ((∃ n, rest' = n :: r ∧ n.kind = .ident ∧ d = ⟨t, ty, some n⟩) ∨
        ((rest'.head?.any fun n => n.kind == .ident) = false ∧ style = .anonymous ∧ r = rest' ∧
          d = ⟨t, ty, none⟩)) := by
  obtain ⟨t, rest', rfl⟩ :=
    Header.exists_cons_of_ok (by simp [Header.declaration, Header.fail]) hx
  obtain ⟨ty, hty⟩ : ∃ ty, t.typeName? = some ty := by
    cases hty : t.typeName? with
    | none => simp [Header.declaration, hty, Header.fail] at hx
    | some ty => exact ⟨ty, rfl⟩
  refine ⟨t, ty, rest', rfl, hty, ?_⟩
  cases rest' with
  | nil =>
    by_cases hst : style = .anonymous
    · simp only [Header.declaration, hty, hst, if_true, Except.ok.injEq, Prod.mk.injEq] at hx
      exact .inr ⟨rfl, hst, hx.2.symm, hx.1.symm⟩
    · simp [Header.declaration, hty, hst, Header.fail] at hx
  | cons n rest'' =>
    by_cases hn : n.kind = .ident
    · simp only [Header.declaration, hty, hn, if_true, Except.ok.injEq, Prod.mk.injEq] at hx
      exact .inl ⟨n, by rw [hx.2], hn, hx.1.symm⟩
    · by_cases hst : style = .anonymous
      · simp only [Header.declaration, hty, hn, hst, if_true, if_false, Except.ok.injEq,
          Prod.mk.injEq] at hx
        exact .inr ⟨by simpa using hn, hst, hx.2.symm, hx.1.symm⟩
      · simp [Header.declaration, hty, hn, hst, Header.fail] at hx

/-- How the list reading of one declaration fails: no token naming a type, or, where the style
asks for a name, no name after it. -/
theorem declaration_error_cases {style : DeclStyle} {e : ParseError}
    (hx : Header.declaration eof style rest = .error e) :
    ((rest.head?.any fun t => t.typeName?.isSome) = false ∧
        e = ⟨.noParamType (Header.peek eof rest).kind, Header.peek eof rest⟩) ∨
      ∃ t ty rest', rest = t :: rest' ∧ t.typeName? = some ty ∧
        (rest'.head?.any fun n => n.kind == .ident) = false ∧ style ≠ .anonymous ∧
        e = ⟨.noParamName t.lexeme, Header.peek eof rest'⟩ := by
  cases rest with
  | nil =>
    simp only [Header.declaration, Header.fail, Except.error.injEq] at hx
    exact .inl ⟨rfl, hx.symm⟩
  | cons t rest' =>
    cases hty : t.typeName? with
    | none =>
      simp only [Header.declaration, hty, Header.fail, Except.error.injEq] at hx
      exact .inl ⟨by simp [hty], hx.symm⟩
    | some ty =>
      refine .inr ⟨t, ty, rest', rfl, hty, ?_⟩
      cases rest' with
      | nil =>
        by_cases hst : style = .anonymous
        · simp [Header.declaration, hty, hst] at hx
        · simp only [Header.declaration, hty, hst, if_false, Header.fail,
            Except.error.injEq] at hx
          exact ⟨rfl, hst, hx.symm⟩
      | cons n rest'' =>
        by_cases hn : n.kind = .ident
        · simp [Header.declaration, hty, hn] at hx
        · by_cases hst : style = .anonymous
          · simp [Header.declaration, hty, hn, hst] at hx
          · simp only [Header.declaration, hty, hn, hst, if_false, Header.fail,
              Except.error.injEq] at hx
            exact ⟨by simpa using hn, hst, hx.symm⟩

theorem At.setLayout (h : At body eof p rest) (L : Option ParseError) :
    At body eof { p with layout := L } rest :=
  ⟨h.tokens, h.le, h.rest_eq⟩

theorem modify_layout_run (p : Parser) (L : Option ParseError) :
    StateT.run (m := Option) (modify fun q : Parser => { q with layout := L }) p =
      some ((), { p with layout := L }) := rfl

theorem carried_of_typeName? {t : Token} {ty : TypeName} (hty : t.typeName? = some ty) :
    carried t = ty := by
  simp [carried, hty]

theorem declaration_ok (hs : Stream body eof) (h : At body eof p rest) {style : DeclStyle}
    {d : Declaration} {r : List Token} (hx : Header.declaration eof style rest = .ok (d, r)) :
    RunsTo body eof (declaration style) p (.ok d.toParameter) r (p.layout.or d.layout?) := by
  obtain ⟨t, ty, rest', rfl, hty, hnext⟩ := declaration_ok_cases hx
  have htype : t.kind = .type := (typeName?_eq_some hty).1
  -- the type token is checked and taken
  refine (check_runsTo hs h _).bind fun p₁ hp₁ hL₁ => ?_
  simp only [List.head?_cons, Option.any_some, htype, beq_self_eq_true, Bool.not_true]
  refine (advance_runsTo hs hp₁).bind fun p₂ hp₂ hL₂ => ?_
  refine (check_runsTo hs hp₂ _).bind fun p₃ hp₃ hL₃ => ?_
  rcases hnext with ⟨n, rfl, hn, rfl⟩ | ⟨hno, hst, rfl, rfl⟩
  · -- a name follows: it is taken, and a name not one blank after its type is remembered
    simp only [List.head?_cons, Option.any_some, hn, beq_self_eq_true, Bool.not_true,
      Bool.false_eq_true, if_false]
    refine (advance_runsTo hs hp₃).bind fun p₄ hp₄ hL₄ => ?_
    refine (get_runsTo hp₄).bind fun p₅ hp₅ hL₅ => ?_
    have hparam : Declaration.toParameter ⟨t, ty, some n⟩ = ⟨carried t, Utf8.ascii n.lexeme⟩ := by
      simp [Declaration.toParameter, carried_of_typeName? hty]
    rw [hparam]
    by_cases hsp : n.space = [32]
    · simpa [hsp, Declaration.layout?, hL₁, hL₂, hL₃, hL₄, hL₅] using RunsTo.pure hp₅ _
    · cases hL : p.layout with
      | none =>
        have hcond : (decide (n.space ≠ [32]) && p₄.layout.isNone) = true := by
          simp [hsp, hL, hL₁, hL₂, hL₃, hL₄]
        rw [if_pos hcond]
        have hset := RunsTo.of_run
          (f := fun _ => pure (Except.ok (ε := ParseError) (⟨carried t, Utf8.ascii n.lexeme⟩ : Parameter)))
          (modify_layout_run p₅ (some ⟨.spacing (t.lexeme ++ n.space ++ n.lexeme), n⟩))
          (Nat.le_refl _) (RunsTo.pure (hp₅.setLayout _) _)
        simpa [Declaration.layout?, hsp] using hset
      | some l => simpa [hsp, Declaration.layout?, hL, hL₁, hL₂, hL₃, hL₄, hL₅] using RunsTo.pure hp₅ _
  · -- no name follows, and the style lets it be left out
    have hno' : (r.head?.any fun n => some n.kind == some TokenKind.ident) = false := by
      simpa using hno
    simp only [Bool.not_eq_true', hno', hst, if_true]
    simpa [Declaration.toParameter, Declaration.layout?, carried_of_typeName? hty, hL₁, hL₂,
      hL₃] using RunsTo.pure hp₃ _

theorem declaration_error (hs : Stream body eof) (h : At body eof p rest) {style : DeclStyle}
    {e : ParseError} (hx : Header.declaration eof style rest = .error e) :
    ∃ r, RunsTo body eof (declaration style) p (.error e) r p.layout := by
  rcases declaration_error_cases hx with ⟨hnone, rfl⟩ | ⟨t, ty, rest', rfl, hty, hno, hst, rfl⟩
  · -- no token naming a type: the check fails where the parser stands, since every type
    -- token of the stream names a type
    have hcheck : (rest.head?.any fun t => some t.kind == some TokenKind.type) = false := by
      cases rest with
      | nil => rfl
      | cons t r =>
        have hsome : t.kind = .type → t.typeName?.isSome := hs.typed t (mem_of_at_cons h)
        simp only [List.head?_cons, Option.any_some] at hnone ⊢
        simp_all
    refine ⟨rest, (check_runsTo hs h _).bind fun p₁ hp₁ hL₁ => ?_⟩
    simp only [hcheck, Bool.not_false, if_true]
    refine (peek_runsTo hp₁).bind fun p₂ hp₂ hL₂ => ?_
    refine (errorf_runsTo hp₂ _).bind fun p₃ hp₃ hL₃ => ?_
    simpa [hL₁, hL₂, hL₃] using RunsTo.pure hp₃ _
  · -- a type, but no name where the style asks for one
    have htype : t.kind = .type := (typeName?_eq_some hty).1
    refine ⟨rest', (check_runsTo hs h _).bind fun p₁ hp₁ hL₁ => ?_⟩
    simp only [List.head?_cons, Option.any_some, htype, beq_self_eq_true, Bool.not_true,
      Bool.false_eq_true, if_false]
    refine (advance_runsTo hs hp₁).bind fun p₂ hp₂ hL₂ => ?_
    refine (check_runsTo hs hp₂ _).bind fun p₃ hp₃ hL₃ => ?_
    have hno' : (rest'.head?.any fun n => some n.kind == some TokenKind.ident) = false := by
      simpa using hno
    simp only [hno', Bool.not_false, if_true, hst, if_false]
    refine (errorf_runsTo hp₃ _).bind fun p₄ hp₄ hL₄ => ?_
    simpa [hL₁, hL₂, hL₃, hL₄] using RunsTo.pure hp₄ _

variable (body eof) in
/-- A reading `x` from `p` answers as the list reading answers with `res`: where that gives
`.ok (a, r)`, `x` gives `.ok a` and stands at the front of `r`; where it gives `.error e`, so does
`x`, wherever it stops. Either way the first layout problem ends as `L`. -/
def Answers {α : Type} (x : StateT Parser Option (Except ParseError α)) (p : Parser)
    (res : Except ParseError (α × List Token)) (L : Option ParseError) : Prop :=
  match res with
  | .ok (a, r) => RunsTo body eof x p (.ok a) r L
  | .error e => ∃ r, RunsTo body eof x p (.error e) r L

@[simp] theorem answers_ok {α : Type} {x : StateT Parser Option (Except ParseError α)} {a : α}
    {r : List Token} {L : Option ParseError} :
    Answers body eof x p (.ok (a, r)) L ↔ RunsTo body eof x p (.ok a) r L := Iff.rfl

@[simp] theorem answers_error {α : Type} {x : StateT Parser Option (Except ParseError α)}
    {e : ParseError} {L : Option ParseError} :
    Answers body eof x p (.error e) L ↔ ∃ r, RunsTo body eof x p (.error e) r L := Iff.rfl

/-- A step, then a reading that answers, answers. -/
theorem Answers.bind {α β : Type} {x : StateT Parser Option α}
    {f : α → StateT Parser Option (Except ParseError β)} {a : α} {r : List Token}
    {L₀ L : Option ParseError} {res : Except ParseError (β × List Token)}
    (hx : RunsTo body eof x p a r L₀)
    (hf : ∀ p', At body eof p' r → p'.layout = L₀ → Answers body eof (f a) p' res L) :
    Answers body eof (x >>= f) p res L := by
  cases res with
  | ok v => exact hx.bind hf
  | error e =>
    obtain ⟨p₁, hrun₁, hat₁, hle₁, hL₁⟩ := hx
    obtain ⟨r', p₂, hrun₂, hat₂, hle₂, hL₂⟩ := hf p₁ hat₁ hL₁
    exact ⟨r', p₂, by rw [run_bind_of hrun₁, hrun₂], hat₂, Nat.le_trans hle₁ hle₂, hL₂⟩

theorem findSome?_layout?_cons (d : Declaration) (ds : List Declaration) :
    (d :: ds).findSome? Declaration.layout? = d.layout?.or (ds.findSome? Declaration.layout?) := by
  cases h : d.layout? <;> simp [h]

theorem expectFirstAdjacent_none (h : At body eof p rest) {params : List Parameter}
    (hadj : params = [] → (Header.peek eof rest).adjacent = true) :
    RunsTo body eof (expectFirstAdjacent params) p none rest p.layout := by
  cases params with
  | nil =>
    simp only [expectFirstAdjacent, List.isEmpty_nil, if_true]
    refine (peek_runsTo h).bind fun p₁ hp₁ hL₁ => ?_
    simpa [hadj rfl, hL₁] using RunsTo.pure hp₁ none
  | cons x xs => simpa [expectFirstAdjacent] using RunsTo.pure h none

theorem expectFirstAdjacent_some (h : At body eof p rest)
    (hadj : (Header.peek eof rest).adjacent = false) :
    RunsTo body eof (expectFirstAdjacent []) p (some ⟨.spaceAfterOpen, Header.peek eof rest⟩) rest
      p.layout := by
  simp only [expectFirstAdjacent, List.isEmpty_nil, if_true]
  refine (peek_runsTo h).bind fun p₁ hp₁ hL₁ => ?_
  simp only [hadj, Bool.not_false, if_true]
  refine (errorf_runsTo hp₁ _).bind fun p₂ hp₂ hL₂ => ?_
  simpa [hL₁, hL₂] using RunsTo.pure hp₂ _

/-- The loop over declarations answers as the list reading of declarations, given more rounds
than tokens are left: each round takes at least one token. -/
theorem declarations_answers (hs : Stream body eof) (style : DeclStyle) :
    ∀ (rounds : Nat) (params : List Parameter) (p : Parser) (rest : List Token),
      At body eof p rest → rest.length < rounds →
      (params = [] → (Header.peek eof rest).adjacent = true) →
      Answers body eof (declarations style rounds params) p
        ((Header.declarations eof style rest).2.map fun r =>
          (params ++ (Header.declarations eof style rest).1.map Declaration.toParameter, r))
        (p.layout.or ((Header.declarations eof style rest).1.filterMap Declaration.layout?).head?)
  | 0, _, _, _, _, hlen, _ => absurd hlen (Nat.not_lt_zero _)
  | rounds + 1, params, p, rest, h, hlen, hadj => by
    rw [declarations]
    refine Answers.bind (expectFirstAdjacent_none h hadj) fun p₁ hp₁ hL₁ => ?_
    cases hd : Header.declaration eof style rest with
    | error e =>
      obtain ⟨r, hr⟩ := declaration_error hs hp₁ hd
      rw [Header.declarations_of_error hd]
      refine ⟨r, hr.bind fun p₂ hp₂ hL₂ => ?_⟩
      simpa [hL₁, hL₂] using RunsTo.pure hp₂ _
    | ok v =>
      obtain ⟨d, r⟩ := v
      refine Answers.bind (declaration_ok hs hp₁ hd) fun p₂ hp₂ hL₂ => ?_
      cases r with
      | nil =>
        rw [Header.declarations_of_ok_nil hd]
        refine (check_runsTo hs hp₂ _).bind fun p₃ hp₃ hL₃ => ?_
        simpa [hL₁, hL₂, hL₃] using RunsTo.pure hp₃ _
      | cons c rest'' =>
        rw [Header.declarations_of_ok_cons hd]
        refine Answers.bind (check_runsTo hs hp₂ _) fun p₃ hp₃ hL₃ => ?_
        by_cases hcomma : c.kind = .comma ∧ c.adjacent = true
        · -- a comma touching the declaration: it is taken, and the loop reads on
          rw [if_pos hcomma]
          simp only [List.head?_cons, Option.any_some, hcomma.1, beq_self_eq_true, if_true]
          refine Answers.bind (peek_runsTo hp₃) fun p₄ hp₄ hL₄ => ?_
          simp only [Header.peek, List.headD_cons, hcomma.2, if_true]
          refine Answers.bind (advance_runsTo hs hp₄) fun p₅ hp₅ hL₅ => ?_
          have hlt := Header.declaration_rest_lt eof style rest d (c :: rest'') hd
          simp only [List.length_cons] at hlt
          have ih := declarations_answers hs style rounds (params ++ [d.toParameter]) p₅ rest''
            hp₅ (by omega) (by simp)
          simpa [hL₁, hL₂, hL₃, hL₄, hL₅, findSome?_layout?_cons, Option.or_assoc] using ih
        · -- the declarations end here
          rw [if_neg hcomma]
          by_cases hk : c.kind = .comma
          · have ha : c.adjacent = false := by simpa [hk] using hcomma
            simp only [List.head?_cons, Option.any_some, hk, beq_self_eq_true, if_true]
            refine Answers.bind (peek_runsTo hp₃) fun p₄ hp₄ hL₄ => ?_
            simpa [Except.map, Header.peek, ha, hL₁, hL₂, hL₃, hL₄] using RunsTo.pure hp₄ _
          · simpa [Except.map, hk, hL₁, hL₂, hL₃] using RunsTo.pure hp₃ _

/-- The parameters read with one round per token answer as the list reading of declarations,
where the first declaration touches `(`. -/
theorem parameters_answers (hs : Stream body eof) (h : At body eof p rest) (style : DeclStyle)
    (hadj : (Header.peek eof rest).adjacent = true) :
    Answers body eof (parameters style) p
      ((Header.declarations eof style rest).2.map fun r =>
        ((Header.declarations eof style rest).1.map Declaration.toParameter, r))
      (p.layout.or ((Header.declarations eof style rest).1.filterMap Declaration.layout?).head?) := by
  refine Answers.bind (get_runsTo h) fun p₁ hp₁ hL₁ => ?_
  -- one round per token of the array, so more rounds than tokens left
  have hrounds : rest.length < p.tokens.size := by
    simp only [h.tokens, List.size_toArray, List.length_append, List.length_singleton, h.rest_eq,
      List.length_drop]
    omega
  simpa [hL₁] using declarations_answers hs style _ [] p₁ rest hp₁ hrounds fun _ => hadj

theorem parameters_error (h : At body eof p rest) (style : DeclStyle)
    (hadj : (Header.peek eof rest).adjacent = false) :
    RunsTo body eof (parameters style) p (.error ⟨.spaceAfterOpen, Header.peek eof rest⟩) rest
      p.layout := by
  refine (get_runsTo h).bind fun p₁ hp₁ hL₁ => ?_
  have hsize : p.tokens.size = body.length + 1 := by simp [h.tokens]
  rw [hsize, declarations]
  refine (expectFirstAdjacent_some hp₁ hadj).bind fun p₂ hp₂ hL₂ => ?_
  simpa [hL₁, hL₂] using RunsTo.pure hp₂ _

/-- In the stream, the token the list reading looks at names `void` just where it is a type
token that carries `void`. -/
theorem typeName?_peek_eq_void (hs : Stream body eof) (h : At body eof p rest) :
    (Header.peek eof rest).typeName? = some .void ↔
      (Header.peek eof rest).kind = .type ∧ carried (Header.peek eof rest) = .void := by
  constructor
  · intro hv
    exact ⟨(typeName?_eq_some hv).1, carried_of_typeName? hv⟩
  · rintro ⟨htype, hcarried⟩
    have hsome : (Header.peek eof rest).typeName?.isSome := by
      cases rest with
      | nil => simp [Header.peek, hs.eof_kind] at htype
      | cons t r => exact hs.typed t (mem_of_at_cons h) htype
    obtain ⟨ty, hty⟩ := Option.isSome_iff_exists.1 hsome
    rw [hty, ← carried_of_typeName? hty, hcarried]

theorem checkVoidArgs_runsTo (hs : Stream body eof) (h : At body eof p rest) :
    RunsTo body eof checkVoidArgs p (Header.voidList eof rest) rest p.layout := by
  have hvoid := typeName?_peek_eq_void hs h
  refine (peek_runsTo h).bind fun p₁ hp₁ hL₁ => ?_
  by_cases hv : (Header.peek eof rest).typeName? = some .void ∧
      (Header.peek eof rest).adjacent = true
  · -- a touching `void`: whether a touching `)` follows decides
    obtain ⟨htype, hcarried⟩ := hvoid.1 hv.1
    simp only [htype, hcarried, hv.2, ne_eq, not_true_eq_false, decide_false, Bool.or_false,
      Bool.not_true, Bool.false_eq_true, if_false]
    refine (peekNext_runsTo hs hp₁).bind fun p₂ hp₂ hL₂ => ?_
    simpa [Header.voidList, hv.1, hv.2, hL₁, hL₂] using RunsTo.pure hp₂ _
  · -- no touching `void`: the list is not `void)`, and the parser looks no further
    have hvl : Header.voidList eof rest = false := by
      by_cases hty : (Header.peek eof rest).typeName? = some .void
      · have ha : (Header.peek eof rest).adjacent = false := by simpa [hty] using hv
        simp [Header.voidList, hty, ha]
      · simp [Header.voidList, hty]
    rw [hvoid] at hv
    rw [if_pos (by simp only [Bool.or_eq_true, decide_eq_true_eq, Bool.not_eq_true']; grind)]
    simpa [hvl, hL₁] using RunsTo.pure hp₁ false

/-- Checking for a kind other than the end's asks the kind of the token the list reading looks
at. -/
theorem check_eq_peek_kind (hs : Stream body eof) {k : TokenKind} (hk : k ≠ .eof) :
    (rest.head?.any fun t => some t.kind == some k) = ((Header.peek eof rest).kind == k) := by
  cases rest with
  | nil => simp [Header.peek, hs.eof_kind, Ne.symm hk]
  | cons t r => simp [Header.peek]

/-- Only a token before the end token has a kind other than the end's. -/
theorem exists_cons_of_peek_kind (hs : Stream body eof) {k : TokenKind}
    (hk : (Header.peek eof rest).kind = k) (hne : k ≠ .eof) : ∃ t r, rest = t :: r := by
  cases rest with
  | nil => exact absurd (hk.symm.trans hs.eof_kind) hne
  | cons t r => exact ⟨t, r, rfl⟩

theorem argList_answers (hs : Stream body eof) (h : At body eof p rest) (style : DeclStyle) :
    Answers body eof (argList style) p
      ((Header.paramList eof style rest).2.map fun r =>
        ((Header.paramList eof style rest).1.map Declaration.toParameter, r))
      (p.layout.or ((Header.paramList eof style rest).1.filterMap Declaration.layout?).head?) := by
  refine Answers.bind (checkVoidArgs_runsTo hs h) fun p₁ hp₁ hL₁ => ?_
  by_cases hv : Header.voidList eof rest = true
  · -- `void)`: the `void` is taken
    have htype : (Header.peek eof rest).kind = .type := by
      simp only [Header.voidList, Bool.and_eq_true, beq_iff_eq] at hv
      exact (typeName?_eq_some hv.1.1.1).1
    obtain ⟨t, r, rfl⟩ := exists_cons_of_peek_kind hs htype (by decide)
    simp only [Header.paramList, hv, if_true]
    refine Answers.bind (advance_runsTo hs hp₁) fun p₂ hp₂ hL₂ => ?_
    simpa [Except.map, hL₁, hL₂] using RunsTo.pure hp₂ _
  · simp only [Header.paramList, hv, Bool.false_eq_true, if_false]
    refine Answers.bind (check_runsTo hs hp₁ _) fun p₂ hp₂ hL₂ => ?_
    rw [check_eq_peek_kind hs (by decide)]
    by_cases ha : (Header.peek eof rest).adjacent = true
    · by_cases hclose : (Header.peek eof rest).kind = .closeParen
      · -- `()`: no parameters
        simp only [hclose, ha, beq_self_eq_true, decide_true, Bool.and_self, if_true]
        refine Answers.bind (peek_runsTo hp₂) fun p₃ hp₃ hL₃ => ?_
        simpa [Except.map, ha, hL₁, hL₂, hL₃] using RunsTo.pure hp₃ _
      · -- declarations, the first of them touching `(`
        simpa [hclose, ha, hL₁, hL₂] using parameters_answers hs hp₂ style ha
    · -- blanks after `(`: the declarations fail at once
      have hna : (Header.peek eof rest).adjacent = false := by simpa using ha
      by_cases hclose : (Header.peek eof rest).kind = .closeParen
      · simp only [hclose, hna, beq_self_eq_true, if_true]
        refine Answers.bind (peek_runsTo hp₂) fun p₃ hp₃ hL₃ => ?_
        have hpar := parameters_error hp₃ style hna
        rw [hL₃, hL₂, hL₁] at hpar
        simpa [Header.fail, hna] using ⟨rest, hpar⟩
      · have hpar := parameters_error hp₂ style hna
        rw [hL₂, hL₁] at hpar
        simpa [Header.fail, hclose, hna] using ⟨rest, hpar⟩

/-- In the stream, a type token looked at names a type. -/
theorem isSome_typeName?_peek (hs : Stream body eof) (h : At body eof p rest)
    (hk : (Header.peek eof rest).kind = .type) : (Header.peek eof rest).typeName?.isSome := by
  cases rest with
  | nil => simp [Header.peek, hs.eof_kind] at hk
  | cons t r => exact hs.typed t (mem_of_at_cons h) hk

theorem opening_answers (hs : Stream body eof) (h : At body eof p rest) :
    Answers body eof opening p
      ((Header.opening eof rest).map fun v => ((v.1, v.2.1), v.2.2)) p.layout := by
  refine Answers.bind (check_runsTo hs h _) fun p₁ hp₁ hL₁ => ?_
  rw [check_eq_peek_kind hs (by decide)]
  cases hty : (Header.peek eof rest).typeName? with
  | none =>
    -- no return type
    have hk : (Header.peek eof rest).kind ≠ .type := fun hk => by
      simpa [hty] using isSome_typeName?_peek hs h hk
    have hres : Header.opening eof rest =
        Header.fail eof rest (.noReturnType (Header.peek eof rest).kind) := by
      cases rest with
      | nil => rfl
      | cons t r =>
        simp only [Header.peek, List.headD_cons] at hty
        simp [Header.opening, Header.peek, hty]
    have hb : ((Header.peek eof rest).kind == .type) = false := by simpa using hk
    rw [hb, Bool.not_false, if_pos rfl, hres]
    exact answers_error.2
      ⟨rest, by simpa [hL₁] using errorAtKind_runsTo hp₁ HeaderProblem.noReturnType Except.error⟩
  | some ty =>
    -- the return type is taken
    have htype : (Header.peek eof rest).kind = .type := (typeName?_eq_some hty).1
    obtain ⟨t, rest', rfl⟩ := exists_cons_of_peek_kind hs htype (by decide)
    simp only [Header.peek, List.headD_cons] at hty htype
    simp only [Header.peek, List.headD_cons, htype, beq_self_eq_true, Bool.not_true,
      Bool.false_eq_true, if_false]
    refine Answers.bind (advance_runsTo hs hp₁) fun p₂ hp₂ hL₂ => ?_
    refine Answers.bind (check_runsTo hs hp₂ _) fun p₃ hp₃ hL₃ => ?_
    rw [check_eq_peek_kind hs (by decide)]
    by_cases hname : (Header.peek eof rest').kind = .ident ∧
        (Header.peek eof rest').adjacent = false
    · -- a name with blanks before it: it is taken, then a touching `(`
      obtain ⟨n, rest'', rfl⟩ := exists_cons_of_peek_kind hs hname.1 (by decide)
      simp only [Header.peek, List.headD_cons] at hname
      simp only [Header.peek, List.headD_cons, hname.1, beq_self_eq_true, Bool.not_true,
        Bool.false_eq_true, if_false]
      refine Answers.bind (peek_runsTo hp₃) fun p₄ hp₄ hL₄ => ?_
      simp only [Header.peek, List.headD_cons, hname.2, Bool.false_eq_true, if_false]
      refine Answers.bind (advance_runsTo hs hp₄) fun p₅ hp₅ hL₅ => ?_
      have hopen : Header.opening eof (t :: n :: rest'') =
          (Header.expectAdjacent eof .openParen rest'').map fun r => (ty, Utf8.ascii n.lexeme, r) := by
        simp [Header.opening, hty, hname.1, hname.2]
      rw [hopen]
      cases hx : Header.expectAdjacent eof .openParen rest'' with
      | error e =>
        refine Answers.bind (expectAdjacent_error hs hp₅ hx) fun p₆ hp₆ hL₆ => ?_
        exact answers_error.2 ⟨rest'', by
          simpa [hL₁, hL₂, hL₃, hL₄, hL₅, hL₆] using RunsTo.pure hp₆ (Except.error
            (α := TypeName × String) e)⟩
      | ok r =>
        refine Answers.bind (expectAdjacent_ok hs hp₅ hx) fun p₆ hp₆ hL₆ => ?_
        simpa [Except.map, carried_of_typeName? hty, hL₁, hL₂, hL₃, hL₄, hL₅, hL₆] using
          RunsTo.pure hp₆ _
    · -- no name, or one touching the return type
      have hres : Header.opening eof (t :: rest') =
          Header.fail eof rest' (.noName (Header.peek eof rest').kind) := by
        cases rest' with
        | nil => simp [Header.opening, hty, Header.peek]
        | cons n r =>
          simp only [Header.peek, List.headD_cons] at hname ⊢
          simp [Header.opening, hty, hname]
      rw [hres]
      have hfail := errorAtKind_runsTo hp₃ HeaderProblem.noName
        (Except.error (α := TypeName × String))
      rw [hL₃, hL₂, hL₁] at hfail
      by_cases hk : (Header.peek eof rest').kind = .ident
      · -- a name touching the return type
        have ha : (Header.peek eof rest').adjacent = true := by simpa [hk] using hname
        simp only [hk, beq_self_eq_true, Bool.not_true, Bool.false_eq_true, if_false]
        refine Answers.bind (peek_runsTo hp₃) fun p₄ hp₄ hL₄ => ?_
        simp only [ha, if_true]
        have hfail₄ := errorAtKind_runsTo hp₄ HeaderProblem.noName
          (Except.error (α := TypeName × String))
        rw [hL₄, hL₃, hL₂, hL₁, hk] at hfail₄
        exact answers_error.2 ⟨rest', hfail₄⟩
      · -- no name
        have hb : ((Header.peek eof rest').kind == .ident) = false := by simpa using hk
        rw [hb, Bool.not_false, if_pos rfl]
        exact answers_error.2 ⟨rest', hfail⟩

theorem closing_ok (hs : Stream body eof) (h : At body eof p rest) {rule : HeaderRule}
    {r : List Token} (hx : Header.closing eof rule rest = .ok r) :
    RunsTo body eof (closing rule) p none r p.layout := by
  cases h₁ : Header.expectAdjacent eof .closeParen rest with
  | error e => simp [Header.closing, h₁, bind, Except.bind] at hx
  | ok r₁ =>
    cases h₂ : Header.expect eof rule.trailer r₁ with
    | error e => simp [Header.closing, h₁, h₂, bind, Except.bind] at hx
    | ok r₂ =>
      simp only [Header.closing, h₁, h₂, bind, Except.bind] at hx
      refine (expectAdjacent_ok hs h h₁).bind fun p₁ hp₁ hL₁ => ?_
      refine (expectErr_ok hs hp₁ h₂).bind fun p₂ hp₂ hL₂ => ?_
      -- after the trailer: under a whole-line rule, the end
      cases r₂ with
      | nil =>
        obtain rfl : r = [] := by simpa [pure, Except.pure] using hx.symm
        by_cases hw : rule.wholeLine = true
        · simp only [hw, if_true]
          refine (isAtEnd_runsTo hs hp₂).bind fun p₃ hp₃ hL₃ => ?_
          simpa [hL₁, hL₂, hL₃] using RunsTo.pure hp₃ none
        · simpa [hw, hL₁, hL₂] using RunsTo.pure hp₂ none
      | cons t r₃ =>
        have hw : rule.wholeLine = false := by
          cases hw : rule.wholeLine
          · rfl
          · simp [hw, Header.fail] at hx
        obtain rfl : r = t :: r₃ := by simpa [hw, pure, Except.pure] using hx.symm
        simpa [hw, hL₁, hL₂] using RunsTo.pure hp₂ none

theorem closing_error (hs : Stream body eof) (h : At body eof p rest) {rule : HeaderRule}
    {e : ParseError} (hx : Header.closing eof rule rest = .error e) :
    ∃ r, RunsTo body eof (closing rule) p (some e) r p.layout := by
  cases h₁ : Header.expectAdjacent eof .closeParen rest with
  | error e₁ =>
    -- no touching `)`
    obtain rfl : e₁ = e := by simpa [Header.closing, h₁, bind, Except.bind] using hx
    refine ⟨rest, (expectAdjacent_error hs h h₁).bind fun p₁ hp₁ hL₁ => ?_⟩
    simpa [hL₁] using RunsTo.pure hp₁ (some e₁)
  | ok r₁ =>
    cases h₂ : Header.expect eof rule.trailer r₁ with
    | error e₂ =>
      -- no trailer
      obtain rfl : e₂ = e := by simpa [Header.closing, h₁, h₂, bind, Except.bind] using hx
      refine ⟨r₁, (expectAdjacent_ok hs h h₁).bind fun p₁ hp₁ hL₁ => ?_⟩
      refine (expectErr_error hs hp₁ h₂).bind fun p₂ hp₂ hL₂ => ?_
      simpa [hL₁, hL₂] using RunsTo.pure hp₂ (some e₂)
    | ok r₂ =>
      -- tokens after the trailer, under a whole-line rule
      simp only [Header.closing, h₁, h₂, bind, Except.bind] at hx
      obtain ⟨t, r₃, rfl⟩ : ∃ t r₃, r₂ = t :: r₃ := by
        cases r₂ with
        | nil => simp [pure, Except.pure] at hx
        | cons t r₃ => exact ⟨t, r₃, rfl⟩
      have hw : rule.wholeLine = true := by
        cases hw : rule.wholeLine
        · simp [hw, pure, Except.pure] at hx
        · rfl
      obtain rfl : e = ⟨.trailing t.kind rule.trailer, t⟩ := by
        simpa [hw, Header.fail, Header.peek] using hx.symm
      refine ⟨t :: r₃, (expectAdjacent_ok hs h h₁).bind fun p₁ hp₁ hL₁ => ?_⟩
      refine (expectErr_ok hs hp₁ h₂).bind fun p₂ hp₂ hL₂ => ?_
      simp only [hw, if_true]
      refine (isAtEnd_runsTo hs hp₂).bind fun p₃ hp₃ hL₃ => ?_
      simp only [List.isEmpty_cons, Bool.not_false, if_true]
      simpa [Header.peek, hL₁, hL₂, hL₃] using
        errorAtKind_runsTo hp₃ (fun k => HeaderProblem.trailing k rule.trailer) some

/-- Reading a header by positions answers as the list reading of a header, with the first layout
problem of the declarations it meets. -/
theorem header_answers (hs : Stream body eof) (h : At body eof p rest) (rule : HeaderRule) :
    Answers body eof (header rule) p (Header.read rule eof rest).result
      (p.layout.or (Header.read rule eof rest).layout?) := by
  have hop := opening_answers hs h
  cases ho : Header.opening eof rest with
  | error e =>
    -- no opening
    rw [ho] at hop
    obtain ⟨r, hr⟩ := hop
    simp only [Header.read, ho, Header.Outcome.layout?, List.filterMap_nil, List.head?_nil,
      Option.or_none, answers_error]
    exact ⟨r, hr.bind fun p₁ hp₁ hL₁ => by simpa [hL₁] using RunsTo.pure hp₁ _⟩
  | ok v =>
    obtain ⟨ret, name, r₁⟩ := v
    rw [ho] at hop
    refine Answers.bind hop fun p₁ hp₁ hL₁ => ?_
    have harg := argList_answers hs hp₁ rule.decl
    rcases hpl : Header.paramList eof rule.decl r₁ with ⟨decls, after⟩
    rw [hpl] at harg
    simp only [Header.read, ho, hpl]
    cases after with
    | error e =>
      -- the parameter list fails
      obtain ⟨r, hr⟩ := harg
      refine answers_error.2 ⟨r, hr.bind fun p₂ hp₂ hL₂ => ?_⟩
      simpa [Header.Outcome.layout?, hL₁, hL₂] using RunsTo.pure hp₂ _
    | ok r₂ =>
      refine Answers.bind harg fun p₂ hp₂ hL₂ => ?_
      dsimp only
      cases hc : Header.closing eof rule r₂ with
      | error e =>
        obtain ⟨r, hr⟩ := closing_error hs hp₂ hc
        simp only [Except.map]
        refine answers_error.2 ⟨r, hr.bind fun p₃ hp₃ hL₃ => ?_⟩
        simpa [Header.Outcome.layout?, hL₁, hL₂, hL₃] using RunsTo.pure hp₃ _
      | ok r =>
        simp only [Except.map]
        refine answers_ok.2 ((closing_ok hs hp₂ hc).bind fun p₃ hp₃ hL₃ => ?_)
        simpa [Header.Outcome.layout?, hL₁, hL₂, hL₃] using RunsTo.pure hp₃ _

end Steps

/-- A whole run that answers returns: its answer, its position between the start and the end
token, and, on success, the tokens left after that position. -/
theorem Answers.exists_run {body : List Token} {eof : Token} {p : Parser} {α : Type}
    {x : StateT Parser Option (Except ParseError α)} {res : Except ParseError (α × List Token)}
    {L : Option ParseError} (hx : Answers body eof x p res L) :
    ∃ q, x.run p = some (res.map Prod.fst, q) ∧ p.current ≤ q.current ∧
      q.current ≤ body.length ∧ q.layout = L ∧
      ∀ a r, res = .ok (a, r) → body.drop q.current = r := by
  cases res with
  | ok v =>
    obtain ⟨q, hrun, hat, hle, hL⟩ := hx
    refine ⟨q, hrun, hle, hat.le, hL, fun a r hv => ?_⟩
    cases hv
    exact hat.rest_eq.symm
  | error e =>
    obtain ⟨r, q, hrun, hat, hle, hL⟩ := hx
    exact ⟨q, hrun, hle, hat.le, hL, fun a r hv => by cases hv⟩

/-- On any stream, from any position up to the end token and under any rule, reading a header by
positions returns what the list reading of a header answers on the tokens from that position on.
It never moves back, stops at the end token at the latest, stands after the tokens the list
reading took, and remembers the list reading's first layout problem. -/
theorem header_run {body : List Token} {eof : Token} (hs : Stream body eof) {start : Nat}
    (hstart : start ≤ body.length) (rule : HeaderRule) :
    ∃ q, (header rule).run (init (body ++ [eof]).toArray start) =
        some ((Header.read rule eof (body.drop start)).result.map Prod.fst, q) ∧
      start ≤ q.current ∧ q.current ≤ body.length ∧
      q.layout = (Header.read rule eof (body.drop start)).layout? ∧
      ∀ sig r, (Header.read rule eof (body.drop start)).result = .ok (sig, r) →
        body.drop q.current = r := by
  have hat : At body eof (init (body ++ [eof]).toArray start) (body.drop start) :=
    ⟨rfl, hstart, rfl⟩
  simpa [init] using (header_answers hs hat rule).exists_run

/-- A lexeme of a type token spells a type. -/
theorem isSome_ofSpelling?_of_lexeme {w r : List UInt8} (h : Lexeme .type w r) :
    (TypeName.ofSpelling? (Utf8.ascii w)).isSome := by
  cases h with
  | mark hm =>
    unfold markKind? at hm
    repeat' split at hm
    all_goals simp at hm
  | type _ _ _ ht => simp [ht]

/-- The tokens the lexer makes of a text form a stream. -/
theorem stream_scanFrom (c : Cursor) (bs : List UInt8) :
    Stream (Tokens.scanFrom c bs).body (Tokens.scanFrom c bs).eof := by
  -- a token before the end token has tokens after it, so it is a lexeme
  have hlex : ∀ t ∈ (Tokens.scanFrom c bs).body, t.kind ≠ .eof ∧ ∃ r, Lexeme t.kind t.lexeme r := by
    intro t ht
    obtain ⟨ts₁, ts₂, hsplit⟩ := List.append_of_mem ht
    rcases Tokens.lexeme_scanFrom c bs ts₁ t (ts₂ ++ [(Tokens.scanFrom c bs).eof])
        (by simp [Tokens.toList, hsplit]) with ⟨hnil, -⟩ | ⟨-, hk, hl⟩
    · simp at hnil
    · exact ⟨hk, _, hl⟩
  refine ⟨fun t ht => (hlex t ht).1, fun t ht htype => ?_, ?_⟩
  · obtain ⟨-, r, hl⟩ := hlex t ht
    rw [htype] at hl
    simpa [Token.typeName?, htype] using isSome_ofSpelling?_of_lexeme hl
  · rcases Tokens.lexeme_scanFrom c bs (Tokens.scanFrom c bs).body (Tokens.scanFrom c bs).eof []
        rfl with ⟨-, hk, -⟩ | ⟨hne, -, -⟩
    · exact hk
    · exact absurd rfl hne

/-- Reading a header by positions over the tokens of any text, from any position of the token
array and under any rule, returns: it reads no position outside the array, never looks before the
first token, and needs no more rounds than it is given. It stops between its start and the end
token, answers what the list reading answers on the tokens from its start on, stands after the
tokens that reading took, and remembers the same first layout problem. -/
theorem header_scan (src : List UInt8) {start : Nat}
    (hstart : start < (Tokens.scan src).toList.length) (rule : HeaderRule) :
    ∃ q, (header rule).run (init (Tokens.scan src).toList.toArray start) =
        some ((Header.read rule (Tokens.scan src).eof
          ((Tokens.scan src).body.drop start)).result.map Prod.fst, q) ∧
      start ≤ q.current ∧ q.current < (Tokens.scan src).toList.length ∧
      q.layout = (Header.read rule (Tokens.scan src).eof ((Tokens.scan src).body.drop start)).layout? ∧
      ∀ sig r, (Header.read rule (Tokens.scan src).eof
          ((Tokens.scan src).body.drop start)).result = .ok (sig, r) →
        (Tokens.scan src).body.drop q.current = r := by
  have hle : start ≤ (Tokens.scan src).body.length := by
    simp only [Tokens.toList, List.length_append, List.length_singleton] at hstart
    omega
  obtain ⟨q, hrun, hge, hq, hL, hrest⟩ := header_run (stream_scanFrom Cursor.start src) hle rule
  have hq' : q.current ≤ (Tokens.scan src).body.length := hq
  refine ⟨q, hrun, hge, ?_, hL, hrest⟩
  simp only [Tokens.toList, List.length_append, List.length_singleton]
  omega

/-- The definition header `int f(int x){`, read by positions from its first token. -/
theorem header_scan_definition :
    0 < (Tokens.scan [105, 110, 116, 32, 102, 40, 105, 110, 116, 32, 120, 41, 123]).toList.length ∧
    ∃ q, (header Grammar.standard.definition).run (init (Tokens.scan
        [105, 110, 116, 32, 102, 40, 105, 110, 116, 32, 120, 41, 123]).toList.toArray 0) =
        some ((Header.read Grammar.standard.definition (Tokens.scan
          [105, 110, 116, 32, 102, 40, 105, 110, 116, 32, 120, 41, 123]).eof ((Tokens.scan
          [105, 110, 116, 32, 102, 40, 105, 110, 116, 32, 120, 41, 123]).body.drop 0)).result.map
          Prod.fst, q) ∧
      0 ≤ q.current ∧ q.current < (Tokens.scan
        [105, 110, 116, 32, 102, 40, 105, 110, 116, 32, 120, 41, 123]).toList.length ∧
      q.layout = (Header.read Grammar.standard.definition (Tokens.scan
        [105, 110, 116, 32, 102, 40, 105, 110, 116, 32, 120, 41, 123]).eof ((Tokens.scan
        [105, 110, 116, 32, 102, 40, 105, 110, 116, 32, 120, 41, 123]).body.drop 0)).layout? ∧
      ∀ sig r, (Header.read Grammar.standard.definition (Tokens.scan
          [105, 110, 116, 32, 102, 40, 105, 110, 116, 32, 120, 41, 123]).eof ((Tokens.scan
          [105, 110, 116, 32, 102, 40, 105, 110, 116, 32, 120, 41, 123]).body.drop 0)).result =
          .ok (sig, r) →
        (Tokens.scan [105, 110, 116, 32, 102, 40, 105, 110, 116, 32, 120, 41, 123]).body.drop
          q.current = r :=
  have hstart : 0 < (Tokens.scan
      [105, 110, 116, 32, 102, 40, 105, 110, 116, 32, 120, 41, 123]).toList.length :=
    List.length_pos_iff.2 (Tokens.toList_ne_nil _ _)
  ⟨hstart, header_scan _ hstart _⟩

end Parser

end Header

end ShaderHeaders
