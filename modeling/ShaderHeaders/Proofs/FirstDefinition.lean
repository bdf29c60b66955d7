import ShaderHeaders.Glsl.Definition
import ShaderHeaders.Proofs.HeaderReading

/-!
# The first definition of a text

`Grammar.definition?` tries the type tokens that open their lines, in order, and the first from
which a header reads decides. Over bytes this is a search for the earliest *occurrence of a
header*: a byte where a well-formed definition header starts, with only blanks before it on its
line (`HeaderText.OccursAt`).

* `firstFrom_scanFrom`: from any point of the text that a cursor tracks, the candidate loop
  finds the earliest occurrence from there on, or none when there is none (`FirstFrom`);
* `definition?_of_not_occursAt`: a text with no occurrence has no definition;
* `definition?_of_least_occursAt`: a text whose earliest occurrence is at `x` yields what the
  header there makes of it (`HeaderText.definition`): its signature, or the layout problem of
  its first badly spaced declaration, at the line and column of that declaration's name.
-/

namespace ShaderHeaders

open Source Tokens Header

namespace Lines

/-- The line of byte `p` of a text, from `1`: one more than the newlines before it. -/
def lineAt (code : List UInt8) (p : Nat) : Nat := (code.take p).count 10 + 1

/-- The column of byte `p` of a text, from `1`: one more than the bytes since the newline before
    it, each a rune on an ASCII line. -/
def columnAt (code : List UInt8) (p : Nat) : Nat := (last (code.take p)).length + 1

end Lines

namespace HeaderText

/-- A well-formed definition header starts at byte `x` of `code`, and only blanks stand before
    it on its line. -/
structure OccursAt (h : HeaderText) (code : List UInt8) (x : Nat) : Prop where
  blank : ∀ b ∈ Lines.last (code.take x), isBlank b = true
  wf : h.WF .named
  starts : h.text 123 <+: code.drop x

/-- What a text makes of its first definition header `h`, at byte `x`: the signature `h`
    declares, or, when a declaration of `h` does not have its type and name one space apart,
    the layout problem at the name of the first such declaration. -/
def definition (h : HeaderText) (code : List UInt8) (x : Nat) : Except Malformed Signature :=
  match h.badDecl? with
  | some (before, d) =>
    .error ⟨code, Lines.lineAt code (x + before.length), Lines.columnAt code (x + before.length),
      (HeaderProblem.spacing d.text).message⟩
  | none => .ok h.signature

namespace OccursAt

variable {h : HeaderText} {code : List UInt8} {x : Nat}

theorem drop_eq (ho : h.OccursAt code x) : ∃ r, code.drop x = h.text 123 ++ r := by
  obtain ⟨r, hr⟩ := ho.starts
  exact ⟨r, hr.symm⟩

/-- A header starts with a byte that is no blank. -/
theorem exists_drop_eq_cons (ho : h.OccursAt code x) :
    ∃ b r, code.drop x = b :: r ∧ isSpace b = false := by
  obtain ⟨r, hr⟩ := ho.drop_eq
  obtain ⟨b, u, hu, hb⟩ := exists_text_eq_cons ho.wf.ret 123
  exact ⟨b, u ++ r, by rw [hr, hu, List.cons_append],
    isSpace_eq_false_of_isWordByte (isWordByte_of_isWordStart hb)⟩

end OccursAt

/-- No header starts among blanks. -/
theorem not_occursAt_of_spaces {code pre sp u : List UInt8} (hcode : code = pre ++ (sp ++ u))
    (hsp : ∀ b ∈ sp, isSpace b = true) {y : Nat} (hy₁ : pre.length ≤ y)
    (hy₂ : y < pre.length + sp.length) (h : HeaderText) : ¬ h.OccursAt code y := by
  intro ho
  obtain ⟨b, r, hdrop, hb⟩ := ho.exists_drop_eq_cons
  have hget : code[y]? = some b := by
    rw [← List.head?_drop, hdrop]
    rfl
  obtain ⟨i, rfl⟩ := Nat.exists_eq_add_of_le hy₁
  rw [hcode, List.getElem?_append_right (by omega), Nat.add_sub_cancel_left,
    List.getElem?_append_left (by omega)] at hget
  have := hsp b (List.mem_of_getElem? hget)
  rw [hb] at this
  cases this

/-- No header starts inside a token: the byte before it would be no blank. -/
theorem not_occursAt_of_token {code pre w u : List UInt8} (hcode : code = pre ++ (w ++ u))
    (hw : ∀ b ∈ w, isSpace b = false) {y : Nat} (hy₁ : pre.length < y)
    (hy₂ : y ≤ pre.length + w.length) (h : HeaderText) : ¬ h.OccursAt code y := by
  intro ho
  obtain ⟨i, rfl⟩ := Nat.exists_eq_add_of_lt hy₁
  have htake : code.take (pre.length + i + 1) = pre ++ w.take (i + 1) := by
    rw [Nat.add_assoc, hcode, List.take_length_add_append,
      List.take_append_of_le_length (by omega)]
  -- the last byte read is a byte of the token
  obtain ⟨b, hb⟩ := List.exists_mem_of_ne_nil (w.take (i + 1)) (by
    rw [Ne, List.take_eq_nil_iff]
    rintro (h | rfl)
    · omega
    · simp only [List.length_nil, Nat.add_zero] at hy₂
      omega)
  have hnl : ∀ c ∈ w.take (i + 1), c ≠ 10 := fun c hc h => by
    have := hw c (List.mem_of_mem_take hc)
    rw [h] at this
    cases this
  have hblank := ho.blank b (by
    rw [htake, Lines.last_append_of_forall_ne _ hnl]
    exact List.mem_append_right _ hb)
  have := hw b (List.mem_of_mem_take hb)
  simp [isSpace, hblank] at this

end HeaderText

open HeaderText

/-- What the candidate loop is to find from byte `start` of `code` on: nothing, when no header
    occurs there or later; otherwise the header read at the earliest such byte, from a cursor
    that tracks the text before the blanks in front of it. -/
def FirstFrom (eof : Token) (code : List UInt8) (start : Nat) (res : Option Outcome) : Prop :=
  (res = none → ∀ y ≥ start, ∀ h : HeaderText, ¬ h.OccursAt code y) ∧
  ∀ o, res = some o → ∃ x ≥ start, (∃ h : HeaderText, h.OccursAt code x) ∧
    (∀ y ≥ start, ∀ h : HeaderText, h.OccursAt code y → x ≤ y) ∧
    ∃ (pre sp : List UInt8) (c : Cursor), c.Tracks pre ∧ (∀ b ∈ sp, isSpace b = true) ∧
      pre ++ sp = code.take x ∧
      o = read Grammar.standard.definition eof (scanFrom c (sp ++ code.drop x)).body

/-- What the loop finds from a later byte it also finds from an earlier one, when no header
    occurs in between. -/
theorem FirstFrom.mono {eof : Token} {code : List UInt8} {a b : Nat} {res : Option Outcome}
    (hres : FirstFrom eof code b res) (hab : a ≤ b)
    (hnone : ∀ y, a ≤ y → y < b → ∀ h : HeaderText, ¬ h.OccursAt code y) :
    FirstFrom eof code a res := by
  -- an occurrence from `a` on is one from `b` on
  have hlate : ∀ y ≥ a, ∀ h : HeaderText, h.OccursAt code y → b ≤ y := fun y hy h ho =>
    Nat.le_of_not_lt fun hlt => hnone y hy hlt h ho
  refine ⟨fun hn y hy h ho => hres.1 hn y (hlate y hy h ho) h ho, fun o ho => ?_⟩
  obtain ⟨x, hx, hocc, hmin, hrest⟩ := hres.2 o ho
  exact ⟨x, le_trans hab hx, hocc, fun y hy h hoy => hmin y (hlate y hy h hoy) h hoy, hrest⟩

theorem definition_trailer : Grammar.standard.definition.trailer = some .openBrace := rfl

theorem openBrace_mark : markKind? 123 = some .openBrace := rfl

theorem takeWhile_isSpace_append {sp : List UInt8} (hsp : ∀ b ∈ sp, isSpace b = true)
    {b : UInt8} (hb : isSpace b = false) (u : List UInt8) :
    (sp ++ b :: u).takeWhile isSpace = sp := by
  rw [List.takeWhile_append_of_pos hsp]
  simp [hb]

/-- A header at the first token after the blanks `sp` makes that token a candidate: a type
    token that opens its line, from which a header reads. -/
theorem candidate_of_occursAt (eof : Token) {code pre sp u : List UInt8} {c : Cursor}
    (hc : c.Tracks pre) (hcode : code = pre ++ (sp ++ u)) (hsp : ∀ b ∈ sp, isSpace b = true)
    {h : HeaderText} (ho : h.OccursAt code (pre.length + sp.length)) :
    ∃ t ts, (scanFrom c (sp ++ u)).body = t :: ts ∧ (t.kind = .type && t.lineStart) = true ∧
      (read Grammar.standard.definition eof (t :: ts)).signature?.isSome = true := by
  obtain ⟨r, hr⟩ := ho.drop_eq
  have hu : u = h.text 123 ++ r := by
    rw [← hr, hcode, ← List.append_assoc, List.drop_left' (by simp)]
  subst hu
  have hread := read_scanFrom eof c hsp ho.wf definition_trailer openBrace_mark r
    (by simp [Grammar.standard])
  have hfirst := HeaderText.body_scanFrom_text c hsp ho.wf 123 r
  rw [hfirst] at hread
  rw [hfirst]
  refine ⟨_, _, rfl, ?_, by rw [hread]; rfl⟩
  -- only blanks stand before it on its line
  have hblank := ho.blank
  have htake : code.take (pre.length + sp.length) = pre ++ sp := by
    rw [hcode, ← List.append_assoc, List.take_left' (by simp)]
  rw [htake] at hblank
  simp only [Cursor.kind_token, decide_true, Bool.true_and]
  show (c.after sp).lineStart = true
  rw [(hc.after sp).lineStart]
  simpa [List.all_eq_true] using hblank

/-- The loop stops at a candidate from which a header reads: the header starts right there,
    and the earliest from the end of `pre` on, for only blanks come before it. -/
theorem firstFrom_found (eof : Token) {code pre sp rest : List UInt8} {b : UInt8} {c : Cursor}
    (hc : c.Tracks pre) (hcode : code = pre ++ (sp ++ b :: rest))
    (hsp : ∀ x ∈ sp, isSpace x = true) (hb : isSpace b = false)
    (hline : (c.after sp).lineStart = true)
    (hsome : (read Grammar.standard.definition eof (scanFrom c (sp ++ b :: rest)).body).signature?.isSome = true) :
    FirstFrom eof code pre.length
      (some (read Grammar.standard.definition eof (scanFrom c (sp ++ b :: rest)).body)) := by
  obtain ⟨sig, hsig⟩ := Option.isSome_iff_exists.1 hsome
  obtain ⟨sp', hd, r, hsp', hwf, hs', -⟩ :=
    exists_headerText_of_read definition_trailer openBrace_mark hsig
  -- the header starts after the same blanks as the token
  obtain ⟨x, u, hu, hx⟩ := exists_text_eq_cons hwf.ret 123
  have hsp_eq : sp' = sp := by
    have hx' := isSpace_eq_false_of_isWordByte (isWordByte_of_isWordStart hx)
    have := takeWhile_isSpace_append hsp' hx' (u ++ r)
    rw [← List.cons_append, ← hu, ← hs', takeWhile_isSpace_append hsp hb rest] at this
    exact this.symm
  subst hsp_eq
  have hrest : b :: rest = hd.text 123 ++ r := List.append_cancel_left hs'
  have htake : code.take (pre.length + sp'.length) = pre ++ sp' := by
    rw [hcode, ← List.append_assoc, List.take_left' (by simp)]
  have hdrop : code.drop (pre.length + sp'.length) = b :: rest := by
    rw [hcode, ← List.append_assoc, List.drop_left' (by simp)]
  have hblank : ∀ x ∈ Lines.last (code.take (pre.length + sp'.length)), isBlank x = true := by
    rw [htake]
    simpa [(hc.after sp').lineStart, List.all_eq_true] using hline
  refine ⟨fun hn => absurd hn (Option.some_ne_none _), fun o ho => ?_⟩
  cases ho
  refine ⟨pre.length + sp'.length, by omega, ⟨hd, ⟨hblank, hwf, ⟨r, by rw [hdrop, hrest]⟩⟩⟩,
    fun y hy h hoy => ?_, pre, sp', c, hc, hsp', htake.symm, by rw [hdrop]⟩
  -- a header before it would start among the blanks
  by_contra hlt
  exact not_occursAt_of_spaces hcode hsp' hy (by omega) h hoy

/-- The loop goes past a token that is no candidate, or from which no header reads: no header
    starts at it, among the blanks before it, or inside it. -/
theorem firstFrom_skip (eof : Token) {code pre sp w R : List UInt8} {b : UInt8} {c : Cursor}
    (hc : c.Tracks pre) (hcode : code = pre ++ (sp ++ (b :: w ++ R)))
    (hsp : ∀ x ∈ sp, isSpace x = true) (hw : ∀ x ∈ b :: w, isSpace x = false)
    {t : Token} {ts : List Token} (hbody : (scanFrom c (sp ++ (b :: w ++ R))).body = t :: ts)
    (hnot : ¬ ((t.kind = .type && t.lineStart) = true ∧
      (read Grammar.standard.definition eof (t :: ts)).signature?.isSome = true))
    {res : Option Outcome} (hres : FirstFrom eof code (pre ++ sp ++ b :: w).length res) :
    FirstFrom eof code pre.length res := by
  refine hres.mono (by simp) fun y hy₁ hy₂ h ho => ?_
  rcases Nat.lt_trichotomy y (pre.length + sp.length) with hlt | rfl | hgt
  · exact not_occursAt_of_spaces hcode hsp hy₁ hlt h ho
  · -- a header there would have made the token a candidate
    obtain ⟨t', ts', hbody', hcand⟩ := candidate_of_occursAt eof hc hcode hsp ho
    rw [hbody] at hbody'
    cases hbody'
    exact hnot hcand
  · refine not_occursAt_of_token (show code = (pre ++ sp) ++ (b :: w ++ R) by simp [hcode])
      hw (by simpa using hgt) (by simp at hy₂ ⊢; omega) h ho

/-- When only blanks are left the loop ends with nothing, and no header starts from there
    on. -/
theorem firstFrom_blanks (eof : Token) {code pre s : List UInt8} (hcode : pre ++ s = code)
    (c : Cursor) (hsp : ∀ b ∈ s, isSpace b = true) :
    FirstFrom eof code pre.length
      (Grammar.firstHeader Grammar.standard.definition eof (scanFrom c s).body) := by
  rw [scanFrom_of_all_isSpace c hsp]
  refine ⟨fun _ y hy h ho => ?_, fun o ho => by cases ho⟩
  by_cases hy' : y < pre.length + s.length
  · exact not_occursAt_of_spaces (show code = pre ++ (s ++ []) by simp [hcode]) hsp hy hy' h ho
  · -- past the end of the text nothing starts
    obtain ⟨b, r, hdrop, -⟩ := ho.exists_drop_eq_cons
    rw [List.drop_eq_nil_of_le (by rw [← hcode]; simp; omega)] at hdrop
    cases hdrop

/-- The candidate loop over the tokens of the text after `pre`, from a cursor that tracks
    `pre`, finds the earliest header from the end of `pre` on. -/
theorem firstFrom_scanFrom (eof : Token) (code : List UInt8) :
    ∀ (s pre : List UInt8) (c : Cursor), pre ++ s = code → c.Tracks pre →
      FirstFrom eof code pre.length
        (Grammar.firstHeader Grammar.standard.definition eof (scanFrom c s).body) := by
  -- induction on a bound of the length of the text left, which each token shortens
  suffices H : ∀ n (s pre : List UInt8) (c : Cursor), s.length < n → pre ++ s = code →
      c.Tracks pre → FirstFrom eof code pre.length
        (Grammar.firstHeader Grammar.standard.definition eof (scanFrom c s).body) from
    fun s pre c => H _ s pre c (Nat.lt_succ_self _)
  intro n
  induction n with
  | zero => intro s pre c hlt; omega
  | succ n ih =>
    intro s pre c hlt hcode hc
    cases hd : s.dropWhile isSpace with
    | nil => exact firstFrom_blanks eof hcode c (List.dropWhile_eq_nil_iff.1 hd)
    | cons b rest =>
      -- the blanks, then the token at `b`, then the text `R` after it
      obtain ⟨hb, hs⟩ := eq_takeWhile_append_of_dropWhile hd
      have hsp : ∀ x ∈ s.takeWhile isSpace, isSpace x = true := fun x hx =>
        List.mem_takeWhile_imp hx
      generalize s.takeWhile isSpace = sp at hs hsp
      subst hs
      obtain ⟨w, c', hw, hspace, hc', hbody⟩ := body_scanFrom_tracked hc hsp hb rest
      have hR : b :: w ++ (Cut.take b rest).rest = b :: rest :=
        hw ▸ Cut.lexeme_append_rest b rest
      generalize (Cut.take b rest).rest = R at hR hbody
      have hlen : R.length < n := by
        have := congrArg List.length hR
        simp only [List.length_append, List.length_cons] at this hlt
        omega
      have hcode' : code = pre ++ (sp ++ (b :: w ++ R)) := by rw [← hcode, hR]
      have hIH := ih R (pre ++ sp ++ b :: w) c' hlen (by simp [hcode']) hc'
      rw [hbody, Grammar.firstHeader]
      by_cases hcand : ((c.after sp).token (Cut.take b rest).kind (b :: w) sp).kind = .type &&
          ((c.after sp).token (Cut.take b rest).kind (b :: w) sp).lineStart
      · rw [if_pos hcand]
        dsimp only
        by_cases hsome : (read Grammar.standard.definition eof
            ((c.after sp).token (Cut.take b rest).kind (b :: w) sp ::
              (scanFrom c' R).body)).signature?.isSome
        · -- a header reads from the candidate: the loop stops
          rw [if_pos hsome, ← hbody]
          rw [← hbody] at hsome
          exact firstFrom_found eof hc hcode.symm hsp hb (Bool.and_eq_true _ _ ▸ hcand).2 hsome
        · rw [if_neg hsome]
          exact firstFrom_skip eof hc hcode' hsp hspace (hR ▸ hbody)
            (fun h => hsome h.2) hIH
      · rw [if_neg hcand]
        exact firstFrom_skip eof hc hcode' hsp hspace (hR ▸ hbody) (fun h => hcand h.1) hIH

/-- The candidate loop over a whole text finds its earliest header. -/
theorem firstFrom_scan (code : List UInt8) :
    FirstFrom (scan code).eof code 0
      (Grammar.firstHeader Grammar.standard.definition (scan code).eof (scan code).body) :=
  firstFrom_scanFrom _ code code [] Cursor.start rfl Cursor.Tracks.start

/-- A cursor that tracks the text up to byte `p` of `code` stands at the line of byte `p`, and,
    when that line is ASCII, at its column. -/
theorem Cursor.Tracks.position {code pre : List UInt8} {c : Cursor} (hc : c.Tracks pre)
    (hpre : code.take pre.length = pre) (hascii : ∀ b ∈ Lines.last pre, isAscii b = true) :
    c.line = Lines.lineAt code pre.length ∧ c.column = Lines.columnAt code pre.length := by
  rw [Lines.lineAt, Lines.columnAt, hpre]
  exact ⟨hc.line, hc.column hascii⟩

/-- A text in which no definition header occurs has no definition. -/
theorem definition?_of_not_occursAt {code : List UInt8}
    (hnone : ∀ x (h : HeaderText), ¬ h.OccursAt code x) :
    Grammar.standard.definition? code = .error (Malformed.notFound code) := by
  unfold Grammar.definition?
  dsimp only
  cases hf : Grammar.firstHeader Grammar.standard.definition (scan code).eof (scan code).body with
  | none => rfl
  | some o =>
    obtain ⟨x, -, ⟨h, ho⟩, -⟩ := (firstFrom_scan code).2 o hf
    exact absurd ho (hnone x h)

/-- After the blanks in front of a header at byte `x` and a part `q` of the header, the cursor
    stands at the line and column of byte `x + q.length`. -/
theorem position_within_header {code pre sp q : List UInt8} {x : Nat} {h : HeaderText}
    {c : Cursor} (hc : c.Tracks pre) (htake : pre ++ sp = code.take x) (ho : h.OccursAt code x)
    (hq : q <+: h.text 123) :
    ((c.after sp).after q).line = Lines.lineAt code (x + q.length) ∧
      ((c.after sp).after q).column = Lines.columnAt code (x + q.length) := by
  obtain ⟨r, hr⟩ := ho.drop_eq
  obtain ⟨u, hu⟩ := hq
  have hq : code.take (x + q.length) = pre ++ sp ++ q := by
    rw [List.take_add, ← htake, hr, ← hu, List.append_assoc q, List.take_left]
  have hlen : (pre ++ sp ++ q).length = x + q.length := by
    have hx := congrArg List.length hr
    have htx := congrArg List.length htake
    simp only [List.length_drop, List.length_append, List.length_take, HeaderText.text,
      HeaderText.afterReturn, List.length_cons] at hx htx ⊢
    omega
  -- the line so far is blanks and then part of the header, all ASCII
  have hascii : ∀ b ∈ Lines.last (pre ++ sp ++ q), isAscii b = true := by
    intro b hb
    rcases Lines.mem_last_append hb with hb | hb
    · have hblank := ho.blank
      rw [← htake] at hblank
      exact isAscii_of_isSpace (by simp [isSpace, hblank b hb])
    · exact isAscii_of_mem_text ho.wf rfl b (by rw [← hu]; exact List.mem_append_left _ hb)
  have hpos := ((hc.after sp).after q).position (by rw [hlen, hq]) hascii
  rwa [hlen] at hpos

/-- A text whose earliest definition header is `h`, at byte `x`, yields what `h` makes of
    it. -/
theorem definition?_of_least_occursAt {code : List UInt8} {x : Nat} {h : HeaderText}
    (ho : h.OccursAt code x) (hmin : ∀ y (h' : HeaderText), h'.OccursAt code y → x ≤ y) :
    Grammar.standard.definition? code = h.definition code x := by
  have hF := firstFrom_scan code
  unfold Grammar.definition?
  dsimp only
  cases hf : Grammar.firstHeader Grammar.standard.definition (scan code).eof (scan code).body with
  | none => exact absurd ho (hF.1 hf x (Nat.zero_le x) h)
  | some o =>
    -- the loop stops at `x`, the earliest header
    obtain ⟨x₀, -, ⟨h₀, ho₀⟩, hmin₀, pre, sp, c, hc, hsp, htake, rfl⟩ := hF.2 o hf
    obtain rfl : x₀ = x := Nat.le_antisymm (hmin₀ x (Nat.zero_le x) h ho) (hmin x₀ h₀ ho₀)
    obtain ⟨r, hr⟩ := ho.drop_eq
    have hwhole : Grammar.standard.definition.wholeLine = true → ∀ b ∈ r, isSpace b = true :=
      fun hw => absurd hw (by decide)
    dsimp only
    rw [hr, layout?_read_scanFrom _ c hsp ho.wf definition_trailer openBrace_mark r hwhole,
      read_scanFrom _ c hsp ho.wf definition_trailer openBrace_mark r hwhole]
    unfold HeaderText.definition
    cases hb : h.badDecl? with
    | none => rfl
    | some p =>
      -- the layout problem, at the name of the first badly spaced declaration
      obtain ⟨q, d⟩ := p
      have hpos := position_within_header hc htake ho (prefix_of_badDecl? hb 123)
      simp only [Option.map_some, Malformed.ofParseError, Cursor.token, hpos.1, hpos.2]

/-- The definition of a text is decided by where definition headers occur in it: a text with
    none has no definition, and otherwise the earliest decides, whichever header is read
    there. -/
theorem definition?_of_occurrences (code : List UInt8) :
    ((∀ x (h : HeaderText), ¬ h.OccursAt code x) →
      Grammar.standard.definition? code = .error (Malformed.notFound code)) ∧
    ∀ x (h : HeaderText), h.OccursAt code x →
      (∀ y (h' : HeaderText), h'.OccursAt code y → x ≤ y) →
      Grammar.standard.definition? code = h.definition code x :=
  ⟨definition?_of_not_occursAt, fun _ _ ho hmin => definition?_of_least_occursAt ho hmin⟩

end ShaderHeaders
