import Mathlib.Data.List.TakeWhile
import ShaderHeaders.Glsl.Lexer
import ShaderHeaders.Proofs.Words

/-!
# The token stream, one token at a time

`Tokens.scanFrom c r` reads the blanks at the front of `r` and the longest token after them,
and goes on with the rest. What later proofs need of it is said here once, so that none of
them unfolds the lexer:

* `scanFrom_append_cons`: one step, on blanks followed by a byte that is no blank, and
  `scanFrom_of_all_isSpace`: a text of blanks gives the end token alone;
* `body_scanFrom_word`, `body_scanFrom_mark`: the step at a word or a mark known to end where
  it does, the cursor after it given by `Cursor.after`;
* `body_eq_cons_word`, `body_eq_cons_mark`: the way back, from the first token of a stream to
  the text it was read from;
* `Cursor.Tracks`: a cursor's offset, line and line start are those of the text read so far,
  and so is its column while that line is ASCII; every step of the lexer keeps this.
-/

namespace ShaderHeaders

open Source

namespace Utf8

theorem le_of_isSecond {lead b : UInt8} (h : isSecond lead b = true) : 0x80 ≤ b := by
  have hfst : 0x80 ≤ (secondRange lead).1 := by
    unfold secondRange
    repeat' split
    all_goals decide
  simp only [isSecond, Bool.and_eq_true, decide_eq_true_eq] at h
  exact UInt8.le_trans hfst h.1

/-- The bytes a rune takes after its first are all at least `0x80`: a rune never takes an
    ASCII byte, a newline least of all. -/
theorem le_of_mem_take_decode (b : UInt8) (rest : List UInt8) :
    ∀ x ∈ rest.take (decode b rest).2, 0x80 ≤ x := by
  unfold decode decode?
  repeat' split
  all_goals
    simp only [Option.getD_some, Option.getD_none, List.take_zero, List.take_succ_cons,
      List.mem_cons, List.not_mem_nil, or_false, Bool.and_eq_true, isCont,
      decide_eq_true_eq] at *
  all_goals grind [le_of_isSecond]

end Utf8

namespace Lines

/-- The line being read once `bs` has been read: the bytes after its last newline. -/
def last (bs : List UInt8) : List UInt8 :=
  bs.foldl (fun l b => if b = 10 then [] else l ++ [b]) []

theorem last_append_singleton (bs : List UInt8) (b : UInt8) :
    last (bs ++ [b]) = if b = 10 then [] else last bs ++ [b] := by
  simp [last, List.foldl_append]

/-- Reading bytes with no newline among them lengthens the line being read. -/
theorem last_append_of_forall_ne (bs : List UInt8) {w : List UInt8} (hw : ∀ b ∈ w, b ≠ 10) :
    last (bs ++ w) = last bs ++ w := by
  induction w generalizing bs with
  | nil => simp
  | cons b w ih =>
    rw [← List.singleton_append, ← List.append_assoc,
      ih _ fun c hc => hw c (List.mem_cons_of_mem _ hc), last_append_singleton,
      if_neg (hw b List.mem_cons_self), List.append_assoc, List.singleton_append]

/-- The line being read after more bytes holds bytes of the line before or of the bytes
    read. -/
theorem mem_last_append {bs w : List UInt8} {b : UInt8} (h : b ∈ last (bs ++ w)) :
    b ∈ last bs ∨ b ∈ w := by
  induction w generalizing bs with
  | nil => simpa using h
  | cons x w ih =>
    rw [← List.singleton_append, ← List.append_assoc] at h
    rcases ih h with h | h
    · rw [last_append_singleton] at h
      split at h
      · simp at h
      · rcases List.mem_append.1 h with h | h
        · exact Or.inl h
        · exact Or.inr (by simp_all)
    · exact Or.inr (List.mem_cons_of_mem _ h)

end Lines

namespace Cursor

/-- The cursor after one more byte, read as one rune: a newline starts the next line; any other
    byte moves one column on, and keeps the line open only if it is a blank. -/
def advance (c : Cursor) (b : UInt8) : Cursor :=
  if b = 10 then ⟨c.line + 1, 1, c.offset + 1, true⟩
  else ⟨c.line, c.column + 1, c.offset + 1, c.lineStart && isBlank b⟩

/-- The cursor after `bs`, read one byte at a time. -/
def after (c : Cursor) (bs : List UInt8) : Cursor := bs.foldl advance c

/-- The token of kind `k` with the bytes `lexeme`, after the blanks `space`, at the cursor. -/
def token (c : Cursor) (k : TokenKind) (lexeme space : List UInt8) : Token :=
  ⟨k, lexeme, space, c.lineStart, c.line, c.column, c.offset⟩

@[simp] theorem after_nil (c : Cursor) : c.after [] = c := rfl

theorem after_cons (c : Cursor) (b : UInt8) (bs : List UInt8) :
    c.after (b :: bs) = (c.advance b).after bs := rfl

@[simp] theorem after_append (c : Cursor) (a b : List UInt8) :
    c.after (a ++ b) = (c.after a).after b :=
  List.foldl_append

@[simp] theorem offset_after (c : Cursor) (bs : List UInt8) :
    (c.after bs).offset = c.offset + bs.length := by
  induction bs generalizing c with
  | nil => rfl
  | cons b bs ih =>
    rw [after_cons, ih, List.length_cons]
    unfold advance
    split <;> simp <;> omega

/-- Skipping blanks and newlines is reading them one byte at a time. -/
theorem skip_eq_after (c : Cursor) {sp : List UInt8} (hsp : ∀ b ∈ sp, isSpace b = true) :
    c.skip sp = c.after sp := by
  induction sp generalizing c with
  | nil => rfl
  | cons b sp ih =>
    have hrest := fun x hx => hsp x (List.mem_cons_of_mem _ hx)
    simp only [skip, after_cons, advance]
    split
    · exact ih _ hrest
    · rename_i hb
      rw [isBlank_of_isSpace (hsp b List.mem_cons_self) hb, Bool.and_true]
      exact ih _ hrest

/-- Reading bytes that hold no newline moves along the line. -/
theorem after_of_forall_ne (c : Cursor) {w : List UInt8} (hw : ∀ b ∈ w, b ≠ 10) :
    c.after w = ⟨c.line, c.column + w.length, c.offset + w.length, c.lineStart && w.all isBlank⟩ := by
  induction w generalizing c with
  | nil => simp
  | cons b w ih =>
    rw [after_cons, ih _ fun x hx => hw x (List.mem_cons_of_mem _ hx)]
    simp only [advance, if_neg (hw b List.mem_cons_self)]
    simp only [List.length_cons, List.all_cons, Bool.and_assoc, mk.injEq, true_and, and_true]
    constructor <;> omega

/-- Passing a token of ASCII bytes, none of them blank, is reading it one byte at a time. -/
theorem pass_eq_after (c : Cursor) {w : List UInt8} (hne : w ≠ [])
    (hw : ∀ b ∈ w, isAscii b = true ∧ isSpace b = false) :
    c.pass w.length (Utf8.runeCount w) = c.after w := by
  have hnl : ∀ b ∈ w, b ≠ 10 := fun b hb h => by
    have := (hw b hb).2
    rw [h] at this
    exact absurd this (by decide)
  rw [after_of_forall_ne c hnl, Utf8.runeCount_of_ascii fun b hb => (hw b hb).1]
  obtain ⟨b, w', rfl⟩ := List.exists_cons_of_ne_nil hne
  have hb : isBlank b = false := by
    have := (hw b List.mem_cons_self).2
    simp only [isSpace, Bool.or_eq_false_iff] at this
    exact this.1
  simp [pass, hb]

end Cursor

/-- The kind of a word: a type when it spells one, an identifier otherwise. -/
def wordKind (w : List UInt8) : TokenKind :=
  if (TypeName.ofSpelling? (Utf8.ascii w)).isSome then .type else .ident

theorem wordKind_word {t : TypeName} (h : t.valid = true) : wordKind t.word = .type := by
  simp [wordKind, TypeName.ofSpelling?_ascii_eq_some.2 ⟨h, rfl⟩]

theorem wordKind_of_isName {w : List UInt8} (h : isName w = true) : wordKind w = .ident := by
  simp only [isName, Bool.and_eq_true, Option.isNone_iff_eq_none] at h
  simp [wordKind, h.2]

namespace Cut

theorem take_of_markKind? {b : UInt8} {k : TokenKind} (h : markKind? b = some k)
    (rest : List UInt8) : take b rest = ⟨k, [b], rest⟩ := by
  simp [take, h]

/-- A word followed by a byte that cannot go on with it is cut whole. -/
theorem take_word {b : UInt8} (hb : isWordStart b = true) {w : List UInt8}
    (hw : ∀ c ∈ w, isWordByte c = true) {r : List UInt8}
    (hr : ∀ c ∈ r.head?, isWordByte c = false) :
    take b (w ++ r) = ⟨wordKind (b :: w), b :: w, r⟩ := by
  have ht : (w ++ r).takeWhile isWordByte = w := by
    rw [List.takeWhile_append_of_pos hw]
    cases r with
    | nil => simp
    | cons c r => simp [hr c rfl]
  have hd : (w ++ r).dropWhile isWordByte = r := by
    rw [List.dropWhile_append_of_pos hw]
    cases r with
    | nil => simp
    | cons c r => simp [hr c rfl]
  simp [take, markKind?_of_isWordStart hb, hb, ht, hd, wordKind]

/-- A token holds no blank and no newline: the lexer cuts it from a byte that is neither, and
    what follows that byte in a token is a word byte, a number byte or a byte at least
    `0x80`. -/
theorem isSpace_of_mem_lexeme {b : UInt8} (hb : isSpace b = false) (rest : List UInt8) :
    ∀ x ∈ (take b rest).lexeme, isSpace x = false := by
  have hnum : ∀ x, isNumberByte x = true → isSpace x = false := by
    intro x hx
    rcases Bool.or_eq_true _ _ ▸ hx with hw | hdot
    · exact isSpace_eq_false_of_isWordByte hw
    · rw [of_decide_eq_true hdot]
      rfl
  intro x hx
  unfold take at hx
  split at hx
  · simp only [List.mem_singleton] at hx
    exact hx ▸ hb
  · split at hx
    · rcases List.mem_cons.1 hx with rfl | hx
      · exact hb
      · exact isSpace_eq_false_of_isWordByte (List.mem_takeWhile_imp hx)
    · split at hx
      · rcases List.mem_cons.1 hx with rfl | hx
        · exact hb
        · exact hnum x (List.mem_takeWhile_imp hx)
      · rcases List.mem_cons.1 hx with rfl | hx
        · exact hb
        · -- a byte from `0x80` on is no ASCII blank
          have h80 := Utf8.le_of_mem_take_decode b rest x hx
          cases hs : isSpace x
          · rfl
          · have := isAscii_iff.1 (isAscii_of_isSpace hs)
            rw [UInt8.le_iff_toNat_le] at h80
            simp at h80
            omega

theorem lexeme_append_rest (b : UInt8) (rest : List UInt8) :
    (take b rest).lexeme ++ (take b rest).rest = b :: rest := by
  unfold take
  split
  · rfl
  · split
    · simp
    · split
      · simp
      · simp

/-- Two bytes of the same mark are the same byte. -/
theorem eq_of_markKind? {b m : UInt8} {k : TokenKind} (hb : markKind? b = some k)
    (hm : markKind? m = some k) : b = m := by
  unfold markKind? at hb hm
  repeat' split at hb
  all_goals repeat' split at hm
  all_goals (try simp only [Option.some.injEq] at hb hm)
  all_goals (first | simp at hb | simp at hm | (subst hb; subst_vars; first | rfl | cases hm))

/-- A byte that is no mark starts a word, a number or a single rune. -/
theorem kind_take_of_markKind?_none {b : UInt8} (hb : markKind? b = none) (rest : List UInt8) :
    (take b rest).kind ∈ [.type, .ident, .number, .other] := by
  simp only [take, hb]
  split
  · split <;> simp
  · split <;> simp

theorem not_mem_of_markKind? {m : UInt8} {k : TokenKind} (hm : markKind? m = some k) :
    k ∉ [.type, .ident, .number, .other] := by
  unfold markKind? at hm
  repeat' split at hm
  all_goals (try simp only [Option.some.injEq] at hm)
  all_goals (first | simp at hm | (subst hm; decide))

/-- A token cut as a mark is the one byte of that mark. -/
theorem take_of_kind_mark {b m : UInt8} {k : TokenKind} (hm : markKind? m = some k)
    {rest : List UInt8} (hk : (take b rest).kind = k) : take b rest = ⟨k, [m], rest⟩ := by
  cases hb : markKind? b with
  | some k' =>
    rw [take_of_markKind? hb] at hk ⊢
    subst hk
    rw [eq_of_markKind? hb hm]
  | none =>
    have := kind_take_of_markKind?_none hb rest
    rw [hk] at this
    exact absurd this (not_mem_of_markKind? hm)

/-- A token cut as a type or an identifier is the longest word at the front. -/
theorem take_of_kind_word {b : UInt8} {rest : List UInt8}
    (hk : (take b rest).kind = .type ∨ (take b rest).kind = .ident) :
    isWordStart b = true ∧
      take b rest = ⟨wordKind (b :: rest.takeWhile isWordByte), b :: rest.takeWhile isWordByte,
        rest.dropWhile isWordByte⟩ := by
  cases hb : markKind? b with
  | some k =>
    rw [take_of_markKind? hb] at hk
    exact absurd (by rcases hk with h | h <;> simp at h <;> simp [h]) (not_mem_of_markKind? hb)
  | none =>
    simp only [take, hb] at hk ⊢
    split at hk
    · rename_i hw
      simp [hw, wordKind]
    · split at hk <;> simp at hk

end Cut

/-- What is left after dropping a class of bytes starts with a byte outside it. -/
theorem eq_takeWhile_append_of_dropWhile {p : UInt8 → Bool} {l rest : List UInt8} {b : UInt8}
    (h : l.dropWhile p = b :: rest) : p b = false ∧ l = l.takeWhile p ++ b :: rest := by
  have hb := List.head?_dropWhile_not p l
  rw [h] at hb
  exact ⟨hb, by rw [← h, List.takeWhile_append_dropWhile]⟩

namespace Tokens

/-- A text of blanks and newlines holds the end token alone. -/
theorem scanFrom_of_all_isSpace (c : Cursor) {bs : List UInt8}
    (h : ∀ b ∈ bs, isSpace b = true) :
    scanFrom c bs = ⟨[], (c.skip bs).token .eof [] bs⟩ := by
  have ht : bs.takeWhile isSpace = bs := List.takeWhile_eq_self_iff.2 h
  have hd : bs.dropWhile isSpace = [] := List.dropWhile_eq_nil_iff.2 h
  rw [scanFrom]
  simp only [ht]
  split
  · rfl
  · rename_i b rest hbr
    rw [hd] at hbr
    cases hbr

/-- One step of the lexer: the blanks in front, then the longest token, then the rest. -/
theorem scanFrom_append_cons (c : Cursor) {sp : List UInt8} (hsp : ∀ b ∈ sp, isSpace b = true)
    {b : UInt8} (hb : isSpace b = false) (rest : List UInt8) :
    scanFrom c (sp ++ b :: rest) =
      let cut := Cut.take b rest
      let more := scanFrom ((c.skip sp).pass cut.lexeme.length (Utf8.runeCount cut.lexeme))
        cut.rest
      ⟨(c.skip sp).token cut.kind cut.lexeme sp :: more.body, more.eof⟩ := by
  have ht : (sp ++ b :: rest).takeWhile isSpace = sp := by
    rw [List.takeWhile_append_of_pos hsp]
    simp [hb]
  have hd : (sp ++ b :: rest).dropWhile isSpace = b :: rest := by
    rw [List.dropWhile_append_of_pos hsp]
    simp [hb]
  rw [scanFrom]
  simp only [ht]
  split
  · rename_i hbr
    rw [hd] at hbr
    cases hbr
  · rename_i b' rest' hbr
    rw [hd] at hbr
    cases hbr
    rfl

/-- The stream of a text is empty exactly when the text is all blanks and newlines. -/
theorem body_eq_nil_iff (c : Cursor) (r : List UInt8) :
    (scanFrom c r).body = [] ↔ ∀ b ∈ r, isSpace b = true := by
  constructor
  · intro h
    by_contra hr
    obtain ⟨b, rest, hbr⟩ : ∃ b rest, r.dropWhile isSpace = b :: rest := by
      cases hd : r.dropWhile isSpace with
      | nil => exact absurd (List.dropWhile_eq_nil_iff.1 hd) hr
      | cons b rest => exact ⟨b, rest, rfl⟩
    obtain ⟨hb, hsplit⟩ := eq_takeWhile_append_of_dropWhile hbr
    rw [hsplit, scanFrom_append_cons c (fun x hx => List.mem_takeWhile_imp hx) hb] at h
    cases h
  · intro h
    rw [scanFrom_of_all_isSpace c h]

/-- A stream that holds a token came from a text that is blanks, then a byte that is no blank
    and starts that token, then the text the rest of the stream was read from. -/
theorem body_eq_cons {c : Cursor} {r : List UInt8} {t : Token} {ts : List Token}
    (h : (scanFrom c r).body = t :: ts) :
    ∃ b rest c', r = t.space ++ b :: rest ∧ (∀ x ∈ t.space, isSpace x = true) ∧
      isSpace b = false ∧ t.kind = (Cut.take b rest).kind ∧
      t.lexeme = (Cut.take b rest).lexeme ∧ ts = (scanFrom c' (Cut.take b rest).rest).body := by
  cases hd : r.dropWhile isSpace with
  | nil =>
    rw [scanFrom_of_all_isSpace c (List.dropWhile_eq_nil_iff.1 hd)] at h
    cases h
  | cons b rest =>
    obtain ⟨hb, hsplit⟩ := eq_takeWhile_append_of_dropWhile hd
    have hsp : ∀ x ∈ r.takeWhile isSpace, isSpace x = true :=
      fun x hx => List.mem_takeWhile_imp hx
    rw [hsplit, scanFrom_append_cons c hsp hb] at h
    simp only [List.cons.injEq] at h
    obtain ⟨rfl, rfl⟩ := h
    exact ⟨b, rest, _, hsplit, hsp, hb, rfl, rfl, rfl⟩

/-- A mark at the front of a stream is its byte, after the token's blanks. -/
theorem body_eq_cons_mark {c : Cursor} {r : List UInt8} {t : Token} {ts : List Token}
    (h : (scanFrom c r).body = t :: ts) {m : UInt8} {k : TokenKind} (hm : markKind? m = some k)
    (hk : t.kind = k) :
    ∃ c' r', r = t.space ++ m :: r' ∧ (∀ x ∈ t.space, isSpace x = true) ∧ t.lexeme = [m] ∧
      ts = (scanFrom c' r').body := by
  obtain ⟨b, rest, c', hr, hsp, -, hkind, hlex, hts⟩ := body_eq_cons h
  have hcut := Cut.take_of_kind_mark hm (hkind ▸ hk)
  rw [hcut] at hlex hts
  have hbm : m = b := by simpa [hcut] using Cut.lexeme_append_rest b rest
  subst hbm
  exact ⟨c', rest, hr, hsp, hlex, hts⟩

/-- A type or an identifier at the front of a stream is a whole word, after the token's
    blanks: the text after it does not go on with a word byte. -/
theorem body_eq_cons_word {c : Cursor} {r : List UInt8} {t : Token} {ts : List Token}
    (h : (scanFrom c r).body = t :: ts) (hk : t.kind = .type ∨ t.kind = .ident) :
    ∃ c' r', r = t.space ++ t.lexeme ++ r' ∧ (∀ x ∈ t.space, isSpace x = true) ∧
      isIdent t.lexeme = true ∧ t.kind = wordKind t.lexeme ∧
      (∀ x ∈ r'.head?, isWordByte x = false) ∧ ts = (scanFrom c' r').body := by
  obtain ⟨b, rest, c', hr, hsp, -, hkind, hlex, hts⟩ := body_eq_cons h
  obtain ⟨hb, hcut⟩ := Cut.take_of_kind_word (hkind ▸ hk)
  rw [hcut] at hkind hlex hts
  refine ⟨c', rest.dropWhile isWordByte, ?_, hsp, ?_, by rw [hkind, hlex], ?_, hts⟩
  · rw [hr, hlex, List.append_assoc, List.cons_append, List.takeWhile_append_dropWhile]
  · rw [hlex]
    simp only [isIdent, hb, Bool.true_and, List.all_eq_true]
    exact fun x hx => List.mem_takeWhile_imp hx
  · intro x hx
    cases hd : rest.dropWhile isWordByte with
    | nil => simp [hd] at hx
    | cons y ys =>
      rw [hd, List.head?_cons, Option.mem_some_iff] at hx
      subst hx
      exact (eq_takeWhile_append_of_dropWhile hd).1

/-- At a word that the next byte does not go on with, the stream holds the word as one token,
    and the cursor after it is the cursor after its bytes. -/
theorem body_scanFrom_word (c : Cursor) {sp : List UInt8} (hsp : ∀ b ∈ sp, isSpace b = true)
    {w : List UInt8} (hw : isIdent w = true) {r : List UInt8}
    (hr : ∀ b ∈ r.head?, isWordByte b = false) :
    (scanFrom c (sp ++ (w ++ r))).body =
      (c.after sp).token (wordKind w) w sp :: (scanFrom ((c.after sp).after w) r).body := by
  have hascii := isAscii_of_isIdent hw
  obtain ⟨b, w', rfl⟩ : ∃ b w', w = b :: w' := by
    cases w with
    | nil => simp [isIdent] at hw
    | cons b w' => exact ⟨b, w', rfl⟩
  simp only [isIdent, Bool.and_eq_true, List.all_eq_true] at hw
  have hb : isSpace b = false := isSpace_eq_false_of_isWordByte (isWordByte_of_isWordStart hw.1)
  have hpass : ∀ x ∈ b :: w', isAscii x = true ∧ isSpace x = false := by
    intro x hx
    refine ⟨hascii x hx, ?_⟩
    rcases List.mem_cons.1 hx with rfl | hx
    · exact hb
    · exact isSpace_eq_false_of_isWordByte (hw.2 x hx)
  rw [List.cons_append, scanFrom_append_cons c hsp hb, Cut.take_word hw.1 hw.2 hr]
  simp only [Cursor.skip_eq_after c hsp]
  rw [Cursor.pass_eq_after _ (List.cons_ne_nil _ _) hpass]

/-- At a mark, the stream holds the mark as one token. -/
theorem body_scanFrom_mark (c : Cursor) {sp : List UInt8} (hsp : ∀ b ∈ sp, isSpace b = true)
    {m : UInt8} {k : TokenKind} (hm : markKind? m = some k) (r : List UInt8) :
    (scanFrom c (sp ++ m :: r)).body =
      (c.after sp).token k [m] sp :: (scanFrom ((c.after sp).after [m]) r).body := by
  have hpass : ∀ x ∈ [m], isAscii x = true ∧ isSpace x = false := by
    intro x hx
    rw [List.mem_singleton] at hx
    subst hx
    exact ⟨isAscii_of_markKind? hm, isSpace_of_markKind? hm⟩
  rw [scanFrom_append_cons c hsp (isSpace_of_markKind? hm), Cut.take_of_markKind? hm]
  simp only [Cursor.skip_eq_after c hsp]
  rw [Cursor.pass_eq_after _ (List.cons_ne_nil _ _) hpass]

end Tokens

namespace Cursor

/-- A cursor tracks the text `pre` read so far: its offset is the length of `pre`, its line is
    one more than the newlines in `pre`, the line is open while only blanks stand on it, and
    while that line is ASCII the column is one more than its length. -/
structure Tracks (pre : List UInt8) (c : Cursor) : Prop where
  offset : c.offset = pre.length
  line : c.line = pre.count 10 + 1
  lineStart : c.lineStart = (Lines.last pre).all isBlank
  column : (∀ b ∈ Lines.last pre, isAscii b = true) → c.column = (Lines.last pre).length + 1

theorem Tracks.start : Tracks [] Cursor.start :=
  ⟨rfl, rfl, rfl, fun _ => rfl⟩

theorem Tracks.advance {pre : List UInt8} {c : Cursor} (h : Tracks pre c) (b : UInt8) :
    Tracks (pre ++ [b]) (c.advance b) := by
  unfold Cursor.advance
  by_cases hb : b = 10
  · rw [if_pos hb]
    refine ⟨?_, ?_, ?_, ?_⟩ <;> simp [h.offset, h.line, Lines.last_append_singleton, hb]
  · rw [if_neg hb]
    refine ⟨?_, ?_, ?_, ?_⟩
    · simp [h.offset]
    · simp [h.line, List.count_append, hb]
    · simp [h.lineStart, Lines.last_append_singleton, hb]
    · intro hascii
      rw [Lines.last_append_singleton, if_neg hb] at hascii ⊢
      rw [h.column fun x hx => hascii x (List.mem_append_left _ hx)]
      simp

theorem Tracks.after {pre : List UInt8} {c : Cursor} (h : Tracks pre c) (bs : List UInt8) :
    Tracks (pre ++ bs) (c.after bs) := by
  induction bs generalizing pre c with
  | nil => simpa using h
  | cons b bs ih =>
    rw [after_cons, ← List.singleton_append, ← List.append_assoc]
    exact ih (h.advance b)

theorem Tracks.skip {pre : List UInt8} {c : Cursor} (h : Tracks pre c) {sp : List UInt8}
    (hsp : ∀ b ∈ sp, isSpace b = true) : Tracks (pre ++ sp) (c.skip sp) := by
  rw [skip_eq_after c hsp]
  exact h.after sp

/-- Passing a token keeps the cursor in step with the text: the token starts with a byte that is
    no blank, holds no newline, and is one rune a byte when it is ASCII. -/
theorem Tracks.pass {pre : List UInt8} {c : Cursor} (h : Tracks pre c) {b : UInt8}
    {w : List UInt8} (hb : isSpace b = false) (hnl : ∀ x ∈ b :: w, x ≠ 10) {n : Nat}
    (hn : (∀ x ∈ b :: w, isAscii x = true) → n = (b :: w).length) :
    Tracks (pre ++ b :: w) (c.pass (b :: w).length n) := by
  have hlast := Lines.last_append_of_forall_ne pre hnl
  have hblank : isBlank b = false := by
    simp only [isSpace, Bool.or_eq_false_iff] at hb
    exact hb.1
  refine ⟨?_, ?_, ?_, ?_⟩
  · simp [Cursor.pass, h.offset]
  · have hcount : (b :: w).count 10 = 0 := List.count_eq_zero.2 fun hx => hnl 10 hx rfl
    simp [Cursor.pass, h.line, List.count_append, hcount]
  · simp [Cursor.pass, hlast, hblank]
  · intro hascii
    rw [hlast] at hascii ⊢
    have hpre := h.column fun x hx => hascii x (List.mem_append_left _ hx)
    rw [hn fun x hx => hascii x (List.mem_append_right _ hx)]
    simp only [Cursor.pass, hpre, List.length_append, List.length_cons]
    omega

end Cursor

namespace Tokens

/-- One step of the lexer from a cursor that tracks the text before it: the token after the
    blanks `sp`, whose bytes are no blanks, and a cursor that tracks the text up to its end. -/
theorem body_scanFrom_tracked {pre : List UInt8} {c : Cursor} (hc : c.Tracks pre)
    {sp : List UInt8} (hsp : ∀ b ∈ sp, isSpace b = true) {b : UInt8} (hb : isSpace b = false)
    (rest : List UInt8) :
    ∃ (w : List UInt8) (c' : Cursor), (Cut.take b rest).lexeme = b :: w ∧
      (∀ x ∈ b :: w, isSpace x = false) ∧ c'.Tracks (pre ++ sp ++ b :: w) ∧
      (scanFrom c (sp ++ b :: rest)).body =
        (c.after sp).token (Cut.take b rest).kind (b :: w) sp ::
          (scanFrom c' (Cut.take b rest).rest).body := by
  -- the token starts with `b`: it and the text after it make up `b :: rest`
  obtain ⟨w, hw⟩ : ∃ w, (Cut.take b rest).lexeme = b :: w := by
    have hsplit := Cut.lexeme_append_rest b rest
    have hlen := Cut.take_rest_length_le b rest
    cases hL : (Cut.take b rest).lexeme with
    | nil =>
      rw [hL, List.nil_append] at hsplit
      rw [hsplit, List.length_cons] at hlen
      omega
    | cons b' w =>
      rw [hL, List.cons_append, List.cons.injEq] at hsplit
      exact ⟨w, by rw [hsplit.1]⟩
  have hspace : ∀ x ∈ b :: w, isSpace x = false := hw ▸ Cut.isSpace_of_mem_lexeme hb rest
  have hnl : ∀ x ∈ b :: w, x ≠ 10 := fun x hx h => by
    have := hspace x hx
    rw [h] at this
    exact absurd this (by decide)
  refine ⟨w, _, hw, hspace, (hc.skip hsp).pass hb hnl fun hascii => Utf8.runeCount_of_ascii hascii,
    ?_⟩
  rw [scanFrom_append_cons c hsp hb rest]
  simp [hw, Cursor.skip_eq_after c hsp]

end Tokens

end ShaderHeaders
