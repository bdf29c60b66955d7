import Mathlib.Data.List.Induction
import ShaderHeaders.Proofs.Lexemes

/-!
# Where the tokens of a text stand

Every token records its offset in bytes, its line, its column in runes and whether only blanks
stand before it on its line. This module shows that the lexer's cursor keeps all four in step
with the text read so far, so that each token's position is a function of the text before it.

Columns count runes, and runes are read from the start of each token, not from the start of the
line. The two agree because every token ends on a rune boundary of its line (`Utf8.Whole`): a
rune the lexer reads never reaches into the next token, and a text read as whole runes in pieces
has the runes of its pieces (`Utf8.chars_append`).

* `Cursor.Reads`: a cursor tracks the text read so far, with its column one past the runes of
  the line; skipping blanks and passing a token keep it;
* `Tokens.position_scan`: every token's offset is the length of the text before it, its line one
  past the newlines there, its column one past the runes since the last newline, and it opens its
  line exactly when only blanks stand there, that is when it is the first token or its space
  holds a newline.
-/

namespace ShaderHeaders

open Source

namespace Utf8

/-! ## Rune boundaries -/

/-- A longer text reads the same first rune as a shorter one that it extends. -/
theorem decode?_append {b : UInt8} {u : List UInt8} {x : Char × Nat} (h : decode? b u = some x)
    (v : List UInt8) : decode? b (u ++ v) = some x := by
  rcases u with _ | ⟨c₁, _ | ⟨c₂, _ | ⟨c₃, u⟩⟩⟩ <;>
  · unfold decode? at h ⊢
    split_ifs at h ⊢ <;> simp_all

/-- A rune is read from the bytes it takes alone. -/
theorem decode?_take {b : UInt8} {l : List UInt8} {ch : Char} {k : Nat}
    (h : decode? b l = some (ch, k)) : decode? b (l.take k) = some (ch, k) := by
  rcases l with _ | ⟨c₁, _ | ⟨c₂, _ | ⟨c₃, l⟩⟩⟩ <;>
  · unfold decode? at h ⊢
    split_ifs at h ⊢ <;> simp_all <;> obtain ⟨_, rfl, rfl⟩ := h <;> simp_all

/-- A rune of `u ++ v` that takes no byte of `v` is the rune of `u`. -/
theorem decode_append_of_le {b : UInt8} {u : List UInt8} (v : List UInt8)
    (h : (decode b (u ++ v)).2 ≤ u.length) : decode b (u ++ v) = decode b u := by
  unfold decode at h ⊢
  cases hd : decode? b (u ++ v) with
  | none =>
    -- a shorter text reads no rune where a longer one reads none
    cases hu : decode? b u with
    | none => rfl
    | some x => rw [decode?_append hu v] at hd; cases hd
  | some x =>
    obtain ⟨ch, k⟩ := x
    rw [hd, Option.getD_some] at h
    have htake := decode?_take hd
    rw [List.take_append_of_le_length h] at htake
    rw [← decode?_append htake (u.drop k), List.take_append_drop]

/-- `Whole u v`: reading `u ++ v` rune by rune from its start, a rune ends where `u` ends. -/
inductive Whole : List UInt8 → List UInt8 → Prop where
  | nil (v : List UInt8) : Whole [] v
  | cons {b : UInt8} {u v : List UInt8} : (decode b (u ++ v)).2 ≤ u.length →
      Whole (u.drop (decode b (u ++ v)).2) v → Whole (b :: u) v

namespace Whole

/-- ASCII bytes are whole runes, whatever follows them. -/
theorem of_ascii {u : List UInt8} (h : ∀ x ∈ u, isAscii x = true) (v : List UInt8) :
    Whole u v := by
  induction u with
  | nil => exact .nil v
  | cons b u ih =>
    have hb : (decode b (u ++ v)).2 = 0 := by rw [decode_of_isAscii (h b List.mem_cons_self)]
    refine .cons (by omega) ?_
    rw [hb, List.drop_zero]
    exact ih fun x hx => h x (List.mem_cons_of_mem _ hx)

/-- More text after `v` changes no rune that ends within `u`. -/
theorem decode_append_append {b : UInt8} {u : List UInt8} (v w : List UInt8)
    (h : (decode b (u ++ (v ++ w))).2 ≤ u.length) : decode b (u ++ v) = decode b (u ++ (v ++ w)) := by
  have hlong : (decode b ((u ++ v) ++ w)).2 ≤ (u ++ v).length := by
    rw [List.append_assoc, List.length_append]
    omega
  rw [← List.append_assoc, decode_append_of_le w hlong]

/-- A text read as whole runes before `v ++ w` is read as whole runes before `v`. -/
theorem of_append_right {u v w : List UInt8} (h : Whole u (v ++ w)) : Whole u v := by
  generalize hvw : v ++ w = vw at h
  induction h with
  | nil => exact .nil v
  | cons hk _ ih =>
    subst hvw
    have hd := decode_append_append v w hk
    exact .cons (hd ▸ hk) (hd ▸ ih rfl)

/-- Whole runes before a text of whole runes make whole runes together. -/
theorem append {u p v : List UInt8} (hu : Whole u (p ++ v)) (hp : Whole p v) : Whole (u ++ p) v := by
  generalize hpv : p ++ v = pv at hu
  induction hu with
  | nil => exact hp
  | @cons b u _ hk _ ih =>
    subst hpv
    have hd : decode b ((u ++ p) ++ v) = decode b (u ++ (p ++ v)) := by rw [List.append_assoc]
    rw [List.cons_append]
    refine .cons ?_ ?_
    · rw [hd, List.length_append]
      omega
    · rw [hd, List.drop_append_of_le_length hk]
      exact ih rfl

end Whole

theorem chars_cons (b : UInt8) (rest : List UInt8) :
    chars (b :: rest) = (decode b rest).1 :: chars (rest.drop (decode b rest).2) := by
  rw [chars]

/-- A text read as whole runes before another has its own runes, then the other's. -/
theorem chars_append {u v : List UInt8} (h : Whole u v) : chars (u ++ v) = chars u ++ chars v := by
  induction h with
  | nil => simp [chars]
  | @cons b u v hk _ ih =>
    have hd := decode_append_of_le v hk
    rw [hd] at hk ih
    rw [List.cons_append, chars_cons, chars_cons, hd, List.drop_append_of_le_length hk, ih,
      List.cons_append]

theorem runeCount_append {u v : List UInt8} (h : Whole u v) :
    runeCount (u ++ v) = runeCount u + runeCount v := by
  simp [runeCount, chars_append h]

end Utf8

/-- A lexeme is read as whole runes before the text after it: the ASCII tokens byte by byte, and
a token of another rune is the bytes that rune takes. -/
theorem Lexeme.whole {k : TokenKind} {w r : List UInt8} (h : Lexeme k w r) : Utf8.Whole w r := by
  cases h with
  | mark hm => exact .of_ascii (by simpa using isAscii_of_markKind? hm) r
  | type hb hw | ident hb hw =>
    exact .of_ascii (fun x hx => isAscii_of_isWordByte (isWordByte_of_mem_word hb hw x hx)) r
  | number hb hw =>
    exact .of_ascii (fun x hx => isAscii_of_isNumberByte (isNumberByte_of_mem_number hb hw x hx)) r
  | other _ _ _ _ hk =>
    refine .cons hk.le ?_
    rw [hk, List.drop_length]
    exact .nil r

namespace Lines

/-- The line being read holds bytes read, none of them a newline. -/
theorem mem_last {bs : List UInt8} {x : UInt8} (h : x ∈ last bs) : x ∈ bs ∧ x ≠ 10 := by
  induction bs using List.reverseRecOn with
  | nil => simp [last] at h
  | append_singleton bs b ih =>
    rw [last_append_singleton] at h
    split at h
    · simp at h
    · rcases List.mem_append.1 h with h | h
      · exact ⟨List.mem_append_left _ (ih h).1, (ih h).2⟩
      · rw [List.mem_singleton] at h
        subst h
        exact ⟨by simp, by assumption⟩

/-- After a newline, the line being read is what follows the last newline of the bytes read. -/
theorem last_append_of_mem (a : List UInt8) {b : List UInt8} (h : 10 ∈ b) :
    last (a ++ b) = last b := by
  induction b generalizing a with
  | nil => simp at h
  | cons x b ih =>
    by_cases hx : x = 10
    · subst hx
      simp [last, List.foldl_append]
    · have hb : 10 ∈ b := by
        rcases List.mem_cons.1 h with h | h
        · exact absurd h.symm hx
        · exact h
      rw [← List.singleton_append, ← List.append_assoc, ih _ hb, ih _ hb]

/-- The line being read is the bytes after index `k`, when the byte before `k` is a newline (or
`k` is the start) and no newline follows it. -/
theorem last_eq_drop {bs : List UInt8} {k : Nat} (hk : k ≤ bs.length)
    (hstart : k = 0 ∨ bs[k - 1]? = some 10) (hrest : ∀ x ∈ bs.drop k, x ≠ 10) :
    last bs = bs.drop k := by
  have hhead : last (bs.take k) = [] := by
    rcases Nat.eq_zero_or_pos k with rfl | hpos
    · rfl
    · have hnl : bs[k - 1]? = some 10 := hstart.resolve_left (by omega)
      obtain ⟨j, rfl⟩ : ∃ j, k = j + 1 := ⟨k - 1, by omega⟩
      rw [List.take_add_one, Nat.add_sub_cancel] at *
      rw [hnl, Option.toList_some, last_append_singleton, if_pos rfl]
  calc last bs = last (bs.take k ++ bs.drop k) := by rw [List.take_append_drop]
    _ = last (bs.take k) ++ bs.drop k := last_append_of_forall_ne _ hrest
    _ = bs.drop k := by rw [hhead, List.nil_append]

/-- A line of blanks and newlines is blanks since its last newline. -/
theorem all_isBlank_last {bs : List UInt8} (h : ∀ x ∈ bs, isSpace x = true) :
    (last bs).all isBlank = true := by
  rw [List.all_eq_true]
  intro x hx
  exact isBlank_of_isSpace (h x (mem_last hx).1) (mem_last hx).2

/-- Blanks and newlines after a byte that is no blank leave the line open only past a newline. -/
theorem all_isBlank_last_append_iff (a : List UInt8) {x : UInt8} (hx : isSpace x = false)
    {sp : List UInt8} (hsp : ∀ y ∈ sp, isSpace y = true) :
    (last (a ++ x :: sp)).all isBlank = true ↔ 10 ∈ sp := by
  constructor
  · intro hblank
    by_contra hnl
    have hx10 : x ≠ 10 := fun h => by rw [h] at hx; exact absurd hx (by decide)
    rw [← List.singleton_append, ← List.append_assoc,
      last_append_of_forall_ne _ fun y hy h => hnl (h ▸ hy), last_append_singleton, if_neg hx10,
      List.all_eq_true] at hblank
    have := hblank x (by simp)
    simp only [isSpace, Bool.or_eq_false_iff] at hx
    rw [hx.1] at this
    exact absurd this (by decide)
  · intro hnl
    rw [← List.singleton_append, ← List.append_assoc, last_append_of_mem _ hnl]
    exact all_isBlank_last hsp

end Lines

namespace Cursor

variable {pre r w : List UInt8} {c : Cursor}

/-- A cursor reads a text when it tracks the text `pre` read so far (`Tracks`), the runes of the
line being read end where `pre` ends while `r` is still to come, and its column is one past those
runes. -/
structure Reads (pre r : List UInt8) (c : Cursor) : Prop extends Tracks pre c where
  whole : Utf8.Whole (Lines.last pre) r
  runeColumn : c.column = Utf8.runeCount (Lines.last pre) + 1

theorem Reads.start (s : List UInt8) : Reads [] s Cursor.start :=
  ⟨Tracks.start, .nil s, by simp [Lines.last, Utf8.runeCount, Utf8.chars, Cursor.start]⟩

/-- Reading bytes with no newline, as whole runes, adds their runes to those of the line. -/
theorem Reads.last_append (hc : c.Reads pre (w ++ r)) (hw : Utf8.Whole w r)
    (hnl : ∀ x ∈ w, x ≠ 10) :
    Utf8.Whole (Lines.last (pre ++ w)) r ∧
      Utf8.runeCount (Lines.last (pre ++ w)) = Utf8.runeCount (Lines.last pre) + Utf8.runeCount w := by
  rw [Lines.last_append_of_forall_ne pre hnl]
  exact ⟨hc.whole.append hw, Utf8.runeCount_append hc.whole.of_append_right⟩

/-- Reading a blank or a newline keeps the cursor reading the text. -/
theorem Reads.advance {x : UInt8} (hc : c.Reads pre (x :: r)) (hx : isSpace x = true) :
    (c.advance x).Reads (pre ++ [x]) r := by
  by_cases h10 : x = 10
  · subst h10
    refine ⟨hc.toTracks.advance 10, ?_, ?_⟩
    · rw [Lines.last_append_singleton, if_pos rfl]
      exact .nil r
    · simp [Cursor.advance, Lines.last_append_singleton, Utf8.runeCount, Utf8.chars]
  · have hascii : ∀ y ∈ [x], isAscii y = true := by simpa using isAscii_of_isSpace hx
    obtain ⟨hwhole, hcount⟩ := Reads.last_append (w := [x]) hc (.of_ascii hascii r) (by simpa)
    refine ⟨hc.toTracks.advance x, hwhole, ?_⟩
    rw [hcount, Utf8.runeCount_of_ascii hascii]
    simp [Cursor.advance, h10, hc.runeColumn]

/-- Skipping blanks and newlines keeps the cursor reading the text. -/
theorem Reads.skip {sp : List UInt8} (hc : c.Reads pre (sp ++ r)) (hsp : ∀ x ∈ sp, isSpace x = true) :
    (c.skip sp).Reads (pre ++ sp) r := by
  rw [skip_eq_after c hsp]
  induction sp generalizing pre c with
  | nil => simpa using hc
  | cons x sp ih =>
    rw [after_cons, ← List.singleton_append, ← List.append_assoc]
    exact ih (hc.advance (hsp x List.mem_cons_self)) fun y hy => hsp y (List.mem_cons_of_mem _ hy)

/-- Passing a lexeme keeps the cursor reading the text. -/
theorem Reads.pass {k : TokenKind} (hc : c.Reads pre (w ++ r)) (hw : Lexeme k w r) :
    (c.pass w.length (Utf8.runeCount w)).Reads (pre ++ w) r := by
  obtain ⟨b, w', rfl⟩ := List.exists_cons_of_ne_nil hw.ne_nil
  have hspace := hw.isSpace_eq_false
  have hnl : ∀ x ∈ b :: w', x ≠ 10 := fun x hx h10 => by
    have := hspace x hx
    rw [h10] at this
    exact absurd this (by decide)
  obtain ⟨hwhole, hcount⟩ := hc.last_append hw.whole hnl
  refine ⟨hc.toTracks.pass (hspace b List.mem_cons_self) hnl Utf8.runeCount_of_ascii, hwhole, ?_⟩
  simp only [Cursor.pass, hc.runeColumn, hcount]
  omega

end Cursor

/-- Where a token stands after the text `before`: its offset is the length of that text, its line
one past the newlines in it, its column one past the runes of the line being read, and it opens
its line when that line is blanks so far. -/
structure Token.After (before : List UInt8) (t : Token) : Prop where
  offset : t.offset = before.length
  line : t.line = before.count 10 + 1
  column : t.column = Utf8.runeCount (Lines.last before) + 1
  lineStart : t.lineStart = (Lines.last before).all isBlank

theorem Cursor.Reads.after_token {before r : List UInt8} {c : Cursor} (hc : c.Reads before r)
    (k : TokenKind) (w sp : List UInt8) : (c.token k w sp).After before :=
  ⟨hc.offset, hc.line, hc.runeColumn, hc.lineStart⟩

namespace Tokens

/-- Every token read from a cursor that reads the text stands after the text read before it. -/
theorem after_scanFrom {pre : List UInt8} {c : Cursor} {r : List UInt8} (hc : c.Reads pre r) :
    ∀ ts₁ t ts₂, (scanFrom c r).toList = ts₁ ++ t :: ts₂ →
      t.After (pre ++ ts₁.flatMap Token.text ++ t.space) := by
  induction c, r using scanFrom_induction generalizing pre with
  | blanks c r hr =>
    intro ts₁ t ts₂ h
    rw [toList_scanFrom_of_all_isSpace c hr] at h
    obtain ⟨rfl, rfl, rfl⟩ := eq_of_append_cons_eq_singleton h
    have hskip := Cursor.Reads.skip (r := []) (by simpa using hc) hr
    simpa [Cursor.token] using hskip.after_token .eof [] r
  | token c sp b rest hsp hb ih =>
    intro ts₁ t ts₂ h
    rw [toList_scanFrom_append_cons c hsp hb] at h
    have hskip := Cursor.Reads.skip hc hsp
    rcases List.append_eq_cons_iff.1 h.symm with ⟨rfl, hfirst⟩ | ⟨ts₁', rfl, hlater⟩
    · -- the token cut here stands after the blanks before it
      obtain ⟨rfl, rfl⟩ := List.cons.inj hfirst
      simpa [Cursor.token] using hskip.after_token (Cut.take b rest).kind (Cut.take b rest).lexeme sp
    · -- a later token: the cursor after this one reads the rest
      rw [← Cut.lexeme_append_rest b rest] at hskip
      have hpass := hskip.pass (Cut.lexeme_take hb rest)
      simpa [Token.text, Cursor.token, List.append_assoc] using ih hpass ts₁' t ts₂ hlater

/-- The text a stream was read from, up to where a token's lexeme starts, is the text of the
tokens before it and the token's space. -/
theorem take_offset_scan {s : List UInt8} {ts₁ ts₂ : List Token} {t : Token}
    (h : (scan s).toList = ts₁ ++ t :: ts₂) (hoff : t.offset = (ts₁.flatMap Token.text ++ t.space).length) :
    s.take t.offset = ts₁.flatMap Token.text ++ t.space := by
  have hs : s = (ts₁.flatMap Token.text ++ t.space) ++ (t.lexeme ++ ts₂.flatMap Token.text) := by
    rw [← text_scanFrom Cursor.start s, ← scan, h]
    simp [Token.text]
  rw [hoff, hs]
  exact List.take_left' rfl

/-- A token opens its line exactly when it is the first token or its space holds a newline. -/
theorem lineStart_iff_scan {s : List UInt8} {ts₁ ts₂ : List Token} {t : Token}
    (h : (scan s).toList = ts₁ ++ t :: ts₂) :
    (Lines.last (ts₁.flatMap Token.text ++ t.space)).all isBlank = true ↔
      ts₁ = [] ∨ 10 ∈ t.space := by
  have hsp := (lexeme_scan s).2.1 t (by rw [h]; simp)
  rcases List.eq_nil_or_concat ts₁ with rfl | ⟨ts₀, u, rfl⟩
  · simpa using Lines.all_isBlank_last hsp
  · -- the token before ends with a byte that is no blank
    rw [List.concat_eq_append] at h ⊢
    have hu := (lexeme_scan s).2.2 ts₀ u (t :: ts₂) (by rw [h]; simp)
    obtain ⟨-, -, hlex⟩ := hu.resolve_left (by simp)
    obtain ⟨w, x, hw⟩ := List.eq_nil_or_concat u.lexeme |>.resolve_left hlex.ne_nil
    rw [List.concat_eq_append] at hw
    have hx : isSpace x = false := hlex.isSpace_eq_false x (by simp [hw])
    have htext : (ts₀ ++ [u]).flatMap Token.text ++ t.space =
        (ts₀.flatMap Token.text ++ u.space ++ w) ++ x :: t.space := by
      simp [Token.text, hw]
    rw [htext, Lines.all_isBlank_last_append_iff _ hx hsp]
    simp

/-- Every token of a text stands where the text before it puts it: its offset is the number of
bytes before its lexeme, which the spaces and lexemes of the earlier tokens and its own space
fill; its line is one past the newlines before it; its column is one past the runes from the
last newline before it, and it opens its line exactly when only blanks stand there, that is
when it is the first token or its space holds a newline. -/
theorem position_scan (s : List UInt8) {ts₁ ts₂ : List Token} {t : Token}
    (h : (scan s).toList = ts₁ ++ t :: ts₂) :
    t.offset = (ts₁.flatMap Token.text).length + t.space.length ∧
    t.line = (s.take t.offset).count 10 + 1 ∧
    (∀ k ≤ t.offset, (k = 0 ∨ s[k - 1]? = some 10) → (∀ x ∈ (s.take t.offset).drop k, x ≠ 10) →
      t.column = Utf8.runeCount ((s.take t.offset).drop k) + 1 ∧
      (t.lineStart = true ↔ ∀ x ∈ (s.take t.offset).drop k, isBlank x = true)) ∧
    (t.lineStart = true ↔ ts₁ = [] ∨ 10 ∈ t.space) := by
  have hafter := after_scanFrom (Cursor.Reads.start s) ts₁ t ts₂ h
  rw [List.nil_append] at hafter
  have htake := take_offset_scan h hafter.offset
  refine ⟨by simpa using hafter.offset, by rw [htake, hafter.line], fun k hk hstart hrest => ?_, ?_⟩
  · -- from index `k` on, the text before the token is the line it stands on
    have hstart' : k = 0 ∨ (s.take t.offset)[k - 1]? = some 10 := by
      rcases hstart with rfl | hstart
      · exact .inl rfl
      · rcases Nat.eq_zero_or_pos k with rfl | hpos
        · exact .inl rfl
        · exact .inr (by rw [List.getElem?_take, if_pos (by omega), hstart])
    have hlen : (s.take t.offset).length = t.offset := by rw [htake, hafter.offset]
    have hlast := Lines.last_eq_drop (by rw [hlen]; exact hk) hstart' hrest
    rw [hafter.column, hafter.lineStart, ← htake, hlast, List.all_eq_true]
    exact ⟨rfl, Iff.rfl⟩
  · rw [hafter.lineStart]
    exact lineStart_iff_scan h

/-- After a newline, `é` and a blank, the identifier `x` stands at byte 4 but at column 3: the
two bytes of `é` are one rune. -/
theorem position_scan_accent :
    (scan [10, 0xC3, 0xA9, 32, 0x78]).toList =
        [⟨.other, [0xC3, 0xA9], [10], true, 2, 1, 1⟩] ++
          ⟨.ident, [0x78], [32], false, 2, 3, 4⟩ :: [⟨.eof, [], [], false, 2, 4, 5⟩] ∧
      3 = Utf8.runeCount [0xC3, 0xA9, 32] + 1 := by
  have h : (scan [10, 0xC3, 0xA9, 32, 0x78]).toList =
      [⟨.other, [0xC3, 0xA9], [10], true, 2, 1, 1⟩] ++
        ⟨.ident, [0x78], [32], false, 2, 3, 4⟩ :: [⟨.eof, [], [], false, 2, 4, 5⟩] := by
    decide +kernel
  refine ⟨h, ?_⟩
  simpa using ((position_scan _ h).2.2.1 1 (by decide) (.inr rfl) (by simp)).1

end Tokens

end ShaderHeaders
