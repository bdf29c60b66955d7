import ShaderHeaders.Glsl.Token

/-!
# Words

Names and type spellings are ASCII, one byte to a character. This module says what an
identifier and a name are as bytes, and ties bytes and text together where both are ASCII:

* `Utf8.ascii_bytes`, `Utf8.bytes_ascii`: the bytes of an ASCII text and the text of ASCII
  bytes undo each other, and `Utf8.runeCount_of_ascii`: ASCII bytes are one rune each;
* `TypeName.ofSpelling?_ascii_eq_some`: a word names a type exactly when it is the bytes of that
  type's spelling (`TypeName.word`);
* the byte classes of the lexer do not overlap: no blank is part of a word, and the six marks
  are neither.
-/

namespace ShaderHeaders

namespace Source

/-- An identifier: a letter or `_`, then letters, digits and `_`. -/
def isIdent : List UInt8 → Bool
  | [] => false
  | b :: bs => isWordStart b && bs.all isWordByte

/-- A name: an identifier that is not the spelling of a type. -/
def isName (w : List UInt8) : Bool :=
  isIdent w && (TypeName.ofSpelling? (Utf8.ascii w)).isNone

/-- A byte below `0x80`, a character of its own. -/
def isAscii (b : UInt8) : Bool := b < 128

theorem isAscii_iff {b : UInt8} : isAscii b = true ↔ b.toNat < 128 := by
  simp [isAscii, UInt8.lt_iff_toNat_lt]

theorem isWordByte_of_isWordStart {b : UInt8} (h : isWordStart b = true) :
    isWordByte b = true := by
  simp [isWordByte, h]

theorem isSpace_eq_false_of_isWordByte {b : UInt8} (h : isWordByte b = true) :
    isSpace b = false := by
  simp [isWordByte, isWordStart, isLetter, isDigit, isSpace, isBlank, UInt8.le_iff_toNat_le,
    ← UInt8.toNat_inj] at h ⊢
  omega

theorem isAscii_of_isWordByte {b : UInt8} (h : isWordByte b = true) : isAscii b = true := by
  simp [isWordByte, isWordStart, isLetter, isDigit, UInt8.le_iff_toNat_le,
    ← UInt8.toNat_inj] at h
  rw [isAscii_iff]
  omega

theorem isAscii_of_isSpace {b : UInt8} (h : isSpace b = true) : isAscii b = true := by
  simp [isSpace, isBlank, ← UInt8.toNat_inj] at h
  rw [isAscii_iff]
  omega

theorem isBlank_of_isSpace {b : UInt8} (h : isSpace b = true) (hb : b ≠ 10) : isBlank b = true := by
  simpa [isSpace, hb] using h

/-- The six marks are the bytes `(`, `)`, `{`, `}`, `,` and `;`. -/
theorem mem_of_markKind? {b : UInt8} {k : TokenKind} (h : markKind? b = some k) :
    b ∈ [40, 41, 123, 125, 44, 59] := by
  unfold markKind? at h
  repeat' split at h
  all_goals (subst_vars; first | decide | simp at h)

/-- What holds of the six mark bytes holds of the byte of any mark. -/
theorem of_markKind? (p : UInt8 → Bool) {b : UInt8} {k : TokenKind} (h : markKind? b = some k)
    (hp : [40, 41, 123, 125, 44, 59].all p = true) : p b = true :=
  List.all_eq_true.1 hp b (mem_of_markKind? h)

theorem isSpace_of_markKind? {b : UInt8} {k : TokenKind} (h : markKind? b = some k) :
    isSpace b = false := by
  simpa using of_markKind? (fun b => !isSpace b) h rfl

theorem isWordByte_of_markKind? {b : UInt8} {k : TokenKind} (h : markKind? b = some k) :
    isWordByte b = false := by
  simpa using of_markKind? (fun b => !isWordByte b) h rfl

theorem isAscii_of_markKind? {b : UInt8} {k : TokenKind} (h : markKind? b = some k) :
    isAscii b = true :=
  of_markKind? isAscii h rfl

theorem markKind?_of_isWordStart {b : UInt8} (h : isWordStart b = true) : markKind? b = none := by
  cases hk : markKind? b with
  | none => rfl
  | some k =>
    have hw := isWordByte_of_markKind? hk
    rw [isWordByte_of_isWordStart h] at hw
    exact absurd hw (by decide)

theorem isWordByte_of_isIdent {w : List UInt8} (h : isIdent w = true) :
    ∀ b ∈ w, isWordByte b = true := by
  cases w with
  | nil => simp [isIdent] at h
  | cons b w =>
    simp only [isIdent, Bool.and_eq_true, List.all_eq_true] at h
    intro c hc
    rcases List.mem_cons.1 hc with rfl | hc
    · exact isWordByte_of_isWordStart h.1
    · exact h.2 c hc

theorem isAscii_of_isIdent {w : List UInt8} (h : isIdent w = true) : ∀ b ∈ w, isAscii b = true :=
  fun b hb => isAscii_of_isWordByte (isWordByte_of_isIdent h b hb)

/-- An identifier holds no newline. -/
theorem ne_newline_of_isIdent {w : List UInt8} (h : isIdent w = true) : ∀ b ∈ w, b ≠ 10 := by
  intro b hb hnl
  have hsp := isSpace_eq_false_of_isWordByte (isWordByte_of_isIdent h b hb)
  rw [hnl] at hsp
  exact absurd hsp (by decide)

theorem isIdent_of_isName {w : List UInt8} (h : isName w = true) : isIdent w = true := by
  simp only [isName, Bool.and_eq_true] at h
  exact h.1

end Source

open Source

namespace Utf8

theorem toList_eq_data_toList (b : ByteArray) : b.toList = b.data.toList := by
  suffices h : ∀ i r, ByteArray.toList.loop b i r = r.reverse ++ b.data.toList.drop i by
    simpa [ByteArray.toList] using h 0 []
  intro i r
  fun_induction ByteArray.toList.loop b i r with
  | case1 i r hi ih =>
    rw [ih, List.reverse_cons, List.append_assoc, List.singleton_append]
    congr 1
    have hi' : i < b.data.toList.length := by simpa using hi
    rw [List.drop_eq_getElem_cons hi']
    simp [ByteArray.get!, hi]
  | case2 i r hi =>
    have : b.data.toList.length ≤ i := by simpa using hi
    simp [List.drop_eq_nil_of_le this]

/-- The bytes of a text are the encodings of its characters, one after the other. -/
theorem bytes_eq_flatMap (s : String) : bytes s = s.toList.flatMap String.utf8EncodeChar := by
  rw [bytes, String.toUTF8_eq_toByteArray, ← String.utf8Encode_toList, toList_eq_data_toList,
    List.utf8Encode, List.toList_data_toByteArray]

@[simp] theorem bytes_empty : bytes "" = [] := by rw [bytes_eq_flatMap]; rfl

theorem bytes_append (s t : String) : bytes (s ++ t) = bytes s ++ bytes t := by
  simp [bytes_eq_flatMap]

/-- A text of ASCII characters is one byte per character, its code. With `simp` this evaluates
the bytes of the punctuation that writers put between fields. -/
theorem bytes_of_ascii (s : String) (h : ∀ c ∈ s.toList, c.toNat < 128) :
    bytes s = s.toList.map fun c => c.toNat.toUInt8 := by
  rw [bytes_eq_flatMap]
  generalize s.toList = cs at h ⊢
  induction cs with
  | nil => rfl
  | cons c cs ih =>
    rw [List.forall_mem_cons] at h
    rw [List.flatMap_cons, List.map_cons, ih h.2]
    have hval : c.val.toNat < 128 := h.1
    simp only [String.utf8EncodeChar, show c.val.toNat ≤ 127 by omega, if_true]
    rfl

theorem decode_of_isAscii {b : UInt8} (hb : isAscii b = true) (rest : List UInt8) :
    decode b rest = (Char.ofNat b.toNat, 0) := by
  have : b < 0x80 := by simpa [isAscii] using hb
  simp [decode, decode?, this]

theorem chars_of_ascii : ∀ {w : List UInt8}, (∀ b ∈ w, isAscii b = true) →
    chars w = w.map fun b => Char.ofNat b.toNat
  | [], _ => by simp [chars]
  | b :: w, h => by
    rw [chars, decode_of_isAscii (h b List.mem_cons_self)]
    simp only [List.drop_zero, List.map_cons]
    rw [chars_of_ascii fun c hc => h c (List.mem_cons_of_mem _ hc)]

theorem runeCount_of_ascii {w : List UInt8} (h : ∀ b ∈ w, isAscii b = true) :
    runeCount w = w.length := by
  simp [runeCount, chars_of_ascii h]

theorem toNat_charOfNat (b : UInt8) : (Char.ofNat b.toNat).toNat = b.toNat := by
  have hb := b.toNat_lt
  have hv : b.toNat.isValidChar := Or.inl (by omega)
  rw [Char.ofNat, dif_pos hv]
  rfl

/-- Distinct bytes spell distinct texts. -/
theorem ascii_injective {w w' : List UInt8} (h : ascii w = ascii w') : w = w' := by
  have h₁ := congrArg String.toList h
  simp only [ascii, String.toList_ofList] at h₁
  refine (List.map_inj_right fun a b hab => ?_).mp h₁
  have := congrArg Char.toNat hab
  rw [toNat_charOfNat, toNat_charOfNat] at this
  exact UInt8.toNat_inj.1 this

theorem utf8EncodeChar_charOfNat {b : UInt8} (hb : isAscii b = true) :
    String.utf8EncodeChar (Char.ofNat b.toNat) = [b] := by
  have hb' := isAscii_iff.1 hb
  have hc := toNat_charOfNat b
  have hval : (Char.ofNat b.toNat).val ≤ 127 := by
    rw [UInt32.le_iff_toNat_le, Char.toNat_val, hc]
    simp only [UInt32.reduceToNat]
    omega
  rw [String.utf8EncodeChar_eq_singleton (Char.utf8Size_eq_one_iff.2 hval)]
  congr 1
  apply UInt8.toNat_inj.1
  rw [UInt32.toNat_toUInt8, Char.toNat_val, hc]
  omega

/-- The text of ASCII bytes has those bytes. -/
theorem bytes_ascii {w : List UInt8} (h : ∀ b ∈ w, isAscii b = true) : bytes (ascii w) = w := by
  rw [bytes_eq_flatMap, ascii, String.toList_ofList, List.flatMap_map]
  induction w with
  | nil => rfl
  | cons b w ih =>
    rw [List.flatMap_cons, utf8EncodeChar_charOfNat (h b List.mem_cons_self),
      ih fun c hc => h c (List.mem_cons_of_mem _ hc)]
    rfl

/-- A character whose encoding is ASCII is one byte, read back as itself. -/
theorem utf8EncodeChar_of_isAscii {c : Char}
    (h : ∀ b ∈ String.utf8EncodeChar c, isAscii b = true) :
    String.utf8EncodeChar c = [c.val.toUInt8] ∧ Char.ofNat c.val.toUInt8.toNat = c := by
  by_cases hc : c.val ≤ 127
  · refine ⟨String.utf8EncodeChar_eq_singleton (Char.utf8Size_eq_one_iff.2 hc), ?_⟩
    have hc' : c.val.toNat ≤ 127 := by simpa [UInt32.le_iff_toNat_le] using hc
    rw [UInt32.toNat_toUInt8, Nat.mod_eq_of_lt (by omega)]
    exact Char.ofNat_toNat c
  · exfalso
    obtain ⟨b, rest, hbr⟩ := List.exists_cons_of_ne_nil (String.utf8EncodeChar_ne_nil (c := c))
    have hb := isAscii_iff.1 (h b (by simp [hbr]))
    have hc' : ¬ c.val.toNat ≤ 127 := by simpa [UInt32.le_iff_toNat_le] using hc
    unfold String.utf8EncodeChar at hbr
    -- the first byte of a longer encoding is at least `0xC0`
    simp only [hc', ite_false] at hbr
    split at hbr <;> (try split at hbr) <;>
      (simp only [List.cons.injEq] at hbr; rw [← hbr.1, UInt8.toNat_ofNat'] at hb; omega)

/-- The bytes of a text whose bytes are ASCII read back as that text. -/
theorem ascii_bytes {s : String} (h : ∀ b ∈ bytes s, isAscii b = true) : ascii (bytes s) = s := by
  rw [bytes_eq_flatMap] at h ⊢
  suffices hl : ∀ l : List Char, (∀ b ∈ l.flatMap String.utf8EncodeChar, isAscii b = true) →
      (l.flatMap String.utf8EncodeChar).map (fun b => Char.ofNat b.toNat) = l by
    rw [ascii, hl s.toList h, String.ofList_toList]
  intro l hl
  induction l with
  | nil => rfl
  | cons c l ih =>
    rw [List.flatMap_cons] at hl ⊢
    have hc := utf8EncodeChar_of_isAscii fun b hb => hl b (List.mem_append_left _ hb)
    rw [hc.1, List.singleton_append, List.map_cons, hc.2,
      ih fun b hb => hl b (by rw [hc.1]; exact List.mem_cons_of_mem _ hb)]

end Utf8

namespace TypeName

/-- The bytes of a type's spelling. -/
def word (t : TypeName) : List UInt8 := t.render.toList.map fun c => c.toNat.toUInt8

/-- A valid type name is one of the nine codes. -/
theorem eq_of_valid {t : TypeName} (h : t.valid = true) :
    t.code.toNat < 9 ∧ t = ⟨t.code.toNat.toUInt8⟩ := by
  refine ⟨by simpa [valid, UInt8.lt_iff_toNat_lt] using h, by simp⟩

theorem ascii_word {t : TypeName} (h : t.valid = true) : Utf8.ascii t.word = t.render := by
  obtain ⟨hn, ht⟩ := eq_of_valid h
  have hall : ∀ n < 9, Utf8.ascii (word ⟨n.toUInt8⟩) = render ⟨n.toUInt8⟩ := by decide
  rw [ht]
  exact hall _ hn

theorem isIdent_word {t : TypeName} (h : t.valid = true) : isIdent t.word = true := by
  obtain ⟨hn, ht⟩ := eq_of_valid h
  have hall : ∀ n < 9, isIdent (word ⟨n.toUInt8⟩) = true := by decide
  rw [ht]
  exact hall _ hn

theorem bytes_render {t : TypeName} (h : t.valid = true) : Utf8.bytes t.render = t.word := by
  obtain ⟨hn, ht⟩ := eq_of_valid h
  have hall : ∀ n < 9, (render ⟨n.toUInt8⟩).toList.flatMap String.utf8EncodeChar =
      word ⟨n.toUInt8⟩ := by decide
  rw [ht, Utf8.bytes_eq_flatMap]
  exact hall _ hn

/-- The type a text names is the type it spells, and only a valid type has a spelling. -/
theorem ofSpelling?_eq_some {s : String} {t : TypeName} :
    ofSpelling? s = some t ↔ t.valid = true ∧ t.render = s := by
  have hall : ∀ n, ∀ h : n < spellings.length, render ⟨n.toUInt8⟩ = spellings[n] := by decide
  constructor
  · intro h
    obtain ⟨i, hi, rfl⟩ := Option.map_eq_some_iff.1 h
    obtain ⟨hlt, hget, -⟩ := List.idxOf?_eq_some_iff.1 hi
    have hlt' : i < 9 := hlt
    refine ⟨?_, by rw [hall i hlt, hget]⟩
    simp [valid, UInt8.lt_iff_toNat_lt]
    omega
  · rintro ⟨hv, rfl⟩
    obtain ⟨hn, ht⟩ := eq_of_valid hv
    have hall : ∀ n < 9, ofSpelling? (render ⟨n.toUInt8⟩) = some ⟨n.toUInt8⟩ := by decide
    rw [ht]
    exact hall _ hn

/-- A word names the type whose spelling it is, and no other. -/
theorem ofSpelling?_ascii_eq_some {w : List UInt8} {t : TypeName} :
    ofSpelling? (Utf8.ascii w) = some t ↔ t.valid = true ∧ w = t.word := by
  rw [ofSpelling?_eq_some]
  constructor
  · rintro ⟨hv, hw⟩
    exact ⟨hv, Utf8.ascii_injective (by rw [ascii_word hv, hw])⟩
  · rintro ⟨hv, rfl⟩
    exact ⟨hv, (ascii_word hv).symm⟩

end TypeName

end ShaderHeaders
