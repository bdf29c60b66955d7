import ShaderHeaders.Proofs.Words
import ShaderHeaders.Json.Reader

/-!
# Compact JSON text reads back

The reader undoes the compact writer on the values a signature is written with: strings,
`null`, and arrays and objects of such values. Each step of the string reader takes one written
rune: a short escape such as `\n`, a `\u` escape, or the rune's own UTF-8 bytes, which the
decoder reads back whatever follows them (`Utf8.decode?_utf8EncodeChar`). So a string literal
reads back before anything (`stringBody_quote`), and members and items read back one after the
other up to the closing bracket (`members_compact`, `items_compact`).

* `Json.Reads depth v`: the compact text of `v`, followed by anything, reads as `v` inside
  `depth` open arrays and objects.
* `reads_str`, `reads_null`, `reads_arr`, `reads_obj`: strings and `null` read back, and so do
  arrays and objects below the nesting limit of values that read back inside them.
* `parse_compact`: the compact text of such a value is a document that parses to it.
* `Utf8.lossy_bytes`: by the same reading of runes, a text's bytes decode back to the text.
-/

namespace ShaderHeaders.Utf8

/-- A byte in the bounds that a lead byte sets for the byte after it. -/
theorem isSecond_of (lead b : UInt8) (hlo : 0x80 ≤ b.toNat) (hhi : b.toNat ≤ 0xBF)
    (hE0 : lead.toNat = 0xE0 → 0xA0 ≤ b.toNat) (hED : lead.toNat = 0xED → b.toNat ≤ 0x9F)
    (hF0 : lead.toNat = 0xF0 → 0x90 ≤ b.toNat) (hF4 : lead.toNat = 0xF4 → b.toNat ≤ 0x8F) :
    isSecond lead b = true := by
  unfold isSecond secondRange
  by_cases h₁ : lead = 0xE0
  · simp [h₁, UInt8.le_iff_toNat_le] at hE0 ⊢; omega
  by_cases h₂ : lead = 0xED
  · simp [h₂, UInt8.le_iff_toNat_le] at hED ⊢; omega
  by_cases h₃ : lead = 0xF0
  · simp [h₃, UInt8.le_iff_toNat_le] at hF0 ⊢; omega
  by_cases h₄ : lead = 0xF4
  · simp [h₄, UInt8.le_iff_toNat_le] at hF4 ⊢; omega
  simp [h₁, h₂, h₃, h₄, UInt8.le_iff_toNat_le]; omega

/-- The decoder reads back the bytes the encoder writes for a rune, whatever follows them; the
first byte is the code point itself or a lead byte from `0xC0` on. -/
theorem decode?_utf8EncodeChar (c : Char) :
    ∃ b bs, String.utf8EncodeChar c = b :: bs ∧ (b.toNat = c.toNat ∨ 0xC0 ≤ b.toNat) ∧
      ∀ rest, decode? b (bs ++ rest) = some (c, bs.length) := by
  have hc : Char.ofNat c.val.toNat = c := Char.ofNat_toNat c
  have hvalid : c.val.toNat < 0xd800 ∨ (0xdfff < c.val.toNat ∧ c.val.toNat < 0x110000) :=
    c.valid
  rw [show c.toNat = c.val.toNat from rfl]
  unfold String.utf8EncodeChar
  dsimp only
  generalize c.val.toNat = v at hc hvalid ⊢
  subst hc
  -- one byte below `0x80`, then two, three and four bytes
  split
  · refine ⟨_, [], rfl, by simp; omega, fun rest => ?_⟩
    have hlt : v < 256 := by omega
    simp [decode?, UInt8.lt_iff_toNat_lt, UInt8.toNat_ofNat, Nat.mod_eq_of_lt hlt]
    omega
  split
  · refine ⟨_, [_], rfl, by simp; omega, fun rest => ?_⟩
    simp [decode?, UInt8.lt_iff_toNat_lt, UInt8.le_iff_toNat_le, UInt8.toNat_ofNat, isCont, payload]
    rw [if_neg (by omega), if_pos (by omega), if_pos (by omega),
      show (v / 64 + 192) % 32 * 64 + (v + 128) % 64 = v by omega]
  split
  · -- the second byte of three lies in the range the lead byte allows: no surrogate, no overlong
    refine ⟨_, [_, _], rfl, by simp; omega, fun rest => ?_⟩
    have hsec := isSecond_of (UInt8.ofNat (v / 4096 % 16 + 224))
      (UInt8.ofNat (v / 64 % 64 + 128)) (by simp; omega) (by simp; omega) (by simp; omega)
      (by simp; omega) (by simp; omega) (by simp; omega)
    simp only [decode?, List.cons_append, List.nil_append, List.length_cons, List.length_nil, hsec]
    simp [UInt8.lt_iff_toNat_lt, UInt8.le_iff_toNat_le, UInt8.toNat_ofNat, isCont, payload]
    rw [if_neg (by omega), if_neg (by omega), if_pos (by omega), if_pos (by omega),
      show (v / 4096 + 224) % 16 * 4096 + (v / 64 + 128) % 64 * 64 + (v + 128) % 64 = v by omega]
  · refine ⟨_, [_, _, _], rfl, by simp; omega, fun rest => ?_⟩
    have hsec := isSecond_of (UInt8.ofNat (v / 262144 % 8 + 240))
      (UInt8.ofNat (v / 4096 % 64 + 128)) (by simp; omega) (by simp; omega) (by simp; omega)
      (by simp; omega) (by simp; omega) (by simp; omega)
    simp only [decode?, List.cons_append, List.nil_append, List.length_cons, List.length_nil, hsec]
    simp [UInt8.lt_iff_toNat_lt, UInt8.le_iff_toNat_le, UInt8.toNat_ofNat, isCont, payload]
    rw [if_neg (by omega), if_neg (by omega), if_neg (by omega), if_pos (by omega),
      if_pos (by omega), show (v / 262144 + 240) % 8 * 262144 + (v / 4096 + 128) % 64 * 4096 +
        (v / 64 + 128) % 64 * 64 + (v + 128) % 64 = v by omega]

/-- Decoding the encodings of runes one after the other gives the runes back. -/
theorem chars_flatMap_utf8EncodeChar (cs : List Char) :
    chars (cs.flatMap String.utf8EncodeChar) = cs := by
  induction cs with
  | nil => simp [chars]
  | cons c cs ih =>
    obtain ⟨b, bs, henc, -, hdec⟩ := decode?_utf8EncodeChar c
    have hd : decode b (bs ++ cs.flatMap String.utf8EncodeChar) = (c, bs.length) := by
      simp [decode, hdec]
    rw [List.flatMap_cons, henc, List.cons_append, chars, hd, List.drop_left, ih]

/-- A text read back from its bytes is the text itself. -/
theorem lossy_bytes (s : String) : lossy (bytes s) = s := by
  rw [lossy, bytes_eq_flatMap, chars_flatMap_utf8EncodeChar, String.ofList_toList]

end ShaderHeaders.Utf8

namespace ShaderHeaders.Json

open Utf8

section Strings

variable {fuel : Nat} {acc : List Char} {more : List UInt8}

/-- A one-letter escape reads as its rune. -/
theorem stringBody_simpleEscape {e : UInt8} {c : Char} (h : simpleEscape e = some c)
    (hu : e ≠ 117) :
    stringBody (fuel + 1) acc (92 :: e :: more) = stringBody fuel (c :: acc) more := by
  simp [stringBody, h, hu]

/-- A `\u` escape of a code unit that is no surrogate reads as its rune. -/
theorem stringBody_unicode {n : Nat} (bs : List UInt8) (hbs : hex4 (bs ++ more) = .ok (n, more))
    (hn : isSurrogate n = false) :
    stringBody (fuel + 1) acc (92 :: 117 :: (bs ++ more)) =
      stringBody fuel (Char.ofNat n :: acc) more := by
  simp [stringBody, hbs, escapedRune, hn]

/-- A rune written as itself reads as itself. -/
theorem stringBody_plain {b : UInt8} {bs : List UInt8} {c : Char} (h34 : b ≠ 34) (h92 : b ≠ 92)
    (h32 : 32 ≤ b.toNat) (hd : decode? b (bs ++ more) = some (c, bs.length)) :
    stringBody (fuel + 1) acc (b :: (bs ++ more)) = stringBody fuel (c :: acc) more := by
  have hlt : ¬ b < 32 := by simpa [UInt8.lt_iff_toNat_lt] using h32
  simp [stringBody, h34, h92, hlt, decode, hd]

/-- Two hexadecimal digits of a byte value. -/
theorem hex_two {n : Nat} (hn : n < 256) :
    Decimal.hex 2 n = String.ofList [Nat.digitChar (n / 16), Nat.digitChar (n % 16)] := by
  unfold Decimal.hex
  by_cases h : n < 16
  · rw [Nat.toDigits_of_lt_base h, Nat.div_eq_of_lt h, Nat.mod_eq_of_lt h]
    rfl
  · rw [Nat.toDigits_of_base_le (by decide) (by omega),
      Nat.toDigits_of_lt_base (by omega : n / 16 < 16)]
    rfl

/-- A hexadecimal digit is one byte, read back as its value. -/
theorem utf8EncodeChar_digitChar :
    ∀ d < 16, String.utf8EncodeChar (Nat.digitChar d) = [UInt8.ofNat (Nat.digitChar d).toNat] ∧
      hexValue? (UInt8.ofNat (Nat.digitChar d).toNat) = some d := by
  decide

/-- The escape `\u00XY` of a byte value reads back as that value. -/
theorem hex4_hex_two {n : Nat} (hn : n < 256) (more : List UInt8) :
    hex4 (48 :: 48 :: (Utf8.bytes (Decimal.hex 2 n) ++ more)) = .ok (n, more) := by
  obtain ⟨h₁, hv₁⟩ := utf8EncodeChar_digitChar (n / 16) (by omega)
  obtain ⟨h₂, hv₂⟩ := utf8EncodeChar_digitChar (n % 16) (by omega)
  have h48 : hexValue? 48 = some 0 := rfl
  simp only [hex_two hn, bytes_eq_flatMap, String.toList_ofList, List.flatMap_cons,
    List.flatMap_nil, h₁, h₂, List.cons_append, List.nil_append, List.append_nil, hex4, hv₁,
    hv₂, h48]
  rw [show ((0 * 16 + 0) * 16 + n / 16) * 16 + n % 16 = n by omega]

/-- Inside a string literal, the text `t` is read in one step of the string reader as the rune
`c`, whatever follows it. -/
def ReadsAsRune (t : String) (c : Char) : Prop :=
  ∃ b bs, Utf8.bytes t = b :: bs ∧ ∀ fuel acc more,
    stringBody (fuel + 1) acc (b :: (bs ++ more)) = stringBody fuel (c :: acc) more

theorem readsAsRune_shortEscape {t : String} {e : UInt8} {c : Char} (ht : Utf8.bytes t = [92, e])
    (h : simpleEscape e = some c) (hu : e ≠ 117) : ReadsAsRune t c :=
  ⟨92, [e], ht, fun _ _ _ => stringBody_simpleEscape h hu⟩

/-- Every rune, escaped or written as itself, is read back by one step of the string reader. -/
theorem readsAsRune_escapeChar (c : Char) : ReadsAsRune (escapeChar c) c := by
  have hc := Char.ofNat_toNat c
  unfold escapeChar
  -- the seven short escapes `\"`, `\\`, `\n`, `\r`, `\t`, `\b` and `\f`
  split
  next h => subst h; exact readsAsRune_shortEscape (by rw [bytes_eq_flatMap]; rfl) rfl (by decide)
  split
  next h => subst h; exact readsAsRune_shortEscape (by rw [bytes_eq_flatMap]; rfl) rfl (by decide)
  split
  next h => subst h; exact readsAsRune_shortEscape (by rw [bytes_eq_flatMap]; rfl) rfl (by decide)
  split
  next h => subst h; exact readsAsRune_shortEscape (by rw [bytes_eq_flatMap]; rfl) rfl (by decide)
  split
  next h => subst h; exact readsAsRune_shortEscape (by rw [bytes_eq_flatMap]; rfl) rfl (by decide)
  split
  next h =>
    rw [← hc, h]
    exact readsAsRune_shortEscape (by rw [bytes_eq_flatMap]; rfl) rfl (by decide)
  split
  next h =>
    rw [← hc, h]
    exact readsAsRune_shortEscape (by rw [bytes_eq_flatMap]; rfl) rfl (by decide)
  split
  next h =>
    -- a control character or one of `<`, `>`, `&`: six bytes `\u00XY`
    have hn : c.toNat < 256 := by
      simp only [Bool.or_eq_true, decide_eq_true_eq] at h
      rcases h with ((h | rfl) | rfl) | rfl
      · omega
      all_goals decide
    refine ⟨92, 117 :: 48 :: 48 :: Utf8.bytes (Decimal.hex 2 c.toNat), ?_,
      fun fuel acc more => ?_⟩
    · have hu : Utf8.bytes "\\u00" = [92, 117, 48, 48] := by rw [bytes_eq_flatMap]; rfl
      rw [bytes_append, hu]
      rfl
    · have hsur : isSurrogate c.toNat = false := by simp [isSurrogate]; omega
      have hstep : stringBody (fuel + 1) acc
          (92 :: 117 :: (48 :: 48 :: Utf8.bytes (Decimal.hex 2 c.toNat) ++ more)) =
            stringBody fuel (Char.ofNat c.toNat :: acc) more :=
        stringBody_unicode _ (hex4_hex_two hn more) hsur
      simpa [hc] using hstep
  split
  next h =>
    -- the line and paragraph separators: `\u2028` and `\u2029`
    simp only [Bool.or_eq_true, decide_eq_true_eq] at h
    rcases h with h | h
    · obtain rfl : c = Char.ofNat 0x2028 := by rw [← hc, h]
      exact ⟨92, [117, 50, 48, 50, 56], by rw [bytes_eq_flatMap]; decide,
        fun _ _ _ => stringBody_unicode [50, 48, 50, 56] rfl rfl⟩
    · obtain rfl : c = Char.ofNat 0x2029 := by rw [← hc, h]
      exact ⟨92, [117, 50, 48, 50, 57], by rw [bytes_eq_flatMap]; decide,
        fun _ _ _ => stringBody_unicode [50, 48, 50, 57] rfl rfl⟩
  -- any other rune stands as itself: its first byte is no quotation mark, backslash or control
  rename_i hq hb hn hr ht h8 h12 hu hs
  obtain ⟨b, bs, henc, hhead, hdec⟩ := Utf8.decode?_utf8EncodeChar c
  refine ⟨b, bs, by simp [bytes_eq_flatMap, henc], fun fuel acc more => ?_⟩
  have hq' : c.toNat ≠ 34 := fun h => hq (by rw [← hc, h])
  have hb' : c.toNat ≠ 92 := fun h => hb (by rw [← hc, h])
  have hu' : 32 ≤ c.toNat := by
    simp only [Bool.or_eq_true, decide_eq_true_eq, not_or] at hu
    omega
  have h34 : b ≠ 34 := fun h => by subst h; simp at hhead; omega
  have h92 : b ≠ 92 := fun h => by subst h; simp at hhead; omega
  exact stringBody_plain h34 h92 (by omega) (hdec more)

/-- The bytes of a string literal: its runes escaped, between quotation marks. -/
theorem bytes_quote (s : String) :
    Utf8.bytes (quote s) =
      34 :: ((s.toList.flatMap fun c => Utf8.bytes (escapeChar c)) ++ [34]) := by
  simp only [quote, bytes_append, bytes_of_ascii "\"" (by simp)]
  simp [bytes_eq_flatMap, String.toList_join, List.flatMap_assoc, List.flatMap_map]

/-- Escaping keeps at least one byte per rune. -/
theorem length_le_escaped (cs : List Char) :
    cs.length ≤ (cs.flatMap fun c => Utf8.bytes (escapeChar c)).length := by
  induction cs with
  | nil => simp
  | cons c cs ih =>
    obtain ⟨b, bs, hbytes, -⟩ := readsAsRune_escapeChar c
    simp only [List.flatMap_cons, List.length_append, hbytes, List.length_cons]
    omega

/-- The string reader reads escaped runes up to the closing quotation mark. -/
theorem stringBody_escaped (cs : List Char) :
    ∀ (fuel : Nat) (acc : List Char) (more : List UInt8),
    stringBody (fuel + cs.length + 1) acc
        ((cs.flatMap fun c => Utf8.bytes (escapeChar c)) ++ 34 :: more) =
      .ok (String.ofList (acc.reverse ++ cs), more) := by
  induction cs with
  | nil => intro fuel acc more; simp [stringBody]
  | cons c cs ih =>
    intro fuel acc more
    obtain ⟨b, bs, hbytes, hstep⟩ := readsAsRune_escapeChar c
    rw [List.flatMap_cons, hbytes, List.length_cons,
      show fuel + (cs.length + 1) + 1 = (fuel + cs.length + 1) + 1 by omega]
    simp only [List.cons_append, List.append_assoc]
    rw [hstep, ih]
    simp

/-- After the opening quotation mark, with fuel for every byte left, the string reader reads
the rest of a literal. -/
theorem stringBody_quote (s : String) (more : List UInt8) :
    stringBody (((s.toList.flatMap fun c => Utf8.bytes (escapeChar c)) ++ 34 :: more).length + 1) []
        ((s.toList.flatMap fun c => Utf8.bytes (escapeChar c)) ++ 34 :: more) = .ok (s, more) := by
  have hle := length_le_escaped s.toList
  have hfuel : ((s.toList.flatMap fun c => Utf8.bytes (escapeChar c)) ++ 34 :: more).length + 1 =
      ((s.toList.flatMap fun c => Utf8.bytes (escapeChar c)).length - s.toList.length + 1 +
        more.length) + s.toList.length + 1 := by
    simp only [List.length_append, List.length_cons]
    omega
  rw [hfuel, stringBody_escaped]
  simp

end Strings

/-- The compact text of `v`, followed by anything, reads back as `v` inside `depth` open arrays
and objects, given more fuel than the text has bytes. -/
def Reads (depth : Nat) (v : Value) : Prop :=
  ∀ fuel rest, (Utf8.bytes v.compact).length < fuel →
    value fuel depth (Utf8.bytes v.compact ++ rest) = .ok (v, rest)

theorem skipBlanks_cons {b : UInt8} (hb : isBlank b = false) (bs : List UInt8) :
    skipBlanks (b :: bs) = b :: bs := by
  simp [skipBlanks, hb]

/-- The bytes of the punctuation between members and items. -/
theorem bytes_separators :
    Utf8.bytes ":" = [58] ∧ Utf8.bytes "," = [44] ∧ Utf8.bytes "\x7b" = [123] ∧
      Utf8.bytes "\x7d" = [125] ∧ Utf8.bytes "[" = [91] ∧ Utf8.bytes "]" = [93] := by
  simp [bytes_of_ascii]

theorem reads_str (depth : Nat) (s : String) : Reads depth (.str s) := by
  intro fuel rest hfuel
  obtain ⟨f, rfl⟩ : ∃ f, fuel = f + 1 := ⟨fuel - 1, by omega⟩
  rw [Value.compact, bytes_quote, List.cons_append, value, skipBlanks_cons rfl]
  simp only [List.append_assoc, List.singleton_append]
  rw [if_neg (by decide), if_neg (by decide), if_pos trivial, stringBody_quote]
  rfl

theorem reads_null (depth : Nat) : Reads depth .null := by
  intro fuel rest hfuel
  obtain ⟨f, rfl⟩ : ∃ f, fuel = f + 1 := ⟨fuel - 1, by omega⟩
  have hnull : Utf8.bytes Value.null.compact = [110, 117, 108, 108] := by
    rw [bytes_eq_flatMap]; rfl
  simp only [hnull, List.cons_append, List.nil_append]
  rw [value, skipBlanks_cons rfl]
  have hdigit : isDigit 110 = false := rfl
  simp [literal, hdigit]

/-- One member `"k":v` read, the reader looks at the byte after the value. -/
theorem members_step {depth : Nat} {k : String} {v : Value} (hv : Reads depth v) {f : Nat}
    {acc : List (String × Value)} {d : UInt8} {more : List UInt8}
    (hf : (Utf8.bytes v.compact).length < f) (hd : isBlank d = false) :
    value.members (f + 1) depth acc
        (Utf8.bytes (quote k) ++ 58 :: (Utf8.bytes v.compact ++ d :: more)) =
      if d = 44 then value.members f depth ((k, v) :: acc) more
      else if d = 125 then .ok (.obj ((k, v) :: acc).reverse, more)
      else .error (.invalid d "after object key:value pair") := by
  rw [value.members, bytes_quote, List.cons_append, skipBlanks_cons rfl]
  simp only [List.append_assoc, List.singleton_append]
  rw [if_neg (by simp), if_pos trivial, stringBody_quote]
  dsimp only
  rw [skipBlanks_cons rfl]
  dsimp only
  rw [if_neg (show ¬((58 : UInt8) ≠ 58) from fun h => h rfl), hv f (d :: more) hf]
  dsimp only
  rw [skipBlanks_cons hd]

/-- One item read, the reader looks at the byte after it; an item never starts with `]`, since
no value does. -/
theorem items_step {depth : Nat} {v : Value} (hv : Reads depth v) {f : Nat} {acc : List Value}
    {d : UInt8} {more : List UInt8} (hf : (Utf8.bytes v.compact).length < f)
    (hd : isBlank d = false) :
    value.items (f + 1) depth acc (Utf8.bytes v.compact ++ d :: more) =
      if d = 44 then value.items f depth (v :: acc) more
      else if d = 93 then .ok (.arr (v :: acc).reverse, more)
      else .error (.invalid d "after array element") := by
  have hread := hv f (d :: more) hf
  rw [value.items]
  split
  · rename_i rest h93
    obtain ⟨f', rfl⟩ : ∃ f', f = f' + 1 := ⟨f - 1, by omega⟩
    have hdigit : isDigit 93 = false := rfl
    rw [value, h93] at hread
    simp [hdigit] at hread
  · rw [hread]
    dsimp only
    rw [skipBlanks_cons hd]

/-- Members written compactly, then `}`, read back, given that each value reads back. -/
theorem members_compact {depth : Nat} (ms : List (String × Value)) (hne : ms ≠ [])
    (hms : ∀ m ∈ ms, Reads depth m.2) :
    ∀ (fuel : Nat) (acc : List (String × Value)) (rest : List UInt8),
      (Utf8.bytes (compactMembers ms)).length < fuel →
      value.members fuel depth acc (Utf8.bytes (compactMembers ms) ++ 125 :: rest) =
        .ok (.obj (acc.reverse ++ ms), rest) := by
  induction ms with
  | nil => exact absurd rfl hne
  | cons m ms ih =>
    obtain ⟨k, v⟩ := m
    intro fuel acc rest hfuel
    obtain ⟨f, rfl⟩ : ∃ f, fuel = f + 1 := ⟨fuel - 1, by omega⟩
    have hv : Reads depth v := hms _ List.mem_cons_self
    rcases ms with _ | ⟨m, ms⟩
    · -- the last member, then `}`
      simp only [compactMembers, bytes_append, bytes_separators, List.length_append,
        List.length_singleton] at hfuel ⊢
      simp only [List.append_assoc, List.cons_append, List.nil_append]
      rw [members_step hv (by omega) rfl]
      simp
    · -- a member, then a comma and the members after it
      simp only [compactMembers, bytes_append, bytes_separators,
        List.length_append, List.length_singleton] at hfuel ⊢
      simp only [List.append_assoc, List.cons_append, List.nil_append]
      rw [members_step hv (by omega) rfl, if_pos rfl,
        ih (List.cons_ne_nil _ _) (fun x hx => hms x (List.mem_cons_of_mem _ hx)) f
          ((k, v) :: acc) rest (by omega)]
      simp

/-- Items written compactly, then `]`, read back, given that each item reads back. -/
theorem items_compact {depth : Nat} (vs : List Value) (hne : vs ≠ [])
    (hvs : ∀ v ∈ vs, Reads depth v) :
    ∀ (fuel : Nat) (acc : List Value) (rest : List UInt8),
      (Utf8.bytes (compactItems vs)).length + 1 < fuel →
      value.items fuel depth acc (Utf8.bytes (compactItems vs) ++ 93 :: rest) =
        .ok (.arr (acc.reverse ++ vs), rest) := by
  induction vs with
  | nil => exact absurd rfl hne
  | cons v vs ih =>
    intro fuel acc rest hfuel
    obtain ⟨f, rfl⟩ : ∃ f, fuel = f + 1 := ⟨fuel - 1, by omega⟩
    have hv : Reads depth v := hvs v List.mem_cons_self
    rcases vs with _ | ⟨w, vs⟩
    · -- the last item, then `]`
      simp only [compactItems] at hfuel ⊢
      rw [items_step hv (by omega) rfl]
      simp
    · -- an item, then a comma and the items after it
      simp only [compactItems, bytes_append, bytes_separators, List.length_append,
        List.length_singleton] at hfuel ⊢
      simp only [List.append_assoc, List.cons_append, List.nil_append]
      rw [items_step hv (by omega) rfl, if_pos rfl,
        ih (List.cons_ne_nil _ _) (fun x hx => hvs x (List.mem_cons_of_mem _ hx)) f
          (v :: acc) rest (by omega)]
      simp

/-- An object below the nesting limit reads back when its values read back inside it. -/
theorem reads_obj {depth : Nat} (hdepth : depth < maxDepth) (ms : List (String × Value))
    (hms : ∀ m ∈ ms, Reads (depth + 1) m.2) : Reads depth (.obj ms) := by
  intro fuel rest hfuel
  obtain ⟨f, rfl⟩ : ∃ f, fuel = f + 1 := ⟨fuel - 1, by omega⟩
  simp only [Value.compact, bytes_append, bytes_separators,
    List.length_append, List.length_singleton] at hfuel ⊢
  simp only [List.append_assoc, List.cons_append, List.nil_append]
  rw [value, skipBlanks_cons rfl]
  dsimp only
  rw [if_pos rfl, if_pos hdepth]
  rcases ms with _ | ⟨m, ms⟩
  · obtain ⟨f', rfl⟩ : ∃ f', f = f' + 1 := ⟨f - 1, by simp at hfuel; omega⟩
    simp [compactMembers, value.members, bytes_eq_flatMap, skipBlanks_cons (b := 125) rfl]
  · rw [members_compact (m :: ms) (List.cons_ne_nil _ _) hms f [] rest (by omega)]
    simp

/-- An array below the nesting limit reads back when its items read back inside it. -/
theorem reads_arr {depth : Nat} (hdepth : depth < maxDepth) (vs : List Value)
    (hvs : ∀ v ∈ vs, Reads (depth + 1) v) : Reads depth (.arr vs) := by
  intro fuel rest hfuel
  obtain ⟨f, rfl⟩ : ∃ f, fuel = f + 1 := ⟨fuel - 1, by omega⟩
  simp only [Value.compact, bytes_append, bytes_separators,
    List.length_append, List.length_singleton] at hfuel ⊢
  simp only [List.append_assoc, List.cons_append, List.nil_append]
  rw [value, skipBlanks_cons rfl]
  dsimp only
  rw [if_neg (by decide), if_pos rfl, if_pos hdepth]
  rcases vs with _ | ⟨v, vs⟩
  · obtain ⟨f', rfl⟩ : ∃ f', f = f' + 1 := ⟨f - 1, by simp at hfuel; omega⟩
    simp [compactItems, value.items, bytes_eq_flatMap, skipBlanks_cons (b := 93) rfl]
  · rw [items_compact (v :: vs) (List.cons_ne_nil _ _) hvs f [] rest (by omega)]
    simp

/-- A value whose compact text reads back outside any array or object is what the whole text
parses to. -/
theorem parse_compact {v : Value} (hv : Reads 0 v) : parse (Utf8.bytes v.compact) = .ok v := by
  have hread := hv (3 * (Utf8.bytes v.compact).length + 3) [] (by omega)
  rw [List.append_nil] at hread
  simp [parse, hread, bind, Except.bind, skipBlanks, pure, Except.pure]

end ShaderHeaders.Json
