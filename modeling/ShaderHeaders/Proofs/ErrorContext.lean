import Mathlib.Data.Nat.Digits.Defs
import ShaderHeaders.Proofs.RoundTrip
import ShaderHeaders.Proofs.TokenPositions

/-!
# Where a malformed signature points

A text whose first definition header has a badly spaced declaration is malformed at the name of
that declaration. This module follows that position into the message shown in context: the line
and column name a real place of the text, the name starts there, and the column needs no
clamping. The listing then shows the line with a caret under the column; the caret stands under
the name's first character as long as the line number has at most three digits, since the line
is printed after its number right-aligned in three places and the caret after a fixed gutter of
that width.

* `Lines.getD_split_lineAt`: the line of the text that holds a byte is what stands between the
  newlines around it;
* `Malformed.context_of_layout`: the full shape of the message in context, with the caret
  under the name for lines below `1000`;
* `Malformed.context_caret_line_1000`: on line `1000` the caret stands one place before the name.
-/

namespace ShaderHeaders

open Source

namespace Lines

/-- A leading newline does not change the last line. -/
theorem last_cons_newline (l : List UInt8) : last (10 :: l) = last l := by
  simp [last]

/-- A byte in front of a line with no newline joins it. -/
theorem last_cons_of_forall_ne {x : UInt8} (hx : x ≠ 10) {l : List UInt8}
    (hl : ∀ y ∈ l, y ≠ 10) : last (x :: l) = x :: l := by
  rw [← List.singleton_append, last_append_of_forall_ne _ hl]
  simp [last, hx]

/-- The line of a text that holds byte `p`, counted by the newlines before it, is the part of
the line before `p` and the part from `p` to the next newline. -/
theorem getD_split (code : List UInt8) (p : Nat) :
    (split code).getD ((code.take p).count 10) [] =
      last (code.take p) ++ (split (code.drop p)).headD [] := by
  induction code generalizing p with
  | nil => simp [split, last]
  | cons x bs ih =>
    cases p with
    | zero =>
      simp only [List.take_zero, List.drop_zero, List.count_nil]
      cases split (x :: bs) <;> rfl
    | succ p =>
      obtain ⟨l₀, ls, hsplit⟩ := List.exists_cons_of_ne_nil (split_ne_nil bs)
      have hih := ih p
      rw [hsplit] at hih
      rw [List.take_succ_cons, List.drop_succ_cons, split, hsplit]
      by_cases hx : x = 10
      · subst hx
        simpa [List.count_cons, last_cons_newline] using hih
      · by_cases hnl : 10 ∈ bs.take p
        · -- the line of `p` starts after a newline of `bs`
          have hpos : 0 < (bs.take p).count 10 := List.count_pos_iff.2 hnl
          obtain ⟨k, hk⟩ : ∃ k, (bs.take p).count 10 = k + 1 := ⟨_, (Nat.succ_pred_eq_of_pos hpos).symm⟩
          have hlast : last (x :: bs.take p) = last (bs.take p) := by
            rw [← List.singleton_append, last_append_of_mem _ hnl]
          rw [hk] at hih
          simpa [List.count_cons, hx, hk, hlast] using hih
        · -- the line of `p` is the first line, which `x` opens
          have hzero : (bs.take p).count 10 = 0 := List.count_eq_zero.2 hnl
          have hne : ∀ y ∈ bs.take p, y ≠ 10 := fun y hy h => hnl (h ▸ hy)
          have hlast : last (bs.take p) = bs.take p := last_append_of_forall_ne [] hne
          rw [hzero, hlast] at hih
          simp only [List.getD_cons_zero] at hih
          simp [hx, hzero, last_cons_of_forall_ne hx hne, hih]

/-- The first line of a text that starts with bytes holding no newline starts with them. -/
theorem headD_split_append {a : List UInt8} (ha : ∀ x ∈ a, x ≠ 10) (b : List UInt8) :
    (split (a ++ b)).headD [] = a ++ (split b).headD [] := by
  induction a with
  | nil => rfl
  | cons x a ih =>
    have hx : x ≠ 10 := ha x List.mem_cons_self
    have hrest := ih fun y hy => ha y (List.mem_cons_of_mem _ hy)
    obtain ⟨l, ls, hsplit⟩ := List.exists_cons_of_ne_nil (split_ne_nil (a ++ b))
    rw [hsplit] at hrest
    rw [List.headD_cons] at hrest
    rw [List.cons_append, split, hsplit]
    simp [hx, hrest]

/-- The line of byte `p`, where bytes `a` with no newline start, holds the part of the line
before `p`, then `a` and the rest of the line after it. -/
theorem getD_split_lineAt {code a r : List UInt8} {p : Nat} (hdrop : code.drop p = a ++ r)
    (ha : ∀ x ∈ a, x ≠ 10) :
    (split code).getD (lineAt code p - 1) [] = last (code.take p) ++ a ++ (split r).headD [] := by
  rw [lineAt, Nat.add_sub_cancel, getD_split, hdrop, headD_split_append ha, List.append_assoc]

/-- Every byte of a text is on one of its lines. -/
theorem lineAt_le_length (code : List UInt8) (p : Nat) : lineAt code p ≤ (split code).length := by
  rw [lineAt, length_lines]
  exact Nat.succ_le_succ ((List.take_sublist p code).count_le 10)

end Lines

namespace Decimal

/-- A number below `1000` has at most three digits, so right-aligned in three places it takes
exactly three. -/
theorem length_padLeft_ofNat {n : Nat} (h : n < 1000) :
    (padLeft 3 (ofNat n)).toList.length = 3 := by
  have hdigits : (Nat.toDigits 10 n).length ≤ 3 := Nat.toDigits_length 10 n 3 (by decide) h
  simp only [padLeft, ofNat, String.toList_append, String.toList_ofList, List.length_append,
    List.length_replicate, ← String.length_toList]
  omega

end Decimal

namespace HeaderText

/-- The badly spaced declaration of a well-formed header has a name, and the name follows the
text in front of it. -/
theorem name_of_badDecl? {h : HeaderText} (hwf : h.WF .named) {q : List UInt8} {d : DeclText}
    (hb : h.badDecl? = some (q, d)) (tb : UInt8) :
    isName d.name = true ∧ q ++ d.name <+: h.text tb := by
  obtain ⟨hmem, hpre⟩ := badDecl?_eq_some hb tb
  exact ⟨DeclText.isName_of_wf_named (ParamsText.wf_of_mem_declList hwf.params hmem), hpre⟩

end HeaderText

namespace Malformed

/-- A definition that fails with a position fails at the name of a badly spaced declaration: at a
byte `p` where that name starts, with only ASCII bytes before it on its line. -/
theorem exists_layout_place {code : List UInt8} {e : Malformed}
    (h : Grammar.standard.definition? code = .error e) (hline : e.line ≠ 0) :
    ∃ p ty sp nm r, code.drop p = nm ++ r ∧ isName nm = true ∧
      (∀ b ∈ Lines.last (code.take p), isAscii b = true) ∧
      e = ⟨code, Lines.lineAt code p, Lines.columnAt code p,
        (HeaderProblem.spacing (ty ++ sp ++ nm)).message⟩ := by
  by_cases hex : ∃ (x : Nat) (h : HeaderText), h.OccursAt code x
  · obtain ⟨x, hh, ho, hmin⟩ := exists_least_occursAt hex
    rw [definition?_of_least_occursAt ho hmin] at h
    unfold HeaderText.definition at h
    cases hb : hh.badDecl? with
    | none => rw [hb] at h; cases h
    | some qd =>
      obtain ⟨q, d⟩ := qd
      rw [hb] at h
      cases h
      obtain ⟨hname, u, hu⟩ := HeaderText.name_of_badDecl? ho.wf hb 123
      obtain ⟨r, hr⟩ := ho.drop_eq
      -- the header text from `x` on: the text before the name, the name, the rest
      have htext : code.drop x = q ++ (d.name ++ (u ++ r)) := by simp [hr, ← hu]
      refine ⟨x + q.length, d.type.word, d.gap, d.name, u ++ r, ?_, hname, ?_, rfl⟩
      · rw [← List.drop_drop, htext, List.drop_left]
      · -- before the name on its line: blanks, then part of the header
        have htake : code.take (x + q.length) = code.take x ++ q := by
          rw [List.take_add, htext, List.take_left]
        have hq : ∀ b ∈ q, isAscii b = true := fun b hb =>
          HeaderText.isAscii_of_mem_text ho.wf rfl b (by rw [← hu]; simp [hb])
        intro b hb
        rw [htake] at hb
        rcases Lines.mem_last_append hb with hb | hb
        · exact isAscii_of_isSpace (by simp [isSpace, ho.blank b hb])
        · exact hq b hb
  · rw [definition?_of_not_occursAt fun x h ho => hex ⟨x, h, ho⟩] at h
    cases h
    exact absurd rfl hline

/-- A column already within a line of `len` bytes, or just past its end, is shown as it is. -/
theorem clampColumn_of_le {len : Nat} {col : Int} (h₁ : 1 ≤ col) (h₂ : col ≤ len + 1) :
    clampColumn len col = col.toNat := by
  unfold clampColumn
  rw [if_neg (by omega), if_neg (by omega)]

/-- The characters of a listing line: the number right-aligned, the gutter, the line. -/
theorem toList_listingLine (n : Nat) (l : List UInt8) :
    (listingLine n l).toList =
      (Decimal.padLeft 3 (Decimal.ofNat n)).toList ++ ['|', ' '] ++ (Utf8.lossy l).toList ++ ['\n'] := by
  simp [listingLine]

/-- On a line numbered below `1000`, the text after `pre` starts five characters and one per
byte of an ASCII `pre` into the listing line. -/
theorem drop_listingLine {n : Nat} (hn : n < 1000) {pre : List UInt8}
    (hpre : ∀ b ∈ pre, isAscii b = true) (rest : List UInt8) :
    (listingLine n (pre ++ rest)).toList.drop (5 + pre.length) =
      (Utf8.lossy rest).toList ++ ['\n'] := by
  have hchars : Utf8.chars (pre ++ rest) = Utf8.chars pre ++ Utf8.chars rest :=
    Utf8.chars_append (.of_ascii hpre rest)
  have hlen : (Utf8.chars pre).length = pre.length := by simp [Utf8.chars_of_ascii hpre]
  have hsplit : (listingLine n (pre ++ rest)).toList =
      ((Decimal.padLeft 3 (Decimal.ofNat n)).toList ++ ['|', ' '] ++ Utf8.chars pre) ++
        (Utf8.chars rest ++ ['\n']) := by
    rw [toList_listingLine, Utf8.lossy, hchars, String.toList_ofList]
    simp
  have hpad := Decimal.length_padLeft_ofNat hn
  rw [hsplit, List.drop_left' (by simp [hpad, hlen]; omega), Utf8.lossy, String.toList_ofList]

/-- The caret line holds its caret after the five characters of the gutter and `k` blanks. -/
theorem getElem?_caretLine (k : Nat) :
    ("   | " ++ String.ofList (List.replicate k ' ') ++ "^\n").toList[5 + k]? = some '^' := by
  rw [Nat.add_comm]
  simp

/-- A malformed definition with a position names the line of the text that holds the badly
spaced name and the column where the name starts, which needs no clamping; in context it shows
that line and a caret line, and on lines below `1000` the caret stands above the name's first
character. -/
theorem context_of_layout {code : List UInt8} {e : Malformed}
    (h : Grammar.standard.definition? code = .error e) (hline : 1 ≤ e.line) :
    ∃ ty sp nm pre post : List UInt8,
      e.reason = (HeaderProblem.spacing (ty ++ sp ++ nm)).message ∧ isName nm = true ∧
      e.line.toNat ≤ (Lines.split code).length ∧
      (Lines.split code).getD (e.line.toNat - 1) [] = pre ++ nm ++ post ∧
      e.column = Utf8.runeCount pre + 1 ∧
      e.column ≤ Utf8.runeCount (pre ++ nm ++ post) + 1 ∧
      e.context = "error: " ++ kind ++ ": " ++ e.reason ++ "\n" ++ "  --> line " ++
        Decimal.ofNat e.line.toNat ++ ":" ++ Decimal.ofNat e.column.toNat ++ "\n" ++ "   |\n" ++
        listingLine e.line.toNat (pre ++ nm ++ post) ++
        "   | " ++ String.ofList (List.replicate (e.column.toNat - 1) ' ') ++ "^\n" ∧
      (e.line < 1000 → ∃ i,
        ("   | " ++ String.ofList (List.replicate (e.column.toNat - 1) ' ') ++ "^\n").toList[i]? =
          some '^' ∧
        (listingLine e.line.toNat (pre ++ nm ++ post)).toList.drop i =
          (Utf8.lossy (nm ++ post)).toList ++ ['\n']) := by
  obtain ⟨p, ty, sp, nm, r, hdrop, hname, hascii, rfl⟩ := exists_layout_place h (by omega)
  have hgetD := Lines.getD_split_lineAt hdrop (ne_newline_of_isIdent (isIdent_of_isName hname))
  have hcount := Lines.lineAt_le_length code p
  have hrunes : Utf8.runeCount (Lines.last (code.take p)) = (Lines.last (code.take p)).length :=
    Utf8.runeCount_of_ascii hascii
  have hwhole : Utf8.runeCount (Lines.last (code.take p) ++ nm ++ (Lines.split r).headD []) =
      Utf8.runeCount (Lines.last (code.take p)) + Utf8.runeCount (nm ++ (Lines.split r).headD []) := by
    rw [List.append_assoc, Utf8.runeCount_append (.of_ascii hascii _)]
  have hcol : Lines.columnAt code p = (Lines.last (code.take p)).length + 1 := rfl
  have hclamp : clampColumn (Lines.last (code.take p) ++ nm ++ (Lines.split r).headD []).length
      (Lines.columnAt code p) = Lines.columnAt code p :=
    clampColumn_of_le (by omega) (by simp only [List.length_append]; omega)
  dsimp only at hline ⊢
  simp only [Int.toNat_natCast]
  refine ⟨ty, sp, nm, Lines.last (code.take p), (Lines.split r).headD [], rfl, hname, hcount, hgetD,
    ?_, ?_, ?_, ?_⟩
  · rw [hcol, hrunes]
    push_cast
    rfl
  · rw [hcol, hwhole, hrunes]
    omega
  · unfold context
    rw [if_neg (by simp; omega)]
    simp only [Int.toNat_natCast, hgetD, hclamp]
  · intro hlt
    refine ⟨5 + (Lines.last (code.take p)).length, ?_, ?_⟩
    · simpa [hcol] using getElem?_caretLine (Lines.last (code.take p)).length
    · rw [List.append_assoc]
      exact drop_listingLine (by omega) hascii _

/-- On the first line the caret stands above the badly spaced name. -/
theorem context_caret_first_line :
    Grammar.standard.definition?
        [118, 111, 105, 100, 32, 102, 40, 105, 110, 116, 32, 32, 120, 41, 32, 123] =
      .error ⟨[118, 111, 105, 100, 32, 102, 40, 105, 110, 116, 32, 32, 120, 41, 32, 123], 1, 13,
        "parameter \"int  x\": type and name must be separated by a single space"⟩ ∧
    ∃ nm post : List UInt8, isName nm = true ∧ ∃ i,
      ("   | " ++ String.ofList (List.replicate 12 ' ') ++ "^\n").toList[i]? = some '^' ∧
      (listingLine 1
        [118, 111, 105, 100, 32, 102, 40, 105, 110, 116, 32, 32, 120, 41, 32, 123]).toList.drop i =
        (Utf8.lossy (nm ++ post)).toList ++ ['\n'] := by
  have h : Grammar.standard.definition?
      [118, 111, 105, 100, 32, 102, 40, 105, 110, 116, 32, 32, 120, 41, 32, 123] =
      .error ⟨[118, 111, 105, 100, 32, 102, 40, 105, 110, 116, 32, 32, 120, 41, 32, 123], 1, 13,
        "parameter \"int  x\": type and name must be separated by a single space"⟩ := by
    decide +kernel
  obtain ⟨-, -, nm, pre, post, -, hname, -, hline, -, -, -, haligned⟩ :=
    context_of_layout h (by decide)
  have hsplit : (Lines.split
      [118, 111, 105, 100, 32, 102, 40, 105, 110, 116, 32, 32, 120, 41, 32, 123]).getD 0 [] =
      [118, 111, 105, 100, 32, 102, 40, 105, 110, 116, 32, 32, 120, 41, 32, 123] := by
    decide
  obtain ⟨i, hcaret, hdrop⟩ := haligned (by decide)
  refine ⟨h, nm, post, hname, i, hcaret, ?_⟩
  simp only [Int.toNat_one, Nat.sub_self, hsplit] at hline
  rwa [hline]

/-- On line `1000` the number takes four places, one more than the gutter of the caret line, so
the caret stands one place before the name. -/
theorem context_caret_line_1000 :
    ∃ e : Malformed, Grammar.standard.definition? (List.replicate 999 10 ++
        [118, 111, 105, 100, 32, 102, 40, 105, 110, 116, 32, 32, 120, 41, 32, 123]) = .error e ∧
      e.line = 1000 ∧ e.column = 13 ∧
      e.context = "error: malformed function signature: parameter \"int  x\": type and name must " ++
        "be separated by a single space\n  --> line 1000:13\n   |\n1000| void f(int  x) \x7b\n" ++
        "   |             ^\n" ∧
      ¬ ∃ i, ("   | " ++ String.ofList (List.replicate (e.column.toNat - 1) ' ') ++ "^\n").toList[i]? =
          some '^' ∧
        (listingLine e.line.toNat
          [118, 111, 105, 100, 32, 102, 40, 105, 110, 116, 32, 32, 120, 41, 32, 123]).toList.drop i =
          (Utf8.lossy [120, 41, 32, 123]).toList ++ ['\n'] := by
  refine ⟨⟨List.replicate 999 10 ++
      [118, 111, 105, 100, 32, 102, 40, 105, 110, 116, 32, 32, 120, 41, 32, 123], 1000, 13,
      "parameter \"int  x\": type and name must be separated by a single space"⟩,
    by decide +kernel, rfl, rfl, by decide +kernel, ?_⟩
  rintro ⟨i, hcaret, hname⟩
  -- the caret line has nineteen characters, so only nineteen places are to be looked at
  have hi : i < 19 := by
    have := (List.getElem?_eq_some_iff.1 hcaret).1
    simpa using this
  revert hcaret hname
  revert i
  decide +kernel

end Malformed

end ShaderHeaders
