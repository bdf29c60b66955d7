import ShaderHeaders.Glsl.Prototype
import ShaderHeaders.Proofs.HeaderReading

/-!
# Prototype lines

`Grammar.prototypes` reads each line of a text on its own, under the prototype rule. Over bytes:
a line declares a signature exactly when the whole line is blanks, a well-formed header under
the anonymous style whose declarations all have type and name one space apart, `;`, and blanks
(`IsPrototypeLine`, `prototypeLine?_eq_some_iff`). The prototypes of a text are then those its
lines declare, in order (`PrototypeLines`, `prototypeLines_iff`).
-/

namespace ShaderHeaders

open Source Tokens Header

/-- A line declares `s` as a prototype: it holds no newline, and it is blanks, a well-formed
    header under the anonymous style whose declarations have type and name one space apart,
    `;`, and blanks; `s` is the signature that header declares. -/
def IsPrototypeLine (line : List UInt8) (s : Signature) : Prop :=
  (∀ b ∈ line, b ≠ 10) ∧ ∃ (lead trail : List UInt8) (h : HeaderText),
    (∀ b ∈ lead, isBlank b = true) ∧ h.WF .anonymous ∧ h.badDecl? = none ∧
    (∀ b ∈ trail, isBlank b = true) ∧ line = lead ++ (h.text 59 ++ trail) ∧ s = h.signature

/-- What the lines of a text declare, in order: a prototype line its signature, any other line
    nothing. -/
inductive PrototypeLines : List (List UInt8) → List Signature → Prop
  | nil : PrototypeLines [] []
  | keep {line : List UInt8} {lines : List (List UInt8)} {s : Signature} {out : List Signature} :
      IsPrototypeLine line s → PrototypeLines lines out → PrototypeLines (line :: lines) (s :: out)
  | skip {line : List UInt8} {lines : List (List UInt8)} {out : List Signature} :
      (∀ s, ¬ IsPrototypeLine line s) → PrototypeLines lines out → PrototypeLines (line :: lines) out

theorem prototype_trailer : Grammar.standard.prototype.trailer = some .semicolon := rfl

theorem semicolon_mark : markKind? 59 = some .semicolon := rfl

/-- A lone line that is a prototype declares its header's signature. -/
theorem prototypeLine?_of_isPrototypeLine {line : List UInt8} {s : Signature}
    (hp : IsPrototypeLine line s) : Grammar.standard.prototypeLine? line = some s := by
  obtain ⟨-, lead, trail, h, hlead, hh, hbad, htrail, rfl, rfl⟩ := hp
  have hsp : ∀ b ∈ lead, isSpace b = true := fun b hb => by simp [isSpace, hlead b hb]
  have hwhole : ∀ b ∈ trail, isSpace b = true := fun b hb => by simp [isSpace, htrail b hb]
  have hread := read_scanFrom (scan (lead ++ (h.text 59 ++ trail))).eof Cursor.start hsp hh
    prototype_trailer semicolon_mark trail fun _ => hwhole
  have hlayout := layout?_read_scanFrom (scan (lead ++ (h.text 59 ++ trail))).eof Cursor.start
    hsp hh prototype_trailer semicolon_mark trail fun _ => hwhole
  unfold Grammar.prototypeLine?
  dsimp only
  rw [scan, HeaderText.body_scanFrom_text _ hsp hh] at hread hlayout ⊢
  simp only [Cursor.kind_token, if_true, hlayout, hbad, Option.map_none, Option.isSome_none,
    Bool.false_eq_true, if_false]
  simp [hread, Header.Outcome.signature?]

/-- A line from which the prototype rule reads a signature, with no layout problem, is a
    prototype line, when it holds no newline. -/
theorem isPrototypeLine_of_prototypeLine? {line : List UInt8} {s : Signature}
    (hnl : ∀ b ∈ line, b ≠ 10) (hs : Grammar.standard.prototypeLine? line = some s) :
    IsPrototypeLine line s := by
  unfold Grammar.prototypeLine? at hs
  dsimp only at hs
  -- the header is read from the whole stream, with no layout problem
  obtain ⟨hlay, hsig⟩ :
      (read Grammar.standard.prototype (scan line).eof (scan line).body).layout? = none ∧
      (read Grammar.standard.prototype (scan line).eof (scan line).body).signature? = some s := by
    cases hb : (scan line).body with
    | nil => simp [hb] at hs
    | cons t ts =>
      rw [hb] at hs
      simp only at hs
      split at hs
      · split at hs
        · cases hs
        · rename_i hl
          exact ⟨Option.not_isSome_iff_eq_none.1 hl, hs⟩
      · cases hs
  obtain ⟨lead, h, trail, hlead, hh, hline, htrail⟩ :=
    exists_headerText_of_read prototype_trailer semicolon_mark hsig
  have htrail' := htrail rfl
  -- reading that header forward gives its signature and its layout
  have hread := read_scanFrom (scan line).eof Cursor.start hlead hh prototype_trailer
    semicolon_mark trail fun _ => htrail'
  have hlayout := layout?_read_scanFrom (scan line).eof Cursor.start hlead hh prototype_trailer
    semicolon_mark trail fun _ => htrail'
  have hb : (scan line).body = (scanFrom Cursor.start (lead ++ (h.text 59 ++ trail))).body := by
    rw [scan, hline]
  rw [hb] at hsig hlay
  rw [hread] at hsig
  rw [hlayout, Option.map_eq_none_iff] at hlay
  refine ⟨hnl, lead, trail, h, fun b hb => ?_, hh, hlay, fun b hb => ?_, hline, ?_⟩
  · exact isBlank_of_isSpace (hlead b hb) (hnl b (by rw [hline]; exact List.mem_append_left _ hb))
  · exact isBlank_of_isSpace (htrail' b hb)
      (hnl b (by rw [hline]; simp [hb]))
  · simpa [Header.Outcome.signature?] using hsig.symm

/-- A line with no newline declares `s` exactly when it is a prototype line for `s`. -/
theorem prototypeLine?_eq_some_iff {line : List UInt8} (hnl : ∀ b ∈ line, b ≠ 10)
    (s : Signature) : Grammar.standard.prototypeLine? line = some s ↔ IsPrototypeLine line s :=
  ⟨isPrototypeLine_of_prototypeLine? hnl, prototypeLine?_of_isPrototypeLine⟩

/-- The lines of a text hold no newline. -/
theorem Lines.ne_of_mem_split {bs : List UInt8} :
    ∀ l ∈ Lines.split bs, ∀ b ∈ l, b ≠ 10 := by
  induction bs with
  | nil => simp [Lines.split]
  | cons b bs ih =>
    intro l hl
    unfold Lines.split at hl
    split at hl
    · rename_i l₀ ls hsplit
      rw [hsplit] at ih
      split at hl
      · -- a newline ends the line before it
        rcases List.mem_cons.1 hl with rfl | hl
        · simp
        · exact ih l hl
      · rename_i hb
        rcases List.mem_cons.1 hl with rfl | hl
        · intro x hx
          rcases List.mem_cons.1 hx with rfl | hx
          · exact hb
          · exact ih l₀ List.mem_cons_self x hx
        · exact ih l (List.mem_cons_of_mem _ hl)
    · exact absurd ‹Lines.split bs = []› (Lines.split_ne_nil bs)

/-- A text with no newline is one line. -/
theorem Lines.split_of_forall_ne {bs : List UInt8} (h : ∀ b ∈ bs, b ≠ 10) :
    Lines.split bs = [bs] := by
  induction bs with
  | nil => rfl
  | cons b bs ih =>
    rw [Lines.split, ih fun c hc => h c (List.mem_cons_of_mem _ hc)]
    simp [h b List.mem_cons_self]

/-- Lines related to what a reader of single lines gives, when it declares exactly on prototype
    lines. -/
theorem prototypeLines_iff_filterMap (f : List UInt8 → Option Signature) :
    ∀ (lines : List (List UInt8)), (∀ l ∈ lines, ∀ s, f l = some s ↔ IsPrototypeLine l s) →
      ∀ out, PrototypeLines lines out ↔ out = lines.filterMap f := by
  intro lines
  induction lines with
  | nil =>
    intro _ out
    constructor
    · rintro ⟨⟩
      rfl
    · rintro rfl
      exact .nil
  | cons l lines ih =>
    intro hf out
    have hl := hf l List.mem_cons_self
    have ih := ih fun l' hl' => hf l' (List.mem_cons_of_mem _ hl')
    constructor
    · intro hrel
      cases hrel with
      | keep hp hrest => simp [(hl _).2 hp, (ih _).1 hrest]
      | skip hnot hrest =>
        -- a line that is no prototype line declares nothing
        have hnone : f l = none := Option.eq_none_iff_forall_ne_some.2 fun s hs =>
          hnot s ((hl s).1 hs)
        simp [hnone, (ih _).1 hrest]
    · rintro rfl
      cases hfl : f l with
      | none =>
        rw [List.filterMap_cons_none hfl]
        exact .skip (fun s hs => by rw [(hl s).2 hs] at hfl; cases hfl) ((ih _).2 rfl)
      | some s =>
        rw [List.filterMap_cons_some hfl]
        exact .keep ((hl s).1 hfl) ((ih _).2 rfl)

/-- The prototypes of a text are what its lines declare, in order: one signature per
    prototype line, nothing for any other line. -/
theorem prototypeLines_iff (code : List UInt8) (out : List Signature) :
    PrototypeLines (Lines.split code) out ↔ out = Grammar.standard.prototypes code :=
  prototypeLines_iff_filterMap _ _
    (fun l hl s => prototypeLine?_eq_some_iff (Lines.ne_of_mem_split l hl) s) out

end ShaderHeaders
