/-!
# Reading bytes as UTF-8, one rune at a time

Shader text arrives as bytes and is read one rune at a time. A well-formed sequence of one to
four bytes gives its code point. Any other byte (a stray continuation byte, the lead of an
overlong or surrogate form, a lead byte above `0xF4`, a sequence cut short) stands for one
replacement rune `U+FFFD` of width one, and reading goes on at the next byte.

* `Utf8.decode b rest` is the first rune of `b :: rest` with the number of bytes of `rest` it
  takes (`decode_snd_le`: never more than `rest` holds, never more than three);
* `Utf8.chars` is the list of runes of a byte string and `Utf8.lossy` the text they spell.
-/

namespace ShaderHeaders.Utf8

/-- The rune that stands for a byte that starts no well-formed sequence. -/
def replacement : Char := '�'

/-- A continuation byte, `0x80` to `0xBF`. -/
def isCont (b : UInt8) : Bool := 0x80 ≤ b && b ≤ 0xBF

/-- The low six bits that a continuation byte adds to a code point. -/
def payload (b : UInt8) : Nat := b.toNat % 64

/-- The bounds of the second byte after a three- or four-byte lead: narrower after `0xE0`,
`0xED`, `0xF0` and `0xF4`, so that no overlong form, surrogate or code point above `0x10FFFF`
is read. -/
def secondRange (lead : UInt8) : UInt8 × UInt8 :=
  if lead = 0xE0 then (0xA0, 0xBF)
  else if lead = 0xED then (0x80, 0x9F)
  else if lead = 0xF0 then (0x90, 0xBF)
  else if lead = 0xF4 then (0x80, 0x8F)
  else (0x80, 0xBF)

/-- Whether `b` lies in the second-byte bounds of `lead`. -/
def isSecond (lead b : UInt8) : Bool := (secondRange lead).1 ≤ b && b ≤ (secondRange lead).2

/-- The first rune of `b :: rest` with the number of bytes of `rest` that it takes, or `none`
when `b` starts no well-formed sequence. -/
def decode? (b : UInt8) (rest : List UInt8) : Option (Char × Nat) :=
  if b < 0x80 then some (Char.ofNat b.toNat, 0)
  else if 0xC2 ≤ b && b ≤ 0xDF then
    match rest with
    | c :: _ => if isCont c then some (Char.ofNat ((b.toNat % 32) * 64 + payload c), 1) else none
    | [] => none
  else if 0xE0 ≤ b && b ≤ 0xEF then
    match rest with
    | c₁ :: c₂ :: _ =>
      if isSecond b c₁ && isCont c₂ then
        some (Char.ofNat ((b.toNat % 16) * 4096 + payload c₁ * 64 + payload c₂), 2)
      else none
    | _ => none
  else if 0xF0 ≤ b && b ≤ 0xF4 then
    match rest with
    | c₁ :: c₂ :: c₃ :: _ =>
      if isSecond b c₁ && isCont c₂ && isCont c₃ then
        some (Char.ofNat ((b.toNat % 8) * 262144 + payload c₁ * 4096 + payload c₂ * 64 +
          payload c₃), 3)
      else none
    | _ => none
  else none

/-- The first rune of `b :: rest` with the number of bytes of `rest` that it takes; a bad byte
is the replacement rune and takes nothing more. -/
def decode (b : UInt8) (rest : List UInt8) : Char × Nat := (decode? b rest).getD (replacement, 0)

/-- A rune never takes more bytes than follow its first one. -/
theorem decode_snd_le (b : UInt8) (rest : List UInt8) : (decode b rest).2 ≤ rest.length := by
  unfold decode decode?
  split
  · simp
  split
  · split <;> (try split) <;> simp_all
  split
  · split
    · split <;> simp_all
    · simp
  split
  · split
    · split <;> simp_all
    · simp
  simp

/-- An overlong form, a surrogate and a code point past `U+10FFFF` are each one bad byte; the
last code point and a four-byte emoji are read whole. -/
example :
    decode 0xC0 [0x80] = (replacement, 0) ∧ decode 0xE0 [0x80, 0x80] = (replacement, 0) ∧
      decode 0xED [0xA0, 0x80] = (replacement, 0) ∧ decode 0xF4 [0x90, 0x80, 0x80] = (replacement, 0) ∧
      decode 0xF4 [0x8F, 0xBF, 0xBF] = (Char.ofNat 0x10FFFF, 3) ∧ decode 0xF0 [0x9F, 0x98, 0x80] = ('😀', 3) := by
  decide

/-- The runes of a byte string, each bad byte one replacement rune. -/
def chars : List UInt8 → List Char
  | [] => []
  | b :: rest => (decode b rest).1 :: chars (rest.drop (decode b rest).2)
termination_by bs => bs.length
decreasing_by simp only [List.length_drop, List.length_cons]; omega

/-- The text spelled by a byte string, each bad byte replaced by `U+FFFD`. -/
def lossy (bs : List UInt8) : String := String.ofList (chars bs)

/-- The number of runes in a byte string. -/
def runeCount (bs : List UInt8) : Nat := (chars bs).length

/-- The bytes of a text. -/
def bytes (s : String) : List UInt8 := s.toUTF8.toList

/-- The text with one character per byte, the character of the byte's value: for ASCII bytes, their
ASCII text. -/
def ascii (bs : List UInt8) : String := String.ofList (bs.map fun b => Char.ofNat b.toNat)

end ShaderHeaders.Utf8
