/-!
# Decimal numerals

Counts, codes and positions are written in decimal with no leading zeros; a negative integer
carries a leading `-`. Columns of a listing are padded on the left with spaces.
-/

namespace ShaderHeaders.Decimal

/-- The decimal numeral of a natural number. -/
def ofNat (n : Nat) : String := String.ofList (Nat.toDigits 10 n)

/-- The decimal numeral of an integer, with `-` before a negative one. -/
def ofInt : Int → String
  | .ofNat n => ofNat n
  | .negSucc n => "-" ++ ofNat (n + 1)

/-- `s` right-aligned in a field of `width` characters; a longer `s` is kept whole. -/
def padLeft (width : Nat) (s : String) : String :=
  String.ofList (List.replicate (width - s.length) ' ') ++ s

/-- The decimal digits of `n`, padded with zeros to at least `width` digits. -/
def zeroPad (width n : Nat) : String :=
  let ds := Nat.toDigits 10 n
  String.ofList (List.replicate (width - ds.length) '0' ++ ds)

/-- The lowercase hexadecimal digits of `n`, padded with zeros to at least `width` digits. -/
def hex (width n : Nat) : String :=
  let ds := Nat.toDigits 16 n
  String.ofList (List.replicate (width - ds.length) '0' ++ ds)

end ShaderHeaders.Decimal
