import Mathlib
import ShaderHeaders.Text.Timestamp
import ShaderHeaders.Proofs.Words

/-!
# Written timestamps read back

The date of a day is found by splitting the days since 0000-03-01 into eras, years and months;
`Calendar.yearOfEra_spec` and `Calendar.monthDay_spec` say what each split leaves, and
`Calendar.civil_cases` what `civil` makes of them. From these:

* `Calendar.civil_valid`: every day has a valid date, a month from 1 to 12 and a day within it;
* `Calendar.daysFromCivil_civil`: counting the days of that date gives the day back.

A timestamp is written in fixed places: four digits of year, two of each other field, the
separators between them (`Timestamp.bytes_render`), then the fraction of the second and `Z`.
The reader takes each field from its place (`Timestamp.places`) and reads a zero-padded numeral
back as its number (`Timestamp.digitsValue_zeroPad`), and the fraction back as its nanoseconds
(`Timestamp.fraction_fractionText`). Together:

* `Timestamp.ofText?_render`: a timestamp of a year from 0 to 9999 is read back from its
  written form.
-/

namespace ShaderHeaders

namespace Calendar

/-- A quotient clamped at `k`, with what it leaves: the rest is at most one divisor, and less
when the clamp is not hit. -/
theorem clamp_div {n d k : Nat} (hd : 0 < d) (hn : n ≤ k * d + d) :
    min (n / d) k ≤ k ∧ min (n / d) k * d ≤ n ∧ n - min (n / d) k * d ≤ d ∧
      (min (n / d) k < k → n - min (n / d) k * d < d) := by
  have hle : n / d * d ≤ n := Nat.div_mul_le_self n d
  have hlt : n < n / d * d + d := Nat.lt_div_mul_add hd
  rcases Nat.lt_or_ge (n / d) k with hk | hk
  · rw [Nat.min_eq_left (Nat.le_of_lt hk)]
    exact ⟨Nat.le_of_lt hk, hle, by omega, fun _ => by omega⟩
  · rw [Nat.min_eq_right hk]
    have : k * d ≤ n / d * d := Nat.mul_le_mul_right d hk
    exact ⟨Nat.le_refl k, by omega, by omega, fun h => absurd h (Nat.lt_irrefl k)⟩

theorem isLeap_iff (y : Int) : isLeap y = true ↔ y % 4 = 0 ∧ (y % 100 ≠ 0 ∨ y % 400 = 0) := by
  simp [isLeap]

/-- The years of an era: a day of the era falls in year `yoe`, whose days before it number
`doy`; only a year before a leap year (whose February it holds) reaches day `365`. -/
theorem yearOfEra_spec {doe yoe doy : Nat} (h : doe < 146097) (hy : yearOfEra doe = (yoe, doy)) :
    yoe < 400 ∧ 365 * yoe + yoe / 4 - yoe / 100 + doy = doe ∧
      (doy < 365 ∨ doy = 365 ∧ isLeap (yoe + 1 : Nat)) := by
  simp only [yearOfEra, Prod.mk.injEq] at hy
  obtain ⟨hyoe, hdoy⟩ := hy
  obtain ⟨hc3, hcle, hdoc, hclt⟩ := clamp_div (n := doe) (d := 36524) (k := 3) (by decide) (by omega)
  generalize min (doe / 36524) 3 = c at hc3 hcle hdoc hclt hyoe hdoy
  generalize hdoc' : doe - c * 36524 = doc at hdoc hclt hyoe hdoy
  have hqle : doc / 1461 * 1461 ≤ doc := Nat.div_mul_le_self _ _
  have hq24 : doc / 1461 ≤ 24 := by omega
  have hdoq : doc - doc / 1461 * 1461 ≤ 1460 := by omega
  generalize doc / 1461 = q at hqle hq24 hdoq hyoe hdoy
  generalize hdoq' : doc - q * 1461 = doq at hdoq hyoe hdoy
  obtain ⟨hy3, hyle, hdoy3, hylt⟩ :=
    clamp_div (n := doq) (d := 365) (k := 3) (by decide) (by omega)
  generalize min (doq / 365) 3 = y at hy3 hyle hdoy3 hylt hyoe hdoy
  subst hyoe hdoy
  have h4 : (c * 100 + q * 4 + y) / 4 = c * 25 + q := by omega
  have h100 : (c * 100 + q * 4 + y) / 100 = c := by omega
  refine ⟨by omega, by rw [h4, h100]; omega, ?_⟩
  rcases Nat.lt_or_ge (doq - y * 365) 365 with hlt | hge
  · exact .inl hlt
  · -- Day 365 is reached only in the fourth year of a cycle, that is before a leap year, and
    -- never in the last cycle of a century but the era's last.
    refine .inr ⟨by omega, ?_⟩
    have hy : y = 3 := by omega
    rw [isLeap_iff]
    omega

/-- The months of a March-based year: day `doy` falls in month `mp` (March `0`), on its day `d`;
the months before February end where the next begins, and February runs to the year's end. -/
theorem monthDay_spec {doy mp d : Nat} (h : doy ≤ 365) (hm : monthDay doy = (mp, d)) :
    mp < 12 ∧ 1 ≤ d ∧ monthStart mp + d - 1 = doy ∧
      (mp < 11 → d ≤ monthStart (mp + 1) - monthStart mp) ∧ (mp = 11 → d + 336 = doy) := by
  simp only [monthDay, Prod.mk.injEq] at hm
  obtain ⟨rfl, rfl⟩ := hm
  simp only [monthStart]
  omega

/-- The lengths of the months from March to January, the months `monthStart` spaces out. -/
theorem daysIn_eq_monthStart (mp : Nat) (h : mp < 11) (y : Int) :
    daysIn (if mp < 10 then mp + 3 else mp - 9) y = monthStart (mp + 1) - monthStart mp := by
  match mp, h with
  | 0, _ | 1, _ | 2, _ | 3, _ | 4, _ | 5, _ | 6, _ | 7, _ | 8, _ | 9, _ | 10, _ => rfl

/-- What `civil` computes: the era and the year of the era of the day counted from 0000-03-01,
then its month and day, the year moving on for January and February. -/
theorem civil_cases {days y : Int} {m d : Nat} (hc : civil days = (y, m, d)) :
    ∃ yoe doy mp, yearOfEra ((days + epochDays) % 146097).toNat = (yoe, doy) ∧
      monthDay doy = (mp, d) ∧
      (mp < 10 ∧ y = (days + epochDays) / 146097 * 400 + yoe ∧ m = mp + 3 ∨
        10 ≤ mp ∧ y = (days + epochDays) / 146097 * 400 + yoe + 1 ∧ m = mp - 9) := by
  simp only [civil] at hc
  generalize yearOfEra ((days + epochDays) % 146097).toNat = p at hc
  obtain ⟨yoe, doy⟩ := p
  generalize hmd : monthDay doy = q at hc
  obtain ⟨mp, d'⟩ := q
  dsimp only at hc
  split at hc
  · simp only [Prod.mk.injEq] at hc
    obtain ⟨rfl, rfl, rfl⟩ := hc
    exact ⟨yoe, doy, mp, rfl, hmd, .inl ⟨by assumption, rfl, rfl⟩⟩
  · simp only [Prod.mk.injEq] at hc
    obtain ⟨rfl, rfl, rfl⟩ := hc
    exact ⟨yoe, doy, mp, rfl, hmd, .inr ⟨by omega, rfl, rfl⟩⟩

/-- Leap years repeat with the era. -/
theorem isLeap_era_add (k y : Int) : isLeap (k * 400 + y) = isLeap y := by
  rw [Bool.eq_iff_iff, isLeap_iff, isLeap_iff]
  omega

theorem daysIn_le (m : Nat) (y : Int) : daysIn m y ≤ 31 := by
  unfold daysIn
  split
  · split <;> omega
  · split <;> omega

/-- Every day has a date: a month from 1 to 12, and a day of it within the month's length. -/
theorem civil_valid {days y : Int} {m d : Nat} (hc : civil days = (y, m, d)) :
    1 ≤ m ∧ m ≤ 12 ∧ 1 ≤ d ∧ d ≤ daysIn m y := by
  obtain ⟨yoe, doy, mp, hy, hm, hcase⟩ := civil_cases hc
  have hdoe : ((days + epochDays) % 146097).toNat < 146097 := by omega
  obtain ⟨hyoe, -, hleap⟩ := yearOfEra_spec hdoe hy
  obtain ⟨hmp, hd1, -, hlen, hfeb⟩ := monthDay_spec (by omega) hm
  refine ⟨by omega, by omega, hd1, ?_⟩
  rcases Nat.lt_or_ge mp 11 with h11 | h11
  · -- From March to January the length of a month does not depend on the year.
    have hdays := daysIn_eq_monthStart mp h11 y
    have hmonth : m = if mp < 10 then mp + 3 else mp - 9 := by
      rcases hcase with ⟨h10, -, rfl⟩ | ⟨h10, -, rfl⟩
      · simp [h10]
      · simp [show ¬ mp < 10 by omega]
    rw [hmonth, hdays]
    exact hlen h11
  · -- February: its 29th day is day 365 of its March-based year, which only a year before a
    -- leap year has.
    obtain ⟨-, rfl, rfl⟩ : 10 ≤ mp ∧ y = (days + epochDays) / 146097 * 400 + yoe + 1 ∧
        m = mp - 9 := hcase.resolve_left (by omega)
    have hd := hfeb (by omega)
    rw [show mp - 9 = 2 by omega, daysIn, if_pos rfl, Int.add_assoc, isLeap_era_add]
    split <;> rcases hleap with h | ⟨h, hl⟩ <;> simp_all <;> omega

/-- Counting the days of a date gives back the day it is the date of. -/
theorem daysFromCivil_civil {days y : Int} {m d : Nat} (hc : civil days = (y, m, d)) :
    daysFromCivil y m d = days := by
  obtain ⟨yoe, doy, mp, hy, hm, hcase⟩ := civil_cases hc
  have hdoe : ((days + epochDays) % 146097).toNat < 146097 := by omega
  obtain ⟨hyoe, hsum, hleap⟩ := yearOfEra_spec hdoe hy
  obtain ⟨hmp, -, hstart, -, -⟩ :=
    monthDay_spec (by rcases hleap with h | ⟨h, -⟩ <;> omega) hm
  -- Either way the date's March-based year is the era's year `yoe`, and its month is `mp`.
  have hyear : (if m ≤ 2 then y - 1 else y) = (days + epochDays) / 146097 * 400 + yoe := by
    rcases hcase with ⟨h10, rfl, rfl⟩ | ⟨h10, rfl, rfl⟩
    · simp [show ¬ mp + 3 ≤ 2 by omega]
    · simp [show mp - 9 ≤ 2 by omega]
  have hmonth : (if m ≤ 2 then m + 9 else m - 3) = mp := by
    rcases hcase with ⟨h10, -, rfl⟩ | ⟨h10, -, rfl⟩
    · simp [show ¬ mp + 3 ≤ 2 by omega]
    · simp [show mp - 9 ≤ 2 by omega]; omega
  have hdoe' : (((days + epochDays) % 146097).toNat : Int) = (days + epochDays) % 146097 :=
    Int.toNat_of_nonneg (Int.emod_nonneg _ (by decide))
  simp only [daysFromCivil, hyear, hmonth, hstart]
  -- The era's years are whole numbers of four, a hundred and four hundred years.
  have hdiv := Int.mul_ediv_add_emod (days + epochDays) 146097
  generalize (days + epochDays) / 146097 = era at hdiv ⊢
  have h4 : (era * 400 + yoe) / 4 = era * 100 + (yoe / 4 : Nat) := by omega
  have h100 : (era * 400 + yoe) / 100 = era * 4 + (yoe / 100 : Nat) := by omega
  have h400 : (era * 400 + yoe) / 400 = era := by omega
  rw [h4, h100, h400]
  omega

end Calendar

namespace Decimal

/-- A zero-padded numeral is made of decimal digits. -/
theorem isDigit_of_mem_zeroPad {w n : Nat} {c : Char} (h : c ∈ (zeroPad w n).toList) :
    c.isDigit := by
  simp only [zeroPad, String.toList_ofList, List.mem_append, List.mem_replicate] at h
  rcases h with ⟨-, rfl⟩ | h
  · decide
  · exact Nat.isDigit_of_mem_toDigits (by decide) (by decide) h

/-- A number below `10 ^ w` takes exactly `w` digits when padded to `w`. -/
theorem length_zeroPad {w n : Nat} (hw : 0 < w) (h : n < 10 ^ w) :
    (zeroPad w n).toList.length = w := by
  have := (Nat.length_toDigits_le_iff (by decide) hw).2 h
  simp only [zeroPad, String.toList_ofList, List.length_append, List.length_replicate]
  omega

/-- Leading zeros do not change the value of a numeral. -/
theorem ofDigitChars_zeroPad (w n : Nat) : Nat.ofDigitChars 10 (zeroPad w n).toList 0 = n := by
  simp [zeroPad, Nat.ofDigitChars_append]

end Decimal

namespace Timestamp

open Calendar

theorem toNat_lt_of_isDigit {c : Char} (h : c.isDigit) : 48 ≤ c.toNat ∧ c.toNat ≤ 57 := by
  simp only [Char.isDigit, Bool.and_eq_true, decide_eq_true_eq] at h
  exact ⟨h.1, h.2⟩

/-- The byte of a digit character is an ASCII digit of the same code. -/
theorem isDigit_byte {c : Char} (h : c.isDigit) :
    isDigit c.toNat.toUInt8 = true ∧ (c.toNat.toUInt8).toNat = c.toNat := by
  have hc := toNat_lt_of_isDigit h
  have hb : (c.toNat.toUInt8).toNat = c.toNat := by
    rw [Nat.toUInt8_eq, UInt8.toNat_ofNat']
    omega
  refine ⟨?_, hb⟩
  simp only [isDigit, UInt8.le_iff_toNat_le, hb]
  simp
  omega

/-- The bytes of a zero-padded numeral are its digits, one byte each. -/
theorem bytes_zeroPad (w n : Nat) :
    Utf8.bytes (Decimal.zeroPad w n) = (Decimal.zeroPad w n).toList.map fun c => c.toNat.toUInt8 :=
  Utf8.bytes_of_ascii _ fun _ hc => by
    have := toNat_lt_of_isDigit (Decimal.isDigit_of_mem_zeroPad hc)
    omega

/-- Reading digits is the core reading of digit characters. -/
theorem foldlM_digitStep {cs : List Char} (h : ∀ c ∈ cs, c.isDigit) (acc : Nat) :
    (cs.map fun c => c.toNat.toUInt8).foldlM digitStep acc = some (Nat.ofDigitChars 10 cs acc) := by
  induction cs generalizing acc with
  | nil => rfl
  | cons c cs ih =>
    rw [List.forall_mem_cons] at h
    have hc := toNat_lt_of_isDigit h.1
    have hstep : digitStep acc c.toNat.toUInt8 = some (10 * acc + (c.toNat - '0'.toNat)) := by
      rw [digitStep, if_pos (isDigit_byte h.1).1, (isDigit_byte h.1).2]
      simp
      omega
    rw [List.map_cons, List.foldlM_cons, hstep, Nat.ofDigitChars_cons]
    exact ih h.2 _

/-- A zero-padded numeral reads back as its number. -/
theorem digitsValue_zeroPad (w n : Nat) : digitsValue (Utf8.bytes (Decimal.zeroPad w n)) = some n := by
  rw [bytes_zeroPad, digitsValue, foldlM_digitStep (fun _ => Decimal.isDigit_of_mem_zeroPad),
    Decimal.ofDigitChars_zeroPad]

theorem field_zeroPad {w n lo hi : Nat} (hlo : lo ≤ n) (hhi : n ≤ hi) :
    field (Utf8.bytes (Decimal.zeroPad w n)) lo hi = some n := by
  simp [field, digitsValue_zeroPad, hlo, hhi]

theorem isDigit_of_mem_bytes_zeroPad {w n : Nat} {b : UInt8} (h : b ∈ Utf8.bytes (Decimal.zeroPad w n)) :
    isDigit b = true := by
  rw [bytes_zeroPad, List.mem_map] at h
  obtain ⟨c, hc, rfl⟩ := h
  exact (isDigit_byte (Decimal.isDigit_of_mem_zeroPad hc)).1

theorem length_bytes_zeroPad {w n : Nat} (hw : 0 < w) (h : n < 10 ^ w) :
    (Utf8.bytes (Decimal.zeroPad w n)).length = w := by
  rw [bytes_zeroPad, List.length_map, Decimal.length_zeroPad hw h]

/-- Dropping trailing zeros divides by a power of ten: at most `fuel` zeros go. -/
theorem trimZeros_spec (fuel n : Nat) :
    (trimZeros fuel n).1 * 10 ^ (trimZeros fuel n).2 = n ∧ (trimZeros fuel n).2 ≤ fuel := by
  induction fuel generalizing n with
  | zero => simp [trimZeros]
  | succ fuel ih =>
    rw [trimZeros]
    split
    · obtain ⟨hv, hr⟩ := ih (n / 10)
      generalize trimZeros fuel (n / 10) = p at hv hr ⊢
      obtain ⟨v, r⟩ := p
      dsimp only at hv hr ⊢
      refine ⟨?_, by omega⟩
      rw [Nat.pow_succ, ← Nat.mul_assoc, hv]
      omega
    · simp

/-- A point and at most nine digits, then a byte that is no digit: the digits are the
nanoseconds, scaled up to nine places. -/
theorem fraction_digits {ds rest : List UInt8} (hne : ds ≠ []) (hall : ∀ b ∈ ds, isDigit b)
    (hlen : ds.length ≤ 9) (hrest : ∀ b ∈ rest.head?, isDigit b = false) :
    fraction (46 :: (ds ++ rest)) = ((digitsValue ds).getD 0 * 10 ^ (9 - ds.length), rest) := by
  obtain ⟨b, ds', rfl⟩ := List.exists_cons_of_ne_nil hne
  have htake : rest.takeWhile isDigit = [] := by
    cases rest with
    | nil => rfl
    | cons c _ => simp [hrest c rfl]
  have hdrop : rest.dropWhile isDigit = rest := by
    cases rest with
    | nil => rfl
    | cons c _ => simp [hrest c rfl]
  simp only [fraction, List.cons_append, Nat.pow_eq]
  rw [if_pos (hall b List.mem_cons_self), ← List.cons_append, List.takeWhile_append_of_pos hall,
    List.dropWhile_append_of_pos hall, htake, hdrop, List.append_nil,
    List.take_of_length_le hlen]

/-- The written fraction of a second reads back, with the zone after it. -/
theorem fraction_fractionText {ns : Nat} (h : ns < 10 ^ 9) :
    fraction (Utf8.bytes (fractionText ns) ++ [90]) = (ns, [90]) := by
  unfold fractionText
  split
  · rename_i h0
    subst h0
    simp [Utf8.bytes_of_ascii, fraction]
  · obtain ⟨hv, hr⟩ := trimZeros_spec 8 ns
    generalize trimZeros 8 ns = p at hv hr ⊢
    obtain ⟨v, r⟩ := p
    dsimp only at hv hr ⊢
    have hvlt : v < 10 ^ (9 - r) := by
      have h9 : 10 ^ 9 = 10 ^ (9 - r) * 10 ^ r := by rw [← Nat.pow_add]; congr 1; omega
      rw [h9, ← hv] at h
      exact Nat.lt_of_mul_lt_mul_right h
    have hlen := length_bytes_zeroPad (by omega : 0 < 9 - r) hvlt
    have hdot : Utf8.bytes "." = [46] := by simp [Utf8.bytes_of_ascii]
    rw [Utf8.bytes_append, hdot, List.cons_append, List.cons_append, List.nil_append,
      fraction_digits (by rw [← List.length_pos_iff]; omega) (fun _ => isDigit_of_mem_bytes_zeroPad)
        (by omega) (fun _ hb => by cases hb; rfl), digitsValue_zeroPad, hlen]
    simp only [Option.getD_some, Prod.mk.injEq, and_true]
    rw [← hv]
    congr 2
    omega

/-- The fixed places of the written form: where each field and each separator stands. -/
theorem places (rest : List UInt8) {Y M D H N S : List UInt8} (hY : Y.length = 4) (hM : M.length = 2)
    (hD : D.length = 2) (hH : H.length = 2) (hN : N.length = 2) (hS : S.length = 2) :
    let bs := Y ++ 45 :: M ++ 45 :: D ++ 84 :: H ++ 58 :: N ++ 58 :: S ++ rest
    19 ≤ bs.length ∧ bs.take 4 = Y ∧ (bs.drop 5).take 2 = M ∧ (bs.drop 8).take 2 = D ∧
      (bs.drop 11).take 2 = H ∧ (bs.drop 14).take 2 = N ∧ (bs.drop 17).take 2 = S ∧
      (bs[4]? = some 45 ∧ bs[7]? = some 45 ∧ bs[10]? = some 84 ∧ bs[13]? = some 58 ∧
        bs[16]? = some 58) ∧ bs.drop 19 = rest := by
  match Y, M, D, H, N, S, hY, hM, hD, hH, hN, hS with
  | [_, _, _, _], [_, _], [_, _], [_, _], [_, _], [_, _], _, _, _, _, _, _ => simp

/-- The written form of a timestamp of a year from 0: its fields, with the fraction and `Z`. -/
theorem bytes_render {t : Timestamp} {y : Int} {m d : Nat} (hc : civil t.day = (y, m, d))
    (hy : 0 ≤ y) :
    Utf8.bytes t.render = Utf8.bytes (Decimal.zeroPad 4 y.toNat) ++ 45 :: Utf8.bytes (Decimal.zeroPad 2 m) ++
      45 :: Utf8.bytes (Decimal.zeroPad 2 d) ++ 84 :: Utf8.bytes (Decimal.zeroPad 2 (t.secondOfDay / 3600)) ++
      58 :: Utf8.bytes (Decimal.zeroPad 2 (t.secondOfDay / 60 % 60)) ++
      58 :: Utf8.bytes (Decimal.zeroPad 2 (t.secondOfDay % 60)) ++ (Utf8.bytes (fractionText t.nanos) ++ [90]) := by
  simp only [render, hc, yearText, if_neg (Int.not_lt.2 hy)]
  simp [Utf8.bytes_append, Utf8.bytes_of_ascii, two]

theorem secondOfDay_lt (t : Timestamp) : t.secondOfDay < 86400 := by
  simp only [secondOfDay]
  omega

theorem nanos_lt (t : Timestamp) : t.nanos < 10 ^ 9 := by
  simp only [nanos, nanosPerSecond]
  omega

/-- A timestamp is its day, the second of that day and the nanoseconds past that second. -/
theorem day_secondOfDay_nanos (t : Timestamp) :
    (t.day * 86400 + t.secondOfDay) * nanosPerSecond + t.nanos = t.nanoseconds := by
  simp only [day, secondOfDay, seconds, nanos, nanosPerSecond]
  omega

/-- A timestamp whose year has four digits reads back from its written form. -/
theorem ofText?_render {t : Timestamp} (h0 : 0 ≤ t.year) (h9 : t.year ≤ 9999) :
    ofText? t.render = some t := by
  rcases hc : civil t.day with ⟨y, m, d⟩
  simp only [year, hc] at h0 h9
  obtain ⟨hm1, hm12, hd1, hdm⟩ := civil_valid hc
  have hs := secondOfDay_lt t
  -- Each field is read back from its fixed place.
  obtain ⟨hlen, hY, hM, hD, hH, hN, hS, hsep, hrest⟩ :=
    places (Utf8.bytes (fractionText t.nanos) ++ [90])
      (length_bytes_zeroPad (w := 4) (n := y.toNat) (by decide) (by omega))
      (length_bytes_zeroPad (w := 2) (n := m) (by decide) (by omega))
      (length_bytes_zeroPad (w := 2) (n := d) (by decide) (by have := daysIn_le m y; omega))
      (length_bytes_zeroPad (w := 2) (n := t.secondOfDay / 3600) (by decide) (by omega))
      (length_bytes_zeroPad (w := 2) (n := t.secondOfDay / 60 % 60) (by decide) (by omega))
      (length_bytes_zeroPad (w := 2) (n := t.secondOfDay % 60) (by decide) (by omega))
  have hyear : field (Utf8.bytes (Decimal.zeroPad 4 y.toNat)) 0 9999 = some y.toNat :=
    field_zeroPad (by omega) (by omega)
  have hmonth : field (Utf8.bytes (Decimal.zeroPad 2 m)) 1 12 = some m := field_zeroPad hm1 hm12
  have hday : field (Utf8.bytes (Decimal.zeroPad 2 d)) 1 (daysIn m y) = some d :=
    field_zeroPad hd1 hdm
  have hhour : field (Utf8.bytes (Decimal.zeroPad 2 (t.secondOfDay / 3600))) 0 23 = some (t.secondOfDay / 3600) :=
    field_zeroPad (by omega) (by omega)
  have hminute : field (Utf8.bytes (Decimal.zeroPad 2 (t.secondOfDay / 60 % 60))) 0 59 =
      some (t.secondOfDay / 60 % 60) := field_zeroPad (by omega) (by omega)
  have hsecond : field (Utf8.bytes (Decimal.zeroPad 2 (t.secondOfDay % 60))) 0 59 = some (t.secondOfDay % 60) :=
    field_zeroPad (by omega) (by omega)
  simp only [ofText?, bytes_render hc h0, hlen, hY, hM, hD, hH, hN, hS, hsep, hrest, hyear,
    hmonth, hhour, hminute, hsecond, fraction_fractionText (nanos_lt t), Option.bind_eq_bind,
    Option.bind_some, Int.toNat_of_nonneg h0, guard, and_self, if_true, Option.pure_def]
  have hzone : zone [90] = some 0 := rfl
  rw [hday, Option.bind_some, hzone, Option.bind_some, daysFromCivil_civil hc, Option.some.injEq]
  -- What is left is the arithmetic of days, seconds and nanoseconds.
  have hsecs : t.day * 86400 + ((t.secondOfDay / 3600 : Nat) : Int) * 3600 +
      ((t.secondOfDay / 60 % 60 : Nat) : Int) * 60 + ((t.secondOfDay % 60 : Nat) : Int) - 0 =
      t.day * 86400 + t.secondOfDay := by omega
  rw [hsecs, day_secondOfDay_nanos]

end Timestamp

end ShaderHeaders
