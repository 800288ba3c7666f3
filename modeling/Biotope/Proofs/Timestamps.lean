import Biotope.Proofs.Numerals
import Biotope.Timestamp

/-!
# Timestamps and their text

A moment of the calendar is written in universal time and read back to the nanosecond,
leap seconds included. Each number is read up to the mark behind it.
-/

namespace Biotope

namespace Timestamp

structure Valid (t : Timestamp) : Prop where
  year : yearFits t.year = true
  month : 1 ≤ t.month ∧ t.month ≤ 12
  day : 1 ≤ t.day ∧ t.day ≤ daysIn t.year t.month
  hour : t.hour < 24
  minute : t.minute < 60
  second : t.second ≤ 60
  nanosecond : t.nanosecond < 10 ^ 9

/-! ## Numbers -/

theorem toList_padded (w n : Nat) : (Decimal.padded w n).toList =
    List.replicate (w - (Nat.toDigits 10 n).length) '0' ++ Nat.toDigits 10 n := by
  simp [Decimal.padded, Decimal.zeros, String.length]

theorem isDigit_padded {w n : Nat} {c : Char} (hc : c ∈ (Decimal.padded w n).toList) :
    c.isDigit = true := by
  rw [toList_padded] at hc
  rcases List.mem_append.mp hc with hc | hc
  · rw [List.eq_of_mem_replicate hc]
    rfl
  · exact Decimal.isDigit_toDigits hc

theorem digitsValue_padded (w n : Nat) : Decimal.digitsValue (Decimal.padded w n).toList = n := by
  rw [toList_padded, Decimal.digitsValue_append, Decimal.digitsValue_zeros,
    Decimal.digitsValue_toDigits, Nat.zero_mul, Nat.zero_add]

theorem length_padded {w n : Nat} (hw : 0 < w) (hn : n < 10 ^ w) :
    (Decimal.padded w n).toList.length = w := by
  have := (Nat.length_toDigits_le_iff (by decide) hw).mpr hn
  rw [toList_padded, List.length_append, List.length_replicate]
  omega

theorem padded_ne_nil (w n : Nat) : (Decimal.padded w n).toList ≠ [] := by
  rw [toList_padded]
  simp

section
variable {cs : List Char} (hcs : Json.NoDigit cs)
include hcs

theorem number_digits {width : Option Nat} {ds : List Char} (hds : ∀ c ∈ ds, c.isDigit = true)
    (hne : ds ≠ []) (hw : ∀ w ∈ width, ds.length ≤ w) (hn : Decimal.digitsValue ds < 2 ^ 63) :
    number width (ds ++ cs) = .ok (Decimal.digitsValue ds, cs) := by
  obtain ⟨d, ds, rfl⟩ := List.exists_cons_of_ne_nil hne
  have hspan := Json.spanDigits_append hds hcs
  have hd := hds d List.mem_cons_self
  simp only [Json.spanDigits, Prod.mk.injEq, List.cons_append] at hspan
  have hsmall : ¬ 1 <<< 63 ≤ Decimal.digitsValue (d :: ds) := by
    rw [Nat.one_shiftLeft]
    omega
  have hrest : ((d :: ds) ++ cs).drop (d :: ds).length = cs := List.drop_left
  cases width with
  | none =>
    simp only [List.cons_append, number, hd, hspan.1]
    exact (if_neg hsmall).trans (by rw [← List.cons_append, hrest]; rfl)
  | some w =>
    simp only [List.cons_append, number, hd, hspan.1, List.take_of_length_le (hw w rfl)]
    exact (if_neg hsmall).trans (by rw [← List.cons_append, hrest]; rfl)

theorem number_padded {v w n : Nat} (hw : 0 < w) (hn : n < 10 ^ w) (hsmall : n < 2 ^ 63)
    (hv : w ≤ v) : number (some v) ((Decimal.padded w n).toList ++ cs) = .ok (n, cs) := by
  have hwidth : ∀ u ∈ some v, (Decimal.padded w n).toList.length ≤ u := by
    simpa [length_padded hw hn] using hv
  have h := number_digits hcs (fun _ => isDigit_padded) (padded_ne_nil w n) hwidth
    (by rwa [digitsValue_padded])
  rwa [digitsValue_padded] at h

end

/-! ## Parts -/

theorem isBlank_of_isDigit {c : Char} (h : c.isDigit = true) : Text.isBlank c = false := by
  have h' : 48 ≤ c.toNat ∧ c.toNat ≤ 57 := by
    simpa [Char.isDigit, UInt32.le_iff_toNat_le] using h
  simp only [Text.isBlank, Bool.or_eq_false_iff, Bool.and_eq_false_iff, decide_eq_false_iff_not,
    beq_eq_false_iff_ne]
  omega

theorem padded_eq_cons (w n : Nat) :
    ∃ d ds, (Decimal.padded w n).toList = d :: ds ∧ d.isDigit = true := by
  obtain ⟨d, ds, hd⟩ := List.exists_cons_of_ne_nil (padded_ne_nil w n)
  exact ⟨d, ds, hd, isDigit_padded (hd ▸ List.mem_cons_self)⟩

theorem dropBlanks_padded (w n : Nat) (cs : List Char) :
    Text.dropBlanks ((Decimal.padded w n).toList ++ cs) = (Decimal.padded w n).toList ++ cs := by
  obtain ⟨d, ds, hd, hdigit⟩ := padded_eq_cons w n
  simp [hd, Text.dropBlanks, isBlank_of_isDigit hdigit]

theorem bounded_padded {n least greatest : Nat} (hn : n < 100) (h : least ≤ n) (h' : n ≤ greatest)
    {cs : List Char} (hcs : Json.NoDigit cs) :
    bounded 2 least greatest ((Decimal.padded 2 n).toList ++ cs) = .ok (n, cs) := by
  have hnumber := number_padded hcs (v := 2) (w := 2) (by decide) hn (by omega) (by decide)
  simp only [bounded, dropBlanks_padded, hnumber, bind, Except.bind, h, h']
  rfl

theorem mark_cons {c : Char} (hc : Text.isBlank c = false) (cs : List Char) :
    mark c (c :: cs) = .ok cs := by
  simp [mark, Text.dropBlanks, hc]

theorem fraction_text {n : Nat} (hn : n < 10 ^ 9) {cs : List Char} (hcs : Json.NoDigit cs)
    (hpoint : cs.head? ≠ some '.') :
    fraction ((fractionText n).toList ++ cs) = .ok (n, cs) := by
  have hdrop : cs.dropWhile Char.isDigit = cs := by
    cases cs with
    | nil => rfl
    | cons c cs => simp_all [Json.NoDigit]
  -- the places that are written, and the zeros that are left out
  have hplaces (w m : Nat) (hw : 0 < w) (hw' : w ≤ 9) (hm : m < 10 ^ w)
      (hnm : m * 10 ^ (9 - w) = n) :
      fraction ('.' :: ((Decimal.padded w m).toList ++ cs)) = .ok (n, cs) := by
    have hpow : 10 ^ w ≤ 10 ^ 9 := Nat.pow_le_pow_right (by decide) hw'
    have hnumber := number_padded hcs hw hm (by omega) hw'
    have hlength := length_padded hw hm
    simp only [fraction, hnumber, bind, Except.bind, List.length_append, hlength, Nat.add_sub_cancel,
      hdrop, Nat.pow_eq, hnm]
    rfl
  unfold fractionText
  split
  case isTrue h0 =>
    subst h0
    rw [show ("" : String).toList ++ cs = cs from rfl]
    unfold fraction
    split
    · exact absurd rfl hpoint
    · rfl
  case isFalse =>
    split
    case isTrue h3 =>
      rw [String.toList_append]
      exact hplaces 3 _ (by decide) (by decide) (by omega) (by omega)
    case isFalse =>
      split
      case isTrue h6 =>
        rw [String.toList_append]
        exact hplaces 6 _ (by decide) (by decide) (by omega) (by omega)
      case isFalse =>
        rw [String.toList_append]
        exact hplaces 9 _ (by decide) (by decide) hn (by omega)

theorem int32_of_yearFits {y : Int} (hy : yearFits y = true) :
    Int32.minValue.toInt ≤ y ∧ y ≤ Int32.maxValue.toInt := by
  have hy : -262143 ≤ y ∧ y ≤ 262142 := by simpa [yearFits] using hy
  rw [show Int32.minValue.toInt = -2147483648 from rfl,
    show Int32.maxValue.toInt = 2147483647 from rfl]
  omega

section
variable {y : Int} (hy : yearFits y = true) {cs : List Char} (hcs : Json.NoDigit cs)
include hy hcs

theorem number_natAbs :
    number none ((Decimal.padded 4 y.natAbs).toList ++ cs) = .ok (y.natAbs, cs) := by
  have hy : -262143 ≤ y ∧ y ≤ 262142 := by simpa [yearFits] using hy
  have hvalue := digitsValue_padded 4 y.natAbs
  have h : number none ((Decimal.padded 4 y.natAbs).toList ++ cs) = .ok (_, cs) :=
    number_digits hcs (fun _ => isDigit_padded) (padded_ne_nil 4 y.natAbs) (by simp) (by omega)
  rwa [hvalue] at h

theorem signedYear_bare (h : 0 ≤ y ∧ y ≤ 9999) :
    signedYear ((Decimal.padded 4 y.toNat).toList ++ cs) = .ok (y, cs) := by
  obtain ⟨d, ds, hd, hdigit⟩ := padded_eq_cons 4 y.toNat
  have hnumber := number_padded hcs (v := 4) (w := 4) (n := y.toNat) (by decide) (by omega)
    (by omega) (by decide)
  have hdrop := dropBlanks_padded 4 y.toNat cs
  have hnat : ((y.toNat : Nat) : Int) = y := by omega
  rw [hd, List.cons_append] at hnumber hdrop
  rw [hd, List.cons_append]
  simp only [signedYear, hdrop, bind, Except.bind]
  split
  case h_1 heq =>
    cases heq
    exact absurd hdigit (by decide)
  case h_2 heq =>
    cases heq
    exact absurd hdigit (by decide)
  case h_3 =>
    simp only [hnumber, pure, Except.pure, hnat]
    exact if_pos (int32_of_yearFits hy)

theorem signedYear_minus (h : y < 0) :
    signedYear ('-' :: ((Decimal.padded 4 y.natAbs).toList ++ cs)) = .ok (y, cs) := by
  have hnat : -((y.natAbs : Nat) : Int) = y := by omega
  have hdrop (cs : List Char) : Text.dropBlanks ('-' :: cs) = '-' :: cs := rfl
  simp only [signedYear, hdrop, bind, Except.bind, number_natAbs hy hcs, pure, Except.pure, hnat]
  exact if_pos (int32_of_yearFits hy)

theorem signedYear_plus (h : ¬ y < 0) :
    signedYear ('+' :: ((Decimal.padded 4 y.natAbs).toList ++ cs)) = .ok (y, cs) := by
  have hnat : ((y.natAbs : Nat) : Int) = y := by omega
  have hdrop (cs : List Char) : Text.dropBlanks ('+' :: cs) = '+' :: cs := rfl
  simp only [signedYear, hdrop, bind, Except.bind, number_natAbs hy hcs, pure, Except.pure, hnat]
  exact if_pos (int32_of_yearFits hy)

theorem signedYear_text : signedYear ((yearText y).toList ++ cs) = .ok (y, cs) := by
  unfold yearText
  by_cases h : 0 ≤ y ∧ y ≤ 9999
  · rw [if_pos h]
    exact signedYear_bare hy hcs h
  · rw [if_neg h, String.toList_append]
    by_cases hneg : y < 0
    · rw [if_pos hneg]
      exact signedYear_minus hy hcs hneg
    · rw [if_neg hneg]
      exact signedYear_plus hy hcs hneg

end

/-! ## Moments -/

theorem minus_zero {t : Timestamp} (hh : t.hour < 24) (hm : t.minute < 60) : minus t 0 = t := by
  have hwrapped : (((t.hour : Int) * 60 + t.minute - 0) % 1440).toNat = t.hour * 60 + t.minute := by
    omega
  have hhour : (t.hour * 60 + t.minute) / 60 = t.hour := by omega
  have hminute : (t.hour * 60 + t.minute) % 60 = t.minute := by omega
  simp only [minus, hwrapped, hhour, hminute]
  rw [if_neg (by omega), if_neg (by omega)]

theorem noDigit_fractionText (n : Nat) (cs : List Char) :
    Json.NoDigit ((fractionText n).toList ++ 'Z' :: cs) := by
  unfold fractionText
  split
  · rfl
  · split
    · simp [Json.NoDigit]
    · split <;> simp [Json.NoDigit]

theorem daysIn_le (year : Int) (month : Nat) : daysIn year month ≤ 31 := by
  unfold daysIn
  split
  · split <;> decide
  all_goals decide

theorem parse_text {t : Timestamp} (h : t.Valid) : parse (t.text "Z") = .ok t := by
  have htext : (t.text "Z").toList = (yearText t.year).toList ++ ('-' ::
      ((Decimal.padded 2 t.month).toList ++ ('-' :: ((Decimal.padded 2 t.day).toList ++ ('T' ::
      ((Decimal.padded 2 t.hour).toList ++ (':' :: ((Decimal.padded 2 t.minute).toList ++ (':' ::
      ((Decimal.padded 2 t.second).toList ++
        ((fractionText t.nanosecond).toList ++ ['Z']))))))))))) := by
    simp [text]
  obtain ⟨hm, hm'⟩ := h.month
  obtain ⟨hd, hd'⟩ := h.day
  have hdays := hd'.trans (daysIn_le t.year t.month)
  have hhour := h.hour
  have hminute := h.minute
  have hsecond := h.second
  have hY (cs : List Char) : signedYear ((yearText t.year).toList ++ '-' :: cs) =
      .ok (t.year, '-' :: cs) := signedYear_text h.year rfl
  have hM (cs : List Char) : bounded 2 1 12 ((Decimal.padded 2 t.month).toList ++ '-' :: cs) =
      .ok (t.month, '-' :: cs) := bounded_padded (by omega) hm hm' rfl
  have hD (cs : List Char) : bounded 2 1 31 ((Decimal.padded 2 t.day).toList ++ 'T' :: cs) =
      .ok (t.day, 'T' :: cs) := bounded_padded (by omega) hd hdays rfl
  have hH (cs : List Char) : bounded 2 0 23 ((Decimal.padded 2 t.hour).toList ++ ':' :: cs) =
      .ok (t.hour, ':' :: cs) := bounded_padded (by omega) (by omega) (by omega) rfl
  have hN (cs : List Char) : bounded 2 0 59 ((Decimal.padded 2 t.minute).toList ++ ':' :: cs) =
      .ok (t.minute, ':' :: cs) := bounded_padded (by omega) (by omega) (by omega) rfl
  have hS := bounded_padded (n := t.second) (by omega) (Nat.zero_le _) hsecond
    (noDigit_fractionText t.nanosecond [])
  have hF : fraction ((fractionText t.nanosecond).toList ++ ['Z']) = .ok (t.nanosecond, ['Z']) :=
    fraction_text h.nanosecond rfl (by simp)
  have hZ : zone ['Z'] = .ok (0, []) := rfl
  have hblank : (Text.dropBlanks []).isEmpty = true := rfl
  have hdash (cs : List Char) := mark_cons (c := '-') (by decide) cs
  have hcolon (cs : List Char) := mark_cons (c := ':') (by decide) cs
  -- the reader first takes any day up to 31, and looks at the month afterwards
  have hlast : decide (daysIn t.year t.month < t.day) = false := by simpa using hd'
  simp only [parse, htext, hY, hM, hD, hH, hN, hS, hF, hZ, hblank, hdash, hcolon, h.year, hlast,
    minus_zero hhour hminute, bind, Except.bind, pure, Except.pure]
  rfl

end Timestamp

end Biotope
