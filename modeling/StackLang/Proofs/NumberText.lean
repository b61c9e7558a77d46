import StackLang.Proofs.FloatBits
import StackLang.Proofs.TreeShape
import Mathlib.Data.List.TakeWhile

namespace StackLang

/-- A predicate that holds of every character of a word and not of what follows finds the end of
the word. -/
theorem takeWhile_of_head {p : Char → Bool} {cs rest : List Char} (hcs : ∀ c ∈ cs, p c = true)
    (hrest : ∀ c ∈ rest.head?, p c = false) : (cs ++ rest).takeWhile p = cs := by
  rw [List.takeWhile_append_of_pos hcs]
  cases rest with
  | nil => simp
  | cons c rest => simp [hrest c rfl]

theorem dropWhile_of_head {p : Char → Bool} {cs rest : List Char} (hcs : ∀ c ∈ cs, p c = true)
    (hrest : ∀ c ∈ rest.head?, p c = false) : (cs ++ rest).dropWhile p = rest := by
  rw [List.dropWhile_append_of_pos hcs]
  cases rest with
  | nil => simp
  | cons c rest => simp [hrest c rfl]

namespace Number

open Nat (pow)

theorem nearest_mul (q : Nat) {d : Nat} (hd : 0 < d) : nearest (q * d) d = q := by
  have hmod : q * d % d = 0 := Nat.mul_mod_left q d
  rw [nearest, hmod, if_pos (by omega), Nat.mul_div_cancel q hd]

/-- The leading bit of a significand `m` that is shifted by `k`. -/
theorem log2_shifted {m k : Nat} (hle : pow 2 52 ≤ m) (hlt : m < pow 2 53) :
    (m * pow 2 k).log2 = 52 + k := by
  have hk : 0 < pow 2 k := Nat.pow_pos (by decide)
  have hm : 0 < m := Nat.lt_of_lt_of_le (by decide) hle
  refine (Nat.log2_eq_iff (Nat.ne_of_gt (Nat.mul_pos hm hk))).mpr ⟨?_, ?_⟩
  · rw [Nat.pow_add]
    exact Nat.mul_le_mul_right _ hle
  · rw [show 52 + k + 1 = 53 + k by omega, Nat.pow_add]
    exact Nat.mul_lt_mul_of_pos_right hlt hk

theorem ofUnits_units {b d : Nat} (hb : b < infinity) (hd : 0 < d) :
    ofUnits (units b * d) d = b := by
  rw [ofUnits, Nat.mul_div_cancel _ hd]
  by_cases hsmall : b < pow 2 52
  · -- A small pattern is its own number of units.
    have hu : units b = b := by rw [units, if_pos hsmall]
    have hlog : b.log2 - 52 = 0 := by
      by_cases h0 : b = 0
      · rw [h0, Nat.log2_zero]
      · have := (Nat.log2_lt h0).mpr hsmall
        omega
    simp only [hu, hlog]
    rw [show d * pow 2 0 = d from Nat.mul_one d, nearest_mul b hd]
    omega
  · -- Otherwise the significand has 53 bits, and rounding to as many changes nothing.
    have hu : units b = (pow 2 52 + b % pow 2 52) * pow 2 (b / pow 2 52 - 1) := by
      rw [units, if_neg hsmall]
    have hmod : b % pow 2 52 < pow 2 52 := Nat.mod_lt b (by decide)
    have hshift : (units b).log2 - 52 = b / pow 2 52 - 1 := by
      rw [hu, log2_shifted (Nat.le_add_right _ _) (Nat.add_lt_add_left hmod _)]
      omega
    have hpow : 0 < d * pow 2 (b / pow 2 52 - 1) := Nat.mul_pos hd (Nat.pow_pos (by decide))
    have hprod : units b * d =
        (pow 2 52 + b % pow 2 52) * (d * pow 2 (b / pow 2 52 - 1)) := by
      rw [hu, Nat.mul_assoc, Nat.mul_comm d]
    simp only [hshift]
    rw [hprod, nearest_mul _ hpow]
    have hexp : 1 ≤ b / pow 2 52 := Nat.div_pos (Nat.not_lt.mp hsmall) (by decide)
    have hfields : (b / pow 2 52 - 1) * pow 2 52 + (pow 2 52 + b % pow 2 52) = b := by
      rw [← Nat.add_assoc, ← Nat.succ_mul, Nat.succ_eq_add_one, Nat.sub_add_cancel hexp,
        Nat.mul_comm, Nat.div_add_mod]
    rw [hfields]
    exact Nat.min_eq_right (Nat.le_of_lt hb)

theorem Decimal.pattern_le (d : Decimal) : d.pattern ≤ infinity := by
  rw [Decimal.pattern]
  split
  · exact Nat.zero_le _
  · split
    · split
      · exact Nat.le_refl _
      · exact Nat.min_le_left _ _
    · split
      · exact Nat.zero_le _
      · exact Nat.min_le_left _ _

theorem units_pos {b : Nat} (hb : b ≠ 0) : 0 < units b := by
  rw [units]
  split
  · omega
  · exact Nat.mul_pos (Nat.add_pos_left (by decide) _) (Nat.pow_pos (by decide))

theorem Decimal.pattern_negSucc {digits e : Nat} (h0 : 0 < digits)
    (h : 3 * e ≤ digits.log2 + 1100) : Decimal.pattern ⟨digits, .negSucc e⟩ =
      ofUnits (digits * pow 2 1074) (pow 10 (e + 1)) := by
  simp only [Decimal.pattern]
  rw [if_neg (Nat.ne_of_gt h0), if_neg (Nat.not_lt.mpr h)]

theorem Decimal.pattern_exact {b : Nat} (h0 : b ≠ 0) (hb : b < infinity) :
    (Decimal.exact (units b)).pattern = b := by
  -- The exponent stays a variable, so that no step computes the power.
  have hall (n e : Nat) (he : n = e + 1) (hn : n = 1074) :
      Decimal.pattern ⟨units b * pow 5 n, .negSucc e⟩ = b := by
    have hpow : 0 < pow 5 n := Nat.pow_pos (by decide)
    have hdigits : 0 < units b * pow 5 n := Nat.mul_pos (units_pos h0) hpow
    have hlog : 2 * n ≤ (units b * pow 5 n).log2 := by
      refine (Nat.le_log2 (Nat.ne_of_gt hdigits)).mpr ?_
      rw [Nat.pow_mul]
      exact Nat.le_trans (Nat.pow_le_pow_left (by decide) _)
        (Nat.le_mul_of_pos_left _ (units_pos h0))
    -- A number of units is a fraction over a power of two, so over a power of ten as well.
    have hprod : units b * pow 5 n * pow 2 1074 = units b * pow 10 (e + 1) := by
      rw [Nat.mul_assoc, ← hn, ← he]
      exact congrArg _ (Nat.mul_pow 5 2 n).symm
    rw [Decimal.pattern_negSucc hdigits (by omega), hprod]
    exact ofUnits_units hb (Nat.pow_pos (by decide))
  have hexp : (-1074 : Int) = .negSucc 1073 := rfl
  rw [Decimal.exact, hexp]
  generalize hn : 1074 = n
  exact hall n 1073 hn.symm hn.symm

theorem Decimal.pattern_of_onGrid {b u : Nat} {p : Int} {d : Decimal}
    (h : onGrid? b u p = some d) : d.pattern = b := by
  unfold onGrid? at h
  dsimp only at h
  have hp := List.find?_some h
  exact of_decide_eq_true hp

/-- Every decimal that is tried reads back, and so do all digits together. -/
theorem Decimal.pattern_shortest {b : Nat} (hb : b < infinity) : (shortest b).pattern = b := by
  rw [shortest]
  by_cases h0 : b = 0
  · rw [if_pos h0, h0]
    rfl
  · rw [if_neg h0]
    simp only
    cases hf : (List.range 18).findSome? fun (n : Nat) =>
        onGrid? b (units b) (magnitude (units b) - n) with
    | none => exact pattern_exact h0 hb
    | some d =>
      obtain ⟨n, _, hn⟩ := List.exists_of_findSome?_eq_some hf
      exact pattern_of_onGrid hn

/-- A sequence of at least one digit. -/
structure IsDigits (ds : List Char) : Prop where
  ne_nil : ds ≠ []
  digit : ∀ c ∈ ds, c.isDigit = true

/-- Digits, or digits on both sides of a point. -/
inductive IsNumeral : List Char → Prop where
  | whole {ds : List Char} : IsDigits ds → IsNumeral ds
  | point {ds fs : List Char} : IsDigits ds → IsDigits fs → IsNumeral (ds ++ '.' :: fs)

theorem isDigits_toDigits (n : Nat) : IsDigits (Nat.toDigits 10 n) :=
  ⟨Nat.toDigits_ne_nil, fun _ => Nat.isDigit_of_mem_toDigits (by decide) (by decide)⟩

section Padded

variable {k n : Nat} (hk : 0 < k) (hn : n < pow 10 k)
include hk hn

theorem length_paddedDigits : (paddedDigits k n).length = k := by
  have hlen := (Nat.length_toDigits_le_iff (by decide) hk).mpr hn
  rw [paddedDigits, List.length_append, List.length_replicate]
  omega

theorem isDigits_paddedDigits : IsDigits (paddedDigits k n) := by
  constructor
  · rw [← List.length_pos_iff, length_paddedDigits hk hn]
    exact hk
  · intro c hc
    rw [paddedDigits, List.mem_append, List.mem_replicate] at hc
    rcases hc with ⟨_, rfl⟩ | hc
    · rfl
    · exact (isDigits_toDigits n).digit c hc

theorem ofDigitChars_paddedDigits (q : Nat) :
    Nat.ofDigitChars 10 (paddedDigits k n) q = pow 10 k * q + n := by
  have hlen := (Nat.length_toDigits_le_iff (by decide) hk).mpr hn
  rw [paddedDigits, Nat.ofDigitChars_append, Nat.ofDigitChars_replicate_zero,
    Nat.ofDigitChars_eq_ofDigitChars_zero, Nat.ofDigitChars_ten_toDigits, ← Nat.mul_assoc,
    ← Nat.pow_add, Nat.add_sub_cancel' hlen]
  rfl

end Padded

theorem not_digit_point (cs : List Char) : ∀ c ∈ ('.' :: cs).head?, c.isDigit = false := by
  intro c hc
  cases hc
  rfl

theorem readDecimal?_whole {ds : List Char} (h : IsDigits ds) :
    readDecimal? ds = some ⟨digitsValue ds, 0⟩ := by
  have htake : ds.takeWhile Char.isDigit = ds := List.takeWhile_eq_self_iff.mpr h.digit
  have hdrop : ds.dropWhile Char.isDigit = [] := List.dropWhile_eq_nil_iff.mpr h.digit
  have hne : ds.isEmpty = false := List.isEmpty_eq_false_iff.mpr h.ne_nil
  rw [readDecimal?, htake, hdrop]
  dsimp only
  rw [List.append_nil, hne]
  rfl

theorem readDecimal?_point {ds fs : List Char} (h : IsDigits ds) (hf : IsDigits fs) :
    readDecimal? (ds ++ '.' :: fs) = some ⟨digitsValue (ds ++ fs), -fs.length⟩ := by
  have htake := takeWhile_of_head h.digit (not_digit_point fs)
  have hdrop := dropWhile_of_head h.digit (not_digit_point fs)
  have htake' : fs.takeWhile Char.isDigit = fs := List.takeWhile_eq_self_iff.mpr hf.digit
  have hdrop' : fs.dropWhile Char.isDigit = [] := List.dropWhile_eq_nil_iff.mpr hf.digit
  have hne : (ds ++ fs).isEmpty = false :=
    List.isEmpty_eq_false_iff.mpr (List.append_ne_nil_of_left_ne_nil h.ne_nil fs)
  rw [readDecimal?, htake, hdrop]
  change (do
    guard !(ds ++ fs.takeWhile Char.isDigit).isEmpty
    let exponent ← readExponent? (fs.dropWhile Char.isDigit)
    return Decimal.mk (digitsValue (ds ++ fs.takeWhile Char.isDigit))
      (exponent - (fs.takeWhile Char.isDigit).length)) = _
  rw [htake', hdrop', hne]
  change some (Decimal.mk _ (0 - (fs.length : Int))) = _
  rw [Int.zero_sub]

namespace Decimal

theorem isNumeral_chars (d : Decimal) : IsNumeral d.chars := by
  rw [chars]
  split
  · exact .whole (isDigits_toDigits _)
  · exact .point (isDigits_toDigits _)
      (isDigits_paddedDigits (Nat.succ_pos _) (Nat.mod_lt _ (Nat.pow_pos (by decide))))

/-- Zeros that end a whole number may be written out. -/
theorem pattern_ofNat {n e : Nat} (h : pattern ⟨n, .ofNat e⟩ ≠ infinity) :
    pattern ⟨n * pow 10 e, 0⟩ = pattern ⟨n, .ofNat e⟩ := by
  by_cases h0 : n = 0
  · subst h0
    simp only [pattern, Nat.zero_mul, if_true]
  · have hn : n * pow 10 e ≠ 0 := Nat.mul_ne_zero h0 (Nat.ne_of_gt (Nat.pow_pos (by decide)))
    have hz : (0 : Int) = .ofNat 0 := rfl
    have hone : n * pow 10 e * pow 10 0 = n * pow 10 e := Nat.mul_one _
    simp only [pattern, if_neg h0] at h
    rw [hz]
    simp only [pattern, if_neg h0, if_neg hn]
    by_cases he : 309 ≤ e
    · rw [if_pos he] at h
      exact absurd rfl h
    · rw [if_neg he, if_neg (by decide), hone]

/-- What is written for a decimal reads as a decimal with the same pattern. -/
theorem readDecimal?_chars {d : Decimal} (h : d.pattern ≠ infinity) :
    ∃ d', readDecimal? d.chars = some d' ∧ d'.pattern = d.pattern := by
  obtain ⟨n, e⟩ := d
  cases e with
  | ofNat e =>
    refine ⟨⟨n * pow 10 e, 0⟩, ?_, pattern_ofNat h⟩
    have hread := readDecimal?_whole (isDigits_toDigits (n * pow 10 e))
    rwa [digitsValue, Nat.ofDigitChars_ten_toDigits] at hread
  | negSucc e =>
    refine ⟨⟨n, .negSucc e⟩, ?_, rfl⟩
    have hmod : n % pow 10 (e + 1) < pow 10 (e + 1) := Nat.mod_lt _ (Nat.pow_pos (by decide))
    have hread := readDecimal?_point (isDigits_toDigits (n / pow 10 (e + 1)))
      (isDigits_paddedDigits (Nat.succ_pos e) hmod)
    rwa [digitsValue, Nat.ofDigitChars_append, Nat.ofDigitChars_ten_toDigits,
      ofDigitChars_paddedDigits (Nat.succ_pos e) hmod, Nat.div_add_mod,
      length_paddedDigits (Nat.succ_pos e) hmod] at hread

end Decimal

theorem IsNumeral.first {cs : List Char} (h : IsNumeral cs) :
    ∃ c rest, cs = c :: rest ∧ c.isDigit = true := by
  have hdigits {ds : List Char} (h : IsDigits ds) (us : List Char) :
      ∃ c rest, ds ++ us = c :: rest ∧ c.isDigit = true := by
    cases ds with
    | nil => exact absurd rfl h.ne_nil
    | cons c rest => exact ⟨c, rest ++ us, rfl, h.digit c List.mem_cons_self⟩
  cases h with
  | whole h => simpa using hdigits h []
  | point h _ => exact hdigits h _

theorem IsNumeral.digit_or_point {cs : List Char} (h : IsNumeral cs) :
    ∀ c ∈ cs, c.isDigit = true ∨ c = '.' := by
  intro c hc
  cases h with
  | whole hd => exact .inl (hd.digit c hc)
  | point hd hf =>
    rw [List.mem_append, List.mem_cons] at hc
    rcases hc with hc | rfl | hc
    · exact .inl (hd.digit c hc)
    · exact .inr rfl
    · exact .inl (hf.digit c hc)

theorem ne_of_isDigit {c d : Char} (hc : c.isDigit = true) (hd : d.isDigit = false) : c ≠ d := by
  rintro rfl
  rw [hc] at hd
  cases hd

theorem toLower_of_isDigit {c : Char} (hc : c.isDigit = true) : c.toLower = c := by
  have hupper : ¬ (c.val ≥ 'A'.val ∧ c.val ≤ 'Z'.val) := by
    simp only [Char.isDigit, Bool.and_eq_true, decide_eq_true_eq] at hc
    rintro ⟨hA, _⟩
    exact absurd (UInt32.le_trans hA hc.2) (by decide)
  exact dif_neg hupper

theorem readSign_of_isDigit {c : Char} (hc : c.isDigit = true) (rest : List Char) :
    readSign (c :: rest) = (false, c :: rest) := by
  unfold readSign
  split
  · next h => exact absurd (List.cons.inj h).1 (ne_of_isDigit hc rfl)
  · next h => exact absurd (List.cons.inj h).1 (ne_of_isDigit hc rfl)
  · rfl

theorem readPattern?_of_isDigit {c : Char} (hc : c.isDigit = true) (rest : List Char) :
    readPattern? (c :: rest) = (readDecimal? (c :: rest)).map Decimal.pattern := by
  -- The names of the special values start with letters.
  have hname {d : Char} {ds : List Char} (hd : d.isDigit = false) :
      (c :: rest).map Char.toLower ≠ d :: ds := by
    intro h
    rw [List.map_cons, toLower_of_isDigit hc] at h
    exact ne_of_isDigit hc hd (List.cons.inj h).1
  have hnan : (c :: rest).map Char.toLower ≠ "nan".toList := hname rfl
  have hinf : ¬ ((c :: rest).map Char.toLower = "inf".toList ∨
      (c :: rest).map Char.toLower = "infinity".toList) := by
    rintro (h | h)
    · exact hname rfl h
    · exact hname rfl h
  rw [readPattern?, if_neg hnan, if_neg hinf]

/-- A numeral has no sign, so it is read as a decimal. -/
theorem ofText?_numeral {cs : List Char} (h : IsNumeral cs) :
    ofText? (.ofList cs) = (readDecimal? cs).map fun d => ofPattern false d.pattern := by
  obtain ⟨c, rest, rfl, hc⟩ := h.first
  rw [ofText?, String.toList_ofList, readSign_of_isDigit hc]
  simp only
  rw [readPattern?_of_isDigit hc, Option.map_map]
  rfl

/-- What a numeral reads as has no sign. -/
theorem isNegative_of_numeral {cs : List Char} (h : IsNumeral cs) {x : Float}
    (hx : ofText? (.ofList cs) = some x) : isNegative x = false := by
  rw [ofText?_numeral h, Option.map_eq_some_iff] at hx
  obtain ⟨d, _, rfl⟩ := hx
  exact isNegative_ofPattern d.pattern_le

theorem chars_of_literal {x : Float} (h : IsLiteral x) :
    chars x = (Decimal.shortest (pattern x)).chars := by
  have hlt : pattern x < infinity := (isFinite_iff x).mp h.finite
  rw [chars]
  simp only
  rw [if_neg (Nat.not_lt.mpr (Nat.le_of_lt hlt)), if_neg (Nat.ne_of_lt hlt), h.not_negative]
  rfl

theorem isNumeral_text {x : Float} (h : IsLiteral x) : IsNumeral (text x).toList := by
  rw [text, String.toList_ofList, chars_of_literal h]
  exact Decimal.isNumeral_chars _

/-- The text of a literal reads back as the literal. -/
theorem ofText?_text {x : Float} (h : IsLiteral x) : ofText? (text x) = some x := by
  have hlt : pattern x < infinity := (isFinite_iff x).mp h.finite
  have hpat := Decimal.pattern_shortest hlt
  obtain ⟨d, hd, hsame⟩ := Decimal.readDecimal?_chars (hpat ▸ Nat.ne_of_lt hlt)
  rw [text, chars_of_literal h, ofText?_numeral (Decimal.isNumeral_chars _), hd, Option.map_some,
    hsame, hpat, ofPattern_pattern h.finite h.not_negative]

end Number

end StackLang
