import StackLang.Number.Binary64

namespace StackLang.Number

open Float.Model Float.Model.UnpackedFloat
open Nat (pow)

theorem toBitVec_ofBitVec (b : BitVec 1) : (Sign.ofBitVec b).toBitVec = b := by
  rcases BitVec.eq_zero_or_eq_one b with rfl | rfl <;> rfl

section Fields

variable (b : BitVec Format.binary64.numBits)

/-- The three fields of a pattern make it up. -/
theorem packComponents_fields : packComponents .binary64 (Sign.ofBitVec (unpackSign b))
    (unpackExponent b) (unpackMantissa b) = b := by
  apply BitVec.eq_of_getLsbD_eq
  intro i hi
  have hi : i < 64 := hi
  rw [packComponents, toBitVec_ofBitVec]
  delta unpackSign unpackExponent unpackMantissa
  simp only [BitVec.getLsbD_append, BitVec.getLsbD_cast, BitVec.getLsbD_extractLsb]
  by_cases hm : i < 52
  · simp [hm]
  · by_cases he : i - 52 < 11
    · simp [hm, he, show 52 + (i - 52) = i by omega]
    · obtain rfl : i = 63 := by omega
      simp

theorem toNat_unpackExponent : (unpackExponent b).toNat = b.toNat / pow 2 52 % pow 2 11 := by
  simp only [unpackExponent, BitVec.toNat_cast, BitVec.extractLsb_toNat, Nat.shiftRight_eq_div_pow,
    Nat.pow_eq]

theorem toNat_unpackMantissa : (unpackMantissa b).toNat = b.toNat % pow 2 52 := by
  simp only [unpackMantissa, BitVec.toNat_cast, BitVec.extractLsb_toNat, Nat.shiftRight_zero,
    Nat.pow_eq]

theorem unpackExponent_eq_neg_one :
    unpackExponent b = -1#_ ↔ b.toNat / pow 2 52 % pow 2 11 = 2047 := by
  rw [← BitVec.toNat_inj, toNat_unpackExponent]
  rfl

end Fields

theorem pack_subnormal (s : UnpackedFloat.Sign) {m : Nat} (hm : 0 < m) (hlt : m < pow 2 52) :
    UnpackedFloat.pack .binary64 (.finite s m (-1074) hm) =
      packComponents .binary64 s 0#_ (BitVec.ofNat _ m) := by
  have hlog : m.log2 < 52 := (Nat.log2_lt (Nat.ne_of_gt hm)).mpr hlt
  have hbits : ¬ m.log2 + 1 = Format.binary64.mantissaBits := by
    change ¬ m.log2 + 1 = 53
    omega
  have hexp : ¬ 2 ^ Format.binary64.exponentBits ≤ (-1074 + Format.binary64.exponentBias +
      Format.binary64.mantissaBitsWithoutImplicit : Int).toNat + 1 := by decide
  delta UnpackedFloat.pack
  dsimp only
  rw [if_neg hexp, if_neg hbits]

theorem pack_normal (s : UnpackedFloat.Sign) {m e : Nat} (he : e < 2047) (hm : 0 < m)
    (hle : pow 2 52 ≤ m) (hlt : m < pow 2 53) :
    UnpackedFloat.pack .binary64 (.finite s m (e - 1075) hm) =
      packComponents .binary64 s (BitVec.ofNat _ e) (BitVec.ofNat _ m) := by
  have hlog : m.log2 = 52 := (Nat.log2_eq_iff (Nat.ne_of_gt hm)).mpr ⟨hle, hlt⟩
  have hbits : m.log2 + 1 = Format.binary64.mantissaBits := by
    rw [hlog]
    rfl
  have hbias : (e - 1075 + Format.binary64.exponentBias +
      Format.binary64.mantissaBitsWithoutImplicit : Int).toNat = e := by
    change ((e : Int) - 1075 + (1023 : Nat) + (52 : Nat)).toNat = e
    omega
  have hexp : ¬ 2 ^ Format.binary64.exponentBits ≤ e + 1 := by
    change ¬ 2048 ≤ e + 1
    omega
  delta UnpackedFloat.pack
  dsimp only
  rw [hbias, if_neg hexp, if_pos hbits]

/-- Only the patterns of a NaN are changed by a round through the number. -/
theorem pack_unpack (b : BitVec Format.binary64.numBits)
    (h : unpackExponent b = -1#_ → unpackMantissa b = 0#_) :
    UnpackedFloat.pack .binary64 (UnpackedFloat.unpack .binary64 b) = b := by
  have hb := packComponents_fields b
  have hmlt : (unpackMantissa b).toNat < pow 2 52 := (unpackMantissa b).isLt
  delta UnpackedFloat.unpack
  dsimp only
  by_cases he : unpackExponent b = -1#_
  · -- An infinity.
    rw [if_pos he, if_pos (h he)]
    rw [he, h he] at hb
    exact hb
  rw [if_neg he]
  by_cases hz : unpackExponent b = 0#_
  · -- Zero or a subnormal number: the significand is the mantissa field.
    rw [if_pos hz]
    rw [hz] at hb ⊢
    by_cases hm : unpackMantissa b = 0#_
    · rw [dif_pos hm]
      rw [hm] at hb
      exact hb
    · rw [dif_neg hm]
      refine (pack_subnormal _ _ hmlt).trans ?_
      rw [BitVec.ofNat_toNat, BitVec.setWidth_eq]
      exact hb
  · -- A normal number: the significand has one more bit, which packing drops again.
    rw [if_neg hz]
    have helt : (unpackExponent b).toNat < 2047 := by
      have hlt : (unpackExponent b).toNat < 2048 := (unpackExponent b).isLt
      have hne : (unpackExponent b).toNat ≠ 2047 := fun h => he (BitVec.toNat_inj.mp h)
      omega
    have hsig : (1#1 ++ unpackMantissa b).toNat = pow 2 52 + (unpackMantissa b).toNat := by
      rw [BitVec.toNat_append, ← Nat.shiftLeft_add_eq_or_of_lt hmlt]
      rfl
    have hle : pow 2 52 ≤ (1#1 ++ unpackMantissa b).toNat := by
      rw [hsig]
      exact Nat.le_add_right _ _
    have hlt : (1#1 ++ unpackMantissa b).toNat < pow 2 53 := by
      rw [hsig]
      exact Nat.add_lt_add_left hmlt (pow 2 52)
    refine (pack_normal _ helt _ hle hlt).trans ?_
    have hlow : BitVec.ofNat 52 (1#1 ++ unpackMantissa b).toNat = unpackMantissa b := by
      apply BitVec.eq_of_toNat_eq
      rw [BitVec.toNat_ofNat, hsig]
      exact (Nat.add_mod_left (pow 2 52) _).trans (Nat.mod_eq_of_lt hmlt)
    rw [hlow, BitVec.ofNat_toNat, BitVec.setWidth_eq]
    exact hb

theorem toBits_ofBits {b : UInt64} (h : b.toNat % pow 2 63 ≤ infinity) :
    (Float.ofBits b).toBits = b := by
  have hfields : @unpackExponent .binary64 b.toBitVec = -1#_ →
      @unpackMantissa .binary64 b.toBitVec = 0#_ := by
    intro he
    rw [unpackExponent_eq_neg_one] at he
    apply BitVec.eq_of_toNat_eq
    rw [toNat_unpackMantissa]
    have hlt := b.toNat_lt
    -- Written out, the powers are constants, and the fields are linear arithmetic.
    change b.toNat / 4503599627370496 % 2048 = 2047 at he
    change b.toNat % 9223372036854775808 ≤ 2047 * 4503599627370496 at h
    change b.toNat % 4503599627370496 = 0
    omega
  exact UInt64.toBitVec_inj.mp (pack_unpack b.toBitVec hfields)

theorem eq_of_toBits {x y : Float} (h : x.toBits = y.toBits) : x = y := by
  obtain ⟨⟨b, hb⟩⟩ := x
  obtain ⟨⟨c, hc⟩⟩ := y
  cases (h : b = c)
  rfl

theorem isFinite_unpack (b : BitVec Format.binary64.numBits) :
    (UnpackedFloat.unpack .binary64 b).isFinite = true ↔ ¬ unpackExponent b = -1#_ := by
  delta UnpackedFloat.unpack
  dsimp only
  by_cases he : unpackExponent b = -1#_
  · rw [if_pos he]
    by_cases hm : unpackMantissa b = 0#_
    · rw [if_pos hm]
      exact iff_of_false Bool.false_ne_true (not_not_intro he)
    · rw [if_neg hm]
      exact iff_of_false Bool.false_ne_true (not_not_intro he)
  · rw [if_neg he]
    by_cases hz : unpackExponent b = 0#_
    · rw [if_pos hz]
      by_cases hm : unpackMantissa b = 0#_
      · rw [dif_pos hm]
        exact iff_of_true rfl he
      · rw [dif_neg hm]
        exact iff_of_true rfl he
    · rw [if_neg hz]
      exact iff_of_true rfl he

theorem isFinite_iff (x : Float) : x.isFinite = true ↔ pattern x < infinity := by
  refine (isFinite_unpack x.toBits.toBitVec).trans ?_
  rw [unpackExponent_eq_neg_one]
  have hlt := x.toBits.toNat_lt
  change ¬ x.toBits.toNat / 4503599627370496 % 2048 = 2047 ↔
    x.toBits.toNat % 9223372036854775808 < 2047 * 4503599627370496
  omega

theorem ofPattern_pattern {x : Float} (hf : x.isFinite = true) (hn : isNegative x = false) :
    ofPattern false (pattern x) = x := by
  have hlt : pattern x < infinity := (isFinite_iff x).mp hf
  have hsign : x.toBits.toNat < pow 2 63 := by
    simp only [isNegative, decide_eq_false_iff_not] at hn
    omega
  have hpat : pattern x = x.toBits.toNat := Nat.mod_eq_of_lt hsign
  have hbits : (Float.ofBits x.toBits).toBits = x.toBits := toBits_ofBits (Nat.le_of_lt hlt)
  rw [ofPattern, hpat]
  simp only [Bool.false_eq_true, if_false, UInt64.ofNat_toNat]
  exact eq_of_toBits hbits

theorem isNegative_ofPattern {b : Nat} (hb : b ≤ infinity) :
    isNegative (ofPattern false b) = false := by
  have hlt : b < pow 2 63 := Nat.lt_of_le_of_lt hb (by decide)
  have hnat : (UInt64.ofNat b).toNat = b := UInt64.toNat_ofNat_of_lt' (Nat.lt_trans hlt (by decide))
  have hbits : (Float.ofBits (.ofNat b)).toBits = .ofNat b := by
    apply toBits_ofBits
    rw [hnat, Nat.mod_eq_of_lt hlt]
    exact hb
  simp only [isNegative, ofPattern, Bool.false_eq_true, if_false, hbits, hnat]
  exact decide_eq_false (Nat.not_le_of_lt hlt)

end StackLang.Number
