import Scriptlet.Proofs.Number.Digits

/-!
# The floored modulo of integers

**Theorem (`Value.binary_modulo_of_isInteger`).** For integers `x` and `y`, where `y` is not zero and of
magnitude at most `2 ^ 53`, the operator `%` yields the integer `x - y * ⌊x / y⌋`. Its text is that of the
integer, with one exception: an exact multiple whose dividend has the sign of a negative number is a
negative zero, and is written `-0`.

The operator starts from the remainder that has the sign of the dividend. With `x` and `y` as signs and
magnitudes, it is the remainder of the magnitudes with the sign of `x` (`Double.remainder_mul_scale`). If
it is not zero and the signs differ, the divisor is added, which leaves the rest of the magnitude of `y`
with the sign of `y` (`Double.modulo_mul_scale`). The floored remainder of integers has the same cases
(`Double.fmod_signed`). The magnitude of the result is smaller than that of `y`, so the sum is exact and
the text has all digits. A remainder of zero is not corrected: it keeps the sign of the dividend.
-/

namespace Scriptlet

namespace Double

variable {m n k : Nat}

/-! ## Signs and magnitudes -/

/-- Whether the sign bit is set. A zero has one too. -/
def signBit : Double → Bool
  | .finite negative _ | .infinite negative => negative
  | .nan => false

theorem natAbs_signed (negative : Bool) (k : Nat) : (signed negative k).natAbs = k := by
  cases negative <;> simp [signed]

theorem signed_mul_scale (negative : Bool) (k : Nat) :
    signed negative (k * scale) = signed negative k * scale := by
  cases negative <;> simp [signed]

theorem signed_ne_zero (negative : Bool) (hk : k ≠ 0) : signed negative k ≠ 0 := by
  rw [← Int.natAbs_ne_zero, natAbs_signed]
  exact hk

theorem signed_lt_zero_iff (negative : Bool) (hk : k ≠ 0) : signed negative k < 0 ↔ negative = true := by
  cases negative with
  | false => simp [signed]
  | true => simpa [signed] using Nat.pos_of_ne_zero hk

theorem signed_dvd_signed (s t : Bool) : signed t n ∣ signed s m ↔ m % n = 0 := by
  rw [← Int.natAbs_dvd_natAbs, natAbs_signed, natAbs_signed, Nat.dvd_iff_mod_eq_zero]

theorem isBelowZero_finite (negative : Bool) (hk : k ≠ 0) : (finite negative k).isBelowZero = negative := by
  rw [Bool.eq_iff_iff, ← signed_lt_zero_iff negative hk]
  exact decide_eq_true_iff

theorem isZero_finite (negative : Bool) (k : Nat) : (finite negative k).isZero = decide (k = 0) := by
  cases k <;> rfl

/-- The decimal text of an integer is its sign and the text of its magnitude. -/
theorem toString_signed (negative : Bool) (h : k = 0 → negative = false) :
    toString (signed negative k) = if negative then "-" ++ toString k else toString k := by
  cases negative with
  | false => rfl
  | true =>
    cases k with
    | zero => cases h rfl
    | succ k => rfl

/-! ## Remainders -/

theorem tmod_signed (s t : Bool) (m n : Nat) : (signed s m).tmod (signed t n) = signed s (m % n) := by
  have hnat : (m : Int).tmod n = (m : Int) % n := Int.tmod_eq_emod_of_nonneg (Int.natCast_nonneg m)
  cases s <;> cases t <;> simp [signed, Int.neg_tmod, Int.tmod_neg, hnat]

/-- The floored remainder of integers by sign and magnitude. -/
theorem fmod_signed (s t : Bool) (hn : n ≠ 0) :
    (signed s m).fmod (signed t n) =
      if m % n ≠ 0 ∧ s ≠ t then signed t (n - m % n) else signed s (m % n) := by
  have hlt : m % n < n := Nat.mod_lt m (Nat.pos_of_ne_zero hn)
  rw [Int.fmod_eq_tmod, tmod_signed]
  simp only [signed_dvd_signed]
  by_cases hexact : m % n = 0
  · simp [hexact]
  · have hm : m ≠ 0 := by
      intro hzero
      exact hexact (by rw [hzero, Nat.zero_mod])
    cases s <;> cases t <;> simp [hexact, signed] <;> omega

theorem remainder_mul_scale (s t : Bool) (m : Nat) (hn : n ≠ 0) :
    (finite s (m * scale)).remainder (finite t (n * scale)) = .finite s (m % n * scale) := by
  have hne : n * scale ≠ 0 := Nat.mul_ne_zero hn (Nat.ne_of_gt scale_pos)
  unfold remainder
  dsimp only
  rw [if_neg hne, Nat.mul_mod_mul_right]

/-- A sum of whole numbers is exact if it has at most 53 bits. -/
theorem add_mul_scale {s t r : Bool} (hk : k < 2 ^ 53) (hzero : k ≠ 0)
    (hsum : signed s m + signed t n = signed r k) :
    (finite s (m * scale)).add (finite t (n * scale)) = .finite r (k * scale) := by
  have hunits : signed s (m * scale) + signed t (n * scale) = signed r (k * scale) := by
    rw [signed_mul_scale, signed_mul_scale, signed_mul_scale, ← Int.add_mul, hsum]
  have hne : k * scale ≠ 0 := Nat.mul_ne_zero hzero (Nat.ne_of_gt scale_pos)
  have hsign : decide (signed r (k * scale) < 0) = r := isBelowZero_finite r hne
  change (if signed s (m * scale) + signed t (n * scale) = 0 then finite (s && t) 0
    else round (decide (signed s (m * scale) + signed t (n * scale) < 0))
      (signed s (m * scale) + signed t (n * scale)).natAbs 1) = _
  rw [hunits, if_neg (signed_ne_zero r hne), natAbs_signed, hsign]
  exact round_mul_scale r hk

/-- **The modulo of whole numbers by sign and magnitude.** -/
theorem modulo_mul_scale (s t : Bool) (hn : n ≠ 0) (hbits : n ≤ 2 ^ 53) :
    (finite s (m * scale)).modulo (finite t (n * scale)) =
      if m % n ≠ 0 ∧ s ≠ t then .finite t ((n - m % n) * scale) else .finite s (m % n * scale) := by
  have hlt : m % n < n := Nat.mod_lt m (Nat.pos_of_ne_zero hn)
  have hscale : scale ≠ 0 := Nat.ne_of_gt scale_pos
  unfold modulo
  dsimp only
  rw [remainder_mul_scale s t m hn, isZero_finite]
  by_cases hexact : m % n = 0
  · simp [hexact]
  · rw [isBelowZero_finite s (Nat.mul_ne_zero hexact hscale),
      isBelowZero_finite t (Nat.mul_ne_zero hn hscale)]
    by_cases hsigns : s = t
    · simp [hsigns]
    · have hsum : signed s (m % n) + signed t n = signed t (n - m % n) := by
        cases s <;> cases t <;> simp [signed] at hsigns ⊢ <;> omega
      simpa [hexact, hsigns, hscale] using add_mul_scale (by omega) (by omega) hsum

/-- The modulo of whole numbers is the whole number of the floored remainder; a zero has the sign of the
dividend. -/
theorem exists_modulo_eq (s t : Bool) (m : Nat) (hn : n ≠ 0) (hbits : n ≤ 2 ^ 53) :
    ∃ r k, (finite s (m * scale)).modulo (finite t (n * scale)) = .finite r (k * scale) ∧
      k < 2 ^ 53 ∧ signed r k = (signed s m).fmod (signed t n) ∧
      (r = true ∧ k = 0 ↔ s = true ∧ m % n = 0) := by
  have hlt : m % n < n := Nat.mod_lt m (Nat.pos_of_ne_zero hn)
  rw [modulo_mul_scale s t hn hbits, fmod_signed s t hn]
  by_cases hadd : m % n ≠ 0 ∧ s ≠ t
  · rw [if_pos hadd, if_pos hadd]
    refine ⟨t, n - m % n, rfl, by omega, rfl, ?_⟩
    constructor
    · intro hzero
      omega
    · intro hzero
      exact absurd hzero.2 hadd.1
  · rw [if_neg hadd, if_neg hadd]
    exact ⟨s, m % n, rfl, by omega, rfl, Iff.rfl⟩

end Double

namespace Number

open Double (signed signBit)

variable {a b : Number} {x y : Int}

/-- An integer: a number without the mark of a float, finite, at the place of a whole number. -/
structure IsInteger (n : Number) (z : Int) : Prop where
  isFloat : n.isFloat = false
  isFinite : n.value.isFinite = true
  position : n.value.position? = some (z * Double.scale)

theorem isInteger_finite (negative : Bool) (k : Nat) :
    IsInteger ⟨.finite negative (k * Double.scale), false⟩ (signed negative k) :=
  ⟨rfl, rfl, congrArg some (Double.signed_mul_scale negative k)⟩

/-- An integer is its sign and its magnitude. -/
theorem IsInteger.exists_eq (h : a.IsInteger x) :
    a = ⟨.finite a.value.signBit (x.natAbs * Double.scale), false⟩ ∧
      signed a.value.signBit x.natAbs = x := by
  obtain ⟨value, isFloat⟩ := a
  obtain rfl : isFloat = false := h.isFloat
  cases value with
  | nan => cases h.isFinite
  | infinite negative => cases h.isFinite
  | finite negative units =>
    have hplace : signed negative units = x * Double.scale := Option.some.inj h.position
    have hunits : units = x.natAbs * Double.scale := by
      rw [← Double.natAbs_signed negative units, hplace, Int.natAbs_mul, Int.natAbs_natCast]
    have hscale : (Double.scale : Int) ≠ 0 := Int.natCast_ne_zero.mpr (Nat.ne_of_gt Double.scale_pos)
    refine ⟨by rw [← hunits]; rfl, Int.eq_of_mul_eq_mul_right hscale ?_⟩
    rw [← hplace, ← Double.signed_mul_scale, ← hunits]
    rfl

/-- An integer below `2 ^ 53` is written as that integer, but a zero keeps its sign. -/
theorem text_finite (negative : Bool) {k : Nat} (hk : k < 2 ^ 53) :
    text ⟨.finite negative (k * Double.scale), false⟩ =
      if negative = true ∧ k = 0 then "-0" else toString (signed negative k) := by
  have htext : text ⟨.finite negative (k * Double.scale), false⟩ =
      (Double.finite negative (k * Double.scale)).text := by
    unfold text
    rw [Bool.false_and, if_neg Bool.false_ne_true]
  rw [htext, Double.text_mul_scale negative hk]
  by_cases hzero : negative = true ∧ k = 0
  · obtain ⟨rfl, rfl⟩ := hzero
    rfl
  · rw [if_neg hzero, Double.toString_signed]
    intro hk
    simpa [hk] using hzero

end Number

namespace Value

variable {a b : Number} {x y : Int}

theorem binary_modulo (h : b.value.isZero = false) :
    binary .modulo (.number a) (.number b) =
      .ok (ofDouble (a.value.modulo b.value) (a.isFloat || b.isFloat)) := by
  simp [binary, number?, arithmetic, h]

/-- **The operator `%` is the floored modulo of integers**, but for the text of an exact multiple whose
dividend has the sign of a negative number. -/
theorem binary_modulo_of_isInteger (ha : a.IsInteger x) (hb : b.IsInteger y)
    (hbits : y.natAbs ≤ 2 ^ 53) (hzero : y ≠ 0) :
    ∃ r, binary .modulo (.number a) (.number b) = .ok (.number r) ∧
      r.IsInteger (x - y * x.fdiv y) ∧
      (0 < y → 0 ≤ x - y * x.fdiv y ∧ x - y * x.fdiv y < y) ∧
      (y < 0 → y < x - y * x.fdiv y ∧ x - y * x.fdiv y ≤ 0) ∧
      r.text = if a.value.signBit = true ∧ y ∣ x then "-0" else toString (x - y * x.fdiv y) := by
  obtain ⟨haeq, hax⟩ := ha.exists_eq
  obtain ⟨hbeq, hby⟩ := hb.exists_eq
  have hn : y.natAbs ≠ 0 := Int.natAbs_ne_zero.mpr hzero
  obtain ⟨r, k, hmodulo, hk, hplace, hsign⟩ :=
    Double.exists_modulo_eq a.value.signBit b.value.signBit x.natAbs hn hbits
  rw [hax, hby, Int.fmod_def] at hplace
  have hdvd : y ∣ x ↔ x.natAbs % y.natAbs = 0 := by
    rw [← Int.natAbs_dvd_natAbs, Nat.dvd_iff_mod_eq_zero]
  refine ⟨⟨.finite r (k * Double.scale), false⟩, ?_, ?_, ?_, ?_, ?_⟩
  · have hnonzero : b.value.isZero = false := by
      rw [hbeq, Double.isZero_finite]
      simpa using ⟨hzero, Nat.ne_of_gt Double.scale_pos⟩
    have hvalue : a.value.modulo b.value = .finite r (k * Double.scale) := by
      rw [← hmodulo]
      exact congrArg₂ Double.modulo (congrArg Number.value haeq) (congrArg Number.value hbeq)
    rw [binary_modulo hnonzero, hvalue, ha.isFloat, hb.isFloat]
    rfl
  · rw [← hplace]
    exact Number.isInteger_finite r k
  · intro hpos
    rw [← Int.fmod_def]
    exact ⟨Int.fmod_nonneg_of_pos x hpos, Int.fmod_lt_of_pos x hpos⟩
  · intro hneg
    rw [← Int.fmod_def]
    have hflip := Int.neg_fmod_neg x y
    have hnonneg := Int.fmod_nonneg_of_pos (-x) (Int.neg_pos_of_neg hneg)
    have hlt := Int.fmod_lt_of_pos (-x) (Int.neg_pos_of_neg hneg)
    omega
  · rw [Number.text_finite r hk, hplace]
    simp only [hdvd, hsign]

/-- A negative dividend and a positive divisor. -/
theorem binary_modulo_negative_dividend :
    ∃ r, binary .modulo (.number ⟨.finite true (7 * Double.scale), false⟩)
        (.number ⟨.finite false (3 * Double.scale), false⟩) = .ok (.number r) ∧
      r.IsInteger 2 ∧ r.text = "2" := by
  have hx : Number.IsInteger ⟨.finite true (7 * Double.scale), false⟩ (-7) := Number.isInteger_finite true 7
  have hy : Number.IsInteger ⟨.finite false (3 * Double.scale), false⟩ 3 := Number.isInteger_finite false 3
  obtain ⟨r, hr, hinteger, -, -, htext⟩ := binary_modulo_of_isInteger hx hy (by decide) (by decide)
  exact ⟨r, hr, hinteger, htext.trans (by decide)⟩

/-- An exact multiple of the divisor with a negative dividend is a negative zero, and shows it. -/
theorem binary_modulo_negative_zero :
    Number.IsInteger ⟨.finite true (6 * Double.scale), false⟩ (-6) ∧
    Number.IsInteger ⟨.finite false (3 * Double.scale), false⟩ 3 ∧
    binary .modulo (.number ⟨.finite true (6 * Double.scale), false⟩)
      (.number ⟨.finite false (3 * Double.scale), false⟩) = .ok (.number ⟨.finite true 0, false⟩) ∧
    Number.text ⟨.finite true 0, false⟩ = "-0" ∧
    toString ((-6 : Int) - 3 * (-6 : Int).fdiv 3) = "0" := by
  refine ⟨Number.isInteger_finite true 6, Number.isInteger_finite false 3, ?_, rfl, rfl⟩
  have hmodulo := Double.modulo_mul_scale (m := 6) true false (n := 3) (by decide) (by decide)
  have hnonzero : (Double.finite false (3 * Double.scale)).isZero = false := by
    rw [Double.isZero_finite]
    simpa using Nat.ne_of_gt Double.scale_pos
  rw [binary_modulo hnonzero, hmodulo]
  simp [ofDouble]

end Value

end Scriptlet
