import Mathlib.Algebra.Order.Ring.Int
import Mathlib.Tactic.Ring
import Scriptlet.Value.Operation

/-!
# Whole numbers

A double is integral if it has no fractional part: it is whole, infinite or not-a-number. On the scale
of units these are the finite doubles whose units the scale divides. Sums, differences, products,
remainders, and powers with exponents that are not negative, are integral if the operands are, since
rounding keeps what divides the exact result as long as that is a power of two.

**Theorem (`Number.point_not_mem_text`).** An integer without a fractional part is written without a
point: the grid of whole numbers meets every interval around one, so the search for the shortest digits
goes no further.
-/

namespace Scriptlet

namespace Double

/-- A double without a fractional part: whole, infinite or not-a-number. -/
def Integral : Double → Prop
  | .finite _ units => scale ∣ units
  | .infinite _ | .nan => True

variable {x y : Double} {q den num units bits k : Nat}

theorem whole?_isSome : (whole? units).isSome = true ↔ scale ∣ units := by
  unfold whole?
  split
  · simpa using Nat.dvd_of_mod_eq_zero ‹_›
  · simpa using fun h => absurd (Nat.mod_eq_zero_of_dvd h) ‹_›

/-- Integral doubles are whole or not finite. -/
theorem integral_iff : x.Integral ↔ x.isWhole = true ∨ x.isFinite = false := by
  cases x with
  | finite negative units => simp [Integral, isWhole, isFinite, whole?_isSome]
  | infinite negative => simp [Integral, isFinite]
  | nan => simp [Integral, isFinite]

/-! ## Rounding -/

theorem nearest_mul_right (num den : Nat) {c : Nat} (hc : 0 < c) :
    nearest (num * c) (den * c) = nearest num den := by
  have htwice : 2 * (num % den * c) = 2 * (num % den) * c := (Nat.mul_assoc _ _ _).symm
  unfold nearest
  dsimp only
  rw [Nat.mul_div_mul_right _ _ hc, Nat.mul_mod_mul_right, htwice]
  simp only [Nat.mul_lt_mul_right hc, Nat.mul_left_inj (Nat.ne_of_gt hc)]

theorem nearest_of_dvd (h : den ∣ num) (hden : 0 < den) : nearest num den = num / den := by
  unfold nearest
  dsimp only
  rw [Nat.mod_eq_zero_of_dvd h, if_pos (.inl (by omega))]

/-- A power of two that divides a number divides it still when it is rounded to fewer bits. -/
theorem two_pow_dvd_nearest (h : 2 ^ k ∣ num) (bits : Nat) :
    2 ^ k ∣ nearest num (1 <<< bits) <<< bits := by
  rw [Nat.one_shiftLeft, Nat.shiftLeft_eq]
  rcases Nat.le_total bits k with hbits | hbits
  · have hdvd : 2 ^ bits ∣ num := Nat.dvd_trans (Nat.pow_dvd_pow 2 hbits) h
    rw [nearest_of_dvd hdvd (Nat.two_pow_pos bits), Nat.div_mul_cancel hdvd]
    exact h
  · exact Nat.dvd_mul_left_of_dvd (Nat.pow_dvd_pow 2 hbits) _

theorem one_shiftLeft_pos (bits : Nat) : 0 < 1 <<< bits := by
  rw [Nat.one_shiftLeft]
  exact Nat.two_pow_pos bits

theorem exists_shiftLeft_eq (bits : Nat) : ∃ k, 1 <<< bits = 2 ^ k := ⟨bits, Nat.one_shiftLeft bits⟩

theorem exists_scale_eq : ∃ k, scale = 2 ^ k := exists_shiftLeft_eq 1074

theorem scale_pos : 0 < scale := one_shiftLeft_pos 1074

theorem scale_dvd_roundUnits (h : scale ∣ q) (hden : 0 < den) : scale ∣ roundUnits (q * den) den := by
  have hshift : ∀ bits, den <<< bits = 1 <<< bits * den := fun bits => by
    rw [Nat.shiftLeft_eq, Nat.one_shiftLeft, Nat.mul_comm]
  obtain ⟨k, hk⟩ := exists_scale_eq
  rw [hk] at h ⊢
  unfold roundUnits
  dsimp only
  rw [hshift, nearest_mul_right _ _ hden]
  exact two_pow_dvd_nearest h _

/-- **A whole number stays whole when it is rounded.** -/
theorem integral_round (negative : Bool) (h : scale ∣ q) (hden : 0 < den) :
    (round negative (q * den) den).Integral := by
  unfold round
  dsimp only
  split
  · exact scale_dvd_roundUnits h hden
  · trivial

theorem integral_round_one (negative : Bool) (h : scale ∣ q) : (round negative q 1).Integral := by
  simpa using integral_round negative h Nat.one_pos

/-! ## Arithmetic -/

theorem Integral.negate (h : x.Integral) : x.negate.Integral := by
  cases x <;> exact h

theorem scale_dvd_signed (h : scale ∣ units) (negative : Bool) : (scale : Int) ∣ signed negative units := by
  have hdvd : (scale : Int) ∣ (units : Int) := Int.natCast_dvd_natCast.mpr h
  unfold signed
  split
  · exact (Int.dvd_neg).mpr hdvd
  · exact hdvd

theorem Integral.add (hx : x.Integral) (hy : y.Integral) : (x.add y).Integral := by
  cases x with
  | nan => cases y <;> trivial
  | infinite s =>
    cases y with
    | infinite t =>
      change (if s = t then Double.infinite s else .nan).Integral
      split <;> trivial
    | nan | finite => trivial
  | finite s m =>
    cases y with
    | nan | infinite => trivial
    | finite t n =>
      have hsum := Int.dvd_add (scale_dvd_signed hx s) (scale_dvd_signed hy t)
      unfold Double.add
      dsimp only
      split
      · exact Nat.dvd_zero scale
      · exact integral_round_one _ (Int.ofNat_dvd_left.mp hsum)

theorem Integral.subtract (hx : x.Integral) (hy : y.Integral) : (x.subtract y).Integral :=
  hx.add hy.negate

theorem Integral.multiply (hx : x.Integral) (hy : y.Integral) : (x.multiply y).Integral := by
  cases x with
  | nan => cases y <;> trivial
  | infinite s =>
    cases y with
    | nan | infinite => trivial
    | finite t n =>
      change (if n = 0 then Double.nan else .infinite (s != t)).Integral
      split <;> trivial
  | finite s m =>
    cases y with
    | nan => trivial
    | infinite t =>
      change (if m = 0 then Double.nan else .infinite (s != t)).Integral
      split <;> trivial
    | finite t n =>
      obtain ⟨b, hb⟩ : scale ∣ n := hy
      have hproduct : m * n = m * b * scale := by rw [hb, Nat.mul_comm scale b, Nat.mul_assoc]
      change (round (s != t) (m * n) scale).Integral
      rw [hproduct]
      exact integral_round _ (Nat.dvd_mul_right_of_dvd hx b) scale_pos

theorem Integral.remainder (hx : x.Integral) (hy : y.Integral) : (x.remainder y).Integral := by
  cases x with
  | nan | infinite => cases y <;> trivial
  | finite s m =>
    cases y with
    | nan => trivial
    | infinite t => exact hx
    | finite t n =>
      change (if n = 0 then Double.nan else .finite s (m % n)).Integral
      split
      · trivial
      · exact (Nat.dvd_mod_iff hy).mpr hx

theorem Integral.modulo (hx : x.Integral) (hy : y.Integral) : (x.modulo y).Integral := by
  have hrest := hx.remainder hy
  unfold Double.modulo
  dsimp only
  split
  · exact hrest.add hy
  · exact hrest

/-! ## Powers -/

/-- A power of a whole number to a whole exponent is not taken from the platform unless it is
integral. -/
theorem integral_powerOfWhole (sign : Bool) (base exponent : Nat) (platform : Double) :
    (powerOfWhole sign base exponent platform).Integral := by
  unfold powerOfWhole wholePower?
  split
  · trivial
  · rename_i units hunits
    have hrounded : (round sign units 1).Integral := by
      refine integral_round_one sign ?_
      split at hunits
      · cases hunits
      · cases hunits
        exact Nat.dvd_mul_left scale _
    dsimp only
    split
    · exact hrounded
    · split
      · exact hrounded
      · rename_i hplatform
        rw [integral_iff]
        cases hfinite : platform.isFinite <;> simp_all

theorem integral_limitPower (units : Nat) (negative : Bool) :
    (limitPower units negative).Integral := by
  unfold limitPower
  split
  · exact Nat.dvd_refl scale
  · split
    · trivial
    · exact Nat.dvd_zero scale

theorem integral_finitePower (s : Bool) {m n : Nat} (hm : scale ∣ m) (hn : scale ∣ n) :
    (finitePower s m false n).Integral := by
  obtain ⟨base, hbase⟩ := Option.isSome_iff_exists.mp (whole?_isSome.mpr hm)
  obtain ⟨exponent, hexponent⟩ := Option.isSome_iff_exists.mp (whole?_isSome.mpr hn)
  unfold finitePower
  dsimp only
  rw [hbase, hexponent]
  split
  · exact Nat.dvd_zero scale
  · split
    · exact Nat.dvd_refl scale
    · exact integral_powerOfWhole _ _ _ _

/-- A finite double that is neither zero nor below zero is positive. -/
theorem eq_false_of_not_isBelowZero {negative : Bool} (hzero : (finite negative units).isZero = false)
    (hbelow : (finite negative units).isBelowZero = false) : negative = false := by
  cases negative with
  | false => rfl
  | true =>
    cases units with
    | zero => cases hzero
    | succ units =>
      simp [isBelowZero, position?, signed] at hbelow
      omega

theorem Integral.power (hx : x.Integral) (hy : y.Integral) (hbelow : y.isBelowZero = false) :
    (x.power y).Integral := by
  unfold Double.power
  split
  · exact Nat.dvd_refl scale
  · rename_i htrivial
    have hzero : y.isZero = false := by
      cases h : y.isZero with
      | false => rfl
      | true => simp [h] at htrivial
    cases x with
    | nan => cases y <;> trivial
    | infinite s =>
      cases y with
      | nan => trivial
      | infinite t =>
        dsimp only
        split
        · exact Nat.dvd_zero scale
        · trivial
      | finite t n =>
        dsimp only
        split
        · exact Nat.dvd_zero scale
        · trivial
    | finite s m =>
      cases y with
      | nan => trivial
      | infinite t => exact integral_limitPower m t
      | finite t n =>
        obtain rfl := eq_false_of_not_isBelowZero hzero hbelow
        exact integral_finitePower s hx hy

/-! ## Numerals -/

theorem integral_ofDecimal (negative : Bool) (digits : List Char) :
    (ofDecimal negative digits 0).Integral := by
  unfold ofDecimal
  dsimp only
  split
  · exact Nat.dvd_zero scale
  · split
    · trivial
    · exact integral_round_one negative (Nat.dvd_mul_left scale _)

/-! ## Text -/

/-- A count of units lies in the interval around it. -/
theorem holds_roundingInterval (hpos : 0 < units) : (roundingInterval units).holds (2 * units) 1 = true := by
  have hlow : (roundingInterval units).low < 2 * units := by
    unfold roundingInterval
    dsimp only
    split
    · have := one_shiftLeft_pos (grain units - 1)
      omega
    · have := one_shiftLeft_pos (grain units)
      omega
  have hhigh : 2 * units < (roundingInterval units).high := by
    have := one_shiftLeft_pos (grain units)
    change 2 * units < 2 * units + 1 <<< grain units
    omega
  unfold Interval.holds
  split <;> simp <;> omega

/-- The grid of the whole numbers meets the interval around a whole number. -/
theorem gridPoint?_zero (hpos : 0 < units) (h : scale ∣ units) : gridPoint? units 0 ≠ none := by
  have hmeets := holds_roundingInterval hpos
  have hstep : tenTo (0 : Int).toNat * (2 * scale) = 2 * scale := Nat.one_mul _
  have hone : tenTo (-0 : Int).toNat = 1 := rfl
  have hexact : 2 * units / (2 * scale) * (2 * scale) = 2 * units :=
    Nat.div_mul_cancel (Nat.mul_dvd_mul_left 2 h)
  unfold gridPoint?
  dsimp only
  rw [hstep, hone, Nat.mul_one, hexact, if_pos hmeets]
  split <;> exact Option.some_ne_none _

theorem searchGrids_zero (units : Nat) (exponent : Int) :
    (searchGrids units 0 exponent).exponent = exponent := by
  with_unfolding_all rfl

theorem searchGrids_succ (units steps : Nat) (exponent : Int) :
    searchGrids units (steps + 1) exponent =
      match gridPoint? units exponent with
      | some digits => ⟨digits, exponent⟩
      | none => searchGrids units steps (exponent - 1) := by
  with_unfolding_all rfl

/-- The search does not go beyond a grid that meets the interval. -/
theorem searchGrids_exponent {grid : Int} (hgrid : gridPoint? units grid ≠ none) (steps : Nat)
    {exponent : Int} (hexponent : grid ≤ exponent) :
    grid ≤ (searchGrids units steps exponent).exponent := by
  induction steps generalizing exponent with
  | zero =>
    rw [searchGrids_zero]
    exact hexponent
  | succ steps ih =>
    rw [searchGrids_succ]
    cases hpoint : gridPoint? units exponent with
    | some digits => exact hexponent
    | none =>
      have hne : grid ≠ exponent := fun heq => hgrid (heq ▸ hpoint)
      exact ih (by omega)

theorem le_log2 (hpos : 0 < units) (h : 1 <<< k ≤ units) : k ≤ units.log2 := by
  rwa [Nat.le_log2 (Nat.ne_of_gt hpos), ← Nat.one_shiftLeft]

theorem shortest_exponent (hpos : 0 < units) (h : scale ∣ units) : 0 ≤ (shortest units).exponent := by
  refine searchGrids_exponent (gridPoint?_zero hpos h) 24 ?_
  have hlog : 1074 ≤ units.log2 := le_log2 hpos (Nat.le_of_dvd hpos h)
  have hdiv : 0 ≤ Int.fdiv ((units.log2 - 1074 : Int) * 30103) 100000 := by
    apply Int.fdiv_nonneg
    · omega
    · omega
  omega

end Double

/-! ## Numbers -/

theorem Decimal.point_not_mem_positional {d : Decimal} (h : 0 ≤ d.exponent) :
    '.' ∉ d.positional.toList := by
  unfold positional
  dsimp only
  rw [if_pos h, String.toList_append, List.mem_append, not_or]
  constructor
  · intro hmem
    have hdigit : '.' ∈ Nat.toDigits 10 d.digits := by rwa [← Nat.toList_repr]
    have := Nat.isDigit_of_mem_toDigits (by decide) (by decide) hdigit
    cases this
  · simp [zeros]

/-- An integral double is written without a point. -/
theorem Double.point_not_mem_text {x : Double} (h : x.Integral) : '.' ∉ x.text.toList := by
  cases x with
  | nan => decide
  | infinite negative => cases negative <;> decide
  | finite negative units =>
    have hmagnitude : '.' ∉ (if units = 0 then "0" else (shortest units).positional).toList := by
      split
      · decide
      · rename_i hzero
        exact Decimal.point_not_mem_positional
          (shortest_exponent (Nat.pos_of_ne_zero hzero) h)
    cases negative with
    | false => exact hmagnitude
    | true =>
      change '.' ∉ ("-" ++ _ : String).toList
      rw [String.toList_append, List.mem_append, not_or]
      exact ⟨by decide, hmagnitude⟩

namespace Number

/-- A number that has no fractional part unless it is a float. -/
def Integral (n : Number) : Prop := n.isFloat = false → n.value.Integral

variable {a b n : Number}

/-- An integer is written without a point. -/
theorem Integral.point_not_mem_text (h : n.Integral) (hfloat : n.isFloat = false) :
    '.' ∉ n.text.toList := by
  rw [text, hfloat, Bool.false_and, if_neg Bool.false_ne_true]
  exact Double.point_not_mem_text (h hfloat)

theorem Integral.negate (h : n.Integral) : n.negate.Integral := fun hfloat => (h hfloat).negate

/-- **The mark of a float spreads wherever a fractional part may arise.** -/
theorem integral_arithmetic {op : BinaryOp} (ha : a.Integral) (hb : b.Integral)
    (h : Value.arithmetic op a b = .ok (.number n)) : n.Integral := by
  intro hfloat
  have hparts : (a.isFloat || b.isFloat) = false → a.value.Integral ∧ b.value.Integral := fun hor =>
    have hboth := Bool.or_eq_false_iff.mp hor
    ⟨ha hboth.1, hb hboth.2⟩
  cases op with
  | add | subtract | multiply =>
    cases h
    obtain ⟨hx, hy⟩ := hparts hfloat
    first | exact hx.add hy | exact hx.subtract hy | exact hx.multiply hy
  | divide =>
    simp only [Value.arithmetic] at h
    split at h
    · cases h
    · cases h
      cases hfloat
  | modulo =>
    simp only [Value.arithmetic] at h
    split at h
    · cases h
    · cases h
      obtain ⟨hx, hy⟩ := hparts hfloat
      exact hx.modulo hy
  | power =>
    cases h
    obtain ⟨hmarks, hbelow⟩ := Bool.or_eq_false_iff.mp hfloat
    obtain ⟨hx, hy⟩ := hparts hmarks
    exact hx.power hy hbelow
  | _ => cases h

end Number

end Scriptlet
