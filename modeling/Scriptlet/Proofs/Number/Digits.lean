import Scriptlet.Proofs.Number.Whole

/-!
# The digits of an integer

A double keeps 53 bits, so integers of fewer bits are told apart by less than half of their distance.

**Theorem (`Double.text_mul_scale`).** An integer below `2 ^ 53` is written in its decimal digits.

The doubles near such an integer are at most one apart. So the reals that round to it lie within a half
of it, and no other integer is among them. The search for the shortest digits starts on a grid of
integers and ends, after fewer steps than it has, on the coarsest one that holds this integer. What it
leaves out are zeros at the end, and these are written out again.

Rounding has nothing to do on these integers either (`Double.round_mul_scale`).
-/

namespace Scriptlet

namespace Decimal

/-! ## Zeros at the end -/

theorem zeros_succ (count : Nat) : zeros (count + 1) = zeros count ++ "0" := by
  unfold zeros
  rw [List.replicate_succ', String.ofList_append]

theorem toString_mul_ten {n : Nat} (hpos : 0 < n) : toString (n * 10) = toString n ++ "0" := by
  have hdigits := Nat.toDigits_append_toDigits (b := 10) (d := 0) (by decide) hpos (by decide)
  rw [Nat.toString_eq_ofList_toDigits, Nat.toString_eq_ofList_toDigits, Nat.mul_comm n,
    ← Nat.add_zero (10 * n), ← hdigits, String.ofList_append]
  rfl

/-- Zeros after the digits of a number are powers of ten. -/
theorem toString_append_zeros {n : Nat} (hpos : 0 < n) (count : Nat) :
    toString n ++ zeros count = toString (n * 10 ^ count) := by
  induction count with
  | zero =>
    rw [Nat.pow_zero, Nat.mul_one]
    exact String.append_empty
  | succ count ih =>
    have hmore : 0 < n * 10 ^ count := Nat.mul_pos hpos (Nat.pow_pos (by decide))
    rw [zeros_succ, ← String.append_assoc, ih, ← toString_mul_ten hmore, Nat.pow_succ, Nat.mul_assoc]

theorem positional_eq {d : Decimal} (hexponent : 0 ≤ d.exponent) (hpos : 0 < d.digits) :
    d.positional = toString (d.digits * 10 ^ d.exponent.toNat) := by
  unfold positional
  dsimp only
  rw [if_pos hexponent, toString_append_zeros hpos]

end Decimal

namespace Double

variable {units k digits : Nat} {exponent grid : Int}

/-! ## Integers of 53 bits -/

theorem one_shiftLeft_dvd {bits more : Nat} (h : bits ≤ more) : 1 <<< bits ∣ 1 <<< more := by
  rw [Nat.one_shiftLeft, Nat.one_shiftLeft]
  exact Nat.pow_dvd_pow 2 h

theorem one_shiftLeft_dvd_scale {bits : Nat} (h : bits ≤ 1074) : 1 <<< bits ∣ scale := one_shiftLeft_dvd h

theorem one_shiftLeft_le_scale {bits : Nat} (h : bits ≤ 1074) : 1 <<< bits ≤ scale :=
  Nat.le_of_dvd scale_pos (one_shiftLeft_dvd_scale h)

theorem one_shiftLeft_mul (bits more : Nat) : 1 <<< bits * 1 <<< more = 1 <<< (bits + more) := by
  rw [Nat.one_shiftLeft, Nat.one_shiftLeft, Nat.one_shiftLeft, Nat.pow_add]

theorem mul_scale_lt (hk : k < 2 ^ 53) : k * scale < 1 <<< (53 + 1074) := by
  rw [← one_shiftLeft_mul, Nat.one_shiftLeft 53]
  exact Nat.mul_lt_mul_of_pos_right hk scale_pos

theorem log2_lt_of_lt {bits : Nat} (hbits : 0 < bits) (h : units < 1 <<< bits) : units.log2 < bits := by
  by_cases hzero : units = 0
  · rwa [hzero, Nat.log2_zero]
  · rwa [Nat.log2_lt hzero, ← Nat.one_shiftLeft]

theorem log2_mul_scale_le (hk : k < 2 ^ 53) : (k * scale).log2 ≤ 1126 :=
  Nat.le_of_lt_succ (log2_lt_of_lt (by decide) (mul_scale_lt hk))

/-- The doubles around an integer below `2 ^ 53` are at most one apart. -/
theorem grain_mul_scale_le (hk : k < 2 ^ 53) : grain (k * scale) ≤ 1074 := by
  have hlog := log2_mul_scale_le hk
  unfold grain
  omega

/-- **An integer below `2 ^ 53` is not rounded.** -/
theorem round_mul_scale (negative : Bool) (hk : k < 2 ^ 53) :
    round negative (k * scale) 1 = .finite negative (k * scale) := by
  have hdvd : 1 <<< grain (k * scale) ∣ k * scale :=
    Nat.dvd_mul_left_of_dvd (one_shiftLeft_dvd_scale (grain_mul_scale_le hk)) k
  have hunits : roundUnits (k * scale) 1 = k * scale := by
    unfold roundUnits
    dsimp only
    rw [Nat.div_one, nearest_of_dvd hdvd (one_shiftLeft_pos _), Nat.shiftLeft_eq, ← Nat.one_shiftLeft]
    exact Nat.div_mul_cancel hdvd
  have hbound : k * scale < bound := by
    refine Nat.lt_of_lt_of_le (mul_scale_lt hk) ?_
    exact Nat.le_of_dvd (one_shiftLeft_pos 2098) (one_shiftLeft_dvd (by decide))
  unfold round
  dsimp only
  rw [hunits, if_pos hbound]

/-! ## The grids -/

theorem Interval.bounds_of_holds {interval : Interval} {num : Nat} (h : interval.holds num 1 = true) :
    interval.low ≤ num ∧ num ≤ interval.high := by
  unfold Interval.holds at h
  rw [Nat.mul_one, Nat.mul_one] at h
  split at h
  · simpa using h
  · have hstrict : interval.low < num ∧ num < interval.high := by simpa using h
    exact ⟨Nat.le_of_lt hstrict.1, Nat.le_of_lt hstrict.2⟩

/-- The interval reaches at most half of one to either side. -/
theorem roundingInterval_narrow (h : grain units ≤ 1074) :
    2 * units ≤ (roundingInterval units).low + scale ∧
      (roundingInterval units).high ≤ 2 * units + scale := by
  have hgrain := one_shiftLeft_le_scale h
  have hhalf := one_shiftLeft_le_scale (Nat.le_trans (Nat.sub_le (grain units) 1) h)
  unfold roundingInterval
  dsimp only
  constructor
  · split
    · omega
    · omega
  · omega

/-- No other integer rounds to an integer below `2 ^ 53`. -/
theorem eq_of_holds {other : Nat} (hk : k < 2 ^ 53)
    (h : (roundingInterval (k * scale)).holds (other * (2 * scale)) 1 = true) : other = k := by
  obtain ⟨hlow, hhigh⟩ := Interval.bounds_of_holds h
  obtain ⟨hbelow, habove⟩ := roundingInterval_narrow (grain_mul_scale_le hk)
  have hscale := scale_pos
  have htwice : 2 * (k * scale) = k * (2 * scale) := Nat.mul_left_comm 2 k scale
  -- Integers that differ are two half units of the scale apart.
  have happart : ∀ {m n : Nat}, m < n → m * (2 * scale) + 2 * scale ≤ n * (2 * scale) := by
    intro m n hmn
    rw [← Nat.succ_mul]
    exact Nat.mul_le_mul_right _ hmn
  rcases Nat.lt_trichotomy other k with hlt | heq | hgt
  · have := happart hlt
    omega
  · exact heq
  · have := happart hgt
    omega

/-- A point of a grid that is found lies in the interval. -/
theorem holds_of_gridPoint? (h : gridPoint? units exponent = some digits) :
    (roundingInterval units).holds (digits * (tenTo exponent.toNat * (2 * scale)))
      (tenTo (-exponent).toNat) = true := by
  unfold gridPoint? at h
  dsimp only at h
  split at h
  · rename_i hlower
    split at h
    · rename_i hboth
      cases h
      exact (Bool.and_eq_true_iff.mp hboth).1
    · cases h
      exact hlower
  · split at h
    · rename_i hupper
      cases h
      exact hupper
    · cases h

/-- A grid of integers holds no other integer than the one it is searched for. -/
theorem mul_pow_ten_of_gridPoint? (hk : k < 2 ^ 53) (hexponent : 0 ≤ exponent)
    (h : gridPoint? (k * scale) exponent = some digits) : digits * 10 ^ exponent.toNat = k := by
  have hholds := holds_of_gridPoint? h
  have hone : tenTo (-exponent).toNat = 1 := by
    rw [show (-exponent).toNat = 0 by omega]
    rfl
  rw [hone, ← Nat.mul_assoc] at hholds
  exact eq_of_holds hk hholds

/-- The search finds a point if it has steps enough to come to a grid that holds one. -/
theorem gridPoint?_searchGrids (hgrid : gridPoint? units grid ≠ none) {steps : Nat} (hle : grid ≤ exponent)
    (hlt : exponent < grid + steps) :
    gridPoint? units (searchGrids units steps exponent).exponent =
      some (searchGrids units steps exponent).digits := by
  induction steps generalizing exponent with
  | zero => omega
  | succ steps ih =>
    rw [searchGrids_succ]
    cases hpoint : gridPoint? units exponent with
    | some digits => exact hpoint
    | none =>
      have hne : grid ≠ exponent := fun heq => hgrid (heq ▸ hpoint)
      exact ih (by omega) (by omega)

/-! ## The text -/

/-- The shortest digits of an integer below `2 ^ 53` write that integer. -/
theorem shortest_mul_scale (hpos : 0 < k) (hk : k < 2 ^ 53) :
    (shortest (k * scale)).digits * 10 ^ (shortest (k * scale)).exponent.toNat = k := by
  have hunits : 0 < k * scale := Nat.mul_pos hpos scale_pos
  have hdvd : scale ∣ k * scale := Nat.dvd_mul_left scale k
  have hlow : 1074 ≤ (k * scale).log2 := le_log2 hunits (Nat.le_of_dvd hunits hdvd)
  have hhigh := log2_mul_scale_le hk
  refine mul_pow_ten_of_gridPoint? hk (shortest_exponent hunits hdvd) ?_
  refine gridPoint?_searchGrids (gridPoint?_zero hunits hdvd) ?_ ?_
  · have : 0 ≤ Int.fdiv (((k * scale).log2 - 1074 : Int) * 30103) 100000 :=
      Int.fdiv_nonneg (by omega) (by omega)
    omega
  · have : Int.fdiv (((k * scale).log2 - 1074 : Int) * 30103) 100000 ≤ 15 := by
      rw [Int.fdiv_eq_ediv_of_nonneg _ (by decide)]
      omega
    omega

/-- **An integer below `2 ^ 53` is written in its decimal digits.** -/
theorem text_mul_scale (negative : Bool) (hk : k < 2 ^ 53) :
    (finite negative (k * scale)).text = if negative then "-" ++ toString k else toString k := by
  have hmagnitude :
      (if k * scale = 0 then "0" else (shortest (k * scale)).positional) = toString k := by
    by_cases hzero : k = 0
    · rw [hzero, Nat.zero_mul, if_pos rfl]
      rfl
    · have hpos := Nat.pos_of_ne_zero hzero
      have hunits : 0 < k * scale := Nat.mul_pos hpos scale_pos
      have hdigits := shortest_mul_scale hpos hk
      have hsome : 0 < (shortest (k * scale)).digits := by
        by_contra hnone
        rw [Nat.eq_zero_of_not_pos hnone, Nat.zero_mul] at hdigits
        exact hzero hdigits.symm
      have hexponent := shortest_exponent hunits (Nat.dvd_mul_left scale k)
      rw [if_neg (Nat.ne_of_gt hunits), Decimal.positional_eq hexponent hsome, hdigits]
  change (if negative then "-" ++ (if k * scale = 0 then "0" else (shortest (k * scale)).positional)
    else if k * scale = 0 then "0" else (shortest (k * scale)).positional) = _
  rw [hmagnitude]

end Double

end Scriptlet
