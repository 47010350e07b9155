import StructuredText.Proofs.Number.Rounding

/- The digits chosen for an LREAL lie between the midpoints beside it, so that rounding brings the
   number back.  The grid of the last resort is finer than the distance of any two neighbours. -/
namespace StructuredText
namespace LReal

theorem zpow_eq_div (b : ℚ) (z : Int) : b ^ z = b ^ z.toNat / b ^ (-z).toNat := by
  rcases Int.le_total 0 z with up | down
  · obtain ⟨n, rfl⟩ := Int.eq_ofNat_of_zero_le up
    simp
  · obtain ⟨n, eq⟩ := Int.eq_ofNat_of_zero_le (Int.neg_nonneg_of_nonpos down)
    obtain rfl : z = -n := by omega
    simp

theorem nearest_beside (num den : Nat) :
    nearest num den = num / den ∨ nearest num den = num / den + 1 := by
  rw [nearest]
  split
  · exact Or.inr rfl
  · exact Or.inl rfl

theorem nearest_bounds (num : Nat) {den : Nat} (positive : 0 < den) :
    2 * num ≤ 2 * (nearest num den * den) + den ∧
      2 * (nearest num den * den) ≤ 2 * num + den := by
  have split : den * (num / den) + num % den = num := Nat.div_add_mod num den
  have rest : num % den < den := Nat.mod_lt num positive
  rw [nearest]
  generalize num / den = q at split ⊢
  generalize num % den = r at split rest ⊢
  split
  · have half : den ≤ 2 * r := by omega
    constructor <;> linarith
  · have half : 2 * r ≤ den := by omega
    constructor <;> linarith

namespace Surroundings

def factor (s : Surroundings) (place : Int) : Nat := 2 ^ s.unit.toNat * 10 ^ (-place).toNat

def denominator (s : Surroundings) (place : Int) : Nat := 2 ^ (-s.unit).toNat * 10 ^ place.toNat

structure IsWide (s : Surroundings) : Prop where
  low : s.low < s.value
  high : s.value < s.high

section Grid
variable (s : Surroundings) (place : Int)

theorem factor_pos : 0 < s.factor place := by
  rw [factor]
  positivity

theorem denominator_pos : 0 < s.denominator place := by
  rw [denominator]
  positivity

theorem factor_mul :
    (s.factor place : ℚ) * 10 ^ place = s.denominator place * 2 ^ s.unit := by
  rw [factor, denominator, zpow_eq_div 10, zpow_eq_div 2]
  push_cast
  field_simp

/-- The numbers that are compared on the grid are the real ones times one positive number. -/
theorem exists_scale : ∃ scale : ℚ, 0 < scale ∧ (s.factor place : ℚ) = 2 ^ s.unit * scale ∧
    (s.denominator place : ℚ) = 10 ^ place * scale := by
  have power : (0 : ℚ) < 10 ^ place := by positivity
  have den : (0 : ℚ) < s.denominator place := by exact_mod_cast denominator_pos s place
  refine ⟨s.denominator place / 10 ^ place, div_pos den power, ?_, ?_⟩
  · rw [mul_div_assoc', mul_comm, ← factor_mul, mul_div_cancel_right₀ _ (ne_of_gt power)]
  · rw [mul_div_cancel₀ _ (ne_of_gt power)]

theorem le_onGrid (a b : Nat) :
    a * s.factor place ≤ b * s.denominator place ↔ (a : ℚ) * 2 ^ s.unit ≤ b * 10 ^ place := by
  obtain ⟨scale, positive, factor, denominator⟩ := exists_scale s place
  rw [← Nat.cast_le (α := ℚ), Nat.cast_mul, Nat.cast_mul, factor, denominator, ← mul_assoc,
    ← mul_assoc, mul_le_mul_iff_of_pos_right positive]

theorem onGrid_le (a b : Nat) :
    a * s.denominator place ≤ b * s.factor place ↔ (a : ℚ) * 10 ^ place ≤ b * 2 ^ s.unit := by
  obtain ⟨scale, positive, factor, denominator⟩ := exists_scale s place
  rw [← Nat.cast_le (α := ℚ), Nat.cast_mul, Nat.cast_mul, factor, denominator, ← mul_assoc,
    ← mul_assoc, mul_le_mul_iff_of_pos_right positive]

def HitsLow (point : Nat) : Prop :=
  if s.closed then s.low * s.factor place ≤ point * s.denominator place
  else s.low * s.factor place < point * s.denominator place

def HitsHigh (point : Nat) : Prop :=
  if s.closed then point * s.denominator place ≤ s.high * s.factor place
  else point * s.denominator place < s.high * s.factor place

instance (point : Nat) : Decidable (s.HitsLow place point) :=
  inferInstanceAs (Decidable (if s.closed then s.low * s.factor place ≤ point * s.denominator place
    else s.low * s.factor place < point * s.denominator place))

instance (point : Nat) : Decidable (s.HitsHigh place point) :=
  inferInstanceAs (Decidable (if s.closed then
    point * s.denominator place ≤ s.high * s.factor place
    else point * s.denominator place < s.high * s.factor place))

theorem pointOnGrid?_eq (below : Nat)
    (floor : s.value * s.factor place / s.denominator place = below) :
    s.pointOnGrid? place =
      if s.HitsLow place below ∧ s.HitsHigh place (below + 1) then
        some (nearest (s.value * s.factor place) (s.denominator place))
      else if s.HitsLow place below then some below
      else if s.HitsHigh place (below + 1) then some (below + 1)
      else none := by
  rw [← floor]
  rfl

structure Hits (point : Nat) : Prop where
  low : s.HitsLow place point
  high : s.HitsHigh place point

variable {s place}

theorem hitsLow_of_lt {point : Nat}
    (inside : s.low * s.factor place < point * s.denominator place) : s.HitsLow place point := by
  rw [HitsLow]
  split
  · exact Nat.le_of_lt inside
  · exact inside

theorem hitsHigh_of_lt {point : Nat}
    (inside : point * s.denominator place < s.high * s.factor place) :
    s.HitsHigh place point := by
  rw [HitsHigh]
  split
  · exact Nat.le_of_lt inside
  · exact inside

theorem Hits.holds {point : Nat} (hits : s.Hits place point) :
    s.Holds (point * 10 ^ place) := by
  obtain ⟨low, high⟩ := hits
  rw [HitsLow] at low
  rw [HitsHigh] at high
  split at low
  · next closed =>
    rw [if_pos closed] at high
    exact ⟨(le_onGrid s place _ _).mp low, (onGrid_le s place _ _).mp high, Or.inl closed⟩
  · next other =>
    rw [if_neg other, ← Nat.not_le, le_onGrid, not_le] at high
    rw [← Nat.not_le, onGrid_le, not_le] at low
    exact ⟨le_of_lt low, le_of_lt high, Or.inr ⟨low, high⟩⟩

variable (wide : s.IsWide)
include wide

theorem hits_of_pointOnGrid? {point : Nat} (found : s.pointOnGrid? place = some point) :
    s.Hits place point := by
  have split : s.denominator place * (s.value * s.factor place / s.denominator place) +
      s.value * s.factor place % s.denominator place = s.value * s.factor place :=
    Nat.div_add_mod _ _
  have rest := Nat.mod_lt (s.value * s.factor place) (denominator_pos s place)
  have low := Nat.mul_lt_mul_of_pos_right wide.low (factor_pos s place)
  have high := Nat.mul_lt_mul_of_pos_right wide.high (factor_pos s place)
  have near := nearest_beside (s.value * s.factor place) (s.denominator place)
  rw [Nat.mul_comm] at split
  generalize floor : s.value * s.factor place / s.denominator place = q at split near
  have step : (q + 1) * s.denominator place = q * s.denominator place + s.denominator place :=
    Nat.succ_mul ..
  have below (hit : s.HitsLow place q) : s.Hits place q := ⟨hit, hitsHigh_of_lt (by omega)⟩
  have above (hit : s.HitsHigh place (q + 1)) : s.Hits place (q + 1) :=
    ⟨hitsLow_of_lt (by omega), hit⟩
  rw [pointOnGrid?_eq s place q floor] at found
  split at found
  · next both =>
    obtain rfl := Option.some.inj found
    rcases near with eq | eq
    · rw [eq]
      exact below both.1
    · rw [eq]
      exact above both.2
  · split at found
    · next hit =>
      obtain rfl := Option.some.inj found
      exact below hit
    · split at found
      · next hit =>
        obtain rfl := Option.some.inj found
        exact above hit
      · contradiction

/-- On a grid fine enough the nearest point reads back to the number. -/
theorem hits_nearest (fine : s.denominator place < 2 * s.factor place) :
    s.Hits place (nearest (s.value * s.factor place) (s.denominator place)) := by
  obtain ⟨down, up⟩ := nearest_bounds (s.value * s.factor place) (denominator_pos s place)
  have low := Nat.mul_le_mul_right (s.factor place) wide.low
  have high := Nat.mul_le_mul_right (s.factor place) wide.high
  rw [Nat.succ_mul] at low high
  exact ⟨hitsLow_of_lt (by linarith), hitsHigh_of_lt (by linarith)⟩

end Grid

theorem holds_firstPoint {s : Surroundings} (wide : s.IsWide) (grids : Nat) (place : Int)
    (fine : s.denominator (place - grids) < 2 * s.factor (place - grids)) :
    s.Holds ((s.firstPoint grids place).1 * 10 ^ (s.firstPoint grids place).2) := by
  induction grids generalizing place with
  | zero =>
    rw [Nat.cast_zero, Int.sub_zero] at fine
    exact (hits_nearest wide fine).holds
  | succ grids ih =>
    rw [firstPoint]
    split
    · next found => exact (hits_of_pointOnGrid? wide found).holds
    · apply ih
      rwa [show place - 1 - (grids : Int) = place - (grids + 1 : Nat) by omega]

end Surroundings

theorem isWide_surroundings {mantissa : Nat} (filled : 0 < mantissa) (exponent : Int) :
    (surroundings mantissa exponent).IsWide := by
  constructor
  · simp only [surroundings]
    split <;> omega
  · simp only [surroundings]
    omega

/-- Ten is between the powers of two to 3.3 and to 10 / 3. -/
theorem pow_ten_le (n : Nat) : 10 ^ n ≤ 2 ^ ((10 * n + 2) / 3) := by
  apply (Nat.pow_le_pow_iff_left (by decide : 3 ≠ 0)).mp
  calc (10 ^ n) ^ 3 = (10 ^ 3) ^ n := Nat.pow_right_comm ..
    _ ≤ (2 ^ 10) ^ n := Nat.pow_le_pow_left (by decide) n
    _ = 2 ^ (10 * n) := (Nat.pow_mul ..).symm
    _ ≤ 2 ^ ((10 * n + 2) / 3 * 3) := Nat.pow_le_pow_right (by decide) (by omega)
    _ = (2 ^ ((10 * n + 2) / 3)) ^ 3 := Nat.pow_mul ..

theorem lt_pow_ten {n : Nat} (positive : n ≠ 0) : 2 ^ (33 * n / 10) < 10 ^ n := by
  apply (Nat.pow_lt_pow_iff_left (by decide : 10 ≠ 0)).mp
  calc (2 ^ (33 * n / 10)) ^ 10 = 2 ^ (33 * n / 10 * 10) := (Nat.pow_mul ..).symm
    _ ≤ 2 ^ (33 * n) := Nat.pow_le_pow_right (by decide) (by omega)
    _ = (2 ^ 33) ^ n := Nat.pow_mul ..
    _ < (10 ^ 10) ^ n := Nat.pow_lt_pow_left (by decide) positive
    _ = (10 ^ n) ^ 10 := Nat.pow_right_comm ..

/-- Twenty places below that of the first digit of a number whose mantissa has all its bits, the
    grid is finer than the distance of two neighbours. -/
theorem fine_lastGrid {n : Nat} (bound : n < 2046) {place : Int}
    (last : (n - 1021 : Int) * 30103 / 100000 - 19 = place) :
    2 ^ (1076 - n : Int).toNat * 10 ^ place.toNat <
      2 * (2 ^ (n - 1076 : Int).toNat * 10 ^ (-place).toNat) := by
  rcases Int.lt_or_le place 0 with below | above
  · have one : place.toNat = 0 := by omega
    have power := lt_pow_ten (n := (-place).toNat) (by omega)
    have half : 2 ^ (1076 - n : Int).toNat ≤ 2 * 2 ^ (33 * (-place).toNat / 10) := by
      rw [← Nat.pow_succ']
      exact Nat.pow_le_pow_right (by decide) (by omega)
    have unit := Nat.le_mul_of_pos_left (10 ^ (-place).toNat)
      (Nat.two_pow_pos (n - 1076 : Int).toNat)
    rw [one]
    omega
  · have one : (-place).toNat = 0 := by omega
    have none : (1076 - n : Int).toNat = 0 := by omega
    have power := pow_ten_le place.toNat
    have less : 2 ^ ((10 * place.toNat + 2) / 3) ≤ 2 ^ (n - 1076 : Int).toNat :=
      Nat.pow_le_pow_right (by decide) (by omega)
    have unit := Nat.two_pow_pos (n - 1076 : Int).toNat
    rw [one, none]
    omega

theorem holds_shortestDecimal {mantissa : Nat} {exponent : Int}
    (canonical : IsCanonical mantissa exponent) (filled : 0 < mantissa) :
    (surroundings mantissa exponent).Holds
      ((shortestDecimal mantissa exponent).1 * 10 ^ (shortestDecimal mantissa exponent).2) := by
  apply Surroundings.holds_firstPoint (isWide_surroundings filled exponent)
  have bits : Nat.log2 mantissa < precision := (Nat.log2_lt (by omega)).mpr canonical.small
  obtain ⟨n, eq⟩ := Int.eq_ofNat_of_zero_le (Int.sub_nonneg_of_le canonical.least)
  have least := canonical.least
  have greatest := canonical.greatest
  rw [leastExponent] at eq least
  rw [greatestExponent] at greatest
  rw [precision] at bits
  generalize last : ((n : Int) - 1021) * 30103 / 100000 - 19 = place
  have lower : placeAbove mantissa exponent - (20 : Nat) ≤ place := by
    rw [placeAbove]
    omega
  have fine := fine_lastGrid (by omega) last
  have coarse : (surroundings mantissa exponent).denominator
      (placeAbove mantissa exponent - (20 : Nat)) ≤
      2 ^ (1076 - n : Int).toNat * 10 ^ place.toNat :=
    Nat.mul_le_mul (Nat.pow_le_pow_right (by decide) (by simp only [surroundings]; omega))
      (Nat.pow_le_pow_right (by decide) (by omega))
  have wide : 2 ^ (n - 1076 : Int).toNat * 10 ^ (-place).toNat ≤
      (surroundings mantissa exponent).factor (placeAbove mantissa exponent - (20 : Nat)) :=
    Nat.mul_le_mul (Nat.pow_le_pow_right (by decide) (by simp only [surroundings]; omega))
      (Nat.pow_le_pow_right (by decide) (by omega))
  omega

end LReal
end StructuredText
