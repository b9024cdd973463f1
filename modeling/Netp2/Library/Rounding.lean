import Mathlib.Data.Int.Log
import Mathlib.Data.Rat.Floor
import Mathlib.Tactic

/-!
# Rounding to floating-point numbers

A floating-point operation computes the exact result and rounds it.  What an argument about such
computations mostly needs of the rounding is little: it keeps the order, and it leaves alone what
can be represented.  `Rounding p` is a rounding with these two laws, for significands of `p` bits.

Numbers are not negative here, and large numbers are not cut off: the exponent has no upper bound.

`exact` rounds nothing, and `nearestEven` is the rounding of the usual formats, to the nearest
number and to the even significand between two of them; `binary64` is that of a `double`.
-/

/-- A rounding to significands of `p` bits. -/
structure Rounding (p : ℕ) where
  round : ℚ → ℚ
  mono : ∀ {x y : ℚ}, 0 ≤ x → x ≤ y → round x ≤ round y
  representable : ∀ {m : ℕ} (k : ℕ), m ≤ 2 ^ p → round (m * 2 ^ k) = m * 2 ^ k

namespace Rounding

variable {p : ℕ}

instance : CoeFun (Rounding p) fun _ => ℚ → ℚ :=
  ⟨round⟩

variable (R : Rounding p)

@[simp] lemma round_natCast {m : ℕ} (hm : m ≤ 2 ^ p) : R m = m := by
  simpa using R.representable 0 hm

@[simp] lemma round_zero : R 0 = 0 := by
  simpa using R.round_natCast (Nat.zero_le _)

lemma natCast_le_round {m : ℕ} (hm : m ≤ 2 ^ p) {x : ℚ} (hx : (m : ℚ) ≤ x) : (m : ℚ) ≤ R x := by
  rw [← R.round_natCast hm]
  exact R.mono (Nat.cast_nonneg m) hx

lemma round_nonneg {x : ℚ} (hx : 0 ≤ x) : 0 ≤ R x := by
  simpa using R.natCast_le_round (Nat.zero_le _) (m := 0) (by simpa using hx)

/-- Nothing is rounded. -/
def exact (p : ℕ) : Rounding p where
  round x := x
  mono _ h := h
  representable _ _ := rfl

/-! ## To the nearest number -/

/-- The nearest integer, and the even one between two. -/
def halfEven (x : ℚ) : ℤ :=
  if x - ⌊x⌋ < 1 / 2 then ⌊x⌋
  else if 1 / 2 < x - ⌊x⌋ then ⌊x⌋ + 1
  else if 2 ∣ ⌊x⌋ then ⌊x⌋
  else ⌊x⌋ + 1

@[simp] lemma halfEven_intCast (n : ℤ) : halfEven n = n := by
  simp [halfEven]

lemma halfEven_mem (x : ℚ) : ⌊x⌋ ≤ halfEven x ∧ halfEven x ≤ ⌊x⌋ + 1 := by
  rw [halfEven]
  split_ifs <;> omega

lemma halfEven_mono {x y : ℚ} (h : x ≤ y) : halfEven x ≤ halfEven y := by
  rcases (Int.floor_le_floor h).eq_or_lt with hfloor | hlt
  · -- between the same two integers the fraction decides
    rw [halfEven, halfEven, ← hfloor]
    split_ifs <;> first | omega | (exfalso; linarith)
  · have hx := (halfEven_mem x).2
    have hy := (halfEven_mem y).1
    omega

/-- The exponent of the last bit of the significand; `emin` is the least one there is. -/
def lastBit (p : ℕ) (emin : ℤ) (x : ℚ) : ℤ :=
  max (Int.log 2 x + 1 - p) emin

def roundNearest (p : ℕ) (emin : ℤ) (x : ℚ) : ℚ :=
  halfEven (x / 2 ^ lastBit p emin x) * 2 ^ lastBit p emin x

variable {emin : ℤ} {x y : ℚ}

lemma roundNearest_nonneg (hx : 0 ≤ x) : 0 ≤ roundNearest p emin x := by
  have hscaled : (0 : ℚ) ≤ x / 2 ^ lastBit p emin x := div_nonneg hx (by positivity)
  have hround : (0 : ℤ) ≤ halfEven (x / 2 ^ lastBit p emin x) :=
    (Int.floor_nonneg.mpr hscaled).trans (halfEven_mem _).1
  exact mul_nonneg (by exact_mod_cast hround) (by positivity)

/-- A number is below the power of two behind its significand, and stays so. -/
lemma roundNearest_le (x : ℚ) : roundNearest p emin x ≤ 2 ^ (p + lastBit p emin x) := by
  have hlt : x < 2 ^ (p + lastBit p emin x) := by
    have hlog : x < 2 ^ (Int.log 2 x + 1) := by
      exact_mod_cast Int.lt_zpow_succ_log_self (b := 2) (by norm_num) x
    refine hlog.trans_le (zpow_le_zpow_right₀ (by norm_num) ?_)
    have hle : Int.log 2 x + 1 - p ≤ lastBit p emin x := le_max_left _ _
    omega
  have hsplit : (2 : ℚ) ^ (p + lastBit p emin x)
      = ((2 ^ p : ℤ) : ℚ) * 2 ^ lastBit p emin x := by
    rw [zpow_add₀ (by norm_num), zpow_natCast]
    push_cast
    rfl
  rw [hsplit] at hlt ⊢
  have hscaled : x / 2 ^ lastBit p emin x ≤ ((2 ^ p : ℤ) : ℚ) :=
    (div_le_iff₀ (by positivity)).mpr hlt.le
  have hround := halfEven_mono hscaled
  rw [halfEven_intCast] at hround
  exact mul_le_mul_of_nonneg_right (by exact_mod_cast hround) (by positivity)

/-- A number that fills its significand is at least the power of two in front, and stays so. -/
lemma le_roundNearest (hp : 0 < p) (hy : 0 < y) (hemin : emin < lastBit p emin y) :
    2 ^ (p + lastBit p emin y - 1) ≤ roundNearest p emin y := by
  have hlast : lastBit p emin y = Int.log 2 y + 1 - p := by
    rw [lastBit] at hemin ⊢
    omega
  have hle : (2 : ℚ) ^ (p + lastBit p emin y - 1) ≤ y := by
    have hlog : (p : ℤ) + lastBit p emin y - 1 = Int.log 2 y := by omega
    rw [hlog]
    exact_mod_cast Int.zpow_log_le_self (b := 2) (by norm_num) hy
  obtain ⟨q, rfl⟩ := Nat.exists_eq_succ_of_ne_zero hp.ne'
  have hsplit : (2 : ℚ) ^ (((q + 1 : ℕ) : ℤ) + lastBit (q + 1) emin y - 1)
      = ((2 ^ q : ℤ) : ℚ) * 2 ^ lastBit (q + 1) emin y := by
    push_cast
    rw [show (q : ℤ) + 1 + lastBit (q + 1) emin y - 1 = q + lastBit (q + 1) emin y by ring,
      zpow_add₀ (by norm_num), zpow_natCast]
  rw [Nat.succ_eq_add_one] at *
  rw [hsplit] at hle ⊢
  have hscaled : ((2 ^ q : ℤ) : ℚ) ≤ y / 2 ^ lastBit (q + 1) emin y :=
    (le_div_iff₀ (by positivity)).mpr hle
  have hround := halfEven_mono hscaled
  rw [halfEven_intCast] at hround
  exact mul_le_mul_of_nonneg_right (by exact_mod_cast hround) (by positivity)

lemma roundNearest_mono (hp : 0 < p) (hx : 0 ≤ x) (hxy : x ≤ y) :
    roundNearest p emin x ≤ roundNearest p emin y := by
  rcases hx.eq_or_lt with rfl | hpos
  · have hzero : roundNearest p emin 0 = 0 := by simp [roundNearest, halfEven]
    rw [hzero]
    exact roundNearest_nonneg hxy
  have hlog := Int.log_mono_right (b := 2) hpos hxy
  have hlast : lastBit p emin x ≤ lastBit p emin y := max_le_max_right _ (by omega)
  rcases hlast.eq_or_lt with heq | hlt
  · rw [roundNearest, roundNearest, heq]
    have hround := halfEven_mono (div_le_div_of_nonneg_right hxy
      (show (0 : ℚ) ≤ 2 ^ lastBit p emin y by positivity))
    exact mul_le_mul_of_nonneg_right (by exact_mod_cast hround) (by positivity)
  · -- a power of two is in between
    have hemin : emin < lastBit p emin y := (le_max_right _ _).trans_lt hlt
    refine (roundNearest_le x).trans (le_trans ?_ (le_roundNearest hp (hpos.trans_le hxy) hemin))
    exact zpow_le_zpow_right₀ (by norm_num) (by omega)

/-- What is a multiple of its last bit is not rounded. -/
lemma roundNearest_of_lastBit_le {m k : ℕ} (h : lastBit p emin (m * 2 ^ k) ≤ k) :
    roundNearest p emin (m * 2 ^ k) = m * 2 ^ k := by
  obtain ⟨j, hj⟩ := Int.eq_ofNat_of_zero_le (sub_nonneg.mpr h)
  have hk : (2 : ℚ) ^ k = 2 ^ j * 2 ^ lastBit p emin (m * 2 ^ k) := by
    rw [← zpow_natCast 2 j, ← zpow_add₀ (by norm_num), ← hj, sub_add_cancel, zpow_natCast]
  have hsplit : (m : ℚ) * 2 ^ k
      = ((m * 2 ^ j : ℤ) : ℚ) * 2 ^ lastBit p emin (m * 2 ^ k) := by
    push_cast
    rw [mul_assoc, ← hk]
  have hscaled : (m : ℚ) * 2 ^ k / 2 ^ lastBit p emin (m * 2 ^ k) = ((m * 2 ^ j : ℤ) : ℚ) :=
    (div_eq_iff (by positivity)).mpr hsplit
  rw [roundNearest, hscaled, halfEven_intCast]
  exact hsplit.symm

lemma lastBit_le (hemin : emin ≤ 0) {m : ℕ} (k : ℕ) (hm : m < 2 ^ p) :
    lastBit p emin (m * 2 ^ k) ≤ k ∨ m = 0 := by
  rcases Nat.eq_zero_or_pos m with rfl | hpos
  · exact .inr rfl
  have hx : (0 : ℚ) < m * 2 ^ k := by positivity
  have hlt : (m : ℚ) * 2 ^ k < (2 : ℕ) ^ ((p : ℤ) + k) := by
    rw [zpow_add₀ (by norm_num), zpow_natCast, zpow_natCast]
    exact mul_lt_mul_of_pos_right (by exact_mod_cast hm) (by positivity)
  have hlog := (Int.lt_zpow_iff_log_lt (by norm_num) hx).mp hlt
  exact .inl (max_le (by omega) (by omega))

lemma roundNearest_representable (hp : 0 < p) (hemin : emin ≤ 0) {m : ℕ} (k : ℕ)
    (hm : m ≤ 2 ^ p) : roundNearest p emin (m * 2 ^ k) = m * 2 ^ k := by
  rcases hm.lt_or_eq with hlt | rfl
  · rcases lastBit_le hemin k hlt with hlast | rfl
    · exact roundNearest_of_lastBit_le hlast
    · simp [roundNearest, halfEven]
  · -- the significand that is too large by one bit is a power of two
    obtain ⟨q, rfl⟩ := Nat.exists_eq_succ_of_ne_zero hp.ne'
    have hshift : ((2 ^ (q + 1) : ℕ) : ℚ) * 2 ^ k = (2 ^ q : ℕ) * 2 ^ (k + 1) := by
      push_cast
      ring
    rw [Nat.succ_eq_add_one, hshift]
    rcases lastBit_le (p := q + 1) hemin (k + 1)
      (Nat.pow_lt_pow_right (by norm_num) (Nat.lt_succ_self q)) with hlast | hzero
    · exact roundNearest_of_lastBit_le hlast
    · exact absurd hzero (by positivity)

/-- To the nearest number with a significand of `p` bits, no finer than `2 ^ emin`. -/
def nearestEven (p : ℕ) (emin : ℤ) (hp : 0 < p) (hemin : emin ≤ 0) : Rounding p where
  round := roundNearest p emin
  mono := roundNearest_mono hp
  representable := roundNearest_representable hp hemin

/-- The rounding of a `double`. -/
def binary64 : Rounding 53 :=
  nearestEven 53 (-1074) (by norm_num) (by norm_num)

end Rounding
