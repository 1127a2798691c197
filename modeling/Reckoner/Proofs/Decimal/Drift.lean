import Reckoner.Proofs.Decimal.Normal

/-!
How far the results of several operations drift from the exact ones. Each rounding changes a number
by one part in `2 ^ 53` at most, up or down, and the parts add up over products and quotients. After
4096 roundings they are still less than one part in `2 ^ 40`. A result is infinite only if the exact
one is too large for a double, but for the drift.
-/

namespace Reckoner.Decimal

/-- The greatest factor between a number and the double it is rounded to. -/
def drift : ℚ := 1 + 1 / 2 ^ 53

theorem one_le_drift_pow (rounds : Nat) : 1 ≤ drift ^ rounds :=
  one_le_pow₀ (by norm_num [drift])

theorem drift_pow_pos (rounds : Nat) : 0 < drift ^ rounds :=
  lt_of_lt_of_le one_pos (one_le_drift_pow rounds)

theorem drift_pow_mono {rounds rounds' : Nat} (fewer : rounds ≤ rounds') :
    drift ^ rounds ≤ drift ^ rounds' :=
  pow_le_pow_right₀ (by norm_num [drift]) fewer

theorem drift_pow_mul_le (rounds : Nat) : drift ^ rounds * (1 - rounds / (2 ^ 53 + 1)) ≤ 1 := by
  have bernoulli := one_add_mul_le_pow (a := -(1 / (2 ^ 53 + 1) : ℚ)) (by norm_num) rounds
  have inverse : drift * (1 + -(1 / (2 ^ 53 + 1))) = 1 := by norm_num [drift]
  calc drift ^ rounds * (1 - rounds / (2 ^ 53 + 1))
      ≤ drift ^ rounds * (1 + -(1 / (2 ^ 53 + 1))) ^ rounds := by
        apply mul_le_mul_of_nonneg_left _ (le_of_lt (drift_pow_pos rounds))
        linarith
    _ = 1 := by rw [← mul_pow, inverse, one_pow]

theorem drift_pow_le {rounds : Nat} (few : rounds ≤ 4096) : drift ^ rounds ≤ 1 + 1 / 2 ^ 40 := by
  have most : (rounds : ℚ) ≤ 4096 := by exact_mod_cast few
  have left : (1 - 4096 / (2 ^ 53 + 1) : ℚ) ≤ 1 - rounds / (2 ^ 53 + 1) := by
    have less : (rounds : ℚ) / (2 ^ 53 + 1) ≤ 4096 / (2 ^ 53 + 1) :=
      div_le_div_of_nonneg_right most (by norm_num)
    linarith
  have bound := (mul_le_mul_of_nonneg_left left (le_of_lt (drift_pow_pos rounds))).trans
    (drift_pow_mul_le rounds)
  norm_num at bound ⊢
  linarith

theorem greatestFinite_mul_lt (rounds : Nat) (few : rounds ≤ 4096) :
    greatestFinite * drift ^ rounds < (2 ^ 1025 : ℕ) := by
  have power := drift_pow_le few
  have double : ((2 ^ 1025 : ℕ) : ℚ) = 2 ^ 54 * 2 ^ (971 : Int) := by
    rw [Nat.cast_pow, ← zpow_natCast, ← zpow_natCast, ← zpow_add₀ (by norm_num)]
    rfl
  have unit : (0 : ℚ) < 2 ^ (971 : Int) := by positivity
  rw [double, cast_greatestFinite]
  generalize (2 : ℚ) ^ (971 : Int) = unit' at unit
  calc (2 ^ 53 - 1) * unit' * drift ^ rounds ≤ (2 ^ 53 - 1) * unit' * (1 + 1 / 2 ^ 40) :=
        mul_le_mul_of_nonneg_left power (by linarith)
    _ < 2 ^ 54 * unit' := by linarith

/-- Whether two numbers are as near to one another as so many roundings leave them. -/
structure Close (left right : ℚ) (rounds : Nat) : Prop where
  positive : 0 < left
  left_le : left ≤ right * drift ^ rounds
  right_le : right ≤ left * drift ^ rounds

namespace Close

variable {left right left' right' : ℚ} {rounds rounds' : Nat}

theorem refl {number : ℚ} (positive : 0 < number) : Close number number 0 := by
  constructor
  case positive => exact positive
  all_goals simp

theorem right_pos (close : Close left right rounds) : 0 < right :=
  pos_of_mul_pos_left (close.positive.trans_le close.left_le) (le_of_lt (drift_pow_pos rounds))

theorem double (close : Close left right rounds) (few : rounds ≤ 4096) :
    left ≤ 2 * right ∧ right ≤ 2 * left := by
  have power : drift ^ rounds ≤ 2 := (drift_pow_le few).trans (by norm_num)
  have above := mul_le_mul_of_nonneg_left power (le_of_lt close.right_pos)
  have below := mul_le_mul_of_nonneg_left power (le_of_lt close.positive)
  rw [mul_comm 2, mul_comm 2]
  exact ⟨close.left_le.trans above, close.right_le.trans below⟩

theorem mono (close : Close left right rounds) (fewer : rounds ≤ rounds') :
    Close left right rounds' := by
  have more := drift_pow_mono fewer
  have positive := close.right_pos
  constructor
  case positive => exact close.positive
  case left_le => exact close.left_le.trans (mul_le_mul_of_nonneg_left more (le_of_lt positive))
  case right_le =>
    exact close.right_le.trans (mul_le_mul_of_nonneg_left more (le_of_lt close.positive))

theorem round (close : Close left right rounds) {number : ℚ} (positive : 0 < number)
    (below : number ≤ left * drift) (above : left ≤ number * drift) :
    Close number right (rounds + 1) := by
  have unit : (0 : ℚ) ≤ drift := by norm_num [drift]
  constructor
  case positive => exact positive
  case left_le =>
    calc number ≤ left * drift := below
      _ ≤ right * drift ^ rounds * drift := mul_le_mul_of_nonneg_right close.left_le unit
      _ = right * drift ^ (rounds + 1) := by rw [pow_succ, mul_assoc]
  case right_le =>
    calc right ≤ left * drift ^ rounds := close.right_le
      _ ≤ number * drift * drift ^ rounds :=
        mul_le_mul_of_nonneg_right above (le_of_lt (drift_pow_pos rounds))
      _ = number * drift ^ (rounds + 1) := by rw [pow_succ', mul_assoc]

theorem mul (close : Close left right rounds) (close' : Close left' right' rounds') :
    Close (left * left') (right * right') (rounds + rounds') := by
  have positive := close.right_pos
  have positive' := close'.right_pos
  have power := drift_pow_pos rounds
  constructor
  case positive => exact mul_pos close.positive close'.positive
  case left_le =>
    calc left * left' ≤ right * drift ^ rounds * (right' * drift ^ rounds') :=
          mul_le_mul close.left_le close'.left_le (le_of_lt close'.positive) (by positivity)
      _ = right * right' * drift ^ (rounds + rounds') := by rw [pow_add, mul_mul_mul_comm]
  case right_le =>
    have first := close.positive
    calc right * right' ≤ left * drift ^ rounds * (left' * drift ^ rounds') :=
          mul_le_mul close.right_le close'.right_le (le_of_lt positive') (by positivity)
      _ = left * left' * drift ^ (rounds + rounds') := by rw [pow_add, mul_mul_mul_comm]

theorem inv (close : Close left right rounds) : Close left⁻¹ right⁻¹ rounds := by
  have positive := close.right_pos
  constructor
  case positive => exact inv_pos.mpr close.positive
  case left_le =>
    rw [inv_mul_eq_div, le_div_iff₀ positive, inv_mul_eq_div, div_le_iff₀ close.positive, mul_comm]
    exact close.right_le
  case right_le =>
    rw [inv_mul_eq_div, le_div_iff₀ close.positive, inv_mul_eq_div, div_le_iff₀ positive, mul_comm]
    exact close.left_le

theorem div (close : Close left right rounds) (close' : Close left' right' rounds') :
    Close (left / left') (right / right') (rounds + rounds') := by
  rw [div_eq_mul_inv, div_eq_mul_inv]
  exact close.mul close'.inv

end Close

def Nears (value : Float) (exact : ℚ) (rounds : Nat) : Prop :=
  ∃ number, Stands value number ∧ Close number exact rounds

/-- Whether a double comes near to a number if it is not infinite, and is not infinite unless the
number is too large. -/
def Tracks (value : Float) (exact : ℚ) (rounds : Nat) : Prop :=
  (value = 1.0 / 0.0 ∧ greatestFinite < exact * drift ^ rounds) ∨ Nears value exact rounds

section
variable {value second : Float} {exact exact' : ℚ} {rounds rounds' : Nat}

theorem Stands.nears (stands : Stands value exact) : Nears value exact 0 :=
  ⟨exact, stands, Close.refl stands.pos⟩

theorem Nears.le (nears : Nears value exact rounds) : exact ≤ greatestFinite * drift ^ rounds := by
  obtain ⟨number, stands, close⟩ := nears
  exact close.right_le.trans
    (mul_le_mul_of_nonneg_right stands.le_greatestFinite (le_of_lt (drift_pow_pos rounds)))

theorem Rounded.tracks {number : ℚ} (rounded : Rounded value number)
    (close : Close number exact rounds) (few : rounds ≤ 4096) (low : 1 ≤ exact) :
    Tracks value exact (rounds + 1) := by
  have half : 1 / 2 ≤ number := by
    have double := (close.double few).2
    linarith
  rcases rounded.stands_or_infinite half with ⟨infinite, large⟩ | ⟨number', stands, below, above⟩
  · left
    have more := (close.mono (Nat.le_succ rounds)).left_le
    exact ⟨infinite, large.trans_le more⟩
  · right
    exact ⟨number', stands, close.round stands.pos below above⟩

theorem nears_ofWord {word : Nat} (positive : 0 < word) (fits : word < 2 ^ 64) :
    Nears (ofWord word) word 1 := by
  have cast : (1 : ℚ) ≤ word := by exact_mod_cast positive
  have rounded := rounded_ofWord positive fits
  have close : Close (word : ℚ) word 0 := Close.refl (by linarith)
  rcases rounded.tracks close (by decide) cast with ⟨-, large⟩ | nears
  · have size : (word : ℚ) ≤ 2 ^ 64 := by exact_mod_cast le_of_lt fits
    have room : (2 : ℚ) ^ 64 * drift ^ (0 + 1) ≤ greatestFinite := by
      have power : (2 : ℚ) ^ 64 ≤ 2 ^ (971 : Int) := by
        rw [← zpow_natCast]
        exact zpow_le_zpow_right₀ (by norm_num) (by norm_num)
      rw [cast_greatestFinite, zero_add, pow_one, drift]
      generalize (2 : ℚ) ^ (971 : Int) = unit at power
      linarith
    have most := mul_le_mul_of_nonneg_right size (le_of_lt (drift_pow_pos (0 + 1)))
    linarith
  · exact nears

theorem Nears.mul (nears : Nears value exact rounds) (nears' : Nears second exact' rounds')
    (few : rounds + rounds' ≤ 4096) (low : 1 ≤ exact * exact') :
    Tracks (value * second) (exact * exact') (rounds + rounds' + 1) := by
  obtain ⟨number, stands, close⟩ := nears
  obtain ⟨number', stands', close'⟩ := nears'
  exact (stands.mul stands').tracks (close.mul close') few low

theorem Nears.div (nears : Nears value exact rounds) (nears' : Nears second exact' rounds')
    (few : rounds + rounds' ≤ 4096) (low : 1 ≤ exact / exact') :
    Tracks (value / second) (exact / exact') (rounds + rounds' + 1) := by
  obtain ⟨number, stands, close⟩ := nears
  obtain ⟨number', stands', close'⟩ := nears'
  exact (stands.div stands').tracks (close.div close') few low

theorem Tracks.mul (tracks : Tracks value exact rounds) (nears : Nears second exact' rounds')
    (few : rounds + rounds' ≤ 4096) (low : 1 ≤ exact) (low' : 1 ≤ exact') :
    Tracks (value * second) (exact * exact') (rounds + rounds' + 1) := by
  rcases tracks with ⟨rfl, large⟩ | near
  · left
    obtain ⟨number, stands, -⟩ := nears
    have more : exact * drift ^ rounds ≤ exact * exact' * drift ^ (rounds + rounds' + 1) :=
      mul_le_mul (le_mul_of_one_le_right (by linarith) low') (drift_pow_mono (by omega))
        (le_of_lt (drift_pow_pos rounds)) (by positivity)
    exact ⟨stands.infinite_mul, large.trans_le more⟩
  · exact near.mul nears few (one_le_mul_of_one_le_of_one_le low low')

theorem Nears.mul_div {third : Float} {exact'' : ℚ} (nears : Nears value exact rounds)
    (nears' : Nears second exact' 1) (nears'' : Nears third exact'' 1) (few : rounds + 4 ≤ 4096)
    (low : 1 ≤ exact'') (divisible : exact'' ≤ exact * exact') :
    (value * second / third = 1.0 / 0.0 ∧ greatestFinite < exact * exact' * drift ^ (rounds + 4)) ∨
      Nears (value * second / third) (exact * exact' / exact'') (rounds + 4) ∧
        exact * exact' ≤ greatestFinite * drift ^ (rounds + 4) := by
  have product : 1 ≤ exact * exact' := low.trans divisible
  have quotient : 1 ≤ exact * exact' / exact'' := (one_le_div₀ (by linarith)).mpr divisible
  have less : exact * exact' / exact'' ≤ exact * exact' := div_le_self (by linarith) low
  have power : drift ^ (rounds + 1 + 1) ≤ drift ^ (rounds + 4) := drift_pow_mono (by omega)
  have unit := drift_pow_pos (rounds + 4)
  rcases nears.mul nears' (by omega) product with ⟨infinite, large⟩ | near
  · left
    obtain ⟨_, stands, -⟩ := nears''
    rw [infinite]
    exact ⟨stands.infinite_div,
      large.trans_le (mul_le_mul_of_nonneg_left power (by linarith))⟩
  · rcases near.div nears'' (by omega) quotient with ⟨infinite, large⟩ | near'
    · left
      exact ⟨infinite, large.trans_le (mul_le_mul_of_nonneg_right less (le_of_lt unit))⟩
    · right
      exact ⟨near', near.le.trans (mul_le_mul_of_nonneg_left power (Nat.cast_nonneg _))⟩

end

end Reckoner.Decimal
