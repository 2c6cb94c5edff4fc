import FuzzyGates.Proofs.Degree.Rounding

/-!
# Sums, differences and products are correctly rounded

An operation works on exact mantissas and shifts the result to the right until it has 53 bits.
Two bits keep what was shifted out: the half, and whether there is more.  They suffice to round
to the nearest number, and a carry into a further bit needs no second rounding.

* `Represents` — an extended mantissa stands for a quotient, kept by shifts.
* `Represents.roundedMantissa_eq` — the two bits suffice.
* `RoundsTo` — a number is the one that a rational number is rounded to.
* `roundsTo_normalize` — a whole number over an exponent is rounded to the nearest.
* **`roundsTo_add`**, **`roundsTo_sub`**, **`roundsTo_mul`** — the operations on numbers.
-/

namespace FuzzyGates

open Float.Model (Format UnpackedFloat totalExponent)
open Float.Model.UnpackedFloat

namespace Binary64

/-! ### Shifting a mantissa -/

/-- The extended mantissa of `n / p`: the quotient, whether the rest reaches half of the divisor,
and whether it is neither nothing nor the half. -/
def Represents (em : ExtendedMantissa) (n p : Nat) : Prop :=
  ∃ rest < p, n = p * em.mantissa + rest ∧ (em.roundBit = true ↔ p ≤ 2 * rest) ∧
    (em.stickyBit = true ↔ rest ≠ 0 ∧ 2 * rest ≠ p)

theorem represents_exact (n : Nat) :
    Represents (ExtendedMantissa.ofMantissaAndAccuracy n .exact) n 1 :=
  ⟨0, Nat.one_pos, by simp [ExtendedMantissa.ofMantissaAndAccuracy],
    by simp [ExtendedMantissa.ofMantissaAndAccuracy],
    by simp [ExtendedMantissa.ofMantissaAndAccuracy]⟩

/-- A shift by one place doubles the divisor. -/
theorem Represents.shiftRightOne {em : ExtendedMantissa} {n p : Nat} (h : Represents em n p) :
    Represents em.shiftRightOne n (p * 2) := by
  obtain ⟨rest, hrest, hn, hround, hsticky⟩ := h
  have hmod : em.mantissa % 2 = 0 ∨ em.mantissa % 2 = 1 := by omega
  have hdiv : p * em.mantissa = p * 2 * (em.mantissa / 2) + p * (em.mantissa % 2) := by
    rw [Nat.mul_assoc, ← Nat.mul_add, Nat.div_add_mod]
  have hbits : (em.roundBit || em.stickyBit) = true ↔ rest ≠ 0 := by
    rw [Bool.or_eq_true, hround, hsticky]
    omega
  refine ⟨p * (em.mantissa % 2) + rest, ?_, ?_, ?_, ?_⟩
  · rcases hmod with hmod | hmod <;> rw [hmod] <;> omega
  · show n = p * 2 * (em.mantissa / 2) + (p * (em.mantissa % 2) + rest)
    omega
  · show (em.mantissa % 2 != 0) = true ↔ _
    rcases hmod with hmod | hmod <;> rw [hmod] <;> simp <;> omega
  · show (em.roundBit || em.stickyBit) = true ↔ _
    rw [hbits]
    rcases hmod with hmod | hmod <;> rw [hmod] <;> omega

theorem Represents.shiftRight {em : ExtendedMantissa} {n p : Nat} (h : Represents em n p)
    (k : Nat) : Represents (em >>> k) n (p * 2 ^ k) := by
  show Represents (k.repeat ExtendedMantissa.shiftRightOne em) n (p * 2 ^ k)
  induction k with
  | zero => rwa [Nat.pow_zero, Nat.mul_one]
  | succ k ih =>
      rw [Nat.pow_succ, ← Nat.mul_assoc]
      exact ih.shiftRightOne

theorem roundedMantissa_of_below {em : ExtendedMantissa} (h : em.roundBit = false) :
    em.roundedMantissa = em.mantissa := by
  obtain ⟨q, r, s⟩ := em
  cases h
  cases s <;> rfl

theorem roundedMantissa_of_half {em : ExtendedMantissa} (hround : em.roundBit = true)
    (hsticky : em.stickyBit = false) : em.roundedMantissa = em.mantissa + em.mantissa % 2 := by
  obtain ⟨q, r, s⟩ := em
  cases hround
  cases hsticky
  rfl

theorem roundedMantissa_of_above {em : ExtendedMantissa} (hround : em.roundBit = true)
    (hsticky : em.stickyBit = true) : em.roundedMantissa = em.mantissa + 1 := by
  obtain ⟨q, r, s⟩ := em
  cases hround
  cases hsticky
  rfl

/-- **The two bits suffice to round to the nearest.** -/
theorem Represents.roundedMantissa_eq {em : ExtendedMantissa} {n p : Nat}
    (h : Represents em n p) : (em.roundedMantissa : ℤ) = halfEven (n / p) := by
  obtain ⟨rest, hrest, hn, hround, hsticky⟩ := h
  have hp : (0 : ℚ) < p := by
    have hpos : 0 < p := by omega
    exact_mod_cast hpos
  have hlt : (rest : ℚ) < p := by exact_mod_cast hrest
  have hquotient : (n : ℚ) / p = em.mantissa + rest / p := by
    rw [hn]
    push_cast
    field_simp
  have hfloor : ⌊(n : ℚ) / p⌋ = em.mantissa := by
    rw [hquotient, Int.floor_eq_iff]
    push_cast
    have hnonneg : (0 : ℚ) ≤ rest / p := by positivity
    have hone : (rest : ℚ) / p < 1 := (div_lt_one hp).mpr hlt
    constructor <;> linarith
  have hfract : 2 * Int.fract ((n : ℚ) / p) = 2 * rest / p := by
    have hsum := Int.floor_add_fract ((n : ℚ) / p)
    rw [hfloor] at hsum
    push_cast at hsum
    have hfract : Int.fract ((n : ℚ) / p) = rest / p := by linarith
    rw [hfract]
    ring
  rcases lt_trichotomy (2 * rest) p with hbelow | hhalf | habove
  · have hcast : (2 * rest : ℚ) < p := by exact_mod_cast hbelow
    have hbit : em.roundBit = false := by simpa using hround.not.mpr (by omega)
    rw [halfEven_of_lt (by rw [hfract]; exact (div_lt_one hp).mpr hcast), hfloor,
      roundedMantissa_of_below hbit]
  · have hcast : (2 * rest : ℚ) = p := by exact_mod_cast hhalf
    have hbit : em.stickyBit = false := by simpa using hsticky.not.mpr (by omega)
    rw [halfEven_of_eq (by rw [hfract, hcast]; exact div_self hp.ne'), hfloor,
      roundedMantissa_of_half (hround.mpr hhalf.ge) hbit]
    push_cast
    rfl
  · have hcast : (p : ℚ) < 2 * rest := by exact_mod_cast habove
    rw [halfEven_of_gt (by rw [hfract]; exact (one_lt_div hp).mpr hcast), hfloor,
      roundedMantissa_of_above (hround.mpr habove.le) (hsticky.mpr (by omega))]
    push_cast
    rfl

/-! ### Rounding a mantissa -/

/-- The number is the one that a rational number is rounded to. -/
structure RoundsTo (u : UnpackedFloat) (q : ℚ) : Prop where
  canonical : Canonical u
  finite : u.isFinite = true
  value : valueOf u = rounded q

theorem targetExponent_eq (m : Nat) (e : ℤ) :
    Format.binary64.targetExponent (totalExponent m e) = max (m.log2 + e - 52) (-1074) := by
  show max ((m.log2 : ℤ) + 1 + e - (1 + 52 : Nat)) (3 - 2 ^ 10 - (1 + 52 : Nat)) = _
  omega

/-- The exponent that is aimed at is that of the last place. -/
theorem targetExponent_eq_scale {m : Nat} (hm : 0 < m) (e : ℤ) :
    Format.binary64.targetExponent (totalExponent m e) = scale (m * 2 ^ e) := by
  have hpos : (0 : ℚ) < m * 2 ^ e := by positivity
  have hlower : ((2 ^ m.log2 : ℤ) : ℚ) ≤ m := by exact_mod_cast Nat.log2_self_le hm.ne'
  have hupper : (m : ℚ) < ((2 ^ (m.log2 + 1) : ℤ) : ℚ) := by exact_mod_cast Nat.lt_log2_self
  have hle : e + m.log2 ≤ Int.log 2 ((m : ℚ) * 2 ^ e) := by
    refine (Int.zpow_le_iff_le_log one_lt_two hpos).mp ?_
    have hmul : ((2 ^ m.log2 : ℤ) : ℚ) * 2 ^ e ≤ m * 2 ^ e := by gcongr
    rw [two_pow_mul_zpow] at hmul
    exact_mod_cast hmul
  have hlt : Int.log 2 ((m : ℚ) * 2 ^ e) < e + (m.log2 + 1 : Nat) := by
    refine (Int.lt_zpow_iff_log_lt one_lt_two hpos).mp ?_
    have hmul : (m : ℚ) * 2 ^ e < ((2 ^ (m.log2 + 1) : ℤ) : ℚ) * 2 ^ e := by gcongr
    rw [two_pow_mul_zpow] at hmul
    exact_mod_cast hmul
  rw [targetExponent_eq]
  unfold scale
  rw [abs_of_pos hpos]
  omega

theorem shiftToTargetExponent_eq (m : Nat) (e : ℤ) {k : Nat}
    (hk : (Format.binary64.targetExponent (totalExponent m e) - e).toNat = k) :
    shiftToTargetExponent Format.binary64 m e .exact =
      (ExtendedMantissa.ofMantissaAndAccuracy m .exact >>> k, e + k) := by
  rw [← hk]
  rfl

/-- A mantissa of at most 53 bits stays where it is; the one that rounding has carried into a
54th bit moves on by a place. -/
theorem shiftToTargetExponent_of_le {r : Nat} {e : ℤ} (hr : r ≤ 2 ^ 53) (he : -1074 ≤ e) :
    shiftToTargetExponent Format.binary64 r e .exact =
      if r = 2 ^ 53 then (⟨2 ^ 52, false, false⟩, e + 1) else (⟨r, false, false⟩, e) := by
  have htarget := targetExponent_eq r e
  by_cases hcarry : r = 2 ^ 53
  · have hlog : r.log2 = 53 := by
      rw [hcarry]
      exact Nat.log2_two_pow
    rw [shiftToTargetExponent_eq r e (k := 1) (by omega), if_pos hcarry, hcarry]
    rfl
  · have hlog : r.log2 ≤ 52 := by
      rcases Nat.eq_zero_or_pos r with rfl | hpos
      · decide
      · exact Nat.lt_succ_iff.mp ((Nat.log2_lt hpos.ne').mpr (by omega))
    rw [shiftToTargetExponent_eq r e (k := 0) (by omega), if_neg hcarry]
    exact Prod.ext rfl (add_zero e)

/-- What a mantissa of at most 53 bits, or the carried one, is made into. -/
theorem canonical_of_mantissa (s : Sign) {r : Nat} {t : ℤ} (hr : r ≤ 2 ^ 53) (ht : -1074 ≤ t)
    (hfull : 2 ^ 52 ≤ r ∨ t = -1074) {u : UnpackedFloat}
    (hu : u = let last := shiftToTargetExponent Format.binary64 r t .exact
      if h : last.1.mantissa = 0 then .zero s
      else .finite s last.1.mantissa last.2 (Nat.pos_of_ne_zero h)) :
    Canonical u ∧ u.isFinite = true ∧ valueOf u = (s.apply r : ℤ) * 2 ^ t := by
  rw [shiftToTargetExponent_of_le hr ht] at hu
  by_cases hcarry : r = 2 ^ 53
  · subst hcarry
    rw [if_pos rfl] at hu
    subst hu
    have hlt : 2 ^ 52 < 2 ^ 53 := by decide
    refine ⟨⟨hlt, by omega, .inl le_rfl⟩, rfl, ?_⟩
    show ((s.apply (2 ^ 52 : Nat) : ℤ) : ℚ) * 2 ^ (t + 1) = (s.apply (2 ^ 53 : Nat) : ℤ) * 2 ^ t
    rw [zpow_add_one₀ two_ne_zero]
    cases s <;> simp only [Sign.apply] <;> push_cast <;> ring
  · rw [if_neg hcarry] at hu
    by_cases hzero : r = 0
    · subst hzero
      subst hu
      refine ⟨trivial, rfl, ?_⟩
      show (0 : ℚ) = _
      cases s <;> simp [Sign.apply]
    · have hfinite : u = .finite s r t (Nat.pos_of_ne_zero hzero) := hu.trans (dif_neg hzero)
      subst hfinite
      exact ⟨⟨by omega, ht, hfull⟩, rfl, rfl⟩

theorem Sign.cast_apply (s : Sign) (n : ℤ) : ((s.apply n : ℤ) : ℚ) = (s.apply 1 : ℤ) * n := by
  cases s <;> simp [Sign.apply]

theorem Sign.apply_mul (s t : Sign) (x y : ℤ) : (s * t).apply (x * y) = s.apply x * t.apply y := by
  cases s <;> cases t
  · exact (neg_mul_neg x y).symm
  · exact (neg_mul x y).symm
  · exact (mul_neg x y).symm
  · rfl

theorem rounded_apply (s : Sign) (q : ℚ) :
    rounded ((s.apply 1 : ℤ) * q) = (s.apply 1 : ℤ) * rounded q := by
  cases s
  · simp [Sign.apply, rounded_neg]
  · simp [Sign.apply]

/-- **A mantissa is rounded to the nearest**, if it need not be shifted to the left. -/
theorem roundsTo_roundWithAccuracy (s : Sign) {m : Nat} (hm : 0 < m) {e : ℤ}
    (he : e ≤ scale (m * 2 ^ e)) :
    RoundsTo (roundWithAccuracy Format.binary64 s m e .exact) ((s.apply m : ℤ) * 2 ^ e) := by
  obtain ⟨k, hk⟩ := Int.eq_ofNat_of_zero_le (sub_nonneg.mpr he)
  set q : ℚ := m * 2 ^ e with hq
  have hpos : 0 < q := by positivity
  have hleast : -1074 ≤ scale q := le_max_right _ _
  have hscale : scale q = e + k := by omega
  have hfirst := shiftToTargetExponent_eq m e (k := k)
    (by rw [targetExponent_eq_scale hm, ← hq]; omega)
  -- the mantissa becomes the nearest number of last places
  set r := (ExtendedMantissa.ofMantissaAndAccuracy m .exact >>> k).roundedMantissa with hr
  have hround : (r : ℤ) = mantissa q := by
    have hrepresents := ((represents_exact m).shiftRight k).roundedMantissa_eq
    have hdiv : q / 2 ^ scale q = m / ((1 * 2 ^ k : Nat) : ℚ) := by
      rw [hq, hscale, zpow_add₀ two_ne_zero, zpow_natCast, mul_comm (m : ℚ),
        mul_div_mul_left _ _ (by positivity)]
      push_cast
      rw [one_mul]
    unfold mantissa
    rw [hdiv]
    exact hrepresents
  have hupper : r ≤ 2 ^ 53 := by
    have hle := mantissa_le_two_pow hpos
    rw [← hround] at hle
    exact_mod_cast hle
  have hlower : 2 ^ 52 ≤ r ∨ scale q = -1074 := by
    rcases hleast.eq_or_lt with hmin | hmin
    · exact .inr hmin.symm
    · have hle := two_pow_le_mantissa hpos hmin
      rw [← hround] at hle
      exact .inl (by exact_mod_cast hle)
  have hlast := canonical_of_mantissa s hupper hleast hlower (u := roundWithAccuracy
    Format.binary64 s m e .exact) (by
      unfold roundWithAccuracy
      rw [hfirst]
      dsimp only
      rw [← hscale, ← hr])
  refine ⟨hlast.1, hlast.2.1, hlast.2.2.trans ?_⟩
  rw [Sign.cast_apply s r, Sign.cast_apply s m, mul_assoc, mul_assoc, Int.cast_natCast m, ← hq,
    rounded_apply, rounded, hround]

/-! ### Sums, differences and products -/

theorem decreaseExponent_snd (m : Nat) (e t : ℤ) : (decreaseExponent m e t).2 = min e t := by
  show e - ((e - t).toNat : ℤ) = min e t
  omega

/-- A smaller exponent goes with a larger mantissa. -/
theorem decreaseExponent_value (m : Nat) (e t : ℤ) :
    ((decreaseExponent m e t).1 : ℚ) * 2 ^ min e t = m * 2 ^ e := by
  have hexponent : e = min e t + (e - t).toNat := by omega
  have hmantissa : (decreaseExponent m e t).1 = m * 2 ^ (e - t).toNat := Nat.shiftLeft_eq _ _
  rw [hmantissa]
  conv_rhs => rw [hexponent]
  rw [← two_pow_mul_zpow]
  push_cast
  ring

theorem roundsTo_round (s : Sign) {m : Nat} (hm : 0 < m) (e : ℤ) :
    RoundsTo (UnpackedFloat.round Format.binary64 s m e) ((s.apply m : ℤ) * 2 ^ e) := by
  set t := Format.binary64.targetExponent (totalExponent m e) with ht
  have hvalue := decreaseExponent_value m e t
  have hpos : 0 < (decreaseExponent m e t).1 := by
    have hlt : (0 : ℚ) < (decreaseExponent m e t).1 * 2 ^ min e t := by
      rw [hvalue]
      positivity
    exact_mod_cast pos_of_mul_pos_left hlt (by positivity)
  have hle : min e t ≤ scale ((decreaseExponent m e t).1 * 2 ^ min e t) := by
    rw [hvalue, ← targetExponent_eq_scale hm, ← ht]
    exact min_le_right e t
  have hround := roundsTo_roundWithAccuracy s hpos hle
  rw [Sign.cast_apply, mul_assoc, Int.cast_natCast, hvalue, ← decreaseExponent_snd m e t] at hround
  rw [Sign.cast_apply, mul_assoc]
  exact hround

theorem roundsTo_normalize (n e : ℤ) (s : Sign) :
    RoundsTo (UnpackedFloat.normalize Format.binary64 n e s) (n * 2 ^ e) := by
  unfold UnpackedFloat.normalize
  rcases lt_trichotomy n 0 with hneg | rfl | hpos
  · have hround := roundsTo_round .negative (m := (-n).toNat) (by omega) e
    have happly : Sign.negative.apply ((-n).toNat : ℤ) = n := by
      show -(((-n).toNat : ℤ)) = n
      omega
    rw [compare_lt_iff_lt.mpr hneg]
    rwa [happly] at hround
  · rw [compare_eq_iff_eq.mpr rfl]
    refine ⟨trivial, rfl, ?_⟩
    show (0 : ℚ) = _
    rw [Int.cast_zero, zero_mul, rounded_zero]
  · have hround := roundsTo_round .positive (m := n.toNat) (by omega) e
    have happly : Sign.positive.apply (n.toNat : ℤ) = n := by
      show ((n.toNat : ℤ)) = n
      omega
    rw [compare_gt_iff_gt.mpr hpos]
    rwa [happly] at hround

/-- A number rounds to itself. -/
theorem roundsTo_self {u : UnpackedFloat} (h : Canonical u) (hfinite : u.isFinite = true) :
    RoundsTo u (valueOf u) :=
  ⟨h, hfinite, (rounded_valueOf h hfinite).symm⟩

/-- A number over a smaller exponent. -/
theorem apply_decreaseExponent (s : Sign) {m : Nat} {e t : ℤ} (hm : 0 < m) (h : t ≤ e) :
    ((s.apply (decreaseExponent m e t).1 : ℤ) : ℚ) * 2 ^ t = valueOf (.finite s m e hm) := by
  have hvalue := decreaseExponent_value m e t
  rw [min_eq_right h] at hvalue
  show _ = ((s.apply m : ℤ) : ℚ) * 2 ^ e
  rw [Sign.cast_apply, mul_assoc, Int.cast_natCast, hvalue, ← mul_assoc, ← Int.cast_natCast m,
    ← Sign.cast_apply]

@[simp] theorem valueOf_zero (s : Sign) : valueOf (.zero s) = 0 := rfl

/-- **The sum of two numbers is rounded to the nearest.** -/
theorem roundsTo_add {a b : UnpackedFloat} (ha : Canonical a) (hb : Canonical b)
    (hfa : a.isFinite = true) (hfb : b.isFinite = true) :
    RoundsTo (UnpackedFloat.add Format.binary64 a b) (valueOf a + valueOf b) := by
  cases a with
  | infinity s => cases hfa
  | notANumber => cases hfa
  | zero s =>
      rw [valueOf_zero, zero_add]
      cases b with
      | infinity t => cases hfb
      | notANumber => cases hfb
      | zero t => cases s <;> cases t <;> exact roundsTo_self trivial rfl
      | finite t n f hn => exact roundsTo_self hb rfl
  | finite s m e hm =>
      cases b with
      | infinity t => cases hfb
      | notANumber => cases hfb
      | zero t =>
          rw [valueOf_zero, add_zero]
          exact roundsTo_self ha rfl
      | finite t n f hn =>
          -- the exact sum over the smaller exponent is what is rounded
          have hsum := roundsTo_normalize (s.apply (decreaseExponent m e (min e f)).1 +
            t.apply (decreaseExponent n f (min e f)).1) (min e f) .positive
          rw [Int.cast_add, add_mul, apply_decreaseExponent s hm (min_le_left e f),
            apply_decreaseExponent t hn (min_le_right e f)] at hsum
          exact hsum

theorem canonical_neg {a : UnpackedFloat} (h : Canonical a) : Canonical a.neg := by
  cases a <;> exact h

theorem isFinite_neg {a : UnpackedFloat} (h : a.isFinite = true) : a.neg.isFinite = true := by
  cases a <;> exact h

theorem valueOf_neg {a : UnpackedFloat} (h : a.isFinite = true) :
    valueOf a.neg = -valueOf a := by
  cases a with
  | infinity s => cases h
  | notANumber => cases h
  | zero s => exact neg_zero.symm
  | finite s m e hm =>
      cases s
      · show valueOf (.finite .positive m e hm) = _
        rw [valueOf_negative, valueOf_positive, neg_neg]
      · exact valueOf_negative m e hm

/-- Subtracting is adding the opposite number, also among zeros. -/
theorem sub_eq_add_of_isFinite {a b : UnpackedFloat} (hfa : a.isFinite = true)
    (hfb : b.isFinite = true) :
    UnpackedFloat.sub Format.binary64 a b = UnpackedFloat.add Format.binary64 a b.neg := by
  cases a with
  | infinity s => cases hfa
  | notANumber => cases hfa
  | zero s =>
      cases b with
      | infinity t => cases hfb
      | notANumber => cases hfb
      | zero t => rfl
      | finite t n f hn => rfl
  | finite s m e hm =>
      cases b with
      | infinity t => cases hfb
      | notANumber => cases hfb
      | zero t => rfl
      | finite t n f hn =>
          have hopposite : ∀ x : ℤ, (-t).apply x = -t.apply x := by
            intro x
            cases t
            · exact (neg_neg x).symm
            · rfl
          show UnpackedFloat.normalize _ (_ - _) _ _ = UnpackedFloat.normalize _ (_ + _) _ _
          rw [hopposite, ← Int.sub_eq_add_neg]

/-- **The difference of two numbers is rounded to the nearest.** -/
theorem roundsTo_sub {a b : UnpackedFloat} (ha : Canonical a) (hb : Canonical b)
    (hfa : a.isFinite = true) (hfb : b.isFinite = true) :
    RoundsTo (UnpackedFloat.sub Format.binary64 a b) (valueOf a - valueOf b) := by
  have hsum := roundsTo_add ha (canonical_neg hb) hfa (isFinite_neg hfb)
  rw [valueOf_neg hfb, ← sub_eq_add_neg] at hsum
  rw [sub_eq_add_of_isFinite hfa hfb]
  exact hsum

/-- The exact product of two mantissas need not be shifted to the left: it has at least 53 bits,
unless both exponents are the least. -/
theorem Parts.le_scale_mul {m n : Nat} {e f : ℤ} (hm : 0 < m) (hn : 0 < n) (ha : Parts m e)
    (hb : Parts n f) : e + f ≤ scale ((m * n : Nat) * 2 ^ (e + f)) := by
  have hfull : 2 ^ 52 ≤ m * n → 52 ≤ (m * n).log2 :=
    (Nat.le_log2 (Nat.mul_pos hm hn).ne').mpr
  rw [← targetExponent_eq_scale (Nat.mul_pos hm hn), targetExponent_eq]
  rcases ha.full with hm' | he
  · have hlog := hfull (hm'.trans (Nat.le_mul_of_pos_right m hn))
    omega
  · rcases hb.full with hn' | hf
    · have hlog := hfull (hn'.trans (Nat.le_mul_of_pos_left n hm))
      omega
    · omega

/-- **The product of two numbers is rounded to the nearest.** -/
theorem roundsTo_mul {a b : UnpackedFloat} (ha : Canonical a) (hb : Canonical b)
    (hfa : a.isFinite = true) (hfb : b.isFinite = true) :
    RoundsTo (UnpackedFloat.mul Format.binary64 a b) (valueOf a * valueOf b) := by
  cases a with
  | infinity s => cases hfa
  | notANumber => cases hfa
  | zero s =>
      rw [valueOf_zero, zero_mul]
      cases b with
      | infinity t => cases hfb
      | notANumber => cases hfb
      | zero t => exact roundsTo_self (u := .zero (s * t)) trivial rfl
      | finite t n f hn => exact roundsTo_self (u := .zero (s * t)) trivial rfl
  | finite s m e hm =>
      cases b with
      | infinity t => cases hfb
      | notANumber => cases hfb
      | zero t =>
          rw [valueOf_zero, mul_zero]
          exact roundsTo_self (u := .zero (s * t)) trivial rfl
      | finite t n f hn =>
          have hproduct := roundsTo_roundWithAccuracy (s * t) (Nat.mul_pos hm hn)
            (ha.le_scale_mul hm hn hb)
          have hexact : (((s * t).apply (m * n : Nat) : ℤ) : ℚ) * 2 ^ (e + f) =
              valueOf (.finite s m e hm) * valueOf (.finite t n f hn) := by
            rw [Nat.cast_mul, Sign.apply_mul, Int.cast_mul, zpow_add₀ two_ne_zero]
            exact mul_mul_mul_comm _ _ _ _
          rw [hexact] at hproduct
          exact hproduct

end Binary64

end FuzzyGates
