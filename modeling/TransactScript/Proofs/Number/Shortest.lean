import TransactScript.Number.Notation
import TransactScript.Proofs.Text.Numeral

/-! Rounding errs by half a unit at most. A number whose neighbours lie farther from it than a power of ten has
shortest digits that end before that power. -/

namespace TransactScript.Number

lemma roundQuotient_bounds (num den : Nat) (hden : 0 < den) :
    2 * num ≤ 2 * (roundQuotient num den * den) + den ∧ 2 * (roundQuotient num den * den) ≤ 2 * num + den := by
  have hdivision : num / den * den + num % den = num := Nat.div_add_mod' num den
  have hsucc : (num / den + 1) * den = num / den * den + den := Nat.succ_mul _ _
  have hlt : num % den < den := Nat.mod_lt _ hden
  simp only [roundQuotient]
  by_cases hdown : 2 * (num % den) < den
  · rw [if_pos hdown]
    omega
  · rw [if_neg hdown]
    by_cases hup : den < 2 * (num % den)
    · rw [if_pos hup]
      omega
    · rw [if_neg hup]
      rcases Nat.mod_two_eq_zero_or_one (num / den) with heven | hodd
      · rw [heven, Nat.add_zero]
        omega
      · rw [hodd]
        omega

namespace Interval

variable {i : Interval}

lemma bounds_of_holds {x : Nat} (h : i.holds x = true) : i.low ≤ x ∧ x ≤ i.high := by
  rw [holds] at h
  split at h
  · simpa using h
  · have hlt : i.low < x ∧ x < i.high := by simpa using h
    omega

lemma holds_of_between {x : Nat} (hlow : i.low < x) (hhigh : x < i.high) : i.holds x = true := by
  rw [holds]
  split
  · simp only [Bool.and_eq_true, decide_eq_true_eq]
    omega
  · simp only [Bool.and_eq_true, decide_eq_true_eq]
    omega

/-- Of the two multiples beside the centre one that the interval holds is taken, if there is one. -/
lemma nearest?_cases (tie : Tie) (i : Interval) :
    (∃ d, i.nearest? tie = some d ∧ i.holds (d * i.unit) = true) ∨
      i.nearest? tie = none ∧ i.holds (i.centre / i.unit * i.unit) = false ∧
        i.holds ((i.centre / i.unit + 1) * i.unit) = false := by
  simp only [nearest?]
  by_cases hdown : i.holds (i.centre / i.unit * i.unit) = true
  · by_cases hup : i.holds ((i.centre / i.unit + 1) * i.unit) = true
    · left
      rw [if_pos hdown, if_pos hup]
      split
      · exact ⟨_, rfl, hdown⟩
      · split
        · exact ⟨_, rfl, hup⟩
        · cases tie with
          | upward => exact ⟨_, rfl, hup⟩
          | toEven =>
            refine ⟨_, rfl, ?_⟩
            rcases Nat.mod_two_eq_zero_or_one (i.centre / i.unit) with heven | hodd
            · rwa [heven]
            · rwa [hodd]
    · left
      rw [if_pos hdown, if_neg hup]
      exact ⟨_, rfl, hdown⟩
  · rw [if_neg hdown]
    by_cases hup : i.holds ((i.centre / i.unit + 1) * i.unit) = true
    · left
      rw [if_pos hup]
      exact ⟨_, rfl, hup⟩
    · right
      rw [if_neg hup]
      exact ⟨rfl, Bool.eq_false_iff.mpr hdown, Bool.eq_false_iff.mpr hup⟩

lemma exists_nearest? (tie : Tie) (hunit : 0 < i.unit) (hlow : 2 * i.low + i.unit < 2 * i.centre)
    (hhigh : 2 * i.centre + i.unit < 2 * i.high) : ∃ d, i.nearest? tie = some d := by
  rcases nearest?_cases tie i with ⟨d, hd, _⟩ | ⟨_, hdown, hup⟩
  · exact ⟨d, hd⟩
  · have hdivision : i.centre / i.unit * i.unit + i.centre % i.unit = i.centre := Nat.div_add_mod' _ _
    have hsucc : (i.centre / i.unit + 1) * i.unit = i.centre / i.unit * i.unit + i.unit := Nat.succ_mul _ _
    have hlt : i.centre % i.unit < i.unit := Nat.mod_lt _ hunit
    -- the nearer of the two multiples is at most half a unit away
    by_cases hnear : 2 * (i.centre % i.unit) ≤ i.unit
    · have hholds : i.holds (i.centre / i.unit * i.unit) = true := holds_of_between (by omega) (by omega)
      rw [hdown] at hholds
      cases hholds
    · have hholds : i.holds ((i.centre / i.unit + 1) * i.unit) = true := holds_of_between (by omega) (by omega)
      rw [hup] at hholds
      cases hholds

end Interval

lemma coarsest_of_nearest? {tie : Tie} {i : Interval} {k' : Int} (h : ∃ d, (i.inPowers k').nearest? tie = some d)
    {k : Int} {steps : Nat} (hk : k' ≤ k) (hsteps : k < k' + steps) :
    k' ≤ (coarsest tie i k steps).exponent ∧ (i.inPowers (coarsest tie i k steps).exponent).holds
      ((coarsest tie i k steps).digits * (i.inPowers (coarsest tie i k steps).exponent).unit) = true := by
  induction steps generalizing k with
  | zero => omega
  | succ steps ih =>
    rw [coarsest]
    rcases Interval.nearest?_cases tie (i.inPowers k) with ⟨d, hn, hholds⟩ | ⟨hn, _⟩
    · rw [hn]
      exact ⟨hk, hholds⟩
    · rw [hn]
      have hne : k ≠ k' := by
        rintro rfl
        obtain ⟨d, hd⟩ := h
        rw [hn] at hd
        cases hd
      exact ih (by omega) (by omega)

lemma inPowers_natCast (i : Interval) (k : Nat) : i.inPowers k = { i with unit := i.unit * 10 ^ k } :=
  rfl

/-- The reals that round to a whole number, a multiple of two to the power `j + 2`. -/
lemma around_whole (f : Format) (m j : Nat) : ∃ low, Interval.around f m (j + 2 : Nat) =
      ⟨low, 4 * m * 2 ^ j, (4 * m + 2) * 2 ^ j, 1, m % 2 == 0⟩ ∧
    (4 * m - 2) * 2 ^ j ≤ low ∧ low ≤ (4 * m - 1) * 2 ^ j := by
  have hshift : ((j + 2 : Nat) - 2 : Int) = Int.ofNat j := by simp
  have hscale : Binary.ratio 1 (Int.ofNat j) = (2 ^ j, 1) := by
    rw [Binary.ratio, Nat.one_mul]
    rfl
  have hends : (4 * m - 2) * 2 ^ j ≤ (4 * m - 1) * 2 ^ j := Nat.mul_le_mul_right _ (by omega)
  by_cases hpower : m = Nat.pow 2 (f.precision - 1) ∧ f.least < (j + 2 : Nat)
  · refine ⟨(4 * m - 1) * 2 ^ j, ?_, hends, Nat.le_refl _⟩
    simp only [Interval.around, hshift, hscale, if_pos hpower]
  · refine ⟨(4 * m - 2) * 2 ^ j, ?_, Nat.le_refl _, hends⟩
    simp only [Interval.around, hshift, hscale, if_neg hpower]

/-- If half the gap to the next number is wider than half of ten to the power `p`, then the shortest digits of a
whole number end at that power or before it. -/
lemma shortest_of_whole (tie : Tie) {m j p : Nat} (hm : 0 < m) (hp : 10 ^ p < 2 ^ (j + 1))
    (hfirst : (p : Int) ≤ decimalBound (m.log2 + (j + 2 : Nat) + 1))
    (hlast : decimalBound (m.log2 + (j + 2 : Nat) + 1) < p + (53 : Nat)) :
    ∃ k digits : Nat, shortest .double tie m (j + 2 : Nat) = ⟨digits, k⟩ ∧ p ≤ k ∧
      (4 * m - 2) * 2 ^ j ≤ digits * 10 ^ k ∧ digits * 10 ^ k ≤ (4 * m + 2) * 2 ^ j := by
  obtain ⟨low, haround, hlow, hnear⟩ := around_whole .double m j
  have hnearest : ∃ d, ((Interval.around .double m (j + 2 : Nat)).inPowers p).nearest? tie = some d := by
    have hsub : (4 * m - 1) * 2 ^ j + 2 ^ j = 4 * m * 2 ^ j := by
      rw [← Nat.succ_mul]
      congr 1
      omega
    have hadd : (4 * m + 2) * 2 ^ j = 4 * m * 2 ^ j + 2 * 2 ^ j := Nat.add_mul _ _ _
    rw [Nat.pow_succ] at hp
    rw [haround, inPowers_natCast]
    apply Interval.exists_nearest?
    · exact Nat.mul_pos Nat.one_pos (Nat.pow_pos (by decide))
    · dsimp only
      omega
    · dsimp only
      omega
  obtain ⟨hexponent, hholds⟩ := coarsest_of_nearest? hnearest hfirst hlast
  cases hd : shortest .double tie m (j + 2 : Nat) with
  | mk digits exponent =>
    have hcoarsest : coarsest tie (Interval.around .double m (j + 2 : Nat))
        (decimalBound (m.log2 + (j + 2 : Nat) + 1)) 53 = ⟨digits, exponent⟩ := hd
    rw [hcoarsest] at hexponent hholds
    dsimp only at hexponent hholds
    obtain ⟨k, rfl⟩ := Int.eq_ofNat_of_zero_le (Int.le_trans (Int.natCast_nonneg p) hexponent)
    rw [haround, inPowers_natCast] at hholds
    obtain ⟨habove, hbelow⟩ := Interval.bounds_of_holds hholds
    dsimp only at habove hbelow
    rw [Nat.one_mul] at habove hbelow
    exact ⟨k, digits, rfl, by omega, by omega, hbelow⟩

lemma positional_of_natCast {digits : Nat} (h : 0 < digits) (k : Nat) :
    Decimal.positional ⟨digits, k⟩ = Text.numeral (digits * 10 ^ k) := by
  rw [Text.numeral, Text.toDigits_mul_pow h]
  rfl

/-- A number of 64 bits of which the first is set. It may round to two to the power 64. -/
lemma round_word {n : Nat} (hlow : 2 ^ 63 ≤ n) (hhigh : n < 2 ^ 64) :
    ∃ m j : Nat, Format.double.round false n 1 = .finite false m (j + 2 : Nat) ∧
      (j = 9 ∨ j = 10) ∧ 0 < m ∧ m.log2 = 52 ∧
      m * 2 ^ (j + 2) ≤ n + 2 ^ 10 ∧ n ≤ m * 2 ^ (j + 2) + 2 ^ 10 := by
  have hne : n ≠ 0 := by omega
  have hlog : n.log2 = 63 := (Nat.log2_eq_iff hne).mpr ⟨hlow, hhigh⟩
  have horder : Format.binaryOrder n 1 = 63 := by
    have hlog' : ((63 : Nat) : Int) - (Nat.log2 1 : Int) = 63 := by decide
    have hshift : shiftedDown n 1 63 = (n, 2 ^ 63) := rfl
    simp only [Format.binaryOrder, hlog, hlog', hshift, if_pos hlow]
  have hexponent : max Format.double.least (Format.binaryOrder n 1 - (Format.double.precision - 1 : Nat)) = 11 := by
    rw [horder]
    rfl
  have hshift : shiftedDown n 1 11 = (n, 2 ^ 11) := rfl
  obtain ⟨hbelow, habove⟩ := roundQuotient_bounds n (2 ^ 11) (by decide)
  simp only [Format.round, if_neg hne, hexponent, hshift]
  by_cases hcarry : roundQuotient n (2 ^ 11) = Nat.pow 2 Format.double.precision
  · have hpower : Nat.pow 2 Format.double.precision = 2 ^ 53 := rfl
    rw [hpower] at hcarry
    rw [hcarry] at hbelow habove
    refine ⟨2 ^ 52, 10, ?_, .inr rfl, by decide, ?_, by omega, by omega⟩
    · rw [if_pos (hcarry.trans hpower.symm)]
      rfl
    · decide
  · have hpower : Nat.pow 2 Format.double.precision = 2 ^ 53 := rfl
    refine ⟨roundQuotient n (2 ^ 11), 9, ?_, .inl rfl, by omega, ?_, by omega, by omega⟩
    · rw [if_neg hcarry]
      rfl
    · rw [hpower] at hcarry
      exact (Nat.log2_eq_iff (by omega)).mpr ⟨by omega, by omega⟩

/-- The shortest digits of such a number end three places or more before its unit. -/
lemma positional?_word {n : Nat} (hlow : 2 ^ 63 ≤ n) (hhigh : n < 2 ^ 64) :
    ∃ shown : Nat, (Format.double.round false n 1).positional? .double = some (Text.numeral shown) ∧
      1000 ∣ shown ∧ shown < n + 2 ^ 12 ∧ n < shown + 2 ^ 12 := by
  obtain ⟨m, j, hround, hj, hm, hlog, hbelow, habove⟩ := round_word hlow hhigh
  have hbound : (3 : Int) ≤ decimalBound (m.log2 + (j + 2 : Nat) + 1) ∧
      decimalBound (m.log2 + (j + 2 : Nat) + 1) < 3 + (53 : Nat) := by
    rw [hlog]
    rcases hj with rfl | rfl
    · decide
    · decide
  have hgap : 10 ^ 3 < 2 ^ (j + 1) := by
    rcases hj with rfl | rfl
    · decide
    · decide
  obtain ⟨k, digits, hshortest, hk, hleast, hgreatest⟩ := shortest_of_whole .upward hm hgap hbound.1 hbound.2
  have hspread : m * 2 ^ (j + 2) = 4 * m * 2 ^ j ∧ 2 * 2 ^ j ≤ 2 ^ 11 ∧
      (4 * m - 2) * 2 ^ j + 2 * 2 ^ j = 4 * m * 2 ^ j ∧ (4 * m + 2) * 2 ^ j = 4 * m * 2 ^ j + 2 * 2 ^ j := by
    rcases hj with rfl | rfl
    · omega
    · omega
  have hdigits : 0 < digits := by
    apply Nat.pos_of_mul_pos_right (b := 10 ^ k)
    omega
  refine ⟨digits * 10 ^ k, ?_, ?_, by omega, by omega⟩
  · rw [hround, Binary.positional?, hshortest, positional_of_natCast hdigits, if_neg (Nat.ne_of_gt hm)]
    rfl
  · have hdvd : 10 ^ 3 ∣ 10 ^ k := Nat.pow_dvd_pow 10 hk
    exact Nat.dvd_trans hdvd (Nat.dvd_mul_left _ _)

end TransactScript.Number
