import TransactScript.Literal.OfJson
import TransactScript.Proofs.Json.Integer
import TransactScript.Proofs.Number.Shortest

/-! A whole number of JSON text keeps its digits if it has 64 bits together with the sign. A greater one goes
through the nearest floating-point number, and the digits of that one are written. -/

namespace TransactScript

open Number Text

namespace Literal

lemma ofJson_of_signed {i : Int} (hlow : -2 ^ 63 ≤ i) (hhigh : i < 2 ^ 63) : ofJson (.integer i) = int i := by
  have hrange : leastInteger ≤ i ∧ i ≤ greatestInteger := by
    simp only [leastInteger, greatestInteger]
    omega
  exact if_pos hrange

lemma ofJson_of_greater {n : Nat} (hlow : 2 ^ 63 ≤ n) :
    ofJson (.integer n) = float (Format.double.round false n 1) := by
  have hrange : ¬ (leastInteger ≤ (n : Int) ∧ (n : Int) ≤ greatestInteger) := by
    simp only [leastInteger, greatestInteger]
    omega
  have hsign : decide ((n : Int) < 0) = false := by
    rw [decide_eq_false_iff_not]
    omega
  rw [ofJson, if_neg hrange, hsign]
  rfl

lemma sql_of_greater {n : Nat} (hlow : 2 ^ 63 ≤ n) (hhigh : n < 2 ^ 64) :
    ∃ shown : Nat, (ofJson (.integer n)).sql = numeral shown ∧
      1000 ∣ shown ∧ shown < n + 2 ^ 12 ∧ n < shown + 2 ^ 12 := by
  obtain ⟨shown, htext, hnear⟩ := positional?_word hlow hhigh
  refine ⟨shown, ?_, hnear⟩
  rw [ofJson_of_greater hlow, sql, htext]
  rfl

end Literal

theorem integers_of_json (i : Int) :
    ((∃ s, Json.parse? s = some (.integer i)) ↔ -2 ^ 63 ≤ i ∧ i < 2 ^ 64) ∧
    (-2 ^ 63 ≤ i → i < 2 ^ 63 → (Literal.ofJson (.integer i)).sql =
      (if i < 0 then "-" else "") ++ String.ofList (Nat.toDigits 10 i.natAbs)) ∧
    (2 ^ 63 ≤ i → i < 2 ^ 64 → ∃ shown : Nat,
      (Literal.ofJson (.integer i)).sql = String.ofList (Nat.toDigits 10 shown) ∧
      1000 ∣ shown ∧ shown < i + 2 ^ 12 ∧ i < shown + 2 ^ 12 ∧
      ((Literal.ofJson (.integer i)).sql = String.ofList (Nat.toDigits 10 i.natAbs) ↔ (shown : Int) = i)) := by
  refine ⟨⟨?_, ?_⟩, fun hlow hhigh => ?_, fun hlow hhigh => ?_⟩
  · rintro ⟨s, h⟩
    exact Json.range_of_parse? h
  · rintro ⟨hlow, hhigh⟩
    exact ⟨signedNumeral i, Json.parse?_signedNumeral hlow hhigh⟩
  · rw [Literal.ofJson_of_signed hlow hhigh]
    exact signedNumeral_eq i
  · obtain ⟨n, rfl⟩ := Int.eq_ofNat_of_zero_le (show 0 ≤ i by omega)
    obtain ⟨shown, htext, hdvd, hbelow, habove⟩ := Literal.sql_of_greater (n := n) (by omega) (by omega)
    refine ⟨shown, htext, hdvd, by omega, by omega, ?_⟩
    rw [htext, Int.natAbs_natCast, Int.natCast_inj]
    exact numeral_injective.eq_iff

theorem greatest_word_of_json :
    Json.parse? "18446744073709551615" = some (.integer 18446744073709551615) ∧
      (Literal.ofJson (.integer 18446744073709551615)).sql = "18446744073709552000" ∧
      (Literal.ofJson (.integer 18446744073709551615)).sql ≠ "18446744073709551615" := by
  have htext : signedNumeral 18446744073709551615 = "18446744073709551615" := by decide +kernel
  refine ⟨?_, ?_, ?_⟩
  · rw [← htext]
    exact Json.parse?_signedNumeral (by decide) (by decide)
  · decide +kernel
  · decide +kernel

end TransactScript
