import Mathlib.Algebra.Group.Int.Defs
import Mathlib.Data.List.TakeWhile
import TransactScript.Json.Reader
import TransactScript.Proofs.Text.Legible
import TransactScript.Proofs.Text.Numeral

/-! The whole numbers that JSON text can hold as such are those of 64 bits, with a sign or without one. Each is read
from its own numeral. -/

namespace TransactScript.Json

open Text

section Words

lemma absorb_lt {n : Nat} (h : n < wordSize) (ds : List Nat) : (absorb n ds).1 < wordSize := by
  induction ds generalizing n with
  | nil => exact h
  | cons d ds ih =>
    rw [absorb]
    by_cases hd : n * 10 + d < wordSize
    · rw [if_pos hd]
      exact ih hd
    · rw [if_neg hd]
      exact h

lemma le_ofDigitChars (cs : List Char) (n : Nat) : n ≤ Nat.ofDigitChars 10 cs n := by
  induction cs generalizing n with
  | nil => exact Nat.le_refl n
  | cons c cs ih =>
    rw [Nat.ofDigitChars_cons]
    have hnext := ih (10 * n + (c.toNat - '0'.toNat))
    omega

lemma absorb_digits {cs : List Char} {n : Nat} (h : Nat.ofDigitChars 10 cs n < wordSize) :
    absorb n (cs.map fun c => c.toNat - '0'.toNat) = (Nat.ofDigitChars 10 cs n, []) := by
  induction cs generalizing n with
  | nil => rfl
  | cons c cs ih =>
    rw [Nat.ofDigitChars_cons] at h ⊢
    have hnext : n * 10 + (c.toNat - '0'.toNat) = 10 * n + (c.toNat - '0'.toNat) := by
      rw [Nat.mul_comm]
    have hlt : 10 * n + (c.toNat - '0'.toNat) < wordSize := Nat.lt_of_le_of_lt (le_ofDigitChars cs _) h
    rw [List.map_cons, absorb, hnext, if_pos hlt]
    exact ih h

def digitValues (n : Nat) : List Nat :=
  (Nat.toDigits 10 n).map fun c => c.toNat - '0'.toNat

lemma absorb_digitValues {n : Nat} (h : n < wordSize) : absorb 0 (digitValues n) = (n, []) := by
  have hvalue : Nat.ofDigitChars 10 (Nat.toDigits 10 n) 0 = n := Nat.ofDigitChars_toDigits (by decide) (by decide)
  have habsorb := absorb_digits (hvalue.symm ▸ h)
  rwa [hvalue] at habsorb

end Words

namespace Numeral

lemma value_of_unsigned {n : Nat} (h : n < wordSize) : value ⟨false, digitValues n, [], none⟩ = integer n := by
  simp [value, absorb_digitValues h]

lemma value_of_negative {n : Nat} (hpos : 0 < n) (h : 2 * n ≤ wordSize) :
    value ⟨true, digitValues n, [], none⟩ = integer (-n) := by
  have hlt : n < wordSize := by omega
  simp [value, absorb_digitValues hlt, hpos, h]

lemma range_of_value {n : Numeral} {i : Int} (h : n.value = integer i) : -2 ^ 63 ≤ i ∧ i < 2 ^ 64 := by
  have hword : (absorb 0 n.whole).1 < wordSize := absorb_lt (by decide) n.whole
  have hsize : wordSize = 2 ^ 64 := rfl
  simp only [value] at h
  split at h
  · obtain rfl := integer.inj h
    omega
  · split at h
    · next hnegative =>
      obtain rfl := integer.inj h
      simp only [Bool.and_eq_true, decide_eq_true_eq] at hnegative
      omega
    · split at h
      · cases h
      · cases h

end Numeral

section Numerals

variable {rest : List Char}

/-- No number goes on with this text. -/
def EndsNumber (rest : List Char) : Prop :=
  Stops (fun c => c.isDigit || c ∈ ['.', 'e', 'E']) rest

lemma fraction?_of_ends (h : EndsNumber rest) : fraction? rest = some ([], rest) := by
  cases rest with
  | nil => rfl
  | cons c rest =>
    have hc : c ≠ '.' := by
      rintro rfl
      cases stops_cons.mp h
    simp [fraction?, hc]

lemma exponent?_of_ends (h : EndsNumber rest) : exponent? rest = some (none, rest) := by
  cases rest with
  | nil => rfl
  | cons c rest =>
    have hc : ¬ (c = 'e' ∨ c = 'E') := by
      rintro (rfl | rfl)
      · cases stops_cons.mp h
      · cases stops_cons.mp h
    simp only [exponent?.eq_def, if_neg hc]

lemma digits_toDigits (n : Nat) (h : EndsNumber rest) :
    digits (Nat.toDigits 10 n ++ rest) = (digitValues n, rest) := by
  have hstop : Stops Char.isDigit rest := fun c hc => (Bool.or_eq_false_iff.mp (h c hc)).1
  have hrest : rest.dropWhile Char.isDigit = rest := by
    have hsplit := List.takeWhile_append_dropWhile (p := Char.isDigit) (l := rest)
    rwa [takeWhile_of_stops hstop, List.nil_append] at hsplit
  rw [digits, List.takeWhile_append_of_pos (isDigit_toDigits n), List.dropWhile_append_of_pos (isDigit_toDigits n),
    takeWhile_of_stops hstop, hrest, List.append_nil]
  rfl

lemma digitValues_of_pos {n : Nat} (h : 0 < n) : ∃ d ds, digitValues n = d :: ds ∧ d ≠ 0 := by
  obtain ⟨c, cs, hcs, hdigit⟩ := toDigits_eq_cons n
  refine ⟨c.toNat - '0'.toNat, cs.map fun c => c.toNat - '0'.toNat, by rw [digitValues, hcs, List.map_cons], ?_⟩
  have hne : c ≠ '0' := by
    have hhead := head_toDigits_ne_zero h
    rw [hcs] at hhead
    simpa using hhead
  intro hzero
  apply hne
  have hc : '0' ≤ c ∧ c ≤ '9' := by
    have hd : c.isDigit = true := hdigit c List.mem_cons_self
    simp only [Char.isDigit, Bool.and_eq_true, decide_eq_true_eq] at hd
    exact hd
  have hle : '0'.toNat ≤ c.toNat := UInt32.le_iff_toNat_le.mp hc.1
  exact Char.toNat_inj.mp (by omega)

lemma whole?_toDigits (n : Nat) (h : EndsNumber rest) :
    whole? (Nat.toDigits 10 n ++ rest) = some (digitValues n, rest) := by
  rw [whole?, digits_toDigits n h]
  rcases Nat.eq_zero_or_pos n with rfl | hpos
  · rfl
  · obtain ⟨d, ds, hds, hd⟩ := digitValues_of_pos hpos
    rw [hds]
    simp [hd]

lemma unsigned?_toDigits (negative : Bool) (n : Nat) (h : EndsNumber rest) :
    unsigned? negative (Nat.toDigits 10 n ++ rest) =
      some ((Numeral.mk negative (digitValues n) [] none).value, rest) := by
  rw [unsigned?, whole?_toDigits n h]
  simp only [Option.bind_eq_bind, Option.bind_some, fraction?_of_ends h, exponent?_of_ends h, Option.pure_def]

lemma number?_toDigits {n : Nat} (hn : n < wordSize) (h : EndsNumber rest) :
    number? (Nat.toDigits 10 n ++ rest) = some (integer n, rest) := by
  obtain ⟨c, cs, hcs, hdigit⟩ := toDigits_eq_cons n
  have hc : c ≠ '-' := by
    rintro rfl
    cases hdigit _ List.mem_cons_self
  have hread := unsigned?_toDigits false n h
  rw [Numeral.value_of_unsigned hn, hcs] at hread
  rw [hcs]
  simpa [number?, hc] using hread

lemma number?_negative {n : Nat} (hpos : 0 < n) (hn : 2 * n ≤ wordSize) (h : EndsNumber rest) :
    number? ('-' :: Nat.toDigits 10 n ++ rest) = some (integer (-n), rest) := by
  rw [List.cons_append, number?, unsigned?_toDigits true n h, Numeral.value_of_negative hpos hn]

lemma skipSpace_cons {c : Char} (h : isSpace c = false) (cs : List Char) : skipSpace (c :: cs) = c :: cs := by
  rw [skipSpace, List.dropWhile_cons, h, if_neg Bool.false_ne_true]

lemma isSpace_of_number {c : Char} (hc : c.isDigit = true ∨ c = '-') : isSpace c = false := by
  rw [← Bool.not_eq_true]
  intro hs
  simp only [isSpace, Bool.or_eq_true, beq_iff_eq] at hs
  rcases hs with ((rfl | rfl) | rfl) | rfl <;> rcases hc with hc | hc <;> cases hc

lemma value?_number {c : Char} (hc : c.isDigit = true ∨ c = '-') (fuel : Nat) (cs : List Char) :
    value? (fuel + 1) (c :: cs) = number? (c :: cs) := by
  have hno {d : Char} {ds : List Char} (he : c :: cs = d :: ds) (hd : d.isDigit = false) (hm : d ≠ '-') : False := by
    obtain rfl : c = d := List.head_eq_of_cons_eq he
    rcases hc with hc | hc
    · rw [hd] at hc
      cases hc
    · exact hm hc
  rw [value?, skipSpace_cons (isSpace_of_number hc)]
  split
  · next he => exact (hno he rfl (by decide)).elim
  · next he => exact (hno he rfl (by decide)).elim
  · next he => exact (hno he rfl (by decide)).elim
  · next he => exact (hno he rfl (by decide)).elim
  · next he => exact (hno he rfl (by decide)).elim
  · next he => exact (hno he rfl (by decide)).elim
  · rfl

lemma value?_signedNumeral {i : Int} (hlow : -2 ^ 63 ≤ i) (hhigh : i < 2 ^ 64) (fuel : Nat) (h : EndsNumber rest) :
    value? (fuel + 1) ((signedNumeral i).toList ++ rest) = some (integer i, rest) := by
  have hsize : wordSize = 2 ^ 64 := rfl
  cases i with
  | ofNat n =>
    have hn : n < wordSize := by
      rw [Int.ofNat_eq_natCast] at hhigh
      omega
    have hread := number?_toDigits hn h
    obtain ⟨c, cs, hcs, hdigit⟩ := toDigits_eq_cons n
    rw [toList_signedNumeral_ofNat, hcs, List.cons_append, value?_number (.inl (hdigit c List.mem_cons_self)),
      ← List.cons_append, ← hcs, hread]
    rfl
  | negSucc n =>
    have hn : 2 * (n + 1) ≤ wordSize := by
      omega
    rw [toList_signedNumeral_negSucc, List.cons_append, value?_number (.inr rfl), ← List.cons_append,
      number?_negative (Nat.succ_pos n) hn h, Int.negSucc_eq]
    rfl

lemma parse?_signedNumeral {i : Int} (hlow : -2 ^ 63 ≤ i) (hhigh : i < 2 ^ 64) :
    parse? (signedNumeral i) = some (integer i) := by
  have hread := value?_signedNumeral hlow hhigh (2 * (signedNumeral i).toList.length + 1) (stops_nil : EndsNumber [])
  rw [List.append_nil] at hread
  simp only [parse?, hread]
  rfl

end Numerals

section Range

variable {i : Int} {cs rest : List Char}

lemma range_of_unsigned? {negative : Bool} (h : unsigned? negative cs = some (integer i, rest)) :
    -2 ^ 63 ≤ i ∧ i < 2 ^ 64 := by
  obtain ⟨⟨whole, cs₁⟩, _, h⟩ := Option.bind_eq_some_iff.mp h
  obtain ⟨⟨fraction, cs₂⟩, _, h⟩ := Option.bind_eq_some_iff.mp h
  obtain ⟨⟨exponent, cs₃⟩, _, h⟩ := Option.bind_eq_some_iff.mp h
  exact Numeral.range_of_value (congrArg Prod.fst (Option.some.inj h))

lemma range_of_number? (h : number? cs = some (integer i, rest)) : -2 ^ 63 ≤ i ∧ i < 2 ^ 64 := by
  rw [number?.eq_def] at h
  split at h
  · exact range_of_unsigned? h
  · exact range_of_unsigned? h

lemma range_of_value? {fuel : Nat} (h : value? fuel cs = some (integer i, rest)) : -2 ^ 63 ≤ i ∧ i < 2 ^ 64 := by
  cases fuel with
  | zero => cases h
  | succ fuel =>
    rw [value?] at h
    split at h
    · cases h
    · cases h
    · cases h
    · obtain ⟨⟨s, tail⟩, _, h⟩ := Option.bind_eq_some_iff.mp h
      cases s <;> cases h
    · split at h
      · cases h
      · obtain ⟨_, _, h⟩ := Option.bind_eq_some_iff.mp h
        cases h
    · split at h
      · cases h
      · obtain ⟨⟨entries, tail⟩, _, h⟩ := Option.bind_eq_some_iff.mp h
        have hentries : ofEntries entries = integer i := congrArg Prod.fst (Option.some.inj h)
        rw [ofEntries] at hentries
        split at hentries <;> cases hentries
    · exact range_of_number? h

lemma range_of_parse? {s : String} (h : parse? s = some (integer i)) : -2 ^ 63 ≤ i ∧ i < 2 ^ 64 := by
  rw [parse?] at h
  cases hv : value? (2 * s.toList.length + 2) s.toList with
  | none => simp [hv] at h
  | some read =>
    obtain ⟨j, tail⟩ := read
    simp only [hv] at h
    split at h
    · obtain rfl := Option.some.inj h
      exact range_of_value? hv
    · cases h

end Range

end TransactScript.Json
