import Mathlib.Algebra.Ring.Nat
import TransactScript.Text.Numeral

/-! Numerals are read back: those of base ten digit by digit, octets by two digits of base sixteen each. -/

namespace TransactScript.Text

section Digits

variable {cs : List Char}

lemma hexValue?_of_isDigit {c : Char} (h : c.isDigit = true) : hexValue? c = some (c.toNat - '0'.toNat) := by
  simp only [Char.isDigit, Bool.and_eq_true, decide_eq_true_eq] at h
  have hrange : '0' ≤ c ∧ c ≤ '9' := h
  rw [hexValue?, if_pos hrange]

lemma digit_lt {c : Char} (h : c.isDigit = true) : c.toNat - '0'.toNat < 10 := by
  simp only [Char.isDigit, Bool.and_eq_true, decide_eq_true_eq, ge_iff_le, UInt32.le_iff_toNat_le] at h
  change 48 ≤ c.toNat ∧ c.toNat ≤ 57 at h
  change c.toNat - 48 < 10
  omega

lemma isDigit_toDigits (n : Nat) : ∀ c ∈ Nat.toDigits 10 n, c.isDigit = true :=
  fun _ hc => Nat.isDigit_of_mem_toDigits (by decide) (by decide) hc

lemma toDigits_eq_cons (n : Nat) : ∃ c cs, Nat.toDigits 10 n = c :: cs ∧ ∀ d ∈ c :: cs, d.isDigit = true := by
  obtain ⟨c, cs, h⟩ := List.exists_cons_of_ne_nil (Nat.toDigits_ne_nil (n := n) (b := 10))
  exact ⟨c, cs, h, h ▸ isDigit_toDigits n⟩

lemma natural?_of_ne_nil (base : Nat) (hne : cs ≠ []) : natural? base cs =
    cs.foldlM (fun n c => (hexValue? c).bind fun d => if d < base then some (n * base + d) else none) 0 := by
  cases cs with
  | nil => exact (hne rfl).elim
  | cons c cs => rfl

lemma foldlM_digits (h : ∀ c ∈ cs, c.isDigit = true) (n : Nat) :
    cs.foldlM (fun n c => (hexValue? c).bind fun d => if d < 10 then some (n * 10 + d) else none) n =
      some (Nat.ofDigitChars 10 cs n) := by
  induction cs generalizing n with
  | nil => rfl
  | cons c cs ih =>
    have hc : c.isDigit = true := h c List.mem_cons_self
    have hstep : ((hexValue? c).bind fun d => if d < 10 then some (n * 10 + d) else none) =
        some (10 * n + (c.toNat - '0'.toNat)) := by
      rw [hexValue?_of_isDigit hc, Option.bind_some, if_pos (digit_lt hc), Nat.mul_comm n 10]
    rw [List.foldlM_cons, hstep, Nat.ofDigitChars_cons]
    exact ih (fun d hd => h d (List.mem_cons_of_mem _ hd)) _

lemma natural?_toDigits (n : Nat) : natural? 10 (Nat.toDigits 10 n) = some n := by
  rw [natural?_of_ne_nil 10 Nat.toDigits_ne_nil, foldlM_digits (isDigit_toDigits n),
    Nat.ofDigitChars_toDigits (by decide) (by decide)]

lemma numeral_injective : Function.Injective numeral := by
  intro m n h
  have hdigits : Nat.toDigits 10 m = Nat.toDigits 10 n := String.ofList_injective h
  apply Option.some.inj
  rw [← natural?_toDigits m, hdigits, natural?_toDigits]

lemma toDigits_mul_pow {n : Nat} (hn : 0 < n) (k : Nat) :
    Nat.toDigits 10 (n * 10 ^ k) = Nat.toDigits 10 n ++ List.replicate k '0' := by
  induction k with
  | zero => rw [Nat.pow_zero, Nat.mul_one, List.replicate_zero, List.append_nil]
  | succ k ih =>
    have hpos : 0 < n * 10 ^ k := Nat.mul_pos hn (Nat.pow_pos (by decide))
    have hten : n * 10 ^ (k + 1) = 10 * (n * 10 ^ k) + 0 := by
      rw [Nat.pow_succ, Nat.add_zero, Nat.mul_comm 10, Nat.mul_assoc]
    have hzero : Nat.toDigits 10 0 = ['0'] := rfl
    rw [hten, ← Nat.toDigits_append_toDigits (by decide) hpos (by decide), ih, hzero, List.append_assoc,
      List.replicate_succ']

lemma head_toDigits_ne_zero {n : Nat} (hn : 0 < n) : (Nat.toDigits 10 n).head? ≠ some '0' := by
  induction n using Nat.strongRecOn with
  | ind n ih =>
    rw [Nat.toDigits_eq_if (by decide)]
    by_cases hlt : n < 10
    · rw [if_pos hlt, List.head?_cons, ne_eq, Option.some.injEq, Nat.digitChar_eq_zero]
      omega
    · obtain ⟨c, cs, hcs, _⟩ := toDigits_eq_cons (n / 10)
      have hhead := ih (n / 10) (by omega) (by omega)
      rw [hcs] at hhead
      rw [if_neg hlt, hcs]
      exact hhead

end Digits

section Integers

def integer? : List Char → Option Int
  | '-' :: cs => (natural? 10 cs).map fun n => -(n : Int)
  | cs => (natural? 10 cs).map Int.ofNat

lemma toList_signedNumeral_ofNat (n : Nat) : (signedNumeral (.ofNat n)).toList = Nat.toDigits 10 n := by
  rw [signedNumeral, numeral, String.toList_ofList]

lemma toList_signedNumeral_negSucc (n : Nat) :
    (signedNumeral (.negSucc n)).toList = '-' :: Nat.toDigits 10 (n + 1) := by
  simp [signedNumeral, numeral]

lemma signedNumeral_eq (i : Int) :
    signedNumeral i = (if i < 0 then "-" else "") ++ String.ofList (Nat.toDigits 10 i.natAbs) := by
  cases i with
  | ofNat n =>
    have hsign : ¬ Int.ofNat n < 0 := Int.not_lt.mpr (Int.natCast_nonneg n)
    rw [if_neg hsign, String.empty_append]
    rfl
  | negSucc n =>
    rw [if_pos (Int.negSucc_lt_zero n)]
    rfl

lemma integer?_signedNumeral (i : Int) : integer? (signedNumeral i).toList = some i := by
  cases i with
  | ofNat n =>
    obtain ⟨c, cs, hcs, hdigit⟩ := toDigits_eq_cons n
    have hc : c ≠ '-' := by
      rintro rfl
      cases hdigit _ List.mem_cons_self
    have hread : natural? 10 (c :: cs) = some n := hcs ▸ natural?_toDigits n
    rw [toList_signedNumeral_ofNat, hcs]
    simp [integer?, hc, hread]
  | negSucc n =>
    rw [toList_signedNumeral_negSucc]
    simp [integer?, natural?_toDigits, Int.negSucc_eq]

end Integers

section Octets

def octets? : List Char → Option (List UInt8)
  | [] => some []
  | [_] => none
  | high :: low :: cs => do
      let n ← natural? 16 [high, low]
      let rest ← octets? cs
      pure (UInt8.ofNat n :: rest)

variable {digit : Nat → Char}

lemma natural?_octetDigits (hdigit : ∀ n < 16, hexValue? (digit n) = some n) (b : UInt8) :
    natural? 16 (octetDigits digit b) = some b.toNat := by
  have hb : b.toNat < 256 := b.toNat_lt
  have hhigh : b.toNat / 16 < 16 := by omega
  have hlow : b.toNat % 16 < 16 := by omega
  rw [octetDigits, natural?_of_ne_nil 16 (List.cons_ne_nil _ _)]
  simp only [List.foldlM_cons, List.foldlM_nil, hdigit _ hhigh, hdigit _ hlow, Option.bind_some, if_pos hhigh,
    if_pos hlow, Option.bind_eq_bind, Option.pure_def, Option.some.injEq]
  omega

lemma octets?_flatMap (hdigit : ∀ n < 16, hexValue? (digit n) = some n) (octets : List UInt8) :
    octets? (octets.flatMap (octetDigits digit)) = some octets := by
  induction octets with
  | nil => rfl
  | cons b octets ih =>
    have hb := natural?_octetDigits hdigit b
    rw [octetDigits] at hb
    rw [List.flatMap_cons, octetDigits]
    simp only [List.cons_append, List.nil_append, octets?, hb, ih, Option.bind_eq_bind, Option.bind_some,
      Option.pure_def, UInt8.ofNat_toNat]

lemma length_flatMap_octetDigits (octets : List UInt8) :
    (octets.flatMap (octetDigits digit)).length = 2 * octets.length := by
  induction octets with
  | nil => rfl
  | cons b octets ih =>
    rw [List.flatMap_cons, List.length_append, ih, octetDigits, List.length_cons, List.length_cons,
      List.length_cons, List.length_nil]
    omega

lemma mem_flatMap_octetDigits {c : Char} {octets : List UInt8} (h : c ∈ octets.flatMap (octetDigits digit)) :
    ∃ n < 16, c = digit n := by
  obtain ⟨b, _, hc⟩ := List.mem_flatMap.mp h
  have hb : b.toNat < 256 := b.toNat_lt
  simp only [octetDigits, List.mem_cons, List.not_mem_nil, or_false] at hc
  rcases hc with rfl | rfl
  · exact ⟨_, by omega, rfl⟩
  · exact ⟨_, by omega, rfl⟩

end Octets

end TransactScript.Text
