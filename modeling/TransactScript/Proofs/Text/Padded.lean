import Mathlib.Data.List.Forall2
import Mathlib.Data.String.Basic
import TransactScript.Proofs.Text.Numeral

/-! Numerals of a fixed width. They are read back, they fit their layout, and texts that start with them are in the
order of the numbers. -/

namespace TransactScript.Text

def padded (width n : Nat) : List Char :=
  (paddedNumeral width n).toList

lemma padded_eq (width n : Nat) : padded width n =
    List.replicate (width - (Nat.toDigits 10 n).length) '0' ++ Nat.toDigits 10 n := by
  rw [padded, paddedNumeral, String.toList_ofList]

lemma isDigit_padded (width n : Nat) : ∀ c ∈ padded width n, c.isDigit = true := by
  intro c hc
  rw [padded_eq, List.mem_append] at hc
  rcases hc with hc | hc
  · rw [List.eq_of_mem_replicate hc]
    rfl
  · exact isDigit_toDigits n c hc

lemma natural?_padded (width n : Nat) : natural? 10 (padded width n) = some n := by
  have hne : padded width n ≠ [] := by
    rw [padded_eq]
    exact List.append_ne_nil_of_right_ne_nil _ Nat.toDigits_ne_nil
  rw [natural?_of_ne_nil 10 hne, foldlM_digits (isDigit_padded width n), padded_eq, Nat.ofDigitChars_append,
    Nat.ofDigitChars_replicate_zero, Nat.mul_zero, Nat.ofDigitChars_toDigits (by decide) (by decide)]

section Width

variable {width n m : Nat}

lemma length_padded (hw : 0 < width) (hn : n < 10 ^ width) : (padded width n).length = width := by
  have hdigits := (Nat.length_toDigits_le_iff (by decide) hw).mpr hn
  rw [padded_eq, List.length_append, List.length_replicate]
  omega

lemma padded_one (hn : n < 10) : padded 1 n = [n.digitChar] := by
  rw [padded_eq, Nat.toDigits_of_lt_base hn]
  rfl

lemma padded_succ (hw : 0 < width) (n : Nat) :
    padded (width + 1) n = padded width (n / 10) ++ [(n % 10).digitChar] := by
  rw [padded_eq, padded_eq, Nat.toDigits_eq_if (by decide)]
  by_cases hn : n < 10
  · have hwidth : width + 1 - 1 = width - 1 + 1 := by omega
    rw [if_pos hn, Nat.div_eq_of_lt hn, Nat.mod_eq_of_lt hn, List.length_singleton, hwidth, List.replicate_succ']
    rfl
  · rw [if_neg hn, List.length_append, List.length_singleton, Nat.add_sub_add_right, List.append_assoc]

lemma digitChar_lt : ∀ m < 10, ∀ n < m, n.digitChar < m.digitChar := by
  decide

lemma padded_append_lt (hw : 0 < width) (hm : m < 10 ^ width) (h : n < m) (r s : List Char) :
    padded width n ++ r < padded width m ++ s := by
  induction width, hw using Nat.le_induction generalizing n m r s with
  | base =>
    have hm : m < 10 := hm
    rw [padded_one (h.trans hm), padded_one hm]
    exact .rel (digitChar_lt m hm n h)
  | succ width hw ih =>
    rw [padded_succ hw, padded_succ hw, List.append_assoc, List.append_assoc]
    have hten : m / 10 < 10 ^ width := by
      rw [Nat.pow_succ] at hm
      omega
    rcases Nat.lt_or_ge (n / 10) (m / 10) with hlt | hge
    · exact ih hten hlt _ _
    · have heq : n / 10 = m / 10 := by omega
      rw [heq]
      exact List.Lex.append_left _ (.rel (digitChar_lt _ (by omega) _ (by omega))) _

/-- The order of two texts is that of the numbers in front, and behind equal numbers that of what follows. -/
lemma padded_append_le {r s : List Char} (hw : 0 < width) (hm : m < 10 ^ width) (h : n < m ∨ n = m ∧ r ≤ s) :
    padded width n ++ r ≤ padded width m ++ s := by
  rcases h with h | ⟨rfl, h⟩
  · exact (padded_append_lt hw hm h r s).le
  · rcases h.lt_or_eq with h | rfl
    · exact le_of_lt (List.Lex.append_left _ h _)
    · exact le_rfl

end Width

section Fields

/-- A number of exactly `width` digits, and what follows it. -/
def field? (width : Nat) (cs : List Char) : Option (Nat × List Char) :=
  if cs.length < width then none
  else (natural? 10 (cs.take width)).map fun n => (n, cs.drop width)

def behind? (mark : Char) : List Char → Option (List Char)
  | [] => none
  | c :: cs => if c = mark then some cs else none

@[simp] lemma behind?_cons (mark : Char) (cs : List Char) : behind? mark (mark :: cs) = some cs :=
  if_pos rfl

lemma field?_padded {width n : Nat} (hw : 0 < width) (hn : n < 10 ^ width) (cs : List Char) :
    field? width (padded width n ++ cs) = some (n, cs) := by
  have hlength := length_padded hw hn
  have hlong : ¬ (padded width n ++ cs).length < width := by
    rw [List.length_append]
    omega
  rw [field?, if_neg hlong, List.take_left' hlength, List.drop_left' hlength, natural?_padded, Option.map_some]

/-- The layout has a zero where the text has a digit, and otherwise what the text has. -/
def Fits (layout cs : List Char) : Prop :=
  List.Forall₂ (fun p c => if p = '0' then c.isDigit = true else c = p) layout cs

lemma fits_mark {mark : Char} (h : mark ≠ '0') {layout cs : List Char} (hcs : Fits layout cs) :
    Fits (mark :: layout) (mark :: cs) :=
  .cons (by rw [if_neg h]) hcs

lemma Fits.append {layout layout' cs ds : List Char} (hc : Fits layout cs) (hd : Fits layout' ds) :
    Fits (layout ++ layout') (cs ++ ds) :=
  List.rel_append hc hd

lemma fits_padded {width n : Nat} (hw : 0 < width) (hn : n < 10 ^ width) :
    Fits (List.replicate width '0') (padded width n) := by
  have hall : ∀ cs : List Char, (∀ c ∈ cs, c.isDigit = true) → Fits (List.replicate cs.length '0') cs := by
    intro cs h
    induction cs with
    | nil => exact .nil
    | cons c cs ih =>
      rw [List.length_cons, List.replicate_succ]
      exact .cons (by simpa using h c List.mem_cons_self) (ih fun d hd => h d (List.mem_cons_of_mem c hd))
  simpa only [length_padded hw hn] using hall _ (isDigit_padded width n)

end Fields

end TransactScript.Text
