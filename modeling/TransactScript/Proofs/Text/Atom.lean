import TransactScript.Calendar
import TransactScript.ColumnType
import TransactScript.Number.Notation
import TransactScript.Proofs.Name
import TransactScript.Proofs.Text.Numeral
import TransactScript.Proofs.Text.Scan
import TransactScript.Uuid

/-! Names, numbers, octets and points in time are written without any character that delimits the parts of
a statement. -/

namespace TransactScript

namespace Text

def isAtomChar (c : Char) : Bool :=
  isNameChar c || c == '@' || c == '-' || c == '+' || c == '.' || c == ':'

def Atomic (cs : List Char) : Prop :=
  ∀ c ∈ cs, isAtomChar c = true

instance (cs : List Char) : Decidable (Atomic cs) :=
  List.decidableBAll (fun c => isAtomChar c = true) cs

lemma isAtomChar_of_isDigit {c : Char} (h : c.isDigit = true) : isAtomChar c = true := by
  simp [isAtomChar, isNameChar, Char.isAlphanum, h]

lemma Keeps.neutral {b : Bool} {cs : List Char} (h : Keeps isAtomChar b cs) : Neutral b cs := by
  refine neutral_iff_keeps.mpr (h.mono fun {c} hc => bne_iff_ne.mpr ?_)
  rintro rfl
  cases hc

namespace Atomic

variable {cs ds : List Char}

lemma append (hc : Atomic cs) (hd : Atomic ds) : Atomic (cs ++ ds) := by
  intro c h
  rcases List.mem_append.mp h with h | h
  · exact hc c h
  · exact hd c h

lemma cons {c : Char} (hc : isAtomChar c = true) (hd : Atomic ds) : Atomic (c :: ds) := by
  intro d h
  rcases List.mem_cons.mp h with rfl | h
  · exact hc
  · exact hd d h

lemma sublist (hd : Atomic ds) (h : cs.Sublist ds) : Atomic cs :=
  fun c hc => hd c (h.subset hc)

lemma digits (n : Nat) : Atomic (Nat.toDigits 10 n) :=
  fun c hc => isAtomChar_of_isDigit (isDigit_toDigits n c hc)

lemma zeros (n : Nat) : Atomic (List.replicate n '0') := by
  intro c hc
  rw [List.eq_of_mem_replicate hc]
  rfl

lemma numeral (n : Nat) : Atomic (numeral n).toList := by
  rw [Text.numeral, String.toList_ofList]
  exact digits n

lemma signedNumeral (i : Int) : Atomic (signedNumeral i).toList := by
  cases i with
  | ofNat n => exact numeral n
  | negSucc n =>
    rw [Text.signedNumeral, String.toList_append]
    exact append (by decide) (numeral _)

lemma paddedNumeral (width n : Nat) : Atomic (paddedNumeral width n).toList := by
  rw [Text.paddedNumeral, String.toList_ofList]
  exact (zeros _).append (digits n)

lemma octets {digit : Nat → Char} (hd : ∀ n < 16, isAtomChar (digit n) = true) (octets : List UInt8) :
    Atomic (octets.flatMap (octetDigits digit)) := by
  intro c hc
  obtain ⟨n, hn, rfl⟩ := mem_flatMap_octetDigits hc
  exact hd n hn

lemma keeps {b : Bool} (h : Atomic cs) : Keeps isAtomChar b cs := by
  refine .plain fun c hc => ⟨?_, h c hc⟩
  rintro rfl
  cases h _ hc

lemma neutral {b : Bool} (h : Atomic cs) : Neutral b cs :=
  h.keeps.neutral

end Atomic

end Text

open Text

lemma Identifier.atomic (n : Identifier) : Atomic n.text.toList := by
  intro c hc
  simp [isAtomChar, n.valid.2 c hc]

lemma VariableName.atomic (v : VariableName) : Atomic v.text.toList := by
  rw [VariableName.text, String.toList_append]
  exact Atomic.append (by decide) v.bare.atomic

lemma Uuid.atomic (u : Uuid) : Atomic u.text.toList := by
  have hd : ∀ n < 16, isAtomChar (lowerHexDigit n) = true := by decide
  have hg : ∀ (ns : List Nat) (octets : List UInt8), Atomic (grouped ns octets) := by
    intro ns
    induction ns with
    | nil => exact fun octets => Atomic.octets hd octets
    | cons n ns ih => exact fun octets => (Atomic.octets hd _).append (Atomic.cons rfl (ih _))
  rw [Uuid.text, String.toList_ofList]
  exact hg _ _

lemma Date.atomic (d : Date) : Atomic d.text.toList := by
  have hy : Atomic (Date.yearText d.year).toList := by
    rw [Date.yearText]
    split
    · exact Atomic.paddedNumeral 4 _
    · rw [String.toList_append]
      refine Atomic.append ?_ (Atomic.paddedNumeral 4 _)
      split <;> decide
  simp only [Date.text, String.toList_append]
  exact (((hy.append (by decide)).append (Atomic.paddedNumeral 2 _)).append (by decide)).append
    (Atomic.paddedNumeral 2 _)

lemma TimeOfDay.atomic (t : TimeOfDay) : Atomic t.text.toList := by
  simp only [TimeOfDay.text, String.toList_append]
  exact ((((((Atomic.paddedNumeral 2 _).append (by decide)).append (Atomic.paddedNumeral 2 _)).append
    (by decide)).append (Atomic.paddedNumeral 2 _)).append (by decide)).append (Atomic.paddedNumeral 3 _)

lemma DateTime.atomic (t : DateTime) : Atomic t.text.toList := by
  simp only [DateTime.text, String.toList_append]
  exact (t.date.atomic.append (by decide)).append t.time.atomic

lemma OffsetDateTime.atomic (t : OffsetDateTime) : Atomic t.text.toList := by
  have hs : Atomic (if t.offset < 0 then "-" else "+" : String).toList := by
    split <;> decide
  simp only [OffsetDateTime.text, OffsetDateTime.offsetText, String.toList_append]
  exact t.clock.atomic.append (((hs.append (Atomic.paddedNumeral 2 _)).append (by decide)).append
    (Atomic.paddedNumeral 2 _))

namespace Number

lemma Decimal.atomic (d : Decimal) : Atomic d.positional.toList := by
  rw [Decimal.positional]
  have hd := Atomic.digits d.digits
  cases d.exponent with
  | ofNat k =>
    simp only [String.toList_ofList]
    exact hd.append (Atomic.zeros k)
  | negSucc k =>
    simp only [String.toList_ofList]
    have hp := (Atomic.zeros (k + 2 - (Nat.toDigits 10 d.digits).length)).append hd
    exact (hp.sublist (List.take_sublist _ _)).append (Atomic.cons rfl (hp.sublist (List.drop_sublist _ _)))

lemma Binary.atomic {f : Format} {x : Binary} {s : String} (h : x.positional? f = some s) : Atomic s.toList := by
  cases x with
  | finite negative m e =>
    cases h
    have hm : Atomic (if m = 0 then "0" else (shortest f .upward m e).positional : String).toList := by
      split
      · decide
      · exact Decimal.atomic _
    cases negative with
    | false => exact hm
    | true =>
      rw [withSign, if_pos rfl, String.toList_append]
      exact Atomic.append (by decide) hm
  | _ => cases h

end Number

end TransactScript
