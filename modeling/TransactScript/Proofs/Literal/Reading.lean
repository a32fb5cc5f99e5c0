import TransactScript.Literal
import TransactScript.Proofs.Text.Numeral

/-! Texts, octets, integers and identifiers are read back from what is written for them, and what is written for
one of them is written for nothing else among them. -/

namespace TransactScript

namespace Text

/-- The characters up to the quote that ends a literal, and what follows it. -/
def untilQuote? : List Char → Option (List Char × List Char)
  | [] => none
  | '\'' :: '\'' :: cs => (untilQuote? cs).map fun (body, rest) => ('\'' :: body, rest)
  | '\'' :: cs => some ([], cs)
  | c :: cs => (untilQuote? cs).map fun (body, rest) => (c :: body, rest)

def nationalText? : List Char → Option (String × List Char)
  | 'N' :: '\'' :: cs => (untilQuote? cs).map fun (body, rest) => (String.ofList body, rest)
  | _ => none

def quoted? : List Char → Option (List Char)
  | '\'' :: cs => if cs.getLast? = some '\'' then some cs.dropLast else none
  | _ => none

lemma untilQuote?_quote {rest : List Char} (h : rest.head? ≠ some '\'') : untilQuote? ('\'' :: rest) = some ([], rest) := by
  cases rest with
  | nil => rfl
  | cons c rest =>
    have hc : c ≠ '\'' := by simpa using h
    simp [untilQuote?, hc]

lemma untilQuote?_double (cs : List Char) {rest : List Char} (h : rest.head? ≠ some '\'') :
    untilQuote? (double '\'' cs ++ '\'' :: rest) = some (cs, rest) := by
  induction cs with
  | nil => exact untilQuote?_quote h
  | cons c cs ih =>
    rw [double]
    by_cases hc : c = '\''
    · subst hc
      simp [untilQuote?, ih]
    · simp [untilQuote?, hc, ih]

lemma nationalText?_nationalLiteral (s : String) {rest : List Char} (h : rest.head? ≠ some '\'') :
    nationalText? ((nationalLiteral s).toList ++ rest) = some (s, rest) := by
  have hbody : (nationalLiteral s).toList ++ rest = 'N' :: '\'' :: (double '\'' s.toList ++ '\'' :: rest) := by
    simp [nationalLiteral]
  rw [hbody, nationalText?, untilQuote?_double _ h, Option.map_some]
  simp only [String.ofList_toList]

lemma hexValue?_upper : ∀ n < 16, hexValue? (upperHexDigit n) = some n := by
  decide

lemma hexValue?_lower : ∀ n < 16, hexValue? (lowerHexDigit n) = some n := by
  decide

lemma upperHexDigit_range : ∀ n < 16, let c := upperHexDigit n; ('0' ≤ c ∧ c ≤ '9') ∨ ('A' ≤ c ∧ c ≤ 'F') := by
  decide

end Text

open Text

namespace Uuid

def grouped? : List Nat → List Char → Option (List UInt8)
  | [], cs => octets? cs
  | n :: ns, cs =>
      match cs.drop (2 * n) with
      | '-' :: rest => do
          let first ← octets? (cs.take (2 * n))
          let others ← grouped? ns rest
          pure (first ++ others)
      | _ => none

def ofText? (cs : List Char) : Option Uuid :=
  (grouped? groups cs).bind ofOctets?

lemma grouped?_grouped (ns : List Nat) {octets : List UInt8} (h : ns.sum ≤ octets.length) :
    grouped? ns (grouped ns octets) = some octets := by
  induction ns generalizing octets with
  | nil => exact octets?_flatMap hexValue?_lower octets
  | cons n ns ih =>
    rw [List.sum_cons] at h
    have hn : n ≤ octets.length := by omega
    have hlength : ((octets.take n).flatMap (octetDigits lowerHexDigit)).length = 2 * n := by
      rw [length_flatMap_octetDigits, List.length_take_of_le hn]
    have hothers : grouped? ns (grouped ns (octets.drop n)) = some (octets.drop n) := by
      apply ih
      rw [List.length_drop]
      omega
    rw [grouped?, grouped, List.drop_left' hlength, List.take_left' hlength]
    simp only [octets?_flatMap hexValue?_lower, hothers, Option.bind_eq_bind, Option.bind_some, Option.pure_def,
      List.take_append_drop]

lemma ofText?_text (u : Uuid) : ofText? u.text.toList = some u := by
  have hlength : groups.sum ≤ u.octets.length := by
    rw [u.length_eq]
    decide
  rw [ofText?, text, String.toList_ofList, grouped?_grouped groups hlength, Option.bind_some, ofOctets?,
    dif_pos u.length_eq]

end Uuid

namespace Literal

lemma quoted?_quoted (s : String) : quoted? (quoted s).toList = some s.toList := by
  have hbody : (quoted s).toList = '\'' :: (s.toList ++ ['\'']) := by
    simp [quoted]
  rw [hbody, quoted?, List.getLast?_concat, if_pos rfl, List.dropLast_concat]

lemma toList_octetText (octets : List UInt8) :
    (octetText octets).toList = '0' :: 'x' :: octets.flatMap (octetDigits upperHexDigit) := by
  simp [octetText]

/-- The values that are told apart by their texts. -/
def isExact : Literal → Bool
  | text _ | bytes _ | int _ | uuid _ => true
  | _ => false

def read? : List Char → Option Literal
  | 'N' :: cs =>
      match nationalText? ('N' :: cs) with
      | some (s, []) => some (text s)
      | _ => none
  | '\'' :: cs => ((quoted? ('\'' :: cs)).bind Uuid.ofText?).map uuid
  | '0' :: 'x' :: digits => (octets? digits).map bytes
  | cs => (integer? cs).map int

lemma read?_of_digits {cs : List Char} (hne : cs ≠ []) (h : ∀ c ∈ cs, c.isDigit = true) :
    read? cs = (integer? cs).map int := by
  have hno {c : Char} (hc : c ∈ cs) (hd : c.isDigit = false) : False := by
    rw [h c hc] at hd
    cases hd
  rw [read?.eq_def]
  split
  · exact (hno List.mem_cons_self rfl).elim
  · exact (hno List.mem_cons_self rfl).elim
  · exact (hno (List.mem_cons_of_mem _ List.mem_cons_self) rfl).elim
  · rfl

lemma read?_int (i : Int) : read? (signedNumeral i).toList = some (int i) := by
  have hread : (integer? (signedNumeral i).toList).map int = some (int i) := by
    rw [integer?_signedNumeral, Option.map_some]
  cases i with
  | ofNat n =>
    rw [toList_signedNumeral_ofNat] at hread ⊢
    rw [read?_of_digits Nat.toDigits_ne_nil (isDigit_toDigits n), hread]
  | negSucc n =>
    rw [toList_signedNumeral_negSucc] at hread ⊢
    exact hread

lemma read?_sql {l : Literal} (h : l.isExact = true) : read? l.sql.toList = some l := by
  cases l with
  | text s =>
    have hread : nationalText? ((nationalLiteral s).toList ++ []) = some (s, []) :=
      nationalText?_nationalLiteral s nofun
    have hbody : (nationalLiteral s).toList = 'N' :: '\'' :: (double '\'' s.toList ++ ['\'']) := by
      simp [nationalLiteral]
    rw [List.append_nil, hbody] at hread
    rw [sql, hbody, read?, hread]
  | bytes octets => rw [sql, toList_octetText, read?, octets?_flatMap hexValue?_upper, Option.map_some]
  | int i => exact read?_int i
  | uuid u =>
    have hread := quoted?_quoted u.text
    have hbody : (quoted u.text).toList = '\'' :: (u.text.toList ++ ['\'']) := by
      simp [quoted]
    rw [hbody] at hread
    rw [sql, hbody, read?, hread, Option.bind_some, Uuid.ofText?_text, Option.map_some]
  | null | bool _ | float _ | dateTime _ | dateTimeOffset _ | time _ | raw _ => cases h

end Literal

theorem values_of_literals :
    (∀ (s : String) (rest : List Char), rest.head? ≠ some '\'' →
      nationalText? ((Literal.text s).sql.toList ++ rest) = some (s, rest)) ∧
    (∀ octets : List UInt8, ∃ digits, (Literal.bytes octets).sql.toList = '0' :: 'x' :: digits ∧
      digits.length = 2 * octets.length ∧
      (∀ c ∈ digits, ('0' ≤ c ∧ c ≤ '9') ∨ ('A' ≤ c ∧ c ≤ 'F')) ∧ octets? digits = some octets) ∧
    (∀ i : Int, integer? (Literal.int i).sql.toList = some i) ∧
    (∀ u : Uuid, ((quoted? (Literal.uuid u).sql.toList).bind Uuid.ofText?).map Uuid.octets = some u.octets) ∧
    ∀ l k : Literal, l.isExact = true → k.isExact = true → l.sql = k.sql → l = k := by
  refine ⟨fun s rest h => nationalText?_nationalLiteral s h, fun octets => ?_, integer?_signedNumeral, fun u => ?_, ?_⟩
  · refine ⟨_, Literal.toList_octetText octets, length_flatMap_octetDigits octets, ?_,
      octets?_flatMap hexValue?_upper octets⟩
    intro c hc
    obtain ⟨n, hn, rfl⟩ := mem_flatMap_octetDigits hc
    exact upperHexDigit_range n hn
  · rw [Literal.sql, Literal.quoted?_quoted, Option.bind_some, Uuid.ofText?_text, Option.map_some]
  · intro l k hl hk h
    have hread := Literal.read?_sql hl
    rw [h, Literal.read?_sql hk] at hread
    exact (Option.some.inj hread).symm

theorem values_of_quotes :
    nationalText? ((Literal.text "'it''s'").sql.toList ++ [',', ' ', '1', ')']) =
      some ("'it''s'", [',', ' ', '1', ')']) :=
  values_of_literals.1 _ _ (by decide)

end TransactScript
