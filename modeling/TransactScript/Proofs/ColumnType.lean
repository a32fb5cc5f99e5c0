import Mathlib.Data.List.Nodup
import TransactScript.ColumnType
import TransactScript.Proofs.Text.Legible
import TransactScript.Proofs.Text.Numeral

/-! The text of a column type can be read again, with its length or its precision and scale. -/

namespace TransactScript

open Text

lemma Text.numeral_legible : Legible (Stops Char.isDigit) (fun _ => True) (fun n => (numeral n).toList) id := by
  intro n m r s _ _ hr hs h
  simp only [numeral, String.toList_ofList] at h
  obtain ⟨hnm, hrs⟩ := append_inj_of_stops (isDigit_toDigits n) (isDigit_toDigits m) hr hs h
  exact ⟨numeral_injective (congrArg String.ofList hnm), hrs⟩

namespace ColumnType

/-- The type that the keyword alone stands for. -/
def defaulted : ColumnType → ColumnType
  | plain kind => plain kind
  | decimal _ _ => decimal defaultPrecision defaultScale
  | string kind _ => string kind none

lemma defaulted_mem (t : ColumnType) : t.defaulted ∈ defaults := by
  cases t with
  | plain kind => cases kind <;> decide
  | decimal precision scale => simp [defaulted, defaults]
  | string kind length => cases kind <;> simp [defaulted, defaults]

lemma keyword_defaulted (t : ColumnType) : t.defaulted.keyword = t.keyword := by
  cases t <;> rfl

lemma nodup_keywords : (defaults.map fun t => (upperCase t.keyword).toList).Nodup := by
  decide +kernel

lemma defaulted_eq_of_keyword {t u : ColumnType}
    (h : (upperCase t.keyword).toList = (upperCase u.keyword).toList) : t.defaulted = u.defaulted := by
  refine List.inj_on_of_nodup_map nodup_keywords t.defaulted_mem u.defaulted_mem ?_
  simpa only [keyword_defaulted] using h

lemma keyword_chars (t : ColumnType) : ∀ c ∈ (upperCase t.keyword).toList, c ∉ ['(', ' ', 'K', 'P'] := by
  have h : defaults.all (fun t => (upperCase t.keyword).toList.all fun c => c ∉ ['(', ' ', 'K', 'P']) = true := by
    decide +kernel
  simp only [List.all_eq_true, decide_eq_true_eq] at h
  simpa only [keyword_defaulted] using h _ t.defaulted_mem

lemma keyword_ne_nil (t : ColumnType) : (upperCase t.keyword).toList ≠ [] := by
  have h : ∀ t ∈ defaults, (upperCase t.keyword).toList ≠ [] := by decide +kernel
  simpa only [keyword_defaulted] using h _ t.defaulted_mem

lemma parameters_chars (t : ColumnType) : ∀ c ∈ t.parameters.toList, c ∉ [' ', 'K', 'P'] := by
  have hdigits (n : Nat) : ∀ c ∈ (numeral n).toList, c ∉ [' ', 'K', 'P'] := by
    intro c hc hm
    have hnot : [' ', 'K', 'P'].all (fun c => !c.isDigit) = true := by decide
    have hd : c ∈ Nat.toDigits 10 n := by simpa [numeral] using hc
    have hdigit : c.isDigit = true := isDigit_toDigits n c hd
    simpa [hdigit] using List.all_eq_true.mp hnot c hm
  cases t with
  | plain kind => simp [parameters]
  | decimal precision scale =>
    simp only [parameters, String.toList_append, List.forall_mem_append]
    exact ⟨⟨⟨⟨by simp, hdigits _⟩, by simp⟩, hdigits _⟩, by simp⟩
  | string kind length =>
    cases length with
    | some n =>
      simp only [parameters, String.toList_append, List.forall_mem_append]
      exact ⟨⟨by simp, hdigits _⟩, by simp⟩
    | none => cases kind <;> simp [parameters, StringType.isVarying]

lemma parameters_none_ne {kind : StringType} {n : UInt16}
    (h : (parameters (string kind none)).toList = (parameters (string kind (some n))).toList) : False := by
  have hmax : 'M' ∉ (parameters (string kind (some n))).toList := by
    intro hm
    have hd : 'M' ∈ Nat.toDigits 10 n.toNat := by simpa [parameters, numeral] using hm
    cases isDigit_toDigits _ _ hd
  rw [← h] at hmax
  cases kind <;> simp [parameters, StringType.isVarying] at h hmax

lemma decimal_inj {p s p' s' : UInt8} (h : (parameters (decimal p s)).toList = (parameters (decimal p' s')).toList) :
    p = p' ∧ s = s' := by
  have hcomma {x : List Char} : Stops Char.isDigit (",".toList ++ x) := stops_cons.mpr rfl
  have hclose {x : List Char} : Stops Char.isDigit (")".toList ++ x) := stops_cons.mpr rfl
  simp only [parameters, String.toList_append, List.append_assoc, List.append_cancel_left_eq] at h
  obtain ⟨hp, h⟩ := numeral_legible trivial trivial hcomma hcomma h
  obtain ⟨hs, _⟩ := numeral_legible trivial trivial hclose hclose (List.append_cancel_left h)
  exact ⟨UInt8.toNat_inj.mp hp, UInt8.toNat_inj.mp hs⟩

lemma string_inj {kind : StringType} {l l' : Option UInt16}
    (h : (parameters (string kind l)).toList = (parameters (string kind l')).toList) : l = l' := by
  have hclose {x : List Char} : Stops Char.isDigit (")".toList ++ x) := stops_cons.mpr rfl
  cases l with
  | none =>
    cases l' with
    | none => rfl
    | some n => exact (parameters_none_ne h).elim
  | some n =>
    cases l' with
    | none => exact (parameters_none_ne h.symm).elim
    | some m =>
      simp only [parameters, String.toList_append, List.append_assoc, List.append_cancel_left_eq] at h
      obtain ⟨hn, _⟩ := numeral_legible trivial trivial hclose hclose h
      rw [UInt16.toNat_inj.mp hn]

lemma parameters_injective {t u : ColumnType} (hd : t.defaulted = u.defaulted)
    (h : t.parameters.toList = u.parameters.toList) : t = u := by
  cases t with
  | plain kind =>
    cases u with
    | plain kind' => exact hd
    | decimal p s | string kind' l => cases hd
  | decimal p s =>
    cases u with
    | decimal p' s' =>
      obtain ⟨rfl, rfl⟩ := decimal_inj h
      rfl
    | plain kind | string kind l => cases hd
  | string kind l =>
    cases u with
    | string kind' l' =>
      obtain ⟨rfl, _⟩ := string.inj hd
      rw [string_inj h]
    | plain kind' | decimal p s => cases hd

lemma text_injective {t u : ColumnType} (h : t.text.toList = u.text.toList) : t = u := by
  have hkeyword (t : ColumnType) : ∀ c ∈ (upperCase t.keyword).toList, (c != '(') = true :=
    fun c hc => bne_iff_ne.mpr fun he => t.keyword_chars c hc (he ▸ List.mem_cons_self)
  have hparameters (t : ColumnType) : Stops (fun c => c != '(') t.parameters.toList := by
    cases t with
    | plain kind => exact stops_nil
    | decimal precision scale => simp [parameters, stops_cons]
    | string kind length =>
      cases length with
      | some n => simp [parameters, stops_cons]
      | none => cases kind <;> simp [parameters, StringType.isVarying, stops_cons, stops_nil]
  rw [text, text, String.toList_append, String.toList_append] at h
  obtain ⟨hk, hp⟩ := append_inj_of_stops (hkeyword t) (hkeyword u) (hparameters t) (hparameters u) h
  exact parameters_injective (defaulted_eq_of_keyword hk) hp

-- no type could be taken for a part of the key clause
lemma text_chars (t : ColumnType) : ∀ c ∈ t.text.toList, c ∉ [' ', 'K', 'P'] := by
  rw [text, String.toList_append, List.forall_mem_append]
  exact ⟨fun c hc hm => t.keyword_chars c hc (List.mem_cons_of_mem _ hm), t.parameters_chars⟩

lemma text_not_key {t : ColumnType} {r s : List Char} (h : t.text.toList ++ r = 'K' :: s) : False := by
  have hne : t.text.toList ≠ [] := by
    rw [text, String.toList_append]
    exact List.append_ne_nil_of_left_ne_nil t.keyword_ne_nil _
  obtain ⟨c, cs, ht⟩ := List.exists_cons_of_ne_nil hne
  have hc := t.text_chars c (ht ▸ List.mem_cons_self)
  rw [ht] at h
  rw [List.head_eq_of_cons_eq h] at hc
  exact hc (by decide)

lemma text_legible : Legible (Stops fun c => c != ' ') (fun _ => True) (fun t : ColumnType => t.text.toList) id := by
  have hword (t : ColumnType) : ∀ c ∈ t.text.toList, (c != ' ') = true :=
    fun c hc => bne_iff_ne.mpr fun he => t.text_chars c hc (he ▸ List.mem_cons_self)
  intro t u r s _ _ hr hs h
  obtain ⟨htext, hrs⟩ := append_inj_of_stops (hword t) (hword u) hr hs h
  exact ⟨text_injective htext, hrs⟩

end ColumnType

end TransactScript
