import Mathlib.Tactic.Lemma
import TransactScript.Name

/-! A text is read as a name exactly if it is a name, and as a variable exactly if it is one without its
sigil. -/

namespace TransactScript

lemma isNameChar_iff {c : Char} : isNameChar c = true ↔
    ('A' ≤ c ∧ c ≤ 'Z') ∨ ('a' ≤ c ∧ c ≤ 'z') ∨ ('0' ≤ c ∧ c ≤ '9') ∨ c = '_' := by
  change ((decide ('A' ≤ c ∧ c ≤ 'Z') || (decide ('a' ≤ c) && decide (c ≤ 'z'))) ||
    (decide ('0' ≤ c) && decide (c ≤ '9')) || c == '_') = true ↔ _
  simp only [Bool.or_eq_true, Bool.and_eq_true, decide_eq_true_eq, beq_iff_eq, or_assoc]

lemma isBlank_of_isNameChar {c : Char} (h : isNameChar c = true) : Text.isBlank c = false := by
  simp only [isNameChar_iff, Char.le_def, UInt32.le_iff_toNat_le] at h
  change (65 ≤ c.toNat ∧ c.toNat ≤ 90) ∨ (97 ≤ c.toNat ∧ c.toNat ≤ 122) ∨ (48 ≤ c.toNat ∧ c.toNat ≤ 57) ∨
    c = '_' at h
  rw [← Bool.not_eq_true]
  intro hb
  simp only [Text.isBlank, Bool.or_eq_true, Bool.and_eq_true, decide_eq_true_eq, beq_iff_eq] at hb
  rcases h with h | h | h | h
  · omega
  · omega
  · omega
  · subst h
    revert hb
    decide

lemma ne_sigil_of_isNameChar {c : Char} (h : isNameChar c = true) : c ≠ sigil := by
  rintro rfl
  revert h
  decide

lemma IsName.not_blank {cs : List Char} (h : IsName cs) : cs.all Text.isBlank = false := by
  obtain ⟨c, hc⟩ := List.exists_mem_of_ne_nil cs h.1
  rw [List.all_eq_false]
  exact ⟨c, hc, by simp [isBlank_of_isNameChar (h.2 c hc)]⟩

lemma IsName.head_ne_sigil {cs : List Char} (h : IsName cs) : cs.head? ≠ some sigil := by
  intro hs
  exact ne_sigil_of_isNameChar (h.2 _ (List.mem_of_head? hs)) rfl

namespace Identifier

lemma text_injective {a b : Identifier} (h : a.text = b.text) : a = b := by
  cases a
  cases b
  cases h
  rfl

lemma text_inj {a b : Identifier} : a.text = b.text ↔ a = b :=
  ⟨text_injective, congrArg text⟩

lemma parseWithin_ok_iff {whole body : String} {n : Identifier} :
    parseWithin whole body = .ok n ↔ n.text = body := by
  constructor
  · intro h
    rw [parseWithin] at h
    split at h
    · cases h
    · split at h
      · cases h
        rfl
      · cases h
  · rintro rfl
    have hb : Text.isBlankText n.text = false := n.valid.not_blank
    simp [parseWithin, hb, n.valid]

@[simp] lemma parse_text (n : Identifier) : parse n.text = .ok n :=
  parseWithin_ok_iff.mpr rfl

end Identifier

namespace VariableName

lemma body_text (v : VariableName) : body v.text = v.bare.text.toList := by
  simp [body, text, sigil]

lemma not_blank_of_body {raw : String} (h : IsName (body raw)) : Text.isBlankText raw = false := by
  rw [body] at h
  rw [Text.isBlankText]
  split at h
  · exact absurd rfl h.1
  · next c cs hc =>
    rw [hc]
    split at h
    · next hs =>
      subst hs
      rfl
    · exact h.not_blank

lemma parse_ok_iff {raw : String} {v : VariableName} :
    parse raw = .ok v ↔ body raw = v.bare.text.toList := by
  constructor
  · intro h
    rw [parse] at h
    split at h
    · cases h
    · split at h
      · cases h
      · cases hn : Identifier.parseWithin raw (String.ofList (body raw)) with
        | error f => rw [hn] at h; cases h
        | ok n =>
          rw [hn] at h
          cases h
          rw [Identifier.parseWithin_ok_iff.mp hn, String.toList_ofList]
  · intro h
    have hv : IsName (body raw) := h ▸ v.bare.valid
    have hn : Identifier.parseWithin raw (String.ofList (body raw)) = .ok v.bare := by
      rw [Identifier.parseWithin_ok_iff, h, String.ofList_toList]
    simp [parse, not_blank_of_body hv, hv.head_ne_sigil, hn, Except.map]

lemma not_blank (v : VariableName) : Text.isBlankText v.text = false :=
  not_blank_of_body (v.body_text ▸ v.bare.valid)

@[simp] lemma parse_text (v : VariableName) : parse v.text = .ok v :=
  parse_ok_iff.mpr v.body_text

lemma body_sigil {raw : String} (h : raw.toList.head? ≠ some sigil) : body ("@" ++ raw) = body raw := by
  rw [body, body]
  cases hc : raw.toList with
  | nil => simp [hc, sigil]
  | cons c cs =>
    rw [hc] at h
    have hs : c ≠ '@' := by simpa [sigil] using h
    simp [hc, hs, sigil]

lemma text_injective {v w : VariableName} (h : v.text = w.text) : v = w := by
  have hb := congrArg parse h
  rw [parse_text, parse_text] at hb
  exact Except.ok.inj hb

end VariableName

lemma Destination.parse_variable (v : VariableName) : parse v.text = .ok (.tableVariable v) := by
  have hs : v.text.toList.head? = some sigil := by simp [VariableName.text, sigil]
  simp [parse, hs, Except.map]

end TransactScript
