import TransactScript.Proofs.Fault
import TransactScript.Proofs.Name

/-! Which texts are read as names, as what, and what is said of the others. A variable may come with its sigil or
without it; it is one variable, and its text has the sigil. -/

namespace TransactScript

def IsWord (b : String) : Prop :=
  b ≠ "" ∧ ∀ c ∈ b.toList, ('A' ≤ c ∧ c ≤ 'Z') ∨ ('a' ≤ c ∧ c ≤ 'z') ∨ ('0' ≤ c ∧ c ≤ '9') ∨ c = '_'

lemma isName_toList_iff {b : String} : IsName b.toList ↔ IsWord b := by
  simp only [IsName, IsWord, isNameChar_iff, ne_eq, String.toList_eq_nil_iff]

namespace Identifier

lemma parse_ok_iff {raw : String} {n : Identifier} : parse raw = .ok n ↔ n.text = raw :=
  parseWithin_ok_iff

lemma isWord (n : Identifier) : IsWord n.text :=
  isName_toList_iff.mp n.valid

lemma exists_parse_iff {raw : String} : (∃ n, parse raw = .ok n) ↔ IsWord raw := by
  constructor
  · rintro ⟨n, hn⟩
    rw [← parse_ok_iff.mp hn]
    exact n.isWord
  · intro h
    exact ⟨⟨raw, isName_toList_iff.mpr h⟩, parse_ok_iff.mpr rfl⟩

lemma parseWithin_ne_sigilReason (whole body : String) :
    parseWithin whole body ≠ .error (.invalidIdentifier whole VariableName.sigilReason) := by
  intro h
  rw [parseWithin] at h
  split at h
  · have hreason : blankReason = VariableName.sigilReason := by simpa using h
    revert hreason
    decide
  · split at h
    · cases h
    · have hreason : characterReason = VariableName.sigilReason := by simpa using h
      revert hreason
      decide

end Identifier

namespace VariableName

variable {raw raw' b b' : String}

/-- The two ways to write the variable of the name `b`. -/
def Spells (raw b : String) : Prop :=
  raw = b ∨ raw = "@" ++ b

lemma body_of_spells (hb : IsWord b) (h : Spells raw b) : body raw = b.toList := by
  have hname : IsName b.toList := isName_toList_iff.mpr hb
  have hplain : body b = b.toList := by
    rw [body]
    cases hc : b.toList with
    | nil => rfl
    | cons c cs =>
      have hs : c ≠ sigil := ne_sigil_of_isNameChar (hname.2 c (hc ▸ List.mem_cons_self))
      simp only [if_neg hs]
  rcases h with rfl | rfl
  · exact hplain
  · rw [body_sigil hname.head_ne_sigil, hplain]

lemma spells_of_body (h : body raw = b.toList) : Spells raw b := by
  rw [body] at h
  cases hc : raw.toList with
  | nil =>
    rw [hc] at h
    exact .inl (String.toList_injective (hc.trans h))
  | cons c cs =>
    simp only [hc] at h
    by_cases hs : c = sigil
    · subst hs
      rw [if_pos rfl] at h
      refine .inr (String.toList_injective ?_)
      rw [hc, h, String.toList_append]
      rfl
    · rw [if_neg hs] at h
      exact .inl (String.toList_injective (hc.trans h))

lemma parse_iff_spells {v : VariableName} : parse raw = .ok v ↔ Spells raw v.bare.text := by
  rw [parse_ok_iff]
  exact ⟨spells_of_body, body_of_spells v.bare.isWord⟩

lemma exists_parse_iff : (∃ v, parse raw = .ok v) ↔ ∃ b, IsWord b ∧ Spells raw b := by
  constructor
  · rintro ⟨v, hv⟩
    exact ⟨v.bare.text, v.bare.isWord, parse_iff_spells.mp hv⟩
  · rintro ⟨b, hb, h⟩
    exact ⟨⟨b, isName_toList_iff.mpr hb⟩, parse_iff_spells.mpr h⟩

lemma parse_of_spells (hb : IsWord b) (h : Spells raw b) :
    ∃ v, parse raw = .ok v ∧ v.text = "@" ++ b ∧ v.bare.text = b ∧ parse v.text = .ok v ∧ parse b = .ok v := by
  let v : VariableName := ⟨b, isName_toList_iff.mpr hb⟩
  exact ⟨v, parse_iff_spells.mpr h, rfl, rfl, v.parse_text, parse_iff_spells.mpr (.inl rfl)⟩

lemma parse_eq_iff (hb : IsWord b) (hb' : IsWord b') (h : Spells raw b) (h' : Spells raw' b') :
    parse raw = parse raw' ↔ b = b' := by
  obtain ⟨v, hv, -, hbare, -⟩ := parse_of_spells hb h
  obtain ⟨v', hv', -, hbare', -⟩ := parse_of_spells hb' h'
  rw [hv, hv', ← hbare, ← hbare']
  constructor
  · intro he
    rw [Except.ok.inj he]
  · intro he
    rw [text_injective (v := v) (w := v') (congrArg ("@" ++ ·) he)]

lemma head_body_iff : (body raw).head? = some sigil ↔ "@@".toList <+: raw.toList := by
  rw [body]
  cases hc : raw.toList with
  | nil => simp
  | cons c cs =>
    by_cases hs : c = sigil
    · subst hs
      cases cs with
      | nil => simp [sigil]
      | cons d ds => simp [sigil, eq_comm]
    · have hs' : '@' ≠ c := fun he => hs he.symm
      simp [hs, hs']

lemma parse_sigilReason_iff :
    parse raw = .error (.invalidIdentifier raw sigilReason) ↔ "@@".toList <+: raw.toList := by
  rw [← head_body_iff, parse]
  by_cases hblank : Text.isBlankText raw = true
  · have hbody : (body raw).head? ≠ some sigil := by
      intro hs
      rw [head_body_iff] at hs
      have hall := List.all_eq_true.mp hblank '@' (hs.subset (by decide))
      revert hall
      decide
    rw [if_pos hblank]
    simp only [hbody, iff_false]
    intro h
    have hreason : Identifier.blankReason = sigilReason := by simpa using h
    revert hreason
    decide
  · rw [if_neg hblank]
    by_cases hs : (body raw).head? = some sigil
    · simp only [hs, if_true]
    · rw [if_neg hs]
      simp only [hs, iff_false]
      intro h
      cases hn : Identifier.parseWithin raw (String.ofList (body raw)) with
      | ok n =>
        rw [hn] at h
        cases h
      | error f =>
        rw [hn] at h
        cases h
        exact Identifier.parseWithin_ne_sigilReason raw _ hn

end VariableName

namespace Destination

variable {raw : String}

lemma parse_tableVariable_iff {v : VariableName} :
    parse raw = .ok (.tableVariable v) ↔ raw.toList.head? = some '@' ∧ VariableName.parse raw = .ok v := by
  rw [parse]
  by_cases hs : raw.toList.head? = some sigil
  · have hs' : raw.toList.head? = some '@' := hs
    rw [if_pos hs]
    cases VariableName.parse raw <;> simp [Except.map, hs']
  · have hs' : raw.toList.head? ≠ some '@' := hs
    rw [if_neg hs]
    cases Identifier.parse raw <;> simp [Except.map, hs']

lemma parse_table_iff {n : TableName} : parse raw = .ok (.table n) ↔ Identifier.parse raw = .ok n := by
  rw [parse]
  by_cases hs : raw.toList.head? = some sigil
  · rw [if_pos hs]
    have hno : Identifier.parse raw ≠ .ok n := by
      intro hn
      obtain rfl := Identifier.parse_ok_iff.mp hn
      exact n.valid.head_ne_sigil hs
    cases VariableName.parse raw <;> simp [Except.map, hno]
  · rw [if_neg hs]
    cases Identifier.parse raw <;> simp [Except.map]

lemma parse_own (d : Destination) : parse d.text = .ok d := by
  cases d with
  | table n => exact parse_table_iff.mpr n.parse_text
  | tableVariable v => exact parse_variable v

lemma text_injective {d e : Destination} (h : d.text = e.text) : d = e := by
  have hp := congrArg parse h
  rw [parse_own, parse_own] at hp
  exact Except.ok.inj hp

end Destination

open VariableName (Spells)

theorem names_by_grammar :
    (∀ raw, (∃ v, VariableName.parse raw = .ok v) ↔ ∃ b, IsWord b ∧ Spells raw b) ∧
      (∀ raw b, IsWord b → Spells raw b → ∃ v, VariableName.parse raw = .ok v ∧ v.text = "@" ++ b ∧
        v.bare.text = b ∧ VariableName.parse v.text = .ok v ∧ VariableName.parse v.bare.text = .ok v) ∧
      (∀ raw raw' b b', IsWord b → IsWord b' → Spells raw b → Spells raw' b' →
        (VariableName.parse raw = VariableName.parse raw' ↔ b = b')) ∧
      (∀ raw, (∃ n, Identifier.parse raw = .ok n) ↔ IsWord raw) ∧
      (∀ raw n, Identifier.parse raw = .ok n → n.text = raw) ∧
      (∀ raw v, Destination.parse raw = .ok (.tableVariable v) ↔
        raw.toList.head? = some '@' ∧ VariableName.parse raw = .ok v) ∧
      (∀ raw n, Destination.parse raw = .ok (.table n) ↔ Identifier.parse raw = .ok n) ∧
      (∀ raw d, Destination.parse raw = .ok d → Destination.parse d.text = .ok d) ∧
      (∀ d e : Destination, d.text = e.text → d = e) ∧
      (∀ raw f, VariableName.parse raw = .error f ∨ Identifier.parse raw = .error f ∨
        Destination.parse raw = .error f → ∃ reason, f = .invalidIdentifier raw reason) ∧
      ∀ raw, VariableName.parse raw = .error (.invalidIdentifier raw VariableName.sigilReason) ↔
        "@@".toList <+: raw.toList := by
  refine ⟨fun _ => VariableName.exists_parse_iff, ?_, fun _ _ _ _ => VariableName.parse_eq_iff,
    fun _ => Identifier.exists_parse_iff, fun _ _ => Identifier.parse_ok_iff.mp,
    fun _ _ => Destination.parse_tableVariable_iff, fun _ _ => Destination.parse_table_iff,
    fun _ d _ => d.parse_own, fun _ _ => Destination.text_injective, ?_,
    fun _ => VariableName.parse_sigilReason_iff⟩
  · intro raw b hb h
    obtain ⟨v, hv, htext, hbare, hown, hplain⟩ := VariableName.parse_of_spells hb h
    exact ⟨v, hv, htext, hbare, hown, hbare ▸ hplain⟩
  · rintro raw f (h | h | h)
    · exact VariableName.parse_concerns raw f h
    · exact Identifier.parseWithin_concerns raw raw f h
    · exact Destination.parse_concerns raw f h

end TransactScript
