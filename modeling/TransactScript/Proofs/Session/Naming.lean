import Mathlib.Data.List.Nodup
import TransactScript.Proofs.Session.Run

/-! Names in a script that a run has composed: the registry holds what the sections declare, each variable
once, and no section is without names or uses one twice. -/

namespace TransactScript

namespace Script

variable {s : Script}

lemma mem_declaredVariables {v : VariableName} :
    v ∈ s.declaredVariables ↔ ∃ t, .tableVariable t ∈ s.sections ∧ t.name = v := by
  rw [declaredVariables, List.mem_filterMap]
  constructor
  · rintro ⟨sec, hs, hv⟩
    cases sec with
    | tableVariable t => exact ⟨t, hs, Option.some.inj hv⟩
    | insertData i => cases hv
  · rintro ⟨t, ht, rfl⟩
    exact ⟨_, ht, rfl⟩

lemma isDeclared_iff {raw : String} :
    s.isDeclared raw = true ↔ ∃ v, VariableName.parse raw = .ok v ∧ v ∈ s.declared := by
  rw [isDeclared]
  cases hv : VariableName.parse raw with
  | ok v => simp
  | error f => simp

lemma isDeclared_sigil {raw : String} (h : raw.toList.head? ≠ some sigil) :
    s.isDeclared ("@" ++ raw) = s.isDeclared raw := by
  rw [Bool.eq_iff_iff, isDeclared_iff, isDeclared_iff]
  simp only [VariableName.parse_ok_iff, VariableName.body_sigil h]

lemma Consistent.columns_ne_nil (h : s.Consistent) {t : TableVariable} (ht : .tableVariable t ∈ s.sections) :
    t.columns ≠ [] := by
  intro hc
  refine h.nonempty _ ht (by simp [Section.declaredVariable?]) ?_
  simp [Section.names, hc]

end Script

theorem names_of_run (o : RenderOptions) (as : List Action) :
    let s := ((Session.start o).run as).script
    (∀ v, v ∈ s.declared ↔ ∃ t, .tableVariable t ∈ s.sections ∧ t.name = v) ∧
      (s.declaredVariables.map VariableName.text).Nodup ∧
      (∀ t, .tableVariable t ∈ s.sections → t.columns ≠ []) ∧
      (∀ sec ∈ s.sections, (sec.names.map Identifier.text).Nodup ∧
        ∀ n ∈ sec.names, n.text.toList ≠ [] ∧ ∀ c ∈ n.text.toList,
          ('A' ≤ c ∧ c ≤ 'Z') ∨ ('a' ≤ c ∧ c ≤ 'z') ∨ ('0' ≤ c ∧ c ≤ '9') ∨ c = '_') ∧
      (∀ raw, s.isDeclared raw = true ↔
        ∃ t, VariableName.parse raw = .ok t.name ∧ .tableVariable t ∈ s.sections) ∧
      ∀ raw, raw.toList.head? ≠ some '@' → s.isDeclared ("@" ++ raw) = s.isDeclared raw := by
  intro s
  have hs : s.Consistent := (Session.run_sound o as).script
  have hmem : ∀ v, v ∈ s.declared ↔ ∃ t, .tableVariable t ∈ s.sections ∧ t.name = v := by
    intro v
    rw [hs.declared]
    exact Script.mem_declaredVariables
  refine ⟨hmem, ?_, fun t => hs.columns_ne_nil, ?_, ?_, fun raw => Script.isDeclared_sigil⟩
  · have hn : s.declaredVariables.Nodup := hs.declared ▸ hs.nodup
    exact hn.map fun _ _ => VariableName.text_injective
  · intro sec hsec
    refine ⟨(hs.names sec hsec).map fun _ _ => Identifier.text_injective, fun n _ => ⟨n.valid.1, ?_⟩⟩
    exact fun c hc => isNameChar_iff.mp (n.valid.2 c hc)
  · intro raw
    rw [Script.isDeclared_iff]
    constructor
    · rintro ⟨v, hv, hm⟩
      obtain ⟨t, ht, rfl⟩ := (hmem v).mp hm
      exact ⟨t, hv, ht⟩
    · rintro ⟨t, hv, ht⟩
      exact ⟨t.name, hv, (hmem _).mpr ⟨t, ht, rfl⟩⟩

end TransactScript
