import TransactScript.ColumnList
import TransactScript.Proofs.Logged
import TransactScript.Proofs.Name

/-! An open column list takes a column exactly if its name is new, and puts it at the end. -/

namespace TransactScript

namespace ColumnList

variable {α : Type}

def push (l : ColumnList α) (c : α) : ColumnList α :=
  { l with columns := l.columns ++ [c] }

@[simp] lemma label_push (l : ColumnList α) (c : α) : (l.push c).label = l.label := rfl

@[simp] lemma finalized_push (l : ColumnList α) (c : α) : (l.push c).finalized = l.finalized := rfl

@[simp] lemma columns_push (l : ColumnList α) (c : α) : (l.push c).columns = l.columns ++ [c] := rfl

lemma finalize_ok {l : ColumnList α} (h : l.finalized = false) :
    l.finalize = .ok { l with finalized := true } := by
  simp [finalize, ensureOpen, h, pure, Except.pure]

variable [Named α]

@[simp] lemma names_push (l : ColumnList α) (c : α) : (l.push c).names = l.names ++ [Named.name c] := by
  simp [names]

lemma contains_text {l : ColumnList α} {n : ColumnName} : l.contains n.text = true ↔ n ∈ l.names := by
  simp only [contains, List.any_eq_true, beq_iff_eq]
  constructor
  · rintro ⟨m, hm, he⟩
    exact Identifier.text_injective he ▸ hm
  · exact fun h => ⟨n, h, rfl⟩

lemma insert_outcome (l : ColumnList α) (c : α) (ho : l.finalized = false) :
    (l.insert c).outcome =
      if Named.name c ∈ l.names then .error (.duplicateColumn l.label (Named.name c).text)
      else .ok (l.push c) := by
  have hopen : l.ensureOpen = .ok () := by simp [ensureOpen, ho]
  by_cases hc : Named.name c ∈ l.names
  · have hb := contains_text.mpr hc
    simp [insert, hopen, hb, hc]
  · have hb : l.contains (Named.name c).text = false := by
      rw [← Bool.not_eq_true, contains_text]
      exact hc
    simp [insert, hopen, hb, hc, push]

lemma insert_ok {l l' : ColumnList α} {c : α} (h : (l.insert c).outcome = .ok l') :
    l.finalized = false ∧ Named.name c ∉ l.names ∧ l' = l.push c := by
  cases ho : l.finalized with
  | true =>
    have hclosed : l.ensureOpen = .error (.sectionFinalized l.label) := by simp [ensureOpen, ho]
    simp [insert, hclosed] at h
  | false =>
    rw [insert_outcome l c ho] at h
    split at h
    · cases h
    · next hc => exact ⟨rfl, hc, (Except.ok.inj h).symm⟩

structure Grows (l l' : ColumnList α) : Prop where
  label : l'.label = l.label
  finalized : l'.finalized = l.finalized
  columns : l.columns <+: l'.columns
  nodup : l.names.Nodup → l'.names.Nodup

lemma Grows.refl (l : ColumnList α) : l.Grows l :=
  ⟨rfl, rfl, List.prefix_refl _, id⟩

lemma Grows.trans {l l' l'' : ColumnList α} (h : l.Grows l') (h' : l'.Grows l'') : l.Grows l'' :=
  ⟨h'.label.trans h.label, h'.finalized.trans h.finalized, h.columns.trans h'.columns, h'.nodup ∘ h.nodup⟩

lemma grows_push {l : ColumnList α} {c : α} (hc : Named.name c ∉ l.names) : l.Grows (l.push c) where
  label := rfl
  finalized := rfl
  columns := List.prefix_append _ _
  nodup h := by
    rw [names_push, List.nodup_append]
    refine ⟨h, by simp, ?_⟩
    intro n hn m hm he
    rw [he, List.mem_singleton.mp hm] at hn
    exact hc hn

structure Open (l : ColumnList α) : Prop where
  finalized : l.finalized = false
  nodup : l.names.Nodup

lemma open_empty (label : String) : (empty label : ColumnList α).Open :=
  ⟨rfl, List.nodup_nil⟩

lemma Open.grow {l l' : ColumnList α} (h : l.Open) (hg : l.Grows l') : l'.Open :=
  ⟨hg.finalized.trans h.finalized, hg.nodup h.nodup⟩

end ColumnList

end TransactScript
