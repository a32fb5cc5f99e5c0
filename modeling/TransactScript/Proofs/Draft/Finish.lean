import TransactScript.Proofs.Draft.Growth

/-! A section that is finished is appended to the script as it stands, and the insert that follows a
declaration takes over its columns. -/

namespace TransactScript

def Section.names : Section → List ColumnName
  | tableVariable t => t.columns.map (·.name)
  | insertData i => i.columns.map (·.name)

namespace Script

def append (s : Script) (added : Section) : Script :=
  { s with
    sections := s.sections ++ [added]
    declared := s.declared ++ added.declaredVariable?.toList }

lemma register_outcome (s : Script) (added : Section) :
    (s.register added).outcome =
      match added.declaredVariable? with
      | none => .ok (s.append added)
      | some v => if v ∈ s.declared then .error (.duplicateVariableName v.text) else .ok (s.append added) := by
  cases hv : added.declaredVariable? with
  | none => simp [register, append, hv]
  | some v =>
    by_cases hm : v ∈ s.declared
    · simp [register, hv, hm]
    · simp [register, append, hv, hm]

end Script

namespace Draft

def finalize : Draft → Script → Logged Script
  | table d => d.finalize
  | insert d => d.finalize

def finished : Draft → Section
  | table d => .tableVariable ⟨d.name, d.list.columns, d.schema.map (·.name)⟩
  | insert d => .insertData ⟨d.destination, d.list.columns, d.sources⟩

def Sound : Draft → Prop
  | table d => d.list.Open
  | insert d => d.list.Open

lemma names_finished_nodup {d : Draft} (h : d.Sound) : d.finished.names.Nodup := by
  cases d <;> exact h.nodup

lemma start_sound {o : Opening} {d : Draft} (h : o.draft = .ok d) : d.Sound := by
  rcases Opening.draft_ok h with ⟨v, schema, rfl⟩ | ⟨destination, schema, rfl⟩
  · exact ColumnList.open_empty _
  · exact ColumnList.open_empty _

lemma finalize_table (d : TableDraft) (s : Script) (ho : d.list.finalized = false) :
    ((table d).finalize s).outcome =
      if d.list.columns = [] then .error (.emptyTableVariable d.name.text)
      else if d.name ∈ s.declared then .error (.duplicateVariableName d.name.text)
      else .ok (s.append (table d).finished) := by
  have hf : d.list.finalize = .ok { d.list with finalized := true } := ColumnList.finalize_ok ho
  by_cases hc : d.list.columns = []
  · simp [finalize, TableDraft.finalize, ColumnList.isEmpty, hc]
  · simp [finalize, TableDraft.finalize, ColumnList.isEmpty, hc, hf, Script.register_outcome,
      Section.declaredVariable?, finished]

lemma finalize_insert (d : InsertDraft) (s : Script) (ho : d.list.finalized = false) :
    ((insert d).finalize s).outcome = .ok (s.append (insert d).finished) := by
  have hf : d.list.finalize = .ok { d.list with finalized := true } := ColumnList.finalize_ok ho
  simp [finalize, InsertDraft.finalize, hf, Script.register_outcome, Section.declaredVariable?, finished]

lemma finalize_ok {d : Draft} {s s' : Script} (hd : d.Sound) (h : (d.finalize s).outcome = .ok s') :
    s' = s.append d.finished ∧
      ∀ v, d.finished.declaredVariable? = some v → v ∉ s.declared ∧ d.finished.names ≠ [] := by
  cases d with
  | table d =>
    rw [finalize_table d s hd.finalized] at h
    split at h
    · cases h
    · next hc =>
      split at h
      · cases h
      · next hm =>
        cases h
        refine ⟨rfl, fun v hv => ?_⟩
        cases hv
        exact ⟨hm, by simpa [finished, Section.names] using hc⟩
  | insert d =>
    rw [finalize_insert d s hd.finalized] at h
    cases h
    exact ⟨rfl, fun v hv => by cases hv⟩

end Draft

namespace InsertDraft

lemma addAll_outcome {d : InsertDraft} {cs : List Column} (hp : d.isDataDefining = false)
    (ho : d.list.finalized = false) (hn : (d.list.names ++ cs.map Column.name).Nodup) :
    (d.addAll cs).outcome = .ok { d with list := { d.list with columns := d.list.columns ++ cs } } := by
  induction cs generalizing d with
  | nil => simp [addAll]
  | cons c cs ih =>
    have hc : Named.name c ∉ d.list.names := by
      rw [List.map_cons, List.nodup_append] at hn
      exact fun hm => hn.2.2 _ hm _ List.mem_cons_self rfl
    have hadd : (d.add c).outcome = .ok { d with list := d.list.push c } := by
      rw [add_outcome c hp, ColumnList.insert_outcome _ _ ho, if_neg hc]
      rfl
    have hrest := ih (d := { d with list := d.list.push c }) hp ho
      (by simpa [Named.name] using hn)
    rw [addAll] at hrest ⊢
    rw [List.foldlM_cons, Logged.outcome_bind, hadd, Logged.ok_bind, hrest]
    simp

end InsertDraft

namespace TableDraft

lemma seed_nodup {d : TableDraft} (h : d.list.Open) : (d.seed.map Column.name).Nodup := by
  rw [seed]
  split
  · rw [List.map_map]
    exact h.nodup
  · exact List.nodup_nil

lemma seeding_outcome {d : TableDraft} (h : d.list.Open) :
    (d.insertStart.addAll d.seed).outcome =
      .ok ⟨.tableVariable d.name, d.schema, ⟨d.name.text, d.seed, false⟩, .columns, []⟩ := by
  have hn : (d.insertStart.list.names ++ d.seed.map Column.name).Nodup := seed_nodup h
  exact InsertDraft.addAll_outcome rfl rfl hn

lemma seeding_ne_error {d : TableDraft} {f : Fault} (h : d.list.Open) :
    (d.insertStart.addAll d.seed).outcome ≠ .error f := by
  rw [seeding_outcome h]
  intro hf
  cases hf

end TableDraft

end TransactScript
