import TransactScript.Proofs.ColumnList
import TransactScript.Session

/-! A step on an open section keeps its name and its schema. Columns and sources are only added, at the end. -/

namespace TransactScript

lemma Opening.draft_ok {o : Opening} {d : Draft} (h : o.draft = .ok d) :
    (∃ v schema, d = .table (.start v schema)) ∨
      ∃ destination schema, d = .insert (.start destination schema) := by
  cases o with
  | declare name | declareFrom schema name =>
    obtain ⟨v, _, h⟩ := Logged.except_bind_ok h
    cases h
    exact .inl ⟨v, _, rfl⟩
  | insert destination | insertFrom schema destination =>
    obtain ⟨d, _, h⟩ := Logged.except_bind_ok h
    cases h
    exact .inr ⟨d, _, rfl⟩

namespace TableDraft

structure Grows (d d' : TableDraft) : Prop where
  name : d'.name = d.name
  schema : d'.schema = d.schema
  list : d.list.Grows d'.list

lemma Grows.refl (d : TableDraft) : d.Grows d :=
  ⟨rfl, rfl, .refl _⟩

lemma Grows.trans {d d' d'' : TableDraft} (h : d.Grows d') (h' : d'.Grows d'') : d.Grows d'' :=
  ⟨h'.name.trans h.name, h'.schema.trans h.schema, h.list.trans h'.list⟩

lemma add_ok {d d' : TableDraft} {c : TableColumn} (h : (d.add c).outcome = .ok d') :
    Named.name c ∉ d.list.names ∧ d' = { d with list := d.list.push c } := by
  obtain ⟨l, hl, h⟩ := Logged.bind_ok h
  obtain ⟨_, hc, rfl⟩ := ColumnList.insert_ok hl
  cases h
  exact ⟨hc, rfl⟩

lemma add_grows {d d' : TableDraft} {c : TableColumn} (h : (d.add c).outcome = .ok d') : d.Grows d' := by
  obtain ⟨hc, rfl⟩ := add_ok h
  exact ⟨rfl, rfl, ColumnList.grows_push hc⟩

lemma addUnlessPresent_grows {d d' : TableDraft} {c : TableColumn}
    (h : (d.addUnlessPresent c).outcome = .ok d') : d.Grows d' := by
  rw [addUnlessPresent] at h
  split at h
  · cases h
    exact .refl _
  · exact add_grows h

lemma generateWith_grows {d d' : TableDraft} {columnOf : Property → Except Fault TableColumn}
    (h : (d.generateWith columnOf).outcome = .ok d') : d.Grows d' := by
  obtain ⟨schema, _, h⟩ := Logged.bind_ok h
  refine Logged.foldlM_ok Grows.refl (fun _ _ _ => Grows.trans) ?_ h
  intro e p e' he
  obtain ⟨c, _, he⟩ := Logged.bind_ok he
  exact addUnlessPresent_grows he

lemma apply_grows {s : TableStep} {d d' : TableDraft} (h : (s.apply d).outcome = .ok d') : d.Grows d' := by
  cases s with
  | column name type allowNull isPrimaryKey =>
    obtain ⟨c, _, h⟩ := Logged.bind_ok h
    exact add_grows h
  | add c => exact add_grows h
  | property name type allowNull isPrimaryKey =>
    obtain ⟨schema, _, h⟩ := Logged.bind_ok h
    obtain ⟨p, _, h⟩ := Logged.bind_ok h
    obtain ⟨c, _, h⟩ := Logged.bind_ok h
    exact add_grows h
  | generate => exact generateWith_grows h
  | generateWith columnOf => exact generateWith_grows h

end TableDraft

def InsertStep.given : InsertStep → List Source
  | define source => [source]
  | _ => []

namespace InsertDraft

structure Grows (given : List Source) (d d' : InsertDraft) : Prop where
  destination : d'.destination = d.destination
  schema : d'.schema = d.schema
  list : d.list.Grows d'.list
  sources : d'.sources = d.sources ++ given
  phase : d'.phase = if given = [] then d.phase else .data

lemma Grows.refl (d : InsertDraft) : d.Grows [] d :=
  ⟨rfl, rfl, .refl _, (List.append_nil _).symm, rfl⟩

lemma Grows.trans {xs ys : List Source} {d d' d'' : InsertDraft} (h : Grows xs d d') (h' : Grows ys d' d'') :
    Grows (xs ++ ys) d d'' where
  destination := h'.destination.trans h.destination
  schema := h'.schema.trans h.schema
  list := h.list.trans h'.list
  sources := by rw [h'.sources, h.sources, List.append_assoc]
  phase := by
    rw [h'.phase, h.phase]
    cases ys with
    | nil => simp
    | cons y ys => simp

lemma add_ok {d d' : InsertDraft} {c : Column} (h : (d.add c).outcome = .ok d') :
    Named.name c ∉ d.list.names ∧ d' = { d with list := d.list.push c } := by
  obtain ⟨_, _, h⟩ := Logged.bind_ok h
  split at h
  · obtain ⟨_, hf, _⟩ := Logged.bind_ok h
    cases hf
  · obtain ⟨l, hl, h⟩ := Logged.bind_ok h
    obtain ⟨_, hc, rfl⟩ := ColumnList.insert_ok hl
    cases h
    exact ⟨hc, rfl⟩

lemma add_grows {d d' : InsertDraft} {c : Column} (h : (d.add c).outcome = .ok d') : Grows [] d d' := by
  obtain ⟨hc, rfl⟩ := add_ok h
  exact ⟨rfl, rfl, ColumnList.grows_push hc, (List.append_nil _).symm, rfl⟩

lemma add_outcome {d : InsertDraft} (c : Column) (h : d.isDataDefining = false) :
    (d.add c).outcome = (d.list.insert c).outcome.map fun l => { d with list := l } := by
  cases ho : d.list.ensureOpen with
  | ok =>
    simp only [add, Logged.outcome_bind, Logged.outcome_lift, ho, h, Logged.ok_bind, Bool.false_eq_true,
      if_false]
    cases (d.list.insert c).outcome <;> rfl
  | error f => simp [add, ColumnList.insert, ho, Except.map]

lemma add_frozen {d : InsertDraft} (c : Column) (ho : d.list.finalized = false) (h : d.isDataDefining = true) :
    (d.add c).outcome = .error (.dataPopulationStarted d.list.label) := by
  have hopen : d.list.ensureOpen = .ok () := by simp [ColumnList.ensureOpen, ho]
  simp [add, hopen, h]

lemma not_data_of_add_ok {d d' : InsertDraft} {c : Column} (h : (d.add c).outcome = .ok d') :
    d.isDataDefining = false := by
  obtain ⟨_, _, h⟩ := Logged.bind_ok h
  split at h
  · obtain ⟨_, hf, _⟩ := Logged.bind_ok h
    cases hf
  · next hd => exact Bool.eq_false_iff.mpr hd

lemma addUnlessPresent_grows {d d' : InsertDraft} {c : Column}
    (h : (d.addUnlessPresent c).outcome = .ok d') : Grows [] d d' := by
  rw [addUnlessPresent] at h
  split at h
  · cases h
    exact .refl _
  · exact add_grows h

lemma addAll_grows {d d' : InsertDraft} {cs : List Column} (h : (d.addAll cs).outcome = .ok d') :
    Grows [] d d' :=
  Logged.foldlM_ok Grows.refl (fun _ _ _ => Grows.trans) (fun _ _ _ => add_grows) h

lemma generateWith_grows {d d' : InsertDraft} {columnOf : Property → Except Fault Column}
    (h : (d.generateWith columnOf).outcome = .ok d') : Grows [] d d' := by
  obtain ⟨schema, _, h⟩ := Logged.bind_ok h
  refine Logged.foldlM_ok Grows.refl (fun _ _ _ => Grows.trans) ?_ h
  intro e p e' he
  obtain ⟨c, _, he⟩ := Logged.bind_ok he
  exact addUnlessPresent_grows he

lemma define_outcome (d : InsertDraft) (source : Source) :
    (d.define source).outcome = .ok { d with phase := .data, sources := d.sources ++ [source] } := by
  rw [define]
  split <;> rfl

lemma propertyColumn_ok {d d' : InsertDraft} {name : String} {type : Option ColumnType}
    (h : (d.propertyColumn name type).outcome = .ok d') : ∃ c, (d.add c).outcome = .ok d' := by
  obtain ⟨schema, _, h⟩ := Logged.bind_ok h
  obtain ⟨p, _, h⟩ := Logged.bind_ok h
  obtain ⟨c, _, h⟩ := Logged.bind_ok h
  exact ⟨c, h⟩

/-- A step that succeeds adds one column, generates columns, or gives a source. -/
lemma apply_ok {s : InsertStep} {d d' : InsertDraft} (h : (s.apply d).outcome = .ok d') :
    (s.given = [] ∧ ∃ c, (d.add c).outcome = .ok d') ∨
      (s.given = [] ∧ ∃ columnOf, (d.generateWith columnOf).outcome = .ok d') ∨
      ∃ source, s.given = [source] ∧ d' = { d with phase := .data, sources := d.sources ++ [source] } := by
  cases s with
  | column name type =>
    obtain ⟨c, _, h⟩ := Logged.bind_ok h
    exact .inl ⟨rfl, c, h⟩
  | add c => exact .inl ⟨rfl, c, h⟩
  | property name type => exact .inl ⟨rfl, propertyColumn_ok h⟩
  | generate => exact .inr (.inl ⟨rfl, _, h⟩)
  | generateWith columnOf => exact .inr (.inl ⟨rfl, columnOf, h⟩)
  | define source =>
    refine .inr (.inr ⟨source, rfl, ?_⟩)
    exact (Except.ok.inj ((d.define_outcome source).symm.trans h)).symm

lemma apply_grows {s : InsertStep} {d d' : InsertDraft} (h : (s.apply d).outcome = .ok d') :
    Grows s.given d d' := by
  rcases apply_ok h with ⟨hs, c, h⟩ | ⟨hs, columnOf, h⟩ | ⟨source, hs, rfl⟩
  · rw [hs]
    exact add_grows h
  · rw [hs]
    exact generateWith_grows h
  · rw [hs]
    exact ⟨rfl, rfl, .refl _, rfl, rfl⟩

end InsertDraft

end TransactScript
