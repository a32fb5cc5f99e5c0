import TransactScript.Proofs.Draft.Growth

/-! The insert into a variable, filled with the same columns as the declaration of that variable, accepts
and refuses the same columns for the same reasons. -/

namespace TransactScript

inductive ColumnStep where
  | column (name : String) (type : ColumnType) (allowNull isPrimaryKey : Bool)
  | property (name : String) (type : Option ColumnType) (allowNull : Option Bool) (isPrimaryKey : Bool)
  | generate

namespace ColumnStep

def onTable : ColumnStep → TableStep
  | column name type allowNull isPrimaryKey => .column name type allowNull isPrimaryKey
  | property name type allowNull isPrimaryKey => .property name type allowNull isPrimaryKey
  | generate => .generate

def onInsert : ColumnStep → InsertStep
  | column name type _ _ => .column name type
  | property name type _ _ => .property name type
  | generate => .generate

end ColumnStep

def ColumnList.mirror (l : ColumnList TableColumn) : ColumnList Column :=
  ⟨l.label, l.columns.map TableColumn.toColumn, l.finalized⟩

def TableDraft.mirror (t : TableDraft) : InsertDraft :=
  ⟨.tableVariable t.name, t.schema, t.list.mirror, .columns, []⟩

lemma mirror_start (v : VariableName) (schema : Option Schema) :
    (TableDraft.start v schema).mirror = .start (.tableVariable v) schema := rfl

@[simp] lemma names_mirror (l : ColumnList TableColumn) : l.mirror.names = l.names := by
  simp [ColumnList.names, ColumnList.mirror, Named.name, TableColumn.toColumn]

@[simp] lemma contains_mirror (l : ColumnList TableColumn) (name : String) :
    l.mirror.contains name = l.contains name := by
  rw [ColumnList.contains, ColumnList.contains, names_mirror]

lemma ofText_mirror (name : String) (type : ColumnType) (allowNull isPrimaryKey : Bool) :
    Column.ofText name type =
      (TableColumn.ofText name type allowNull isPrimaryKey).map TableColumn.toColumn := by
  rw [Column.ofText, TableColumn.ofText]
  cases Identifier.parse name <;> rfl

lemma infer_mirror (p : Property) (type : Option ColumnType) (allowNull : Option Bool) (isPrimaryKey : Bool) :
    Column.infer p type = (TableColumn.infer p type allowNull isPrimaryKey).map TableColumn.toColumn := by
  simp only [Column.infer, TableColumn.infer]
  cases type with
  | some type => exact ofText_mirror p.name type _ _
  | none =>
    cases ht : p.hostType.columnType with
    | ok type => exact ofText_mirror p.name type _ _
    | error f => rfl

lemma insert_mirror (l : ColumnList TableColumn) (c : TableColumn) :
    (l.mirror.insert c.toColumn).outcome = (l.insert c).outcome.map ColumnList.mirror := by
  cases ho : l.finalized with
  | true =>
    have hl : l.ensureOpen = .error (.sectionFinalized l.label) := by simp [ColumnList.ensureOpen, ho]
    have hm : l.mirror.ensureOpen = .error (.sectionFinalized l.label) := hl
    simp [ColumnList.insert, hl, hm, Except.map]
  | false =>
    have hn : Named.name c.toColumn = Named.name c := rfl
    rw [ColumnList.insert_outcome _ _ ho, ColumnList.insert_outcome l.mirror c.toColumn ho, names_mirror, hn]
    split
    · rfl
    · simp [Except.map, ColumnList.mirror, ColumnList.push]

namespace TableDraft

lemma add_mirror (t : TableDraft) (c : TableColumn) :
    (t.mirror.add c.toColumn).outcome = (t.add c).outcome.map mirror := by
  rw [InsertDraft.add_outcome c.toColumn rfl]
  have hl : (t.mirror.list.insert c.toColumn).outcome = (t.list.insert c).outcome.map ColumnList.mirror :=
    insert_mirror t.list c
  rw [hl, add, Logged.outcome_bind]
  cases (t.list.insert c).outcome <;> rfl

lemma addUnlessPresent_mirror (t : TableDraft) (c : TableColumn) :
    (t.mirror.addUnlessPresent c.toColumn).outcome = (t.addUnlessPresent c).outcome.map mirror := by
  have hc : t.mirror.list.contains c.toColumn.name.text = t.list.contains c.name.text :=
    contains_mirror t.list c.name.text
  rw [InsertDraft.addUnlessPresent, addUnlessPresent, hc]
  split
  · rfl
  · exact add_mirror t c

lemma boundSchema_mirror (t : TableDraft) : t.mirror.boundSchema = t.boundSchema := rfl

lemma generate_mirror (t : TableDraft) :
    t.mirror.generate.outcome = t.generate.outcome.map mirror := by
  refine Logged.bind_simulation (f := id) ?_ fun schema => ?_
  · rw [boundSchema_mirror, Logged.outcome_lift]
    cases t.boundSchema <;> rfl
  · refine Logged.foldlM_simulation (fun t p => ?_) schema.properties t
    exact Logged.bind_simulation (infer_mirror p none none false) (addUnlessPresent_mirror t)

end TableDraft

lemma apply_mirror (s : ColumnStep) (t : TableDraft) :
    (s.onInsert.apply t.mirror).outcome = (s.onTable.apply t).outcome.map TableDraft.mirror := by
  cases s with
  | column name type allowNull isPrimaryKey =>
    exact Logged.bind_simulation (ofText_mirror name type allowNull isPrimaryKey) t.add_mirror
  | property name type allowNull isPrimaryKey =>
    refine Logged.bind_simulation (f := id) ?_ fun schema => ?_
    · rw [t.boundSchema_mirror, Logged.outcome_lift]
      cases t.boundSchema <;> rfl
    · refine Logged.bind_simulation (f := id) ?_ fun p => ?_
      · rw [id, Logged.outcome_lift]
        cases schema.property name <;> rfl
      · exact Logged.bind_simulation (infer_mirror p type allowNull isPrimaryKey) t.add_mirror
  | generate => exact t.generate_mirror

/-- The states after each step up to the first step that fails, and why that step fails. -/
def progress {σ δ : Type} (apply : δ → σ → Logged δ) (d : δ) : List σ → List δ × Option Fault
  | [] => ([], none)
  | s :: rest =>
      match (apply d s).outcome with
      | .ok d' => (d' :: (progress apply d' rest).1, (progress apply d' rest).2)
      | .error f => ([], some f)

lemma progress_mirror (t : TableDraft) (steps : List ColumnStep) :
    progress (fun i s => s.onInsert.apply i) t.mirror steps =
      ((progress (fun t s => s.onTable.apply t) t steps).1.map TableDraft.mirror,
        (progress (fun t s => s.onTable.apply t) t steps).2) := by
  induction steps generalizing t with
  | nil => rfl
  | cons s rest ih =>
    simp only [progress, apply_mirror]
    cases hs : (s.onTable.apply t).outcome with
    | ok t' => simp [Except.map, ih]
    | error f => rfl

namespace Opening

def declaring : Option Schema → String → Opening
  | none => declare
  | some schema => declareFrom schema

def inserting : Option Schema → String → Opening
  | none => insert
  | some schema => insertFrom schema

lemma nameOrDefault_variable (v : VariableName) (schema : Schema) : nameOrDefault v.text schema = v.text := by
  simp [nameOrDefault, v.not_blank]

lemma draft_declaring (schema : Option Schema) (v : VariableName) :
    (declaring schema v.text).draft = .ok (.table (.start v schema)) := by
  cases schema with
  | none =>
    simp only [declaring, draft, VariableName.parse_text]
    rfl
  | some schema =>
    simp only [declaring, draft, nameOrDefault_variable, VariableName.parse_text]
    rfl

lemma draft_inserting (schema : Option Schema) (v : VariableName) :
    (inserting schema v.text).draft = .ok (.insert (.start (.tableVariable v) schema)) := by
  cases schema with
  | none =>
    simp only [inserting, draft, Destination.parse_variable]
    rfl
  | some schema =>
    simp only [inserting, draft, nameOrDefault_variable, Destination.parse_variable]
    rfl

end Opening

theorem declaration_and_insert_in_step (v : VariableName) (schema : Option Schema) (steps : List ColumnStep) :
    ∃ t i, (Opening.declaring schema v.text).draft = .ok (.table t) ∧
      (Opening.inserting schema v.text).draft = .ok (.insert i) ∧
      let table := progress (fun t s => s.onTable.apply t) t steps
      let insert := progress (fun i s => s.onInsert.apply i) i steps
      insert.1.map (·.list.columns) = table.1.map (·.list.columns.map TableColumn.toColumn) ∧
        insert.2 = table.2 := by
  refine ⟨_, _, Opening.draft_declaring schema v, Opening.draft_inserting schema v, ?_⟩
  intro table insert
  have h : insert = (table.1.map TableDraft.mirror, table.2) := by
    simpa only [mirror_start] using progress_mirror (.start v schema) steps
  rw [h]
  refine ⟨?_, rfl⟩
  rw [List.map_map]
  rfl

end TransactScript
