import TransactScript.Proofs.Draft.Growth
import TransactScript.Proofs.Fault

/-! What can be wrong with a step on an open section. Only a column function that the caller provides can
refuse a property for any other reason. -/

namespace TransactScript

namespace Fault

def OfStep : Fault → Prop
  | invalidIdentifier .. | duplicateColumn .. | dataPopulationStarted _ | schemaNotBound _ | schemaParse _
  | unmappedType _ => True
  | _ => False

lemma IsInvalidIdentifier.ofStep {f : Fault} (h : f.IsInvalidIdentifier) : f.OfStep := by
  cases f with
  | invalidIdentifier name reason => trivial
  | _ => cases h

end Fault

lemma Opening.draft_faults (o : Opening) : FailsOnly Fault.IsInvalidIdentifier o.draft := by
  cases o with
  | declare name => exact (VariableName.parse_faults _).bind fun _ _ => .ok _
  | declareFrom schema name => exact (VariableName.parse_faults _).bind fun _ _ => .ok _
  | insert destination => exact (Destination.parse_faults _).bind fun _ _ => .ok _
  | insertFrom schema destination => exact (Destination.parse_faults _).bind fun _ _ => .ok _

lemma HostType.columnType_faults (t : HostType) : FailsOnly Fault.OfStep t.columnType := by
  rw [columnType]
  split
  · exact .ok _
  · exact .error trivial

lemma Schema.property_faults (s : Schema) (name : String) : FailsOnly Fault.OfStep (s.property name) := by
  rw [property]
  split
  · exact .ok _
  · exact .error trivial

lemma Column.ofText_faults (name : String) (type : ColumnType) : FailsOnly Fault.OfStep (ofText name type) :=
  ((Identifier.parseWithin_faults name name).map _).mono fun _ => Fault.IsInvalidIdentifier.ofStep

lemma Column.infer_faults (p : Property) (type : Option ColumnType) :
    FailsOnly Fault.OfStep (infer p type) := by
  cases type with
  | some type => exact ofText_faults p.name type
  | none => exact p.hostType.columnType_faults.bind fun type _ => ofText_faults p.name type

lemma TableColumn.ofText_faults (name : String) (type : ColumnType) (allowNull isPrimaryKey : Bool) :
    FailsOnly Fault.OfStep (ofText name type allowNull isPrimaryKey) :=
  ((Identifier.parseWithin_faults name name).map _).mono fun _ => Fault.IsInvalidIdentifier.ofStep

lemma TableColumn.infer_faults (p : Property) (type : Option ColumnType) (allowNull : Option Bool)
    (isPrimaryKey : Bool) : FailsOnly Fault.OfStep (infer p type allowNull isPrimaryKey) := by
  cases type with
  | some type => exact ofText_faults p.name type _ _
  | none => exact p.hostType.columnType_faults.bind fun type _ => ofText_faults p.name type _ _

lemma ColumnList.insert_faults {α : Type} [Named α] {l : ColumnList α} (c : α) (ho : l.finalized = false) :
    FailsOnly Fault.OfStep (l.insert c).outcome := by
  rw [insert_outcome l c ho]
  split
  · exact .error trivial
  · exact .ok _

/-- The column function answers with the fault for a property of the schema. -/
def Refuses {α : Type} (columnOf : Property → Except Fault α) (schema : Option Schema) (f : Fault) : Prop :=
  ∃ s, schema = some s ∧ ∃ p ∈ s.properties, columnOf p = .error f

/-- Both kinds of section generate their columns alike. What is kept from column to column is that the section is
open. -/
lemma generating_faults {α δ : Type} {isOpen : δ → Prop} {add : δ → α → Logged δ}
    {bound : Except Fault Schema} {schema : Option Schema} (columnOf : Property → Except Fault α)
    (hkeep : ∀ {d c e}, isOpen d → (add d c).outcome = .ok e → isOpen e)
    (hadd : ∀ {d} c, isOpen d → FailsOnly Fault.OfStep (add d c).outcome)
    (hbound : FailsOnly Fault.OfStep bound) (hschema : ∀ {s}, bound = .ok s → schema = some s)
    {d : δ} (ho : isOpen d) :
    FailsOnly (fun f => f.OfStep ∨ Refuses columnOf schema f)
      (do (← (bound : Logged Schema)).properties.foldlM (fun d p => do add d (← columnOf p)) d :
        Logged δ).outcome := by
  refine (hbound.mono fun _ => .inl).logged_bind fun s hs => ?_
  refine .foldlM (I := isOpen) ?_ ?_ ho
  · intro d p e hd h
    obtain ⟨c, _, h⟩ := Logged.bind_ok h
    exact hkeep hd h
  · intro d p hp hd
    refine FailsOnly.logged_bind ?_ fun c _ => (hadd c hd).mono fun _ => .inl
    exact fun f hf => .inr ⟨s, hschema hs, p, hp, hf⟩

namespace TableDraft

lemma boundSchema_ok {d : TableDraft} {s : Schema} (h : d.boundSchema = .ok s) : d.schema = some s := by
  rw [boundSchema] at h
  split at h
  · next hs => rw [hs, Except.ok.inj h]
  · cases h

lemma boundSchema_faults (d : TableDraft) : FailsOnly Fault.OfStep d.boundSchema := by
  rw [boundSchema]
  split
  · exact .ok _
  · exact .error trivial

lemma add_faults {d : TableDraft} (c : TableColumn) (ho : d.list.finalized = false) :
    FailsOnly Fault.OfStep (d.add c).outcome :=
  (ColumnList.insert_faults c ho).logged_bind fun _ _ => .ok _

lemma addUnlessPresent_faults {d : TableDraft} (c : TableColumn) (ho : d.list.finalized = false) :
    FailsOnly Fault.OfStep (d.addUnlessPresent c).outcome := by
  rw [addUnlessPresent]
  split
  · exact .ok _
  · exact add_faults c ho

lemma generateWith_faults {d : TableDraft} (columnOf : Property → Except Fault TableColumn)
    (ho : d.list.finalized = false) :
    FailsOnly (fun f => f.OfStep ∨ Refuses columnOf d.schema f) (d.generateWith columnOf).outcome := by
  refine generating_faults columnOf ?_ addUnlessPresent_faults d.boundSchema_faults boundSchema_ok ho
  exact fun he h => (addUnlessPresent_grows h).list.finalized.trans he

end TableDraft

namespace InsertDraft

lemma boundSchema_ok {d : InsertDraft} {s : Schema} (h : d.boundSchema = .ok s) : d.schema = some s := by
  rw [boundSchema] at h
  split at h
  · next hs => rw [hs, Except.ok.inj h]
  · cases h

lemma boundSchema_faults (d : InsertDraft) : FailsOnly Fault.OfStep d.boundSchema := by
  rw [boundSchema]
  split
  · exact .ok _
  · exact .error trivial

lemma add_faults {d : InsertDraft} (c : Column) (ho : d.list.finalized = false) :
    FailsOnly Fault.OfStep (d.add c).outcome := by
  cases hd : d.isDataDefining with
  | true =>
    rw [add_frozen c ho hd]
    exact .error trivial
  | false =>
    rw [add_outcome c hd]
    exact (ColumnList.insert_faults c ho).map _

lemma addUnlessPresent_faults {d : InsertDraft} (c : Column) (ho : d.list.finalized = false) :
    FailsOnly Fault.OfStep (d.addUnlessPresent c).outcome := by
  rw [addUnlessPresent]
  split
  · exact .ok _
  · exact add_faults c ho

lemma generateWith_faults {d : InsertDraft} (columnOf : Property → Except Fault Column)
    (ho : d.list.finalized = false) :
    FailsOnly (fun f => f.OfStep ∨ Refuses columnOf d.schema f) (d.generateWith columnOf).outcome := by
  refine generating_faults columnOf ?_ addUnlessPresent_faults d.boundSchema_faults boundSchema_ok ho
  exact fun he h => (addUnlessPresent_grows h).list.finalized.trans he

end InsertDraft

def TableStep.PassesOn (schema : Option Schema) (f : Fault) : TableStep → Prop
  | generateWith columnOf => Refuses columnOf schema f
  | _ => False

def InsertStep.PassesOn (schema : Option Schema) (f : Fault) : InsertStep → Prop
  | generateWith columnOf => Refuses columnOf schema f
  | _ => False

lemma TableStep.apply_faults {d : TableDraft} (s : TableStep) (ho : d.list.finalized = false) :
    FailsOnly (fun f => f.OfStep ∨ s.PassesOn d.schema f) (s.apply d).outcome := by
  have hadd (c : TableColumn) := d.add_faults c ho
  cases s with
  | column name type allowNull isPrimaryKey =>
    exact ((TableColumn.ofText_faults name type allowNull isPrimaryKey).logged_bind fun c _ => hadd c).mono
      fun _ => .inl
  | add c => exact (hadd c).mono fun _ => .inl
  | property name type allowNull isPrimaryKey =>
    refine FailsOnly.mono (d.boundSchema_faults.logged_bind fun schema _ => ?_) fun _ => .inl
    refine (schema.property_faults name).logged_bind fun p _ => ?_
    exact (TableColumn.infer_faults p type allowNull isPrimaryKey).logged_bind fun c _ => hadd c
  | generate =>
    refine (TableDraft.generateWith_faults TableColumn.ofProperty ho).mono ?_
    rintro f (hf | ⟨_, _, p, _, hf⟩)
    · exact .inl hf
    · exact .inl (TableColumn.infer_faults p none none false f hf)
  | generateWith columnOf => exact TableDraft.generateWith_faults columnOf ho

lemma InsertStep.apply_faults {d : InsertDraft} (s : InsertStep) (ho : d.list.finalized = false) :
    FailsOnly (fun f => f.OfStep ∨ s.PassesOn d.schema f) (s.apply d).outcome := by
  have hadd (c : Column) := d.add_faults c ho
  cases s with
  | column name type =>
    exact ((Column.ofText_faults name type).logged_bind fun c _ => hadd c).mono fun _ => .inl
  | add c => exact (hadd c).mono fun _ => .inl
  | property name type =>
    refine FailsOnly.mono (d.boundSchema_faults.logged_bind fun schema _ => ?_) fun _ => .inl
    refine (schema.property_faults name).logged_bind fun p _ => ?_
    exact (Column.infer_faults p type).logged_bind fun c _ => hadd c
  | generate =>
    refine (InsertDraft.generateWith_faults Column.ofProperty ho).mono ?_
    rintro f (hf | ⟨_, _, p, _, hf⟩)
    · exact .inl hf
    · exact .inl (Column.infer_faults p none f hf)
  | generateWith columnOf => exact InsertDraft.generateWith_faults columnOf ho
  | define source =>
    intro f hf
    have hdefine := d.define_outcome source
    simp only [apply, hdefine] at hf
    cases hf

end TransactScript
