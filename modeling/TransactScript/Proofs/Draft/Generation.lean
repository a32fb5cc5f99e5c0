import Mathlib.Data.List.Forall2
import TransactScript.Proofs.Draft.Growth
import TransactScript.Proofs.Firsts

/-! Generated columns. Of the columns that are offered, the first of each new name is added, in order, as
if it had been asked for by itself. -/

namespace TransactScript

section Taking

variable {α δ : Type} [Named α] {list : δ → ColumnList α} {add addNew : δ → α → Logged δ}

/-- A section takes a column at the end of its columns, and passes over one whose name it has. -/
structure Takes (list : δ → ColumnList α) (add addNew : δ → α → Logged δ) : Prop where
  added : ∀ {d c d'}, (add d c).outcome = .ok d' → list d' = (list d).push c
  known : ∀ {d c}, Named.name c ∈ (list d).names → (addNew d c).outcome = .ok d
  new : ∀ {d c}, Named.name c ∉ (list d).names → (addNew d c).outcome = (add d c).outcome

def nameOf (columnOf : Property → Except Fault α) (p : Property) : Option ColumnName :=
  (columnOf p).toOption.map Named.name

/-- The columns of the new properties are added in order, as if each were asked for by itself, and to generate
again changes nothing. -/
structure Generated (list : δ → ColumnList α) (columnOf : Property → Except Fault α) (new : List Property)
    (step : δ → Property → Logged δ) (again : δ → Logged δ) (d d' : δ) : Prop where
  columns : ∃ added, List.Forall₂ (fun p c => columnOf p = .ok c) new added ∧
    (list d').columns = (list d).columns ++ added
  stepwise : (new.foldlM step d).outcome = .ok d'
  stable : (again d').outcome = .ok d'

lemma names_of_forall₂ {columnOf : Property → Except Fault α} {ps : List Property} {cs : List α}
    (h : List.Forall₂ (fun p c => columnOf p = .ok c) ps cs) :
    (cs.map Named.name).map some = ps.map (nameOf columnOf) := by
  induction h with
  | nil => rfl
  | cons hp _ ih =>
    simp only [List.map_cons, ih, nameOf, hp]
    rfl

lemma firsts_nameOf {columnOf : Property → Except Fault α} {ps : List Property} {taken : List ColumnName}
    (hname : ∀ p ∈ ps, ∃ n, nameOf columnOf p = some n ∧ n.text = p.name) :
    firsts (nameOf columnOf) (taken.map some) ps = firsts Property.name (taken.map Identifier.text) ps := by
  refine firsts_congr (fun p hp => ?_) fun p hp q hq => ?_
  · obtain ⟨n, hn, ht⟩ := hname p hp
    simp [hn, ← ht, Identifier.text_inj]
  · obtain ⟨n, hn, ht⟩ := hname p hp
    obtain ⟨m, hm, hu⟩ := hname q hq
    rw [hn, hm, ← ht, ← hu, Option.some_inj, Identifier.text_inj]

namespace Takes

variable {columnOf : Property → Except Fault α} {ps : List Property} {d d' : δ}

lemma columns_of_foldlM (ht : Takes list add addNew)
    (h : (ps.foldlM (fun d p => do add d (← columnOf p)) d : Logged δ).outcome = .ok d') :
    ∃ added, List.Forall₂ (fun p c => columnOf p = .ok c) ps added ∧
      (list d').columns = (list d).columns ++ added := by
  induction ps generalizing d with
  | nil =>
    cases h
    exact ⟨[], .nil, (List.append_nil _).symm⟩
  | cons p ps ih =>
    rw [List.foldlM_cons] at h
    obtain ⟨e, he, h⟩ := Logged.bind_ok h
    obtain ⟨c, hc, he⟩ := Logged.bind_ok he
    obtain ⟨added, hadded, hcols⟩ := ih h
    refine ⟨c :: added, .cons hc hadded, ?_⟩
    rw [hcols, ht.added he, ColumnList.columns_push, List.append_assoc, List.singleton_append]

lemma foldlM_addNew (ht : Takes list add addNew) (hc : ∀ p ∈ ps, ∃ c, columnOf p = .ok c) :
    (ps.foldlM (fun d p => do addNew d (← columnOf p)) d : Logged δ).outcome =
      ((firsts (nameOf columnOf) ((list d).names.map some) ps).foldlM (fun d p => do add d (← columnOf p)) d :
        Logged δ).outcome := by
  induction ps generalizing d with
  | nil => rfl
  | cons p ps ih =>
    obtain ⟨c, hp⟩ := hc p List.mem_cons_self
    have ih' {d : δ} := ih (d := d) fun q hq => hc q (List.mem_cons_of_mem p hq)
    have hname : nameOf columnOf p = some (Named.name c) := by simp [nameOf, hp, Except.toOption]
    have hmem : nameOf columnOf p ∈ (list d).names.map some ↔ Named.name c ∈ (list d).names := by
      simp [hname]
    rw [List.foldlM_cons, firsts_cons]
    -- both sides go on from the same section: the taken names are those of its columns
    by_cases hn : Named.name c ∈ (list d).names
    · rw [if_pos (hmem.mpr hn), ← ih']
      simp [hp, ht.known hn]
    · rw [if_neg (hmem.not.mpr hn), List.foldlM_cons]
      simp only [Logged.outcome_bind, Logged.outcome_lift, hp, Logged.ok_bind, ht.new hn]
      cases he : (add d c).outcome with
      | error f => rfl
      | ok e =>
        have hnames : (list e).names.map some = (list d).names.map some ++ [nameOf columnOf p] := by
          simp [ht.added he, hname]
        rw [Logged.ok_bind, Logged.ok_bind, ih', hnames]

lemma foldlM_known (ht : Takes list add addNew) (hc : ∀ p ∈ ps, ∃ c, columnOf p = .ok c)
    (hknown : ∀ p ∈ ps, nameOf columnOf p ∈ (list d).names.map some) :
    (ps.foldlM (fun d p => do addNew d (← columnOf p)) d : Logged δ).outcome = .ok d := by
  rw [ht.foldlM_addNew hc, firsts_eq_nil hknown]
  rfl

lemma generated (ht : Takes list add addNew)
    (h : (ps.foldlM (fun d p => do addNew d (← columnOf p)) d : Logged δ).outcome = .ok d') :
    Generated list columnOf (firsts (nameOf columnOf) ((list d).names.map some) ps)
      (fun d p => do add d (← columnOf p)) (ps.foldlM fun d p => do addNew d (← columnOf p)) d d' := by
  have hc := Logged.ok_of_foldlM_lift h
  rw [ht.foldlM_addNew hc] at h
  obtain ⟨added, hadded, hcols⟩ := ht.columns_of_foldlM h
  refine ⟨⟨added, hadded, hcols⟩, h, ?_⟩
  -- by now every name is known, so that there is nothing new
  have hknown : ∀ p ∈ ps, nameOf columnOf p ∈ (list d').names.map some := by
    intro p hp
    rw [ColumnList.names, hcols, List.map_append, List.map_append, List.mem_append, names_of_forall₂ hadded]
    rcases key_mem_firsts (nameOf columnOf) ((list d).names.map some) hp with hk | ⟨q, hq, he⟩
    · exact .inl hk
    · exact .inr (he ▸ List.mem_map_of_mem hq)
  exact ht.foldlM_known hc hknown

end Takes

/-- A section bound to a schema takes the columns of its properties one after the other. -/
structure Generates (list : δ → ColumnList α) (add addNew : δ → α → Logged δ) (schemaOf : δ → Option Schema)
    (generateWith : δ → (Property → Except Fault α) → Logged δ) : Prop extends Takes list add addNew where
  fold : ∀ {d schema}, schemaOf d = some schema → ∀ columnOf, generateWith d columnOf =
    schema.properties.foldlM (fun d p => do addNew d (← columnOf p)) d
  bound : ∀ {d c d'}, (add d c).outcome = .ok d' → schemaOf d' = schemaOf d
  bound_generateWith : ∀ {d columnOf d'}, (generateWith d columnOf).outcome = .ok d' → schemaOf d' = schemaOf d

namespace Generates

variable {schemaOf : δ → Option Schema} {generateWith : δ → (Property → Except Fault α) → Logged δ}
  {columnOf : Property → Except Fault α} {schema : Schema} {d d' : δ}

lemma generated (hg : Generates list add addNew schemaOf generateWith) (hs : schemaOf d = some schema)
    (h : (generateWith d columnOf).outcome = .ok d') :
    Generated list columnOf (firsts (nameOf columnOf) ((list d).names.map some) schema.properties)
      (fun d p => do add d (← columnOf p)) (generateWith · columnOf) d d' := by
  have hs' : schemaOf d' = some schema := (hg.bound_generateWith h).trans hs
  rw [hg.fold hs] at h
  have hgen := hg.toTakes.generated h
  exact ⟨hgen.columns, hgen.stepwise, by rw [hg.fold hs', hgen.stable]⟩

/-- Where the columns are named after their properties, each could have been asked for by the name of its
property. -/
lemma generated_by_name (hg : Generates list add addNew schemaOf generateWith) {byName : δ → Property → Logged δ}
    (hname : ∀ {p c}, columnOf p = .ok c → (Named.name c).text = p.name)
    (hbyName : ∀ {d p}, schemaOf d = some schema → schema.properties.find? (fun q => q.name == p.name) = some p →
      byName d p = (do add d (← columnOf p)))
    (hs : schemaOf d = some schema) (h : (generateWith d columnOf).outcome = .ok d') :
    Generated list columnOf (firsts Property.name ((list d).names.map Identifier.text) schema.properties) byName
      (generateWith · columnOf) d d' := by
  have hfirsts : firsts (nameOf columnOf) ((list d).names.map some) schema.properties =
      firsts Property.name ((list d).names.map Identifier.text) schema.properties := by
    refine firsts_nameOf fun p hp => ?_
    obtain ⟨c, hc⟩ := Logged.ok_of_foldlM_lift (hg.fold hs columnOf ▸ h) p hp
    exact ⟨Named.name c, by simp [nameOf, hc, Except.toOption], hname hc⟩
  have hgen := hg.generated hs h
  rw [hfirsts] at hgen
  refine ⟨hgen.columns, ?_, hgen.stable⟩
  rw [← hgen.stepwise]
  refine (Logged.foldlM_congr (I := fun d => schemaOf d = some schema) (fun d p e hd he => ?_)
    (fun d hd p hp => ?_) hs).symm
  · obtain ⟨c, _, he⟩ := Logged.bind_ok he
    exact (hg.bound he).trans hd
  · rw [hbyName hd (find?_of_mem_firsts hp)]

end Generates

end Taking

lemma TableDraft.addUnlessPresent_outcome (d : TableDraft) (c : TableColumn) :
    (d.addUnlessPresent c).outcome = if Named.name c ∈ d.list.names then .ok d else (d.add c).outcome := by
  have hc : d.list.contains c.name.text = true ↔ Named.name c ∈ d.list.names := ColumnList.contains_text
  rw [addUnlessPresent, if_congr hc rfl rfl]
  split <;> rfl

lemma InsertDraft.addUnlessPresent_outcome (d : InsertDraft) (c : Column) :
    (d.addUnlessPresent c).outcome = if Named.name c ∈ d.list.names then .ok d else (d.add c).outcome := by
  have hc : d.list.contains c.name.text = true ↔ Named.name c ∈ d.list.names := ColumnList.contains_text
  rw [addUnlessPresent, if_congr hc rfl rfl]
  split <;> rfl

lemma Schema.property_of_find? {s : Schema} {p : Property} (h : s.properties.find? (fun q => q.name == p.name) = some p) :
    s.property p.name = .ok p := by
  rw [property, property?, h]

lemma Identifier.text_of_parse_map {β : Type} {raw : String} {g : Identifier → β} {b : β}
    (h : (parse raw).map g = .ok b) : ∃ n, n.text = raw ∧ g n = b := by
  cases hn : parse raw with
  | error f =>
    rw [hn] at h
    cases h
  | ok n =>
    rw [hn] at h
    exact ⟨n, parseWithin_ok_iff.mp hn, Except.ok.inj h⟩

lemma Column.name_of_ofProperty {p : Property} {c : Column} (h : ofProperty p = .ok c) : c.name.text = p.name := by
  obtain ⟨type, _, h⟩ := Logged.except_bind_ok h
  obtain ⟨n, hn, rfl⟩ := Identifier.text_of_parse_map h
  exact hn

lemma TableColumn.name_of_ofProperty {p : Property} {c : TableColumn} (h : ofProperty p = .ok c) :
    c.name.text = p.name := by
  obtain ⟨type, _, h⟩ := Logged.except_bind_ok h
  obtain ⟨n, hn, rfl⟩ := Identifier.text_of_parse_map h
  exact hn

namespace TableDraft

variable {d d' : TableDraft} {schema : Schema}

lemma boundSchema_of_schema (hs : d.schema = some schema) : (d.boundSchema : Logged Schema) = pure schema := by
  rw [boundSchema, hs]
  rfl

lemma generates : Generates list add addUnlessPresent TableDraft.schema generateWith where
  added h := by
    obtain ⟨_, rfl⟩ := add_ok h
    rfl
  known h := by rw [addUnlessPresent_outcome, if_pos h]
  new h := by rw [addUnlessPresent_outcome, if_neg h]
  fold hs columnOf := by rw [generateWith, boundSchema_of_schema hs, pure_bind]
  bound h := (add_grows h).schema
  bound_generateWith h := (generateWith_grows h).schema

lemma propertyColumn_of_find? {p : Property} (hs : d.schema = some schema)
    (hp : schema.properties.find? (fun q => q.name == p.name) = some p) :
    d.propertyColumn p.name none none false = (do d.add (← TableColumn.ofProperty p)) := by
  rw [propertyColumn, boundSchema_of_schema hs, pure_bind, Schema.property_of_find? hp]
  rfl

end TableDraft

namespace InsertDraft

variable {d d' : InsertDraft} {schema : Schema}

lemma boundSchema_of_schema (hs : d.schema = some schema) : (d.boundSchema : Logged Schema) = pure schema := by
  rw [boundSchema, hs]
  rfl

lemma generates : Generates list add addUnlessPresent InsertDraft.schema generateWith where
  added h := by
    obtain ⟨_, rfl⟩ := add_ok h
    rfl
  known h := by rw [addUnlessPresent_outcome, if_pos h]
  new h := by rw [addUnlessPresent_outcome, if_neg h]
  fold hs columnOf := by rw [generateWith, boundSchema_of_schema hs, pure_bind]
  bound h := (add_grows h).schema
  bound_generateWith h := (generateWith_grows h).schema

lemma propertyColumn_of_find? {p : Property} (hs : d.schema = some schema)
    (hp : schema.properties.find? (fun q => q.name == p.name) = some p) :
    d.propertyColumn p.name none = (do d.add (← Column.ofProperty p)) := by
  rw [propertyColumn, boundSchema_of_schema hs, pure_bind, Schema.property_of_find? hp]
  rfl

end InsertDraft

theorem columns_of_generate (schema : Schema) :
    (∀ d d' : TableDraft, d.schema = some schema → d.generate.outcome = .ok d' →
      Generated TableDraft.list TableColumn.ofProperty
        (firsts Property.name (d.list.names.map Identifier.text) schema.properties)
        (fun d p => d.propertyColumn p.name none none false) TableDraft.generate d d') ∧
      (∀ d d' : InsertDraft, d.schema = some schema → d.generate.outcome = .ok d' →
        Generated InsertDraft.list Column.ofProperty
          (firsts Property.name (d.list.names.map Identifier.text) schema.properties)
          (fun d p => d.propertyColumn p.name none) InsertDraft.generate d d') ∧
      (∀ columnOf, ∀ d d' : TableDraft, d.schema = some schema → (d.generateWith columnOf).outcome = .ok d' →
        Generated TableDraft.list columnOf
          (firsts (nameOf columnOf) (d.list.names.map some) schema.properties)
          (fun d p => do d.add (← columnOf p)) (fun d => d.generateWith columnOf) d d') ∧
      ∀ columnOf, ∀ d d' : InsertDraft, d.schema = some schema → (d.generateWith columnOf).outcome = .ok d' →
        Generated InsertDraft.list columnOf
          (firsts (nameOf columnOf) (d.list.names.map some) schema.properties)
          (fun d p => do d.add (← columnOf p)) (fun d => d.generateWith columnOf) d d' :=
  ⟨fun _ _ => TableDraft.generates.generated_by_name TableColumn.name_of_ofProperty TableDraft.propertyColumn_of_find?,
    fun _ _ => InsertDraft.generates.generated_by_name Column.name_of_ofProperty InsertDraft.propertyColumn_of_find?,
    fun _ _ _ => TableDraft.generates.generated, fun _ _ _ => InsertDraft.generates.generated⟩

def people : Schema :=
  ⟨"People", [⟨"Id", ⟨.int, false⟩⟩, ⟨"Name", ⟨.string, true⟩⟩, ⟨"Id", ⟨.long, false⟩⟩, ⟨"Age", ⟨.short, true⟩⟩]⟩

def peopleByName : TableDraft where
  name := ⟨⟨"People", by decide⟩⟩
  schema := some people
  list := ⟨"@People", [⟨⟨"Name", by decide⟩, .string .varchar (some 40), false, true⟩], false⟩

theorem columns_of_generate_people : ∃ d', peopleByName.generate.outcome = .ok d' ∧
    d'.list.columns = [⟨⟨"Name", by decide⟩, .string .varchar (some 40), false, true⟩,
      ⟨⟨"Id", by decide⟩, .plain .int, false, false⟩, ⟨⟨"Age", by decide⟩, .plain .smallint, true, false⟩] ∧
    d'.generate.outcome = .ok d' := by
  obtain ⟨d', hd'⟩ : ∃ d', peopleByName.generate.outcome = .ok d' := ⟨_, rfl⟩
  have hg := (columns_of_generate people).1 peopleByName d' rfl hd'
  obtain ⟨added, hadded, hcols⟩ := hg.columns
  refine ⟨d', hd', ?_, hg.stable⟩
  have hnew : firsts Property.name (peopleByName.list.names.map Identifier.text) people.properties =
      [⟨"Id", ⟨.int, false⟩⟩, ⟨"Age", ⟨.short, true⟩⟩] := by decide
  rw [hnew] at hadded
  rw [hcols]
  rcases hadded with _ | ⟨⟨⟩, _ | ⟨⟨⟩, ⟨⟩⟩⟩
  rfl

end TransactScript
