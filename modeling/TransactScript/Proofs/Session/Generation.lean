import TransactScript.Proofs.Draft.Generation
import TransactScript.Proofs.Session.Run

/-! When columns can be generated. A column is inferred from every property before its name is looked for, so
that a column which is there already does not excuse its property from having a column type. -/

namespace TransactScript

namespace Property

def isUnmapped (p : Property) : Bool :=
  p.hostType.kind.columnType?.isNone

def IsInferable (p : Property) : Prop :=
  p.isUnmapped = false ∧ IsName p.name.toList

instance (p : Property) : Decidable p.IsInferable :=
  inferInstanceAs (Decidable (_ ∧ _))

end Property

lemma HostType.columnType_of_isUnmapped {p : Property} (h : p.isUnmapped = true) :
    p.hostType.columnType = .error (.unmappedType p.hostType.text) := by
  rw [columnType, Option.isNone_iff_eq_none.mp h]

lemma HostType.exists_columnType {p : Property} (h : p.isUnmapped = false) :
    ∃ type, p.hostType.columnType = .ok type := by
  obtain ⟨type, ht⟩ := Option.isSome_iff_exists.mp (Option.isNone_eq_false_iff.mp h)
  exact ⟨type, by rw [columnType, ht]⟩

/-- The type of a property is looked at before its name. -/
structure Infers {α : Type} (columnOf : Property → Except Fault α) : Prop where
  unmapped : ∀ {p : Property}, p.isUnmapped = true → columnOf p = .error (.unmappedType p.hostType.text)
  inferable : ∀ {p : Property}, (∃ c, columnOf p = .ok c) ↔ p.IsInferable

lemma infers_parse {α : Type} (make : Property → ColumnType → Identifier → α) :
    Infers fun p => do (Identifier.parse p.name).map (make p (← p.hostType.columnType)) where
  unmapped h := by rw [HostType.columnType_of_isUnmapped h, Logged.error_bind]
  inferable := by
    intro p
    constructor
    · rintro ⟨c, h⟩
      obtain ⟨type, ht, h⟩ := Logged.except_bind_ok h
      obtain ⟨n, hn, _⟩ := Identifier.text_of_parse_map h
      refine ⟨?_, hn ▸ n.valid⟩
      rw [← Bool.not_eq_true]
      intro hu
      rw [HostType.columnType_of_isUnmapped hu] at ht
      cases ht
    · rintro ⟨hp, hn⟩
      obtain ⟨type, ht⟩ := HostType.exists_columnType hp
      have hparse : Identifier.parse p.name = .ok ⟨p.name, hn⟩ := Identifier.parseWithin_ok_iff.mpr rfl
      exact ⟨_, by rw [ht, Logged.ok_bind, hparse, Logged.ok_map]⟩

lemma TableColumn.infers : Infers ofProperty :=
  infers_parse fun p type n => (⟨n, type, p.hostType.nullable, false⟩ : TableColumn)

lemma Column.infers : Infers ofProperty :=
  infers_parse fun _ type n => (⟨n, type⟩ : Column)

namespace Takes

variable {α δ : Type} [Named α] {list : δ → ColumnList α} {add addNew : δ → α → Logged δ} {isOpen : δ → Prop}
  {columnOf : Property → Except Fault α} {ps : List Property} {d : δ}

lemma answer (ht : Takes list add addNew) (hi : Infers columnOf)
    (hadd : ∀ {d c}, isOpen d → Named.name c ∉ (list d).names → ∃ e, (add d c).outcome = .ok e ∧ isOpen e)
    (hn : ∀ p ∈ ps, IsName p.name.toList) (ho : isOpen d) :
    (ps.foldlM (fun d p => do addNew d (← columnOf p)) d : Logged δ).outcome.map (fun _ => ()) =
      match ps.find? Property.isUnmapped with
      | none => .ok ()
      | some p => .error (.unmappedType p.hostType.text) := by
  induction ps generalizing d with
  | nil => rfl
  | cons p ps ih =>
    have ih' {d : δ} (ho : isOpen d) := ih (d := d) (fun q hq => hn q (List.mem_cons_of_mem p hq)) ho
    rw [List.foldlM_cons, Logged.outcome_bind, Logged.outcome_bind, Logged.outcome_lift]
    cases hp : p.isUnmapped with
    | true =>
      -- no column is looked for, not even one that is there
      rw [List.find?_cons_of_pos hp, hi.unmapped hp]
      rfl
    | false =>
      obtain ⟨c, hc⟩ := hi.inferable.mpr ⟨hp, hn p List.mem_cons_self⟩
      rw [List.find?_cons_of_neg (by simp [hp]), hc, Logged.ok_bind]
      by_cases hc : Named.name c ∈ (list d).names
      · rw [ht.known hc]
        exact ih' ho
      · obtain ⟨e, he, ho'⟩ := hadd ho hc
        rw [ht.new hc, he]
        exact ih' ho'

end Takes

/-- What generating columns for the properties answers, if those covered have their columns already. -/
structure GenerationAnswer (ps : List Property) (covered : String → Bool) (answer : Except Fault Unit) : Prop where
  ok_iff : answer = .ok () ↔ ∀ p ∈ ps, p.IsInferable
  of_uncovered : (∀ p ∈ ps, covered p.name = false → p.IsInferable) →
    answer = match ps.find? Property.isUnmapped with
      | none => .ok ()
      | some p => .error (.unmappedType p.hostType.text)

lemma Takes.generationAnswer {α δ : Type} [Named α] {list : δ → ColumnList α} {add addNew : δ → α → Logged δ}
    {columnOf : Property → Except Fault α} (ht : Takes list add addNew) (hi : Infers columnOf) (isOpen : δ → Prop)
    (hadd : ∀ {d c}, isOpen d → Named.name c ∉ (list d).names → ∃ e, (add d c).outcome = .ok e ∧ isOpen e)
    (ps : List Property) {d : δ} (ho : isOpen d) :
    GenerationAnswer ps (list d).contains
      ((ps.foldlM (fun d p => do addNew d (← columnOf p)) d : Logged δ).outcome.map fun _ => ()) where
  ok_iff := by
    refine ⟨fun hok p hp => ?_, fun h => ?_⟩
    · cases hfold : (ps.foldlM (fun d p => do addNew d (← columnOf p)) d : Logged δ).outcome with
      | ok d' => exact hi.inferable.mp (Logged.ok_of_foldlM_lift hfold p hp)
      | error f =>
        rw [hfold] at hok
        cases hok
    · have hmapped : ps.find? Property.isUnmapped = none :=
        List.find?_eq_none.mpr fun p hp => by simp [(h p hp).1]
      rw [ht.answer hi hadd (fun p hp => (h p hp).2) ho, hmapped]
  of_uncovered h := by
    refine ht.answer hi hadd (fun p hp => ?_) ho
    cases hc : (list d).contains p.name with
    | false => exact (h p hp hc).2
    | true =>
      -- the name of a column is valid, whatever the type of the property that has the name too
      obtain ⟨n, _, he⟩ := List.any_eq_true.mp hc
      exact eq_of_beq he ▸ n.valid

lemma TableDraft.add_new {d : TableDraft} {c : TableColumn} (ho : d.list.finalized = false)
    (hn : Named.name c ∉ d.list.names) : (d.add c).outcome = .ok { d with list := d.list.push c } := by
  rw [add, Logged.outcome_bind, ColumnList.insert_outcome _ _ ho, if_neg hn]
  rfl

lemma InsertDraft.add_new {d : InsertDraft} {c : Column} (ho : d.list.finalized = false) (hp : d.phase = .columns)
    (hn : Named.name c ∉ d.list.names) : (d.add c).outcome = .ok { d with list := d.list.push c } := by
  have hd : d.isDataDefining = false := by simp [isDataDefining, hp]
  rw [add_outcome c hd, ColumnList.insert_outcome _ _ ho, if_neg hn]
  rfl

lemma TableDraft.generate_answer {d : TableDraft} {schema : Schema} (hs : d.schema = some schema)
    (ho : d.list.finalized = false) :
    GenerationAnswer schema.properties d.list.contains (d.generate.outcome.map fun _ => ()) := by
  rw [generate, generates.fold hs]
  refine generates.generationAnswer TableColumn.infers (fun d => d.list.finalized = false) ?_ schema.properties ho
  exact fun ho hn => ⟨_, add_new ho hn, ho⟩

lemma InsertDraft.generate_answer {d : InsertDraft} {schema : Schema} (hs : d.schema = some schema)
    (ho : d.list.finalized = false) (hp : d.phase = .columns) :
    GenerationAnswer schema.properties d.list.contains (d.generate.outcome.map fun _ => ()) := by
  rw [generate, generates.fold hs]
  refine generates.generationAnswer Column.infers (fun d => d.list.finalized = false ∧ d.phase = .columns) ?_
    schema.properties ⟨ho, hp⟩
  exact fun ho hn => ⟨_, add_new ho.1 ho.2 hn, ho⟩

namespace InsertDraft

/-- The columns are frozen from the first source on. -/
def Phased (d : InsertDraft) : Prop :=
  d.phase = .data ↔ d.sources ≠ []

lemma phased_start (destination : Destination) (schema : Option Schema) : (start destination schema).Phased := by
  simp [Phased, start]

lemma Phased.grow {given : List Source} {d d' : InsertDraft} (h : d.Phased) (hg : Grows given d d') : d'.Phased := by
  rw [Phased, hg.phase, hg.sources]
  cases given with
  | nil => simpa [Phased] using h
  | cons source given => simp

lemma Phased.columns {d : InsertDraft} (h : d.Phased) (hs : d.sources = []) : d.phase = .columns := by
  cases hp : d.phase with
  | columns => rfl
  | data => exact absurd hs (h.mp hp)

end InsertDraft

namespace Draft

def Phased : Draft → Prop
  | table _ => True
  | insert d => d.Phased

def schema? : Draft → Option Schema
  | table d => d.schema
  | insert d => d.schema

def contains : Draft → String → Bool
  | table d => d.list.contains
  | insert d => d.list.contains

def sources : Draft → List Source
  | table _ => []
  | insert d => d.sources

def generation : Draft → Action
  | table _ => .table .generate
  | insert _ => .insert .generate

end Draft

namespace Session

lemma phased_run (o : RenderOptions) (as : List Action) : ∀ d, ((start o).run as).draft = some d → d.Phased := by
  intro d hd
  cases d with
  | table d => trivial
  | insert i => exact insert_run InsertDraft.phased_start InsertDraft.Phased.grow o as hd

lemma redraft_answer {δ : Type} (s : Session) (make : δ → Draft) (changed : Logged δ) :
    (s.redraft (make <$> changed)).answer.outcome = changed.outcome.map fun _ => () := by
  rw [redraft, Logged.outcome_map]
  cases changed.outcome <;> rfl

end Session

theorem generate_of_run (o : RenderOptions) (as : List Action) {d : Draft} {schema : Schema}
    (hd : ((Session.start o).run as).draft = some d) (hs : d.schema? = some schema) (hsources : d.sources = []) :
    ∃ p, ((Session.start o).run as).perform? d.generation = some p ∧
      (p.answer.outcome = .ok () ↔ ∀ q ∈ schema.properties, q.IsInferable) ∧
      ((∀ q ∈ schema.properties, d.contains q.name = false → q.IsInferable) →
        p.answer.outcome = match schema.properties.find? Property.isUnmapped with
          | none => .ok ()
          | some q => .error (.unmappedType q.hostType.text)) := by
  have hopen := (Session.run_sound o as).draft d hd
  have hphased := Session.phased_run o as d hd
  cases d with
  | table d =>
    have ha := TableDraft.generate_answer hs hopen.finalized
    refine ⟨((Session.start o).run as).redraft (.table <$> d.generate), ?_, ?_⟩
    · rw [Draft.generation, Session.perform?, hd]
      rfl
    · rw [Session.redraft_answer]
      exact ⟨ha.ok_iff, ha.of_uncovered⟩
  | insert d =>
    have ha := InsertDraft.generate_answer hs hopen.finalized (hphased.columns hsources)
    refine ⟨((Session.start o).run as).redraft (.insert <$> d.generate), ?_, ?_⟩
    · rw [Draft.generation, Session.perform?, hd]
      rfl
    · rw [Session.redraft_answer]
      exact ⟨ha.ok_iff, ha.of_uncovered⟩

theorem generate_of_openPeople :
    let s := (Session.start {}).run
      [.opening (.insertFrom people ""), .insert (.column "Name" (.string .varchar (some 40)))]
    ∃ p, s.perform? (.insert .generate) = some p ∧ p.answer.outcome = .ok () := by
  obtain ⟨p, hp, hok, _⟩ := generate_of_run {}
    [.opening (.insertFrom people ""), .insert (.column "Name" (.string .varchar (some 40)))] rfl rfl rfl
  exact ⟨p, hp, hok.mpr (by decide)⟩

/-- The type of one property is known to the host only. -/
def tenant : Schema :=
  ⟨"Tenant", [⟨"Id", ⟨.int, false⟩⟩, ⟨"Address", ⟨.other "Address", false⟩⟩]⟩

theorem suppliedColumn_refused :
    let s := (Session.start {}).run
      [.opening (.declareFrom tenant "tenants"), .table (.column "Address" (.plain .int) false false)]
    ∃ d, s.draft = some d ∧ d.schema? = some tenant ∧ d.sources = [] ∧
      (∀ q ∈ tenant.properties, d.contains q.name = false → q.IsInferable) ∧
      ∃ p, s.perform? d.generation = some p ∧ p.answer.outcome = .error (.unmappedType "Address") := by
  exact ⟨_, rfl, rfl, rfl, by decide, _, rfl, rfl⟩

end TransactScript
