import TransactScript.Proofs.Draft.Generation
import TransactScript.Proofs.Event

/-! What the steps on an open section report. Each column that is added is told, each property that is skipped has
its column already, and a generation that fails has told what it had added. -/

namespace TransactScript

namespace ColumnList

variable {α : Type} [Named α]

def told (l : ColumnList α) : List (String × ColumnName) :=
  l.names.map fun n => (l.label, n)

lemma names_of_told (l : ColumnList α) : l.told.map Prod.snd = l.names := by
  simp [told, Function.comp_def]

lemma told_push (l : ColumnList α) (c : α) : (l.push c).told = l.told ++ [(l.label, Named.name c)] := by
  simp [told]

lemma insert_eq (l : ColumnList α) (c : α) : (∃ f, l.insert c = Logged.fail f) ∨
    l.insert c = ⟨.ok (l.push c), [.columnAdded l.label (Named.name c)]⟩ := by
  cases ho : l.finalized with
  | true =>
    have hclosed : l.ensureOpen = .error (.sectionFinalized l.label) := by simp [ensureOpen, ho]
    refine .inl ⟨.sectionFinalized l.label, ?_⟩
    rw [insert, hclosed]
    rfl
  | false =>
    have hopen : l.ensureOpen = .ok () := by simp [ensureOpen, ho]
    rw [insert, hopen]
    cases hc : l.contains (Named.name c).text with
    | true => exact .inl ⟨.duplicateColumn l.label (Named.name c).text, by simp [hc]; rfl⟩
    | false => exact .inr (by simp [hc]; rfl)

end ColumnList

/-- The columns that a step adds are told, in order, and nothing is registered. -/
structure Reports {α δ : Type} [Named α] (list : δ → ColumnList α) (d : δ) (x : Logged δ) : Prop where
  unregistered : registrations x.events = []
  told : ∀ d', x.outcome = .ok d' → (list d').told = (list d).told ++ additions x.events
  skips : SkipsKnown (list d).names x.events

namespace Reports

variable {α δ ι : Type} [Named α] {list : δ → ColumnList α} {d : δ} {x : Logged δ}

lemma of_silent (h : x.events = []) (hd : ∀ d', x.outcome = .ok d' → (list d').told = (list d).told) :
    Reports list d x where
  unregistered := by rw [h, registrations_nil]
  told d' hd' := by rw [h, additions_nil, List.append_nil, hd d' hd']
  skips := by
    rw [h]
    exact .nil

lemma fail (f : Fault) : Reports list d (Logged.fail f) :=
  of_silent rfl nofun

lemma pure (d : δ) : Reports list d (Pure.pure d) :=
  of_silent rfl fun _ h => Except.ok.inj h ▸ rfl

lemma lift_bind {β : Type} {e : Except Fault β} {k : β → Logged δ} (h : ∀ b, e = .ok b → Reports list d (k b)) :
    Reports list d (liftM e >>= k) := by
  cases e with
  | ok b =>
    change Reports list d (Pure.pure b >>= k)
    rw [pure_bind]
    exact h b rfl
  | error f => exact fail f

lemma bind {k : δ → Logged δ} (hx : Reports list d x)
    (hk : ∀ d', x.outcome = .ok d' → Reports list d' (k d')) : Reports list d (x >>= k) := by
  cases ho : x.outcome with
  | error f =>
    have hevents : (x >>= k).events = x.events := Logged.events_bind_error ho k
    refine ⟨hevents ▸ hx.unregistered, fun d' hd' => ?_, hevents ▸ hx.skips⟩
    rw [Logged.outcome_bind, ho] at hd'
    cases hd'
  | ok e =>
    have hevents : (x >>= k).events = x.events ++ (k e).events := Logged.events_bind_ok ho k
    have hnames : (list e).names = (list d).names ++ (additions x.events).map Prod.snd := by
      rw [← ColumnList.names_of_told, hx.told e ho, List.map_append, ColumnList.names_of_told]
    have he := hk e ho
    constructor
    · rw [hevents, registrations_append, hx.unregistered, he.unregistered, List.append_nil]
    · intro d' hd'
      rw [Logged.outcome_bind, ho] at hd'
      rw [he.told d' hd', hx.told e ho, hevents, additions_append, List.append_assoc]
    · rw [hevents]
      exact hx.skips.append (hnames ▸ he.skips)

lemma foldlM {step : δ → ι → Logged δ} (h : ∀ d i, Reports list d (step d i)) (is : List ι) (d : δ) :
    Reports list d (is.foldlM step d) := by
  induction is generalizing d with
  | nil => exact pure d
  | cons i is ih =>
    rw [List.foldlM_cons]
    exact (h d i).bind fun d' _ => ih d'

lemma insert {make : ColumnList α → δ} (hmake : ∀ l, list (make l) = l) (c : α) :
    Reports list d (make <$> (list d).insert c) := by
  rcases (list d).insert_eq c with ⟨f, hf⟩ | hc
  · rw [hf]
    exact fail f
  · rw [hc]
    refine ⟨rfl, fun d' hd' => ?_, .singleton nofun⟩
    cases hd'
    rw [hmake]
    exact ColumnList.told_push _ c

lemma unlessPresent (h : Reports list d x) (label : String) (n : ColumnName) :
    Reports list d (if (list d).contains n.text then do
      Logged.report (.propertySkipped label n)
      Pure.pure d
    else x) := by
  split
  · next hn =>
    refine ⟨rfl, fun d' hd' => ?_, .singleton fun label' column he => ?_⟩
    · cases hd'
      exact (List.append_nil _).symm
    · cases he
      exact ColumnList.contains_text.mp hn
  · exact h

end Reports

lemma ColumnList.insert_failsSilently {α δ : Type} [Named α] (l : ColumnList α) (c : α) (make : ColumnList α → δ) :
    (make <$> l.insert c).FailsSilently := by
  rcases l.insert_eq c with ⟨f, hf⟩ | hc
  · rw [hf]
    exact Logged.failsSilently_fail f
  · rw [hc]
    exact nofun

lemma Logged.FailsSilently.unlessPresent {δ : Type} {x : Logged δ} (h : x.FailsSilently) (d : δ) {present : Bool}
    (label : String) (n : ColumnName) : FailsSilently (if present then do
      report (.propertySkipped label n)
      Pure.pure d
    else x) := by
  split
  · intro f hf
    cases hf
  · exact h

section Generation

variable {α δ : Type} [Named α] {list : δ → ColumnList α} {add addNew : δ → α → Logged δ}
  {schemaOf : δ → Option Schema} {generateWith : δ → (Property → Except Fault α) → Logged δ}

/-- What a section does with a column does not depend on the properties of its schema. -/
structure Rebinds (addNew : δ → α → Logged δ) (schemaOf : δ → Option Schema) (rebind : List Property → δ → δ) :
    Prop where
  schema : ∀ {properties d schema}, schemaOf d = some schema →
    schemaOf (rebind properties d) = some { schema with properties := properties }
  add : ∀ properties d c, addNew (rebind properties d) c = rebind properties <$> addNew d c

/-- The step reports what it would have with the properties before the one that it stops at. -/
def StopsAt (schemaOf : δ → Option Schema) (rebind : List Property → δ → δ) (step : δ → Logged δ) (d : δ) : Prop :=
  ∃ schema done q rest d', schemaOf d = some schema ∧ schema.properties = done ++ q :: rest ∧
    step (rebind done d) = ⟨.ok d', (step d).events⟩

lemma Generates.stopsAt (hg : Generates list add addNew schemaOf generateWith) {rebind : List Property → δ → δ}
    (hrebind : Rebinds addNew schemaOf rebind) (hsilent : ∀ d c, (addNew d c).FailsSilently)
    {columnOf : Property → Except Fault α} {d : δ} {schema : Schema} {f : Fault} (hs : schemaOf d = some schema)
    (h : (generateWith d columnOf).outcome = .error f) :
    StopsAt schemaOf rebind (fun d => generateWith d columnOf) d := by
  have hfold : generateWith d columnOf = schema.properties.foldlM (fun d p => do addNew d (← columnOf p)) d :=
    hg.fold hs columnOf
  rw [hfold] at h
  obtain ⟨done, q, rest, d', hproperties, hd', hevents⟩ :=
    Logged.foldlM_error (fun d p => .lift_bind fun c _ => hsilent d c) h
  have hdone : generateWith (rebind done d) columnOf = rebind done <$>
      done.foldlM (fun d p => do addNew d (← columnOf p)) d := by
    rw [hg.fold (hrebind.schema hs)]
    refine Logged.foldlM_map (fun d p => ?_) done d
    rw [map_bind]
    exact congrArg _ (funext fun c => hrebind.add done d c)
  refine ⟨schema, done, q, rest, rebind done d', hs, hproperties, ?_⟩
  change generateWith (rebind done d) columnOf = ⟨_, (generateWith d columnOf).events⟩
  rw [hdone, Logged.map_ok hd', hfold, hevents]

lemma Generates.silent_or_stopsAt (hg : Generates list add addNew schemaOf generateWith)
    {rebind : List Property → δ → δ} (hrebind : Rebinds addNew schemaOf rebind)
    (hsilent : ∀ d c, (addNew d c).FailsSilently) {columnOf : Property → Except Fault α} {d : δ} {f : Fault}
    (hunbound : schemaOf d = none → (generateWith d columnOf).events = [])
    (h : (generateWith d columnOf).outcome = .error f) : (generateWith d columnOf).events = [] ∨
      StopsAt schemaOf rebind (fun d => generateWith d columnOf) d := by
  cases hs : schemaOf d with
  | none => exact .inl (hunbound hs)
  | some schema => exact .inr (hg.stopsAt hrebind hsilent hs h)

end Generation

def TableStep.isGeneration : TableStep → Bool
  | generate | generateWith _ => true
  | _ => false

def InsertStep.isGeneration : InsertStep → Bool
  | generate | generateWith _ => true
  | _ => false

namespace TableDraft

variable {d : TableDraft}

lemma add_eq (d : TableDraft) (c : TableColumn) : d.add c = (fun l => { d with list := l }) <$> d.list.insert c :=
  rfl

lemma add_reports (d : TableDraft) (c : TableColumn) : Reports list d (d.add c) :=
  .insert (fun _ => rfl) c

lemma addUnlessPresent_reports (d : TableDraft) (c : TableColumn) : Reports list d (d.addUnlessPresent c) :=
  (d.add_reports c).unlessPresent _ c.name

lemma generateWith_reports (d : TableDraft) (columnOf : Property → Except Fault TableColumn) :
    Reports list d (d.generateWith columnOf) :=
  .lift_bind fun schema _ =>
    .foldlM (fun d _ => .lift_bind fun c _ => d.addUnlessPresent_reports c) schema.properties d

lemma apply_reports (s : TableStep) (d : TableDraft) : Reports list d (s.apply d) := by
  cases s with
  | column name type allowNull isPrimaryKey => exact .lift_bind fun c _ => d.add_reports c
  | add c => exact d.add_reports c
  | property name type allowNull isPrimaryKey =>
    exact .lift_bind fun _ _ => .lift_bind fun _ _ => .lift_bind fun c _ => d.add_reports c
  | generate => exact d.generateWith_reports _
  | generateWith columnOf => exact d.generateWith_reports columnOf

def rebind (properties : List Property) (d : TableDraft) : TableDraft :=
  { d with schema := d.schema.map fun schema => { schema with properties := properties } }

lemma add_failsSilently (d : TableDraft) (c : TableColumn) : (d.add c).FailsSilently :=
  d.list.insert_failsSilently c _

lemma addUnlessPresent_failsSilently (d : TableDraft) (c : TableColumn) : (d.addUnlessPresent c).FailsSilently :=
  (d.add_failsSilently c).unlessPresent _ _ c.name

lemma rebinds : Rebinds addUnlessPresent TableDraft.schema rebind where
  schema hs := by rw [rebind, hs, Option.map_some]
  add properties d c := by
    rw [addUnlessPresent, addUnlessPresent, apply_ite (rebind properties <$> ·)]
    simp only [add_eq, map_bind, map_pure, Functor.map_map]
    rfl

lemma generateWith_error {columnOf : Property → Except Fault TableColumn} {f : Fault}
    (h : (d.generateWith columnOf).outcome = .error f) : (d.generateWith columnOf).events = [] ∨
      StopsAt TableDraft.schema rebind (fun d => d.generateWith columnOf) d := by
  refine generates.silent_or_stopsAt rebinds addUnlessPresent_failsSilently (fun hs => ?_) h
  rw [generateWith, boundSchema, hs]
  rfl

lemma apply_error {s : TableStep} {f : Fault} (h : (s.apply d).outcome = .error f) : (s.apply d).events = [] ∨
    s.isGeneration = true ∧ StopsAt TableDraft.schema rebind (fun d => s.apply d) d := by
  cases s with
  | column name type allowNull isPrimaryKey =>
    exact .inl (Logged.FailsSilently.lift_bind (fun c _ => d.add_failsSilently c) f h)
  | add c => exact .inl (d.add_failsSilently c f h)
  | property name type allowNull isPrimaryKey =>
    exact .inl (Logged.FailsSilently.lift_bind (fun _ _ => .lift_bind fun _ _ => .lift_bind fun c _ =>
      d.add_failsSilently c) f h)
  | generate => exact (generateWith_error h).imp_right fun hstop => ⟨rfl, hstop⟩
  | generateWith columnOf => exact (generateWith_error h).imp_right fun hstop => ⟨rfl, hstop⟩

end TableDraft

namespace InsertDraft

variable {d : InsertDraft}

lemma add_cases (d : InsertDraft) (c : Column) : (∃ f, d.add c = Logged.fail f) ∨
    d.add c = (fun l => { d with list := l }) <$> d.list.insert c := by
  rw [add]
  cases ho : d.list.ensureOpen with
  | error f => exact .inl ⟨f, rfl⟩
  | ok =>
    cases hp : d.isDataDefining with
    | true => exact .inl ⟨.dataPopulationStarted d.list.label, rfl⟩
    | false => exact .inr rfl

lemma add_reports (d : InsertDraft) (c : Column) : Reports list d (d.add c) := by
  rcases d.add_cases c with ⟨f, hf⟩ | hc
  · rw [hf]
    exact .fail f
  · rw [hc]
    exact .insert (fun _ => rfl) c

lemma addUnlessPresent_reports (d : InsertDraft) (c : Column) : Reports list d (d.addUnlessPresent c) :=
  (d.add_reports c).unlessPresent _ c.name

lemma addAll_reports (d : InsertDraft) (cs : List Column) : Reports list d (d.addAll cs) :=
  .foldlM add_reports cs d

lemma generateWith_reports (d : InsertDraft) (columnOf : Property → Except Fault Column) :
    Reports list d (d.generateWith columnOf) :=
  .lift_bind fun schema _ =>
    .foldlM (fun d _ => .lift_bind fun c _ => d.addUnlessPresent_reports c) schema.properties d

lemma define_reports (d : InsertDraft) (source : Source) : Reports list d (d.define source) := by
  have hdefined : ∀ d', (d.define source).outcome = .ok d' → d'.list.told = d.list.told := by
    intro d' hd'
    rw [define_outcome] at hd'
    cases hd'
    rfl
  rw [define] at hdefined ⊢
  split
  · next hp =>
    rw [if_pos hp] at hdefined
    exact ⟨rfl, fun d' hd' => (hdefined d' hd').trans (List.append_nil _).symm, .singleton fun _ _ he => by cases he⟩
  · next hp =>
    rw [if_neg hp] at hdefined
    exact .of_silent rfl hdefined

lemma apply_reports (s : InsertStep) (d : InsertDraft) : Reports list d (s.apply d) := by
  cases s with
  | column name type => exact .lift_bind fun c _ => d.add_reports c
  | add c => exact d.add_reports c
  | property name type => exact .lift_bind fun _ _ => .lift_bind fun _ _ => .lift_bind fun c _ => d.add_reports c
  | generate => exact d.generateWith_reports _
  | generateWith columnOf => exact d.generateWith_reports columnOf
  | define source => exact d.define_reports source

def rebind (properties : List Property) (d : InsertDraft) : InsertDraft :=
  { d with schema := d.schema.map fun schema => { schema with properties := properties } }

lemma add_failsSilently (d : InsertDraft) (c : Column) : (d.add c).FailsSilently := by
  rcases d.add_cases c with ⟨f, hf⟩ | hc
  · rw [hf]
    exact Logged.failsSilently_fail f
  · rw [hc]
    exact d.list.insert_failsSilently c _

lemma addUnlessPresent_failsSilently (d : InsertDraft) (c : Column) : (d.addUnlessPresent c).FailsSilently :=
  (d.add_failsSilently c).unlessPresent _ _ c.name

lemma rebind_add (properties : List Property) (d : InsertDraft) (c : Column) :
    (d.rebind properties).add c = rebind properties <$> d.add c := by
  rw [add, add]
  simp only [map_bind, apply_ite (rebind properties <$> ·), map_pure]
  rfl

lemma rebinds : Rebinds addUnlessPresent InsertDraft.schema rebind where
  schema hs := by rw [rebind, hs, Option.map_some]
  add properties d c := by
    rw [addUnlessPresent, addUnlessPresent, apply_ite (rebind properties <$> ·)]
    simp only [rebind_add, map_bind, map_pure]
    rfl

lemma generateWith_error {columnOf : Property → Except Fault Column} {f : Fault}
    (h : (d.generateWith columnOf).outcome = .error f) : (d.generateWith columnOf).events = [] ∨
      StopsAt InsertDraft.schema rebind (fun d => d.generateWith columnOf) d := by
  refine generates.silent_or_stopsAt rebinds addUnlessPresent_failsSilently (fun hs => ?_) h
  rw [generateWith, boundSchema, hs]
  rfl

lemma apply_error {s : InsertStep} {f : Fault} (h : (s.apply d).outcome = .error f) : (s.apply d).events = [] ∨
    s.isGeneration = true ∧ StopsAt InsertDraft.schema rebind (fun d => s.apply d) d := by
  cases s with
  | column name type =>
    exact .inl (Logged.FailsSilently.lift_bind (fun c _ => d.add_failsSilently c) f h)
  | add c => exact .inl (d.add_failsSilently c f h)
  | property name type =>
    exact .inl (Logged.FailsSilently.lift_bind (fun _ _ => .lift_bind fun _ _ => .lift_bind fun c _ =>
      d.add_failsSilently c) f h)
  | generate => exact (generateWith_error h).imp_right fun hstop => ⟨rfl, hstop⟩
  | generateWith columnOf => exact (generateWith_error h).imp_right fun hstop => ⟨rfl, hstop⟩
  | define source =>
    rw [InsertStep.apply, define_outcome] at h
    cases h

end InsertDraft

end TransactScript
