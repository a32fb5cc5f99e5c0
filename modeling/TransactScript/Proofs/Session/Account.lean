import TransactScript.Proofs.Draft.Report
import TransactScript.Proofs.Session.Failure
import TransactScript.Proofs.Session.Freezing

/-! What an action reports is what it does: the columns that it adds to the open section, and the section that it
registers. -/

namespace TransactScript

namespace Section

def label : Section → String
  | tableVariable t => t.name.text
  | insertData i => i.destination.text

def told (sec : Section) : List (String × ColumnName) :=
  sec.names.map fun n => (sec.label, n)

end Section

lemma Script.register_eq (s : Script) (added : Section) : (∃ f, s.register added = Logged.fail f) ∨
    s.register added = ⟨.ok (s.append added), [.sectionRegistered (s.sections.length + 1) added.kind]⟩ := by
  cases hv : added.declaredVariable? with
  | none =>
    right
    simp [register, append, hv]
    rfl
  | some v =>
    by_cases hm : v ∈ s.declared
    · refine .inl ⟨.duplicateVariableName v.text, ?_⟩
      simp [register, hv, hm]
      rfl
    · right
      simp [register, append, hv, hm]
      rfl

namespace Draft

/-- What the log says of an open section. -/
def told (d : Draft) : List (String × ColumnName) :=
  d.finished.told

def Labelled : Draft → Prop
  | table d => d.list.label = d.name.text
  | insert d => d.Labelled

def rebind (properties : List Property) : Draft → Draft
  | table d => table (d.rebind properties)
  | insert d => insert (d.rebind properties)

lemma told_table {d : TableDraft} (h : (table d).Labelled) : (table d).told = d.list.told := by
  rw [ColumnList.told, h]
  rfl

lemma labelled_table {d d' : TableDraft} (h : (table d).Labelled) (hg : d.Grows d') : (table d').Labelled := by
  rw [Labelled, hg.list.label, hg.name]
  exact h

lemma told_insert {d : InsertDraft} (h : (insert d).Labelled) : (insert d).told = d.list.told := by
  rw [ColumnList.told, h]
  rfl

lemma finalize_eq {d : Draft} (hd : d.Sound) (s : Script) : (∃ f, d.finalize s = Logged.fail f) ∨
    d.finalize s =
      ⟨.ok (s.append d.finished), [.sectionRegistered (s.sections.length + 1) d.finished.kind]⟩ := by
  cases d with
  | table d =>
    rw [finalize, TableDraft.finalize, ColumnList.finalize_ok hd.finalized]
    cases hc : d.list.isEmpty with
    | true => exact .inl ⟨.emptyTableVariable d.name.text, rfl⟩
    | false => exact s.register_eq (finished (table d))
  | insert d =>
    rw [finalize, InsertDraft.finalize, ColumnList.finalize_ok hd.finalized]
    exact s.register_eq (finished (insert d))

end Draft

lemma TableDraft.finalize_eq {d : TableDraft} (hd : (Draft.table d).Sound) (s : Script) :
    (∃ f, d.finalize s = Logged.fail f) ∨ d.finalize s = ⟨.ok (s.append (Draft.table d).finished),
      [.sectionRegistered (s.sections.length + 1) (Draft.table d).finished.kind]⟩ :=
  Draft.finalize_eq hd s

namespace Action

def opens : Action → Bool
  | opening _ | beginInsert => true
  | _ => false

def isGeneration : Action → Bool
  | table step => step.isGeneration
  | insert step => step.isGeneration
  | _ => false

end Action

namespace Session

def told (s : Session) : List (String × ColumnName) :=
  s.draft.elim [] Draft.told

def Labelled (s : Session) : Prop :=
  ∀ d, s.draft = some d → d.Labelled

/-- A generation that fails at a property has reported the columns that it had added, as it would have with the
properties before that one. -/
def CutShort (s : Session) (a : Action) (es : List Event) : Prop :=
  a.isGeneration = true ∧ ∃ d schema done q rest d', s.draft = some d ∧ d.schema? = some schema ∧
    schema.properties = done ++ q :: rest ∧ d'.told = d.told ++ additions es ∧
    perform? ⟨s.script, some (d.rebind done)⟩ a = some ⟨⟨s.script, some d'⟩, ⟨.ok (), es⟩⟩

/-- What an action reports is what it does. -/
structure Accounts (s : Session) (a : Action) (p : Performed) : Prop where
  closing : Closes a p.answer → ∃ d seeds, s.draft = some d ∧
    p.session.script.sections = s.script.sections ++ [d.finished] ∧
    p.answer.events = .sectionRegistered (s.script.sections.length + 1) d.finished.kind :: seeds ∧
    registrations seeds = []
  standing : ¬ Closes a p.answer → p.session.script = s.script ∧ registrations p.answer.events = []
  added : p.answer.outcome = .ok () → (p.session.draft = none → additions p.answer.events = []) ∧
    ∀ d, p.session.draft = some d → d.told = (if a.opens then [] else s.told) ++ additions p.answer.events
  skips : SkipsKnown (s.told.map Prod.snd) p.answer.events
  failed : ∀ f, p.answer.outcome = .error f → p.answer.events = [] ∨ CutShort s a p.answer.events

namespace Accounts

variable {s : Session} {a : Action} {p : Performed}

lemma quiet (hclose : ¬ Closes a p.answer) (hscript : p.session.script = s.script) (he : p.answer.events = [])
    (hdraft : ∀ d, p.session.draft = some d → d.told = if a.opens then [] else s.told) : Accounts s a p where
  closing h := absurd h hclose
  standing _ := ⟨hscript, by rw [he, registrations_nil]⟩
  added _ := by
    rw [he, additions_nil, List.append_nil]
    exact ⟨fun _ => rfl, hdraft⟩
  skips := by
    rw [he]
    exact .nil
  failed _ _ := .inl he

section Step

variable {α δ : Type} [Named α] {list : δ → ColumnList α} {d : δ} {x : Logged δ} (hr : Reports list d x)
  (hevents : p.answer.events = x.events) (htold : s.told = (list d).told)
include hr hevents htold

lemma skips_step : SkipsKnown (s.told.map Prod.snd) p.answer.events := by
  rw [htold, ColumnList.names_of_told, hevents]
  exact hr.skips

variable (hclose : ¬ Closes a p.answer) (hscript : p.session.script = s.script)
include hclose hscript

lemma taken {d' : δ} {e : Draft} (hd' : x.outcome = .ok d') (he : p.session.draft = some e)
    (htold' : e.told = (list d').told) (hok : p.answer.outcome = .ok ()) (hopens : a.opens = false) :
    Accounts s a p where
  closing h := absurd h hclose
  standing _ := ⟨hscript, hevents ▸ hr.unregistered⟩
  added _ := by
    rw [he, hopens, hevents]
    refine ⟨nofun, fun e' he' => ?_⟩
    cases he'
    rw [htold', hr.told d' hd', htold]
    rfl
  skips := skips_step hr hevents htold
  failed f hf := by
    rw [hok] at hf
    cases hf

lemma refused {f : Fault} (hf : p.answer.outcome = .error f) (hfailed : x.events = [] ∨ CutShort s a x.events) :
    Accounts s a p where
  closing h := absurd h hclose
  standing _ := ⟨hscript, hevents ▸ hr.unregistered⟩
  added hok := by
    rw [hf] at hok
    cases hok
  skips := skips_step hr hevents htold
  failed _ _ := hevents ▸ hfailed

end Step

lemma finished {d : Draft} {seeds : List Event} (hd : s.draft = some d)
    (hsections : p.session.script.sections = s.script.sections ++ [d.finished])
    (hevents : p.answer.events =
      .sectionRegistered (s.script.sections.length + 1) d.finished.kind :: seeds)
    (hseeds : registrations seeds = []) (hskips : SkipsKnown [] seeds) (hclose : Closes a p.answer)
    (hdraft : (p.session.draft = none → additions seeds = []) ∧
      ∀ e, p.session.draft = some e → a.opens = true ∧ e.told = additions seeds) : Accounts s a p where
  closing _ := ⟨d, seeds, hd, hsections, hevents, hseeds⟩
  standing h := absurd hclose h
  added _ := by
    have hadditions : additions p.answer.events = additions seeds := by
      rw [hevents]
      rfl
    rw [hadditions]
    refine ⟨hdraft.1, fun e he => ?_⟩
    obtain ⟨hopens, htold⟩ := hdraft.2 e he
    rw [hopens, htold]
    rfl
  skips := by
    rw [hevents, ← List.singleton_append]
    exact .append (.singleton nofun) (hskips.mono (List.nil_subset _))
  failed f hf := by
    rw [hclose.2] at hf
    cases hf

end Accounts

lemma not_closes_step {a : Action} {answer : Logged Unit} (hf : a ≠ .finalize) (hb : a ≠ .beginInsert) :
    ¬ Closes a answer := by
  rintro ⟨rfl | rfl, _⟩
  · exact hf rfl
  · exact hb rfl

lemma not_closes_error {a : Action} {f : Fault} {es : List Event} : ¬ Closes a ⟨.error f, es⟩ := by
  rintro ⟨_, h⟩
  cases h

lemma told_start {o : Opening} {d : Draft} (h : o.draft = .ok d) : d.told = [] ∧ d.Labelled := by
  rcases Opening.draft_ok h with ⟨v, schema, rfl⟩ | ⟨destination, schema, rfl⟩
  · exact ⟨rfl, rfl⟩
  · exact ⟨rfl, rfl⟩

lemma labelled_of_perform {s : Session} {a : Action} {p : Performed} (hl : s.Labelled) (h : s.perform? a = some p) :
    p.session.Labelled := by
  obtain ⟨sc, draft⟩ := s
  have ht := transition h
  intro e he
  cases ht with
  | opened ho =>
    cases he
    exact (told_start ho).2
  | declared hx =>
    cases he
    exact Draft.labelled_table (hl _ rfl) (TableDraft.apply_grows hx)
  | inserted hx =>
    cases he
    exact InsertDraft.Labelled.grow (hl _ rfl) (InsertDraft.apply_grows hx)
  | begun hf hi =>
    cases he
    exact InsertDraft.Labelled.grow (d := TableDraft.insertStart _) rfl (InsertDraft.addAll_grows hi)
  | _ => cases he

lemma table_cutShort {sc : Script} {d : TableDraft} {step : TableStep} {f : Fault} (hl : (Draft.table d).Labelled)
    (h : (step.apply d).outcome = .error f) : (step.apply d).events = [] ∨
      CutShort ⟨sc, some (.table d)⟩ (.table step) (step.apply d).events := by
  refine (TableDraft.apply_error h).imp_right fun ⟨hg, schema, done, q, rest, d', hs, hproperties, hdone⟩ => ?_
  have hstep : step.apply (d.rebind done) = ⟨.ok d', (step.apply d).events⟩ := hdone
  have hok : (step.apply (d.rebind done)).outcome = .ok d' := by rw [hstep]
  have hl' : (Draft.table d').Labelled := Draft.labelled_table (d := d.rebind done) hl (TableDraft.apply_grows hok)
  refine ⟨hg, .table d, schema, done, q, rest, .table d', rfl, hs, hproperties, ?_, ?_⟩
  · rw [Draft.told_table hl', Draft.told_table hl, (TableDraft.apply_reports step _).told d' hok, hstep]
    rfl
  · change some (redraft _ (Draft.table <$> step.apply (d.rebind done))) = _
    rw [hstep, Logged.map_ok rfl]
    rfl

lemma insert_cutShort {sc : Script} {d : InsertDraft} {step : InsertStep} {f : Fault} (hl : d.Labelled)
    (h : (step.apply d).outcome = .error f) : (step.apply d).events = [] ∨
      CutShort ⟨sc, some (.insert d)⟩ (.insert step) (step.apply d).events := by
  refine (InsertDraft.apply_error h).imp_right fun ⟨hg, schema, done, q, rest, d', hs, hproperties, hdone⟩ => ?_
  have hstep : step.apply (d.rebind done) = ⟨.ok d', (step.apply d).events⟩ := hdone
  have hok : (step.apply (d.rebind done)).outcome = .ok d' := by rw [hstep]
  have hl' : d'.Labelled := InsertDraft.Labelled.grow (d := d.rebind done) hl (InsertDraft.apply_grows hok)
  refine ⟨hg, .insert d, schema, done, q, rest, .insert d', rfl, hs, hproperties, ?_, ?_⟩
  · rw [Draft.told_insert hl', Draft.told_insert hl, (InsertDraft.apply_reports step _).told d' hok, hstep]
    rfl
  · change some (redraft _ (Draft.insert <$> step.apply (d.rebind done))) = _
    rw [hstep, Logged.map_ok rfl]
    rfl

lemma accounts {s : Session} {a : Action} {p : Performed} (hs : s.Sound) (hl : s.Labelled)
    (h : s.perform? a = some p) : Accounts s a p := by
  have hl' : p.session.Labelled := labelled_of_perform hl h
  obtain ⟨sc, draft⟩ := s
  have ht := transition h
  cases ht with
  | opened ho =>
    refine .quiet (not_closes_step nofun nofun) rfl rfl fun d hd => ?_
    cases hd
    exact (told_start ho).1
  | refused ho => exact .quiet not_closes_error rfl rfl nofun
  | @declared step d d' hx =>
    exact .taken (TableDraft.apply_reports step d) rfl (Draft.told_table (hl _ rfl)) (not_closes_step nofun nofun) rfl
      hx rfl (Draft.told_table (hl' _ rfl)) rfl rfl
  | @undeclared step d f hx =>
    exact .refused (TableDraft.apply_reports step d) rfl (Draft.told_table (hl _ rfl)) not_closes_error rfl rfl
      (table_cutShort (hl _ rfl) hx)
  | @inserted step d d' hx =>
    exact .taken (InsertDraft.apply_reports step d) rfl (Draft.told_insert (hl _ rfl)) (not_closes_step nofun nofun) rfl
      hx rfl (Draft.told_insert (hl' _ rfl)) rfl rfl
  | @uninserted step d f hx =>
    exact .refused (InsertDraft.apply_reports step d) rfl (Draft.told_insert (hl _ rfl)) not_closes_error rfl rfl
      (insert_cutShort (hl _ rfl) hx)
  | @finished d sc' hf =>
    rcases Draft.finalize_eq (hs.draft _ rfl) sc with ⟨f, he⟩ | he
    · rw [he] at hf
      cases hf
    · rw [he] at hf ⊢
      cases hf
      exact .finished rfl rfl rfl rfl .nil ⟨.inl rfl, rfl⟩ ⟨fun _ => rfl, nofun⟩
  | @unfinished d f hf =>
    rcases Draft.finalize_eq (hs.draft _ rfl) sc with ⟨f', he⟩ | he
    · rw [he]
      exact .quiet not_closes_error rfl rfl nofun
    · rw [he] at hf
      cases hf
  | @begun d sc' i hf hi =>
    have hr := InsertDraft.addAll_reports d.insertStart d.seed
    rcases TableDraft.finalize_eq (hs.draft _ rfl) sc with ⟨f, he⟩ | he
    · rw [he] at hf
      cases hf
    · rw [he] at hf ⊢
      cases hf
      refine .finished rfl rfl rfl hr.unregistered hr.skips ⟨.inr rfl, rfl⟩ ⟨nofun, fun e hi' => ?_⟩
      cases hi'
      exact ⟨rfl, (Draft.told_insert (hl' _ rfl)).trans (hr.told i hi)⟩
  | @unbegun d f hf =>
    rcases TableDraft.finalize_eq (hs.draft _ rfl) sc with ⟨f', he⟩ | he
    · rw [he]
      exact .quiet not_closes_error rfl rfl nofun
    · rw [he] at hf
      cases hf
  | unseeded _ hi => exact (TableDraft.seeding_ne_error (hs.draft _ rfl) hi).elim
  | abandoned => exact .quiet (not_closes_step nofun nofun) rfl rfl nofun

end Session

end TransactScript
