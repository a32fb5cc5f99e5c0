import TransactScript.Proofs.Session.Finalizing
import TransactScript.Proofs.Session.Generation
import TransactScript.Proofs.Session.History

/-! The first source of rows freezes the columns of an insert: all that a later step can do is to give a further
source. -/

namespace TransactScript

namespace InsertDraft

variable {d d' : InsertDraft}

def Labelled (d : InsertDraft) : Prop :=
  d.list.label = d.destination.text

lemma Labelled.grow {given : List Source} (h : d.Labelled) (hg : Grows given d d') : d'.Labelled := by
  rw [Labelled, hg.list.label, hg.destination]
  exact h

lemma Phased.isDataDefining_iff (h : d.Phased) : d.isDataDefining = true ↔ d.sources ≠ [] := by
  rw [isDataDefining, decide_eq_true_iff]
  exact h

lemma addUnlessPresent_frozen (h : d.isDataDefining = true) {c : Column}
    (hok : (d.addUnlessPresent c).outcome = .ok d') : d' = d := by
  rw [addUnlessPresent_outcome] at hok
  split at hok
  · cases hok
    rfl
  · rw [not_data_of_add_ok hok] at h
    cases h

lemma generateWith_frozen (h : d.isDataDefining = true) {columnOf : Property → Except Fault Column}
    (hok : (d.generateWith columnOf).outcome = .ok d') : d' = d := by
  obtain ⟨schema, _, hok⟩ := Logged.bind_ok hok
  -- each draft of the fold is the first one again, and therefore still frozen
  refine Logged.foldlM_ok (R := fun a b : InsertDraft => a.isDataDefining = true → b = a) ?_ ?_ ?_ hok h
  · exact fun _ _ => rfl
  · intro a b c hab hbc ha
    obtain rfl := hab ha
    exact hbc ha
  · intro a p b hok ha
    obtain ⟨c, _, hok⟩ := Logged.bind_ok hok
    exact addUnlessPresent_frozen ha hok

lemma apply_frozen {step : InsertStep} (h : d.isDataDefining = true) (hok : (step.apply d).outcome = .ok d') :
    d' = { d with sources := d.sources ++ step.given } := by
  rcases apply_ok hok with ⟨hs, c, hok⟩ | ⟨hs, columnOf, hok⟩ | ⟨source, hs, rfl⟩
  · rw [not_data_of_add_ok hok] at h
    cases h
  · rw [hs, List.append_nil]
    exact generateWith_frozen h hok
  · have hp : d.phase = .data := of_decide_eq_true h
    rw [hs, ← hp]

lemma foldlM_grows {steps : List InsertStep} (hok : (steps.foldlM InsertStep.apply d).outcome = .ok d') :
    Grows (steps.flatMap InsertStep.given) d d' := by
  induction steps generalizing d with
  | nil =>
    cases hok
    exact .refl _
  | cons step steps ih =>
    rw [List.foldlM_cons] at hok
    obtain ⟨e, he, hok⟩ := Logged.bind_ok hok
    exact (apply_grows he).trans (ih hok)

lemma foldlM_frozen {steps : List InsertStep} (h : d.isDataDefining = true)
    (hok : (steps.foldlM InsertStep.apply d).outcome = .ok d') :
    d' = { d with sources := d.sources ++ steps.flatMap InsertStep.given } := by
  induction steps generalizing d with
  | nil =>
    cases hok
    rw [List.flatMap_nil, List.append_nil]
  | cons step steps ih =>
    rw [List.foldlM_cons] at hok
    obtain ⟨e, he, hok⟩ := Logged.bind_ok hok
    obtain rfl := apply_frozen h he
    have hrest := ih (d := { d with sources := d.sources ++ step.given }) h hok
    rw [hrest, List.flatMap_cons, List.append_assoc]

lemma foldlM_define {source : Source} {steps : List InsertStep}
    (hok : ((.define source :: steps).foldlM InsertStep.apply d).outcome = .ok d') :
    d' = { d with phase := .data, sources := d.sources ++ source :: steps.flatMap InsertStep.given } := by
  rw [List.foldlM_cons] at hok
  obtain ⟨e, he, hok⟩ := Logged.bind_ok hok
  change (d.define source).outcome = _ at he
  rw [define_outcome] at he
  cases he
  rw [foldlM_frozen rfl hok, List.append_assoc, List.singleton_append]

/-- What is answered to a step that asks for a further column. -/
structure Frozen (d : InsertDraft) : Prop where
  add : ∀ c, (d.add c).outcome = .error (.dataPopulationStarted d.destination.text)
  column : ∀ name type, IsName name.toList →
    (d.column name type).outcome = .error (.dataPopulationStarted d.destination.text)
  property : ∀ name type, ∃ f, (d.propertyColumn name type).outcome = .error f
  generate : ∀ d', d.generate.outcome = .ok d' → d' = d
  generateWith : ∀ columnOf d', (d.generateWith columnOf).outcome = .ok d' → d' = d

lemma frozen (ho : d.list.finalized = false) (hl : d.Labelled) (h : d.isDataDefining = true) : d.Frozen where
  add c := by rw [add_frozen c ho h, hl]
  column name type hn := by
    have hparse : Identifier.parse name = .ok ⟨name, hn⟩ := Identifier.parse_text ⟨name, hn⟩
    rw [column, Logged.outcome_bind, Logged.outcome_lift, Column.ofText, hparse, Logged.ok_map, Logged.ok_bind,
      add_frozen _ ho h, hl]
  property name type := by
    cases hp : (d.propertyColumn name type).outcome with
    | error f => exact ⟨f, rfl⟩
    | ok d' =>
      obtain ⟨c, hp⟩ := propertyColumn_ok hp
      rw [not_data_of_add_ok hp] at h
      cases h
  generate _ := generateWith_frozen h
  generateWith _ _ := generateWith_frozen h

end InsertDraft

namespace Session

variable {s : Session} {i i' : InsertDraft} {steps : List InsertStep}

lemma run_inserts_none (hs : s.draft = none) : s.run (steps.map .insert) = s := by
  induction steps with
  | nil => rfl
  | cons step steps ih =>
    have hp : s.perform? (.insert step) = none := by simp only [perform?, hs]
    rw [List.map_cons, run, hp, ih]

lemma run_inserts (hs : s.draft = some (.insert i))
    (h : (s.run (steps.map .insert)).draft = some (.insert i')) :
    (steps.foldlM InsertStep.apply i).outcome = .ok i' ∧ (s.run (steps.map .insert)).script = s.script := by
  induction steps generalizing s i with
  | nil =>
    have hi : i = i' := by simpa [run, hs] using h
    rw [hi]
    exact ⟨rfl, rfl⟩
  | cons step steps ih =>
    have hp : s.perform? (.insert step) = some (s.redraft (.insert <$> step.apply i)) := by
      simp only [perform?, hs]
    rw [List.map_cons, run_cons hp] at h ⊢
    rw [List.foldlM_cons, Logged.outcome_bind]
    cases hx : (step.apply i).outcome with
    | ok e =>
      have hr : (s.redraft (.insert <$> step.apply i)).session = ⟨s.script, some (.insert e)⟩ := by
        simp only [redraft, Logged.outcome_map, hx, Logged.ok_map]
      rw [hr] at h ⊢
      exact ih rfl h
    | error f =>
      have hr : (s.redraft (.insert <$> step.apply i)).session = ⟨s.script, none⟩ := by
        simp only [redraft, Logged.outcome_map, hx, Logged.error_map]
      -- the insert was dropped, and no further step opens another
      rw [hr, run_inserts_none rfl] at h
      cases h

end Session

theorem columns_frozen_in_run (o : RenderOptions) (as : List Action) {i : InsertDraft}
    (hi : ((Session.start o).run as).draft = some (.insert i)) :
    let s := (Session.start o).run as
    (i.isDataDefining = true ↔ i.sources ≠ []) ∧
      (i.isDataDefining = true → i.Frozen) ∧
      (∀ (steps : List InsertStep) i', (s.run (steps.map .insert)).draft = some (.insert i') →
        i'.sources = i.sources ++ steps.flatMap InsertStep.given ∧
          (i.isDataDefining = true → i'.isDataDefining = true ∧ i' = { i with sources := i'.sources })) ∧
      (∀ source, (i.define source).outcome = .ok { i with phase := .data, sources := i.sources ++ [source] }) ∧
      ∀ source (steps : List InsertStep) i', let later := s.run ((.define source :: steps).map .insert)
        later.draft = some (.insert i') → ∃ p, later.perform? .finalize = some p ∧ p.answer.outcome = .ok () ∧
          p.session.script.sections = s.script.sections ++
            [.insertData ⟨i.destination, i.list.columns, i.sources ++ source :: steps.flatMap InsertStep.given⟩] := by
  intro s
  have hs : s.Sound := Session.run_sound o as
  have hlabelled : i.Labelled := Session.insert_run (fun _ _ => rfl) InsertDraft.Labelled.grow o as hi
  have hphased : i.Phased := Session.phased_run o as _ hi
  have hopen : i.list.finalized = false := (hs.draft _ hi).finalized
  refine ⟨hphased.isDataDefining_iff, InsertDraft.frozen hopen hlabelled, ?_, i.define_outcome, ?_⟩
  · intro steps i' hi'
    obtain ⟨hfold, _⟩ := Session.run_inserts hi hi'
    refine ⟨(InsertDraft.foldlM_grows hfold).sources, fun h => ?_⟩
    obtain rfl := InsertDraft.foldlM_frozen h hfold
    exact ⟨h, rfl⟩
  · intro source steps i' later hi'
    obtain ⟨hfold, hscript⟩ := Session.run_inserts hi hi'
    have hlater : later.Sound := Session.run_property (fun _ _ _ => Session.Sound.perform) hs _
    obtain ⟨p, hp, hok, happ⟩ := Session.finalize_insert_answer hlater hi'
    obtain rfl := InsertDraft.foldlM_define hfold
    refine ⟨p, hp, hok, ?_⟩
    rw [happ, hscript]
    rfl

theorem columns_frozen_in_declareThenInsert :
    let s := (Session.start {}).run declareThenInsert
    let i : InsertDraft :=
      { destination := .tableVariable ⟨⟨"t", by decide⟩⟩
        schema := none
        list := ⟨"@t", [⟨⟨"Id", by decide⟩, .plain .int⟩], false⟩
        phase := .data
        sources := [.values [.int 1], .rows [[.int 2], [.int 3]]] }
    s.draft = some (.insert i) ∧
      (i.column "Id" (.plain .int)).outcome = .error (.dataPopulationStarted "@t") ∧
      ∃ p, (s.run [.insert (.define (.query "SELECT 4"))]).perform? .finalize = some p ∧
        p.session.script.sections = s.script.sections ++ [.insertData ⟨i.destination,
          i.list.columns, [.values [.int 1], .rows [[.int 2], [.int 3]], .query "SELECT 4"]⟩] := by
  intro s i
  have hi : s.draft = some (.insert i) := rfl
  obtain ⟨_, hfrozen, _, _, hfinish⟩ := columns_frozen_in_run {} _ hi
  obtain ⟨p, hp, _, hsections⟩ := hfinish (.query "SELECT 4") [] _ rfl
  exact ⟨hi, (hfrozen rfl).column "Id" _ (by decide), p, hp, hsections⟩

end TransactScript
