import TransactScript.Proofs.Draft.Refusal
import TransactScript.Proofs.Session.Naming

/-! No section is ever worked on after it was finished. An insert can always be finished, a declaration
unless it has no columns or its variable is declared already. -/

namespace TransactScript

/-- The fault is the caller's own: the column function that comes with the action answers with it. -/
def Action.PassesOn (f : Fault) : Option Draft → Action → Prop
  | some (.table d), table step => step.PassesOn d.schema f
  | some (.insert d), insert step => step.PassesOn d.schema f
  | _, _ => False

lemma Script.isDeclared_text {s : Script} {v : VariableName} :
    s.isDeclared v.text = true ↔ v ∈ s.declared := by
  simp [isDeclared]

def Fault.OfFinalize : Fault → Prop
  | emptyTableVariable _ | duplicateVariableName _ => True
  | _ => False

lemma Draft.finalize_faults {d : Draft} (hd : d.Sound) (sc : Script) :
    FailsOnly Fault.OfFinalize (d.finalize sc).outcome := by
  cases d with
  | table d =>
    rw [finalize_table d sc hd.finalized]
    split
    · exact .error trivial
    · split
      · exact .error trivial
      · exact .ok _
  | insert d =>
    rw [finalize_insert d sc hd.finalized]
    exact .ok _

namespace Session

lemma finalize_table_answer {s : Session} (hs : s.Sound) {d : TableDraft} (hd : s.draft = some (.table d)) :
    ∃ p, s.perform? .finalize = some p ∧ p.answer.outcome =
      if d.list.columns = [] then .error (.emptyTableVariable d.name.text)
      else if d.name ∈ s.script.declared then .error (.duplicateVariableName d.name.text)
      else .ok () := by
  have ho : d.list.finalized = false := (hs.draft _ hd).finalized
  refine ⟨s.close ((Draft.table d).finalize s.script), by simp [perform?, hd, Draft.finalize], ?_⟩
  rw [close, Draft.finalize_table d s.script ho]
  by_cases hc : d.list.columns = []
  · simp [hc]
  · by_cases hm : d.name ∈ s.script.declared
    · simp [hc, hm]
    · simp [hc, hm]

lemma finalize_insert_answer {s : Session} (hs : s.Sound) {i : InsertDraft} (hi : s.draft = some (.insert i)) :
    ∃ p, s.perform? .finalize = some p ∧ p.answer.outcome = .ok () ∧
      p.session.script = s.script.append (Draft.insert i).finished := by
  have ho : i.list.finalized = false := (hs.draft _ hi).finalized
  refine ⟨s.close ((Draft.insert i).finalize s.script), by simp [perform?, hi, Draft.finalize], ?_⟩
  rw [close, Draft.finalize_insert i s.script ho]
  exact ⟨rfl, rfl⟩

/-- The insert that follows a declaration takes over its columns without fail. -/
lemma beginInsert_answer {s : Session} (hs : s.Sound) {d : TableDraft} (hd : s.draft = some (.table d))
    {p : Performed} (hp : s.perform? .finalize = some p) :
    ∃ q, s.perform? .beginInsert = some q ∧ q.answer.outcome = p.answer.outcome := by
  have hclose : s.close (d.finalize s.script) = p := by simpa [perform?, hd] using hp
  refine ⟨s.beginInsert d, by simp [perform?, hd], ?_⟩
  have hseed := TableDraft.seeding_outcome (hs.draft _ hd)
  rw [beginInsert, hclose]
  cases ho : p.answer.outcome with
  | ok => simp [redraft, hseed]
  | error f => exact ho

lemma sectionFinalized_of_perform {s : Session} {a : Action} {p : Performed} (hs : s.Sound)
    (h : s.perform? a = some p) {label : String}
    (hf : p.answer.outcome = .error (.sectionFinalized label)) :
    a.PassesOn (.sectionFinalized label) s.draft := by
  obtain ⟨sc, draft⟩ := s
  have ht := transition h
  cases ht with
  | opened | declared | inserted | finished | begun | abandoned => cases hf
  | @refused o f ho =>
    cases hf
    cases o.draft_faults _ ho
  | @undeclared step d f hx =>
    cases hf
    exact (step.apply_faults (hs.draft _ rfl).finalized _ hx).resolve_left id
  | @uninserted step d f hx =>
    cases hf
    exact (step.apply_faults (hs.draft _ rfl).finalized _ hx).resolve_left id
  | @unfinished d f hx =>
    cases hf
    cases Draft.finalize_faults (hs.draft _ rfl) sc _ hx
  | @unbegun d f hx =>
    cases hf
    cases Draft.finalize_faults (d := .table d) (hs.draft _ rfl) sc _ hx
  | unseeded _ hi => exact (TableDraft.seeding_ne_error (hs.draft _ rfl) hi).elim

end Session

theorem finalizing_in_run (o : RenderOptions) (as : List Action) :
    let s := (Session.start o).run as
    (∀ a p label, s.perform? a = some p → p.answer.outcome = .error (.sectionFinalized label) →
        a.PassesOn (.sectionFinalized label) s.draft) ∧
      (∀ i, s.draft = some (.insert i) → i.list.finalized = false ∧
        ∃ p, s.perform? .finalize = some p ∧ p.answer.outcome = .ok () ∧
          p.session.script.sections =
            s.script.sections ++ [.insertData ⟨i.destination, i.list.columns, i.sources⟩]) ∧
      ∀ d, s.draft = some (.table d) → d.list.finalized = false ∧
        ∃ p q, s.perform? .finalize = some p ∧ s.perform? .beginInsert = some q ∧
          q.answer.outcome = p.answer.outcome ∧
          ∀ f, p.answer.outcome = .error f ↔
            f = .emptyTableVariable d.name.text ∧ d.list.columns = [] ∨
              f = .duplicateVariableName d.name.text ∧ d.list.columns ≠ [] ∧
                s.script.isDeclared d.name.text = true := by
  intro s
  have hs : s.Sound := Session.run_sound o as
  refine ⟨fun _ _ _ h hf => Session.sectionFinalized_of_perform hs h hf, ?_, ?_⟩
  · intro i hi
    obtain ⟨p, hp, hok, happ⟩ := Session.finalize_insert_answer hs hi
    exact ⟨(hs.draft _ hi).finalized, p, hp, hok, by rw [happ]; rfl⟩
  · intro d hd
    obtain ⟨p, hp, hanswer⟩ := Session.finalize_table_answer hs hd
    obtain ⟨q, hq, heq⟩ := Session.beginInsert_answer hs hd hp
    refine ⟨(hs.draft _ hd).finalized, p, q, hp, hq, heq, fun f => ?_⟩
    rw [hanswer, Script.isDeclared_text]
    by_cases hc : d.list.columns = []
    · simp [hc, eq_comm]
    · by_cases hm : d.name ∈ s.script.declared
      · simp [hc, hm, eq_comm]
      · simp [hc, hm]

end TransactScript
