import TransactScript.Proofs.Draft.Mirror
import TransactScript.Proofs.Session.Finalizing
import TransactScript.Proofs.Session.Generation

/-! The insert that follows a declaration. It begins exactly if the declaration can be finished, and then with
the columns that were declared. -/

namespace TransactScript

/-- What the declaration hands on to the insert into its variable. -/
structure InsertDraft.Continues (i : InsertDraft) (d : TableDraft) : Prop where
  destination : i.destination = .tableVariable d.name
  schema : i.schema = d.schema
  sources : i.sources = []
  not_data : i.isDataDefining = false
  columns : d.schema ≠ none → i.list.columns = d.list.columns.map TableColumn.toColumn
  no_columns : d.schema = none → i.list.columns = []

lemma InsertDraft.generate_known {i : InsertDraft} {schema : Schema} (hs : i.schema = some schema)
    (h : ∀ q ∈ schema.properties, i.list.contains q.name = true ∧ ∃ c, Column.ofProperty q = .ok c) :
    i.generate.outcome = .ok i := by
  rw [generate, generates.fold hs]
  apply generates.foldlM_known
  · intro q hq
    exact (h q hq).2
  · intro q hq
    obtain ⟨hin, c, hc⟩ := h q hq
    have hname : nameOf Column.ofProperty q = some c.name := by simp [nameOf, hc, Except.toOption, Named.name]
    rw [hname]
    apply List.mem_map_of_mem
    rw [← Column.name_of_ofProperty hc] at hin
    exact ColumnList.contains_text.mp hin

namespace TableDraft

variable {d : TableDraft}

lemma seeding_continues (h : d.list.Open) :
    ∃ i : InsertDraft, (d.insertStart.addAll d.seed).outcome = .ok i ∧ i.Continues d := by
  refine ⟨_, seeding_outcome h, rfl, rfl, rfl, rfl, ?_, ?_⟩
  · intro hs
    exact if_pos (Option.isSome_iff_ne_none.mpr hs)
  · intro hs
    exact if_neg (by simp [hs])

lemma contains_seeded {i : InsertDraft} (hi : i.Continues d) (hs : d.schema ≠ none) (name : String) :
    i.list.contains name = d.list.contains name := by
  rw [← contains_mirror d.list, ColumnList.contains, ColumnList.names, hi.columns hs]
  rfl

lemma generate_seeded {i : InsertDraft} (hi : i.Continues d) {schema : Schema} (hs : d.schema = some schema)
    (h : ∀ q ∈ schema.properties, d.list.contains q.name = true ∧ ∃ c, Column.ofProperty q = .ok c) :
    i.generate.outcome = .ok i := by
  apply InsertDraft.generate_known (hi.schema.trans hs)
  intro q hq
  obtain ⟨hin, hc⟩ := h q hq
  rw [contains_seeded hi (by simp [hs])]
  exact ⟨hin, hc⟩

end TableDraft

namespace Session

variable {s : Session} {d : TableDraft} {f : Fault}

lemma close_error {changed : Logged Script} (h : (s.close changed).answer.outcome = .error f) :
    (s.close changed).session = ⟨s.script, none⟩ := by
  rw [close] at h ⊢
  cases ho : changed.outcome with
  | ok sc =>
    rw [ho] at h
    cases h
  | error g => rfl

lemma beginInsert_error (h : (s.close (d.finalize s.script)).answer.outcome = .error f) :
    s.beginInsert d = s.close (d.finalize s.script) := by
  simp only [beginInsert, h]

lemma beginInsert_ok {i : InsertDraft} (h : (s.close (d.finalize s.script)).answer.outcome = .ok ())
    (hi : (d.insertStart.addAll d.seed).outcome = .ok i) :
    (s.beginInsert d).answer.outcome = .ok () ∧
      (s.beginInsert d).session = ⟨(s.close (d.finalize s.script)).session.script, some (.insert i)⟩ := by
  simp only [beginInsert, h, redraft, Logged.outcome_map, hi, Except.map, and_self]

end Session

theorem beginInsert_of_run (o : RenderOptions) (as : List Action) {d : TableDraft}
    (hd : ((Session.start o).run as).draft = some (.table d)) :
    let s := (Session.start o).run as
    ∃ finished begun i, s.perform? .finalize = some finished ∧ s.perform? .beginInsert = some begun ∧
      (d.insertStart.addAll d.seed).outcome = .ok i ∧ i.Continues d ∧
      begun.answer.outcome = finished.answer.outcome ∧
      begun.session.script = finished.session.script ∧
      (∀ f, finished.answer.outcome = .error f → begun = finished ∧ begun.session = ⟨s.script, none⟩) ∧
      (finished.answer.outcome = .ok () → begun.session.draft = some (.insert i)) ∧
      ∀ schema, d.schema = some schema →
        (∀ q ∈ schema.properties, d.list.contains q.name = true ∧ ∃ c, Column.ofProperty q = .ok c) →
        i.generate.outcome = .ok i := by
  intro s
  have hopen : d.list.Open := (Session.run_sound o as).draft _ hd
  obtain ⟨i, hi, hcontinues⟩ := TableDraft.seeding_continues hopen
  have hgenerate (schema : Schema) (hs : d.schema = some schema) := TableDraft.generate_seeded hcontinues hs
  refine ⟨s.close (d.finalize s.script), s.beginInsert d, i, ?_, ?_, hi, hcontinues, ?_⟩
  · simp only [Session.perform?, s, hd]
  · simp only [Session.perform?, s, hd]
  · cases hf : (s.close (d.finalize s.script)).answer.outcome with
    | error f =>
      have hbegun := Session.beginInsert_error hf
      rw [hbegun]
      refine ⟨hf, rfl, fun g _ => ⟨rfl, Session.close_error hf⟩, ?_, hgenerate⟩
      intro hok
      cases hok
    | ok =>
      obtain ⟨hanswer, hsession⟩ := Session.beginInsert_ok hf hi
      rw [hsession]
      refine ⟨hanswer, rfl, ?_, fun _ => rfl, hgenerate⟩
      intro f herror
      cases herror

theorem beginInsert_of_generatedPeople :
    let s := (Session.start {}).run [.opening (.declareFrom people ""), .table .generate]
    let d : TableDraft :=
      { name := ⟨⟨"People", by decide⟩⟩
        schema := some people
        list := ⟨"@People", [⟨⟨"Id", by decide⟩, .plain .int, false, false⟩,
          ⟨⟨"Name", by decide⟩, .string .nvarchar none, true, false⟩,
          ⟨⟨"Age", by decide⟩, .plain .smallint, true, false⟩], false⟩ }
    s.draft = some (.table d) ∧
      ∃ begun i, s.perform? .beginInsert = some begun ∧ begun.answer.outcome = .ok () ∧
        begun.session.draft = some (.insert i) ∧ i.destination = .tableVariable ⟨⟨"People", by decide⟩⟩ ∧
        i.list.columns = [⟨⟨"Id", by decide⟩, .plain .int⟩,
          ⟨⟨"Name", by decide⟩, .string .nvarchar none⟩, ⟨⟨"Age", by decide⟩, .plain .smallint⟩] ∧
        i.generate.outcome = .ok i := by
  intro s d
  have hd : s.draft = some (.table d) := rfl
  obtain ⟨finished, begun, i, hf, hb, _, hc, hanswer, _, _, hdraft, hgenerate⟩ := beginInsert_of_run {} _ hd
  have hok : finished.answer.outcome = .ok () := by
    cases hf
    rfl
  have hknown : ∀ q ∈ people.properties, d.list.contains q.name = true ∧ q.IsInferable := by
    decide
  refine ⟨hd, begun, i, hb, hanswer.trans hok, hdraft hok, hc.destination, hc.columns (by decide), ?_⟩
  apply hgenerate people rfl
  intro q hq
  obtain ⟨hin, hq⟩ := hknown q hq
  exact ⟨hin, Column.infers.inferable.mpr hq⟩

end TransactScript
