import TransactScript.Proofs.Session.Run

/-! The sections of a script, told from what was asked of the session and how it answered. -/

namespace TransactScript

namespace Session

def history (s : Session) : List Action → List (Action × Logged Unit)
  | [] => []
  | a :: as =>
      match s.perform? a with
      | some p => (a, p.answer) :: p.session.history as
      | none => s.history as

end Session

/-- What the open section is for: what it was opened with, and the sources it has been given. A
continuation is the insert that follows the declaration of its variable. -/
inductive Commission where
  | declaration (name : VariableName) (schema : Option Schema)
  | insertion (destination : Destination) (sources : List Source)
  | continuation (name : VariableName) (sources : List Source)

namespace Commission

def ofOpening? : Opening → Option Commission
  | .declare name => (VariableName.parse name).toOption.map fun v => declaration v none
  | .declareFrom schema name =>
      (VariableName.parse (Opening.nameOrDefault name schema)).toOption.map fun v => declaration v (some schema)
  | .insert destination => (Destination.parse destination).toOption.map fun d => insertion d []
  | .insertFrom schema destination =>
      (Destination.parse (Opening.nameOrDefault destination schema)).toOption.map fun d => insertion d []

def give (sources : List Source) : Commission → Commission
  | declaration name schema => declaration name schema
  | insertion destination given => insertion destination (given ++ sources)
  | continuation name given => continuation name (given ++ sources)

def next (current : Option Commission) (turn : Action × Logged Unit) : Option Commission :=
  match turn.2.outcome, turn.1, current with
  | .ok _, .opening o, _ => ofOpening? o
  | .ok _, .table _, some c => some c
  | .ok _, .insert step, some c => some (c.give step.given)
  | .ok _, .beginInsert, some (declaration name _) => some (continuation name [])
  | _, _, _ => none

def current (turns : List (Action × Logged Unit)) : Option Commission :=
  turns.foldl next none

def section? : Commission → Draft → Option Section
  | declaration name schema, .table d => some (.tableVariable ⟨name, d.list.columns, schema.map (·.name)⟩)
  | insertion destination sources, .insert d => some (.insertData ⟨destination, d.list.columns, sources⟩)
  | continuation name sources, .insert d => some (.insertData ⟨.tableVariable name, d.list.columns, sources⟩)
  | _, _ => none

lemma section_ofOpening {o : Opening} {d : Draft} (h : o.draft = .ok d) :
    ∃ c, ofOpening? o = some c ∧ c.section? d = some d.finished ∧ ∀ v given, c ≠ continuation v given := by
  cases o with
  | declare name =>
    obtain ⟨v, hv, h⟩ := Logged.except_bind_ok h
    cases h
    exact ⟨declaration v none, by simp [ofOpening?, hv, Except.toOption], rfl, by simp⟩
  | declareFrom schema name =>
    obtain ⟨v, hv, h⟩ := Logged.except_bind_ok h
    cases h
    exact ⟨declaration v (some schema), by simp [ofOpening?, hv, Except.toOption], rfl, by simp⟩
  | insert destination =>
    obtain ⟨d, hd, h⟩ := Logged.except_bind_ok h
    cases h
    exact ⟨insertion d [], by simp [ofOpening?, hd, Except.toOption], rfl, by simp⟩
  | insertFrom schema destination =>
    obtain ⟨d, hd, h⟩ := Logged.except_bind_ok h
    cases h
    exact ⟨insertion d [], by simp [ofOpening?, hd, Except.toOption], rfl, by simp⟩

lemma section_table {c : Commission} {d d' : TableDraft}
    (h : c.section? (.table d) = some (Draft.table d).finished) (hg : d.Grows d') : c.section? (.table d') = some (Draft.table d').finished := by
  cases c with
  | declaration name schema =>
    simp only [section?, Draft.finished, Option.some.injEq, Section.tableVariable.injEq,
      TableVariable.mk.injEq] at h ⊢
    exact ⟨h.1.trans hg.name.symm, trivial, hg.schema ▸ h.2.2⟩
  | insertion destination sources => cases h
  | continuation name sources => cases h

lemma section_insert {c : Commission} {d d' : InsertDraft} {given : List Source}
    (h : c.section? (.insert d) = some (Draft.insert d).finished) (hg : InsertDraft.Grows given d d') :
    (c.give given).section? (.insert d') = some (Draft.insert d').finished := by
  cases c with
  | declaration name schema => cases h
  | insertion destination sources =>
    simp only [section?, give, Draft.finished, Option.some.injEq, Section.insertData.injEq,
      InsertData.mk.injEq] at h ⊢
    exact ⟨h.1.trans hg.destination.symm, trivial, by rw [h.2.2, hg.sources]⟩
  | continuation name sources =>
    simp only [section?, give, Draft.finished, Option.some.injEq, Section.insertData.injEq,
      InsertData.mk.injEq] at h ⊢
    exact ⟨h.1.trans hg.destination.symm, trivial, by rw [h.2.2, hg.sources]⟩

end Commission

structure Recalled (c : Option Commission) (s : Session) : Prop where
  sound : s.Sound
  draft : ∀ d, s.draft = some d → ∃ e, c = some e ∧ e.section? d = some d.finished
  continuation : ∀ name given, c = some (.continuation name given) →
    ∃ earlier t, s.script.sections = earlier ++ [.tableVariable t] ∧ t.name = name

lemma Recalled.perform {c : Option Commission} {s : Session} {a : Action} {p : Performed} (hr : Recalled c s)
    (h : s.perform? a = some p) : Recalled (Commission.next c (a, p.answer)) p.session := by
  have hs := hr.sound.perform h
  obtain ⟨sc, draft⟩ := s
  have ht := Session.transition h
  cases ht with
  | opened ho =>
    obtain ⟨e, he, hd, hn⟩ := Commission.section_ofOpening ho
    refine ⟨hs, ?_, ?_⟩
    · rintro d hd'
      cases hd'
      exact ⟨e, he, hd⟩
    · intro name given hc
      exact (hn name given (Option.some.inj (he.symm.trans hc))).elim
  | declared hx =>
    obtain ⟨e, rfl, he⟩ := hr.draft _ rfl
    refine ⟨hs, ?_, hr.continuation⟩
    rintro d hd
    cases hd
    exact ⟨e, rfl, Commission.section_table he (TableDraft.apply_grows hx)⟩
  | @inserted step d d' hx =>
    obtain ⟨e, rfl, he⟩ := hr.draft _ rfl
    refine ⟨hs, ?_, ?_⟩
    · rintro d hd
      cases hd
      exact ⟨e.give step.given, rfl, Commission.section_insert he (InsertDraft.apply_grows hx)⟩
    · intro name given hc
      cases e with
      | declaration _ _ => cases hc
      | insertion _ _ => cases hc
      | continuation v sources =>
        cases hc
        exact hr.continuation _ sources rfl
  | @begun d sc' i hf hi =>
    obtain ⟨e, rfl, he⟩ := hr.draft _ rfl
    have hd : (Draft.table d).Sound := hr.sound.draft _ rfl
    obtain ⟨rfl, _⟩ := Draft.finalize_ok hd hf
    have hg := InsertDraft.addAll_grows hi
    cases e with
    | declaration name schema =>
      have hname : name = d.name := by
        simp only [Commission.section?, Draft.finished, Option.some.injEq, Section.tableVariable.injEq,
          TableVariable.mk.injEq] at he
        exact he.1
      subst hname
      refine ⟨hs, ?_, ?_⟩
      · rintro d' hd'
        cases hd'
        exact ⟨_, rfl, Commission.section_insert (c := .continuation d.name []) rfl hg⟩
      · intro name given hc
        cases hc
        exact ⟨_, _, rfl, rfl⟩
    | insertion _ _ => cases he
    | continuation _ _ => cases he
  | _ =>
    refine ⟨hs, ?_, ?_⟩
    · rintro d hd
      cases hd
    · intro name given hc
      cases hc

namespace Session

lemma recalled_run {c : Option Commission} {s : Session} (hr : Recalled c s) (as : List Action) :
    Recalled ((s.history as).foldl Commission.next c) (s.run as) := by
  induction as generalizing c s with
  | nil => exact hr
  | cons a as ih =>
    rw [history, run]
    cases ha : s.perform? a with
    | some p => exact ih (hr.perform ha)
    | none => exact ih hr

lemma recalled_start (o : RenderOptions) : Recalled none (start o) where
  sound := start_sound o
  draft := by simp [start]
  continuation := by simp

lemma sections_of_perform {s : Session} {a : Action} {p : Performed} (hs : s.Sound)
    (h : s.perform? a = some p) :
    s.script.sections <+: p.session.script.sections := by
  rcases script_of_perform hs h with ⟨_, d, _, _, he, _⟩ | ⟨_, he⟩
  · rw [he]
    exact List.prefix_append _ _
  · simp only [he, List.prefix_refl]

lemma sections_prefix {s : Session} (hs : s.Sound) (as : List Action) :
    s.script.sections <+: (s.run as).script.sections :=
  (hs.run_property (P := fun t => s.script.sections <+: t.script.sections)
    (fun _ _ _ ht hp ha => hp.trans (sections_of_perform ht ha)) (List.prefix_refl _) as).2

lemma table_columns_of_perform {s : Session} {a : Action} {p : Performed} (h : s.perform? a = some p)
    {t t' : TableDraft} (ht : s.draft = some (.table t)) (ht' : p.session.draft = some (.table t')) :
    t.list.columns <+: t'.list.columns := by
  obtain ⟨sc, draft⟩ := s
  cases ht
  have hp := transition h
  cases hp with
  | declared hx =>
    cases ht'
    exact (TableDraft.apply_grows hx).list.columns
  | _ => cases ht'

lemma insert_columns_of_perform {s : Session} {a : Action} {p : Performed} (h : s.perform? a = some p)
    {i i' : InsertDraft} (hi : s.draft = some (.insert i)) (hi' : p.session.draft = some (.insert i')) :
    i.list.columns <+: i'.list.columns := by
  obtain ⟨sc, draft⟩ := s
  cases hi
  have hp := transition h
  cases hp with
  | inserted hx =>
    cases hi'
    exact (InsertDraft.apply_grows hx).list.columns
  | _ => cases hi'

lemma finish_insert {s : Session} {p : Performed} (hs : s.Sound) (h : s.perform? .finalize = some p)
    {i : InsertDraft} (hi : s.draft = some (.insert i)) :
    p.session.script = s.script.append (Draft.insert i).finished := by
  obtain ⟨sc, draft⟩ := s
  cases hi
  have hp := transition h
  cases hp with
  | finished hf =>
    rw [Draft.finalize_insert i sc (hs.draft _ rfl).finalized] at hf
    cases hf
    rfl
  | unfinished hf =>
    rw [Draft.finalize_insert i sc (hs.draft _ rfl).finalized] at hf
    cases hf

end Session

lemma Recalled.finish_continuation {s : Session} {p : Performed} {name : VariableName} {given : List Source}
    (hr : Recalled (some (.continuation name given)) s) (h : s.perform? .finalize = some p) :
    ∃ earlier t i, p.session.script.sections = earlier ++ [.tableVariable t, .insertData i] ∧
      t.name = name ∧ i.destination = .tableVariable name := by
  obtain ⟨earlier, t, ht, hname⟩ := hr.continuation name given rfl
  cases hd : s.draft with
  | none =>
    have hn : s.perform? .finalize = none := by simp [Session.perform?, hd]
    rw [hn] at h
    cases h
  | some d =>
    obtain ⟨c, hc, hsec⟩ := hr.draft d hd
    cases hc
    cases d with
    | table d => cases hsec
    | insert i =>
      have hdest : Destination.tableVariable name = i.destination := by
        simp only [Commission.section?, Draft.finished, Option.some.injEq, Section.insertData.injEq,
          InsertData.mk.injEq] at hsec
        exact hsec.1
      refine ⟨earlier, t, ⟨i.destination, i.list.columns, i.sources⟩, ?_, hname, hdest.symm⟩
      rw [Session.finish_insert hr.sound h hd]
      simp [Script.append, ht, Draft.finished]

theorem sections_of_run (o : RenderOptions) (as : List Action) {a : Action} {p : Performed}
    (h : ((Session.start o).run as).perform? a = some p) :
    let s := (Session.start o).run as
    let current := Commission.current ((Session.start o).history as)
    (Closes a p.answer → ∃ d c sec, s.draft = some d ∧ current = some c ∧ c.section? d = some sec ∧
        p.session.script.sections = s.script.sections ++ [sec]) ∧
      (¬ Closes a p.answer → p.session.script.sections = s.script.sections) ∧
      (∀ later, p.session.script.sections <+: (p.session.run later).script.sections) ∧
      (∀ t t', s.draft = some (.table t) → p.session.draft = some (.table t') →
        t.list.columns <+: t'.list.columns) ∧
      (∀ i i', s.draft = some (.insert i) → p.session.draft = some (.insert i') →
        i.list.columns <+: i'.list.columns) ∧
      (∀ name given, current = some (.continuation name given) → a = .finalize →
        ∃ earlier t i, p.session.script.sections = earlier ++ [.tableVariable t, .insertData i] ∧
          t.name = name ∧ i.destination = .tableVariable name) := by
  intro s current
  have hr : Recalled current s := Session.recalled_run (Session.recalled_start o) as
  refine ⟨?_, ?_, Session.sections_prefix (hr.sound.perform h), fun t t' => Session.table_columns_of_perform h,
    fun i i' => Session.insert_columns_of_perform h, ?_⟩
  · intro hc
    rcases Session.script_of_perform hr.sound h with ⟨_, d, hd, _, he, _⟩ | ⟨hn, _⟩
    · obtain ⟨c, hcur, hsec⟩ := hr.draft d hd
      exact ⟨d, c, d.finished, hd, hcur, hsec, by rw [he]; rfl⟩
    · exact (hn hc).elim
  · intro hc
    rcases Session.script_of_perform hr.sound h with ⟨hn, _⟩ | ⟨_, he⟩
    · exact (hc hn).elim
    · rw [he]
  · rintro name given hcur rfl
    rw [hcur] at hr
    exact hr.finish_continuation h

def declareThenInsert : List Action :=
  [.opening (.declare "t"), .table (.column "Id" (.plain .int) false true), .beginInsert,
    .insert (.column "Id" (.plain .int)), .insert (.define (.values [.int 1])),
    .insert (.define (.rows [[.int 2], [.int 3]]))]

theorem sections_of_declareThenInsert : ∃ p,
    ((Session.start {}).run declareThenInsert).perform? .finalize = some p ∧ Closes .finalize p.answer ∧
      p.session.script.sections =
        [.tableVariable ⟨⟨⟨"t", by decide⟩⟩, [⟨⟨"Id", by decide⟩, .plain .int, false, true⟩], none⟩,
          .insertData ⟨.tableVariable ⟨⟨"t", by decide⟩⟩, [⟨⟨"Id", by decide⟩, .plain .int⟩],
            [.values [.int 1], .rows [[.int 2], [.int 3]]]⟩] := by
  obtain ⟨p, hp⟩ : ∃ p, ((Session.start {}).run declareThenInsert).perform? .finalize = some p := ⟨_, rfl⟩
  have hclose : Closes .finalize p.answer := by
    cases hp
    exact ⟨Or.inl rfl, rfl⟩
  obtain ⟨d, c, sec, hd, hc, hsec, happ⟩ := (sections_of_run {} declareThenInsert hp).1 hclose
  refine ⟨p, hp, hclose, ?_⟩
  rw [happ]
  cases hd
  cases hc
  cases hsec
  rfl

end TransactScript
