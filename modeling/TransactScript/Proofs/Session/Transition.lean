import TransactScript.Proofs.Draft.Finish

/-! Everything that an action can do to a session. -/

namespace TransactScript

namespace Session

inductive Transition (sc : Script) : Option Draft → Action → Performed → Prop
  | opened {o d} : o.draft = .ok d →
      Transition sc none (.opening o) ⟨⟨sc, some d⟩, ⟨.ok (), []⟩⟩
  | refused {o f} : o.draft = .error f →
      Transition sc none (.opening o) ⟨⟨sc, none⟩, ⟨.error f, []⟩⟩
  | declared {step d d'} : (TableStep.apply d step).outcome = .ok d' →
      Transition sc (some (.table d)) (.table step) ⟨⟨sc, some (.table d')⟩, ⟨.ok (), (step.apply d).events⟩⟩
  | undeclared {step d f} : (TableStep.apply d step).outcome = .error f →
      Transition sc (some (.table d)) (.table step) ⟨⟨sc, none⟩, ⟨.error f, (step.apply d).events⟩⟩
  | inserted {step d d'} : (InsertStep.apply d step).outcome = .ok d' →
      Transition sc (some (.insert d)) (.insert step) ⟨⟨sc, some (.insert d')⟩, ⟨.ok (), (step.apply d).events⟩⟩
  | uninserted {step d f} : (InsertStep.apply d step).outcome = .error f →
      Transition sc (some (.insert d)) (.insert step) ⟨⟨sc, none⟩, ⟨.error f, (step.apply d).events⟩⟩
  | finished {d sc'} : (d.finalize sc).outcome = .ok sc' →
      Transition sc (some d) .finalize ⟨⟨sc', none⟩, ⟨.ok (), (d.finalize sc).events⟩⟩
  | unfinished {d f} : (d.finalize sc).outcome = .error f →
      Transition sc (some d) .finalize ⟨⟨sc, none⟩, ⟨.error f, (d.finalize sc).events⟩⟩
  | begun {d sc' i} : (d.finalize sc).outcome = .ok sc' → (d.insertStart.addAll d.seed).outcome = .ok i →
      Transition sc (some (.table d)) .beginInsert ⟨⟨sc', some (.insert i)⟩,
        ⟨.ok (), (d.finalize sc).events ++ (d.insertStart.addAll d.seed).events⟩⟩
  | unbegun {d f} : (d.finalize sc).outcome = .error f →
      Transition sc (some (.table d)) .beginInsert ⟨⟨sc, none⟩, ⟨.error f, (d.finalize sc).events⟩⟩
  | unseeded {d sc' f} : (d.finalize sc).outcome = .ok sc' →
      (d.insertStart.addAll d.seed).outcome = .error f →
      Transition sc (some (.table d)) .beginInsert ⟨⟨sc', none⟩,
        ⟨.error f, (d.finalize sc).events ++ (d.insertStart.addAll d.seed).events⟩⟩
  | abandoned {d} : Transition sc (some d) .abandon ⟨⟨sc, none⟩, ⟨.ok (), []⟩⟩

lemma table_transition (sc : Script) (d : TableDraft) (step : TableStep) :
    Transition sc (some (.table d)) (.table step)
      (redraft ⟨sc, some (.table d)⟩ (Draft.table <$> step.apply d)) := by
  cases hx : (step.apply d).outcome with
  | ok d' =>
    simp only [redraft, Logged.outcome_map, Logged.events_map, hx, Except.map]
    exact .declared hx
  | error f =>
    simp only [redraft, Logged.outcome_map, Logged.events_map, hx, Except.map]
    exact .undeclared hx

lemma insert_transition (sc : Script) (d : InsertDraft) (step : InsertStep) :
    Transition sc (some (.insert d)) (.insert step)
      (redraft ⟨sc, some (.insert d)⟩ (Draft.insert <$> step.apply d)) := by
  cases hx : (step.apply d).outcome with
  | ok d' =>
    simp only [redraft, Logged.outcome_map, Logged.events_map, hx, Except.map]
    exact .inserted hx
  | error f =>
    simp only [redraft, Logged.outcome_map, Logged.events_map, hx, Except.map]
    exact .uninserted hx

lemma close_transition (sc : Script) (d : Draft) :
    Transition sc (some d) .finalize (close ⟨sc, some d⟩ (d.finalize sc)) := by
  cases hx : (d.finalize sc).outcome with
  | ok sc' =>
    simp only [close, hx]
    exact .finished hx
  | error f =>
    simp only [close, hx]
    exact .unfinished hx

lemma open_transition (sc : Script) (o : Opening) :
    Transition sc none (.opening o) (redraft ⟨sc, none⟩ (Logged.ofExcept o.draft)) := by
  cases hx : o.draft with
  | ok d => exact .opened hx
  | error f => exact .refused hx

lemma beginInsert_transition (sc : Script) (d : TableDraft) :
    Transition sc (some (.table d)) .beginInsert (beginInsert ⟨sc, some (.table d)⟩ d) := by
  cases hx : (d.finalize sc).outcome with
  | ok sc' =>
    cases hy : (d.insertStart.addAll d.seed).outcome with
    | ok i =>
      simp only [beginInsert, close, hx, redraft, Logged.outcome_map, hy, Logged.events_map, Except.map]
      exact .begun hx hy
    | error f =>
      simp only [beginInsert, close, hx, redraft, Logged.outcome_map, hy, Logged.events_map, Except.map]
      exact .unseeded hx hy
  | error f =>
    simp only [beginInsert, close, hx]
    exact .unbegun hx

lemma transition {s : Session} {a : Action} {p : Performed} (h : s.perform? a = some p) :
    Transition s.script s.draft a p := by
  obtain ⟨sc, draft⟩ := s
  cases a with
  | opening o =>
    cases draft with
    | none =>
      cases h
      exact open_transition sc o
    | some d => cases h
  | table step =>
    cases draft with
    | none => cases h
    | some d =>
      cases d with
      | table d =>
        cases h
        exact table_transition sc d step
      | insert d => cases h
  | insert step =>
    cases draft with
    | none => cases h
    | some d =>
      cases d with
      | table d => cases h
      | insert d =>
        cases h
        exact insert_transition sc d step
  | finalize =>
    cases draft with
    | none => cases h
    | some d =>
      cases d with
      | table d =>
        cases h
        exact close_transition sc (.table d)
      | insert d =>
        cases h
        exact close_transition sc (.insert d)
  | beginInsert =>
    cases draft with
    | none => cases h
    | some d =>
      cases d with
      | table d =>
        cases h
        exact beginInsert_transition sc d
      | insert d => cases h
  | abandon =>
    cases draft with
    | none => cases h
    | some d =>
      cases h
      exact .abandoned

end Session

end TransactScript
