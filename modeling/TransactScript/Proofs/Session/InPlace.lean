import TransactScript.Proofs.InPlace
import TransactScript.Proofs.Session.Transition

/-! Sections are registered with a script that is changed in place, and an open section is taken out of its session
before anything is done with it. A failure undoes nothing, yet the script is then as it was. -/

namespace TransactScript

open InPlace

namespace Script

/-- The checks and changes of a registration, in their order. -/
def registerInPlace (added : Section) : InPlace (Tracked Script) Unit := do
  if let some name := added.declaredVariable? then
    if (← get).state.declared.contains name then
      throw (.duplicateVariableName name.text)
    change fun s => { s with declared := s.declared ++ [name] }
  report (.sectionRegistered ((← get).state.sections.length + 1) added.kind)
  change fun s => { s with sections := s.sections ++ [added] }

lemma register_realizes (added : Section) : Realizes (registerInPlace added) fun s => s.register added := by
  intro s events
  dsimp only
  rw [registerInPlace, register]
  cases added.declaredVariable? with
  | none => rfl
  | some name =>
    dsimp only
    rw [run_get_bind]
    cases s.declared.contains name with
    | true =>
      simp only [if_true, throw_bind, Logged.fail_bind]
      exact throw_realizes _ s events
    | false => rfl

lemma register_lift_realizes {α : Type} (x : Except Fault α) (added : α → Section) :
    Realizes (do registerInPlace (added (← x))) fun s => (do s.register (added (← x))) := by
  intro s events
  cases x with
  | error f =>
    simp only [lift_error_bind, Logged.lift_error_bind]
    exact throw_realizes f s events
  | ok a => exact register_realizes (added a) s events

end Script

namespace Draft

def finalizeInPlace : Draft → InPlace (Tracked Script) Unit
  | table d => do
      if d.list.isEmpty then
        throw (.emptyTableVariable d.name.text)
      let list ← d.list.finalize
      Script.registerInPlace (.tableVariable ⟨d.name, list.columns, d.schema.map (·.name)⟩)
  | insert d => do
      let list ← d.list.finalize
      Script.registerInPlace (.insertData ⟨d.destination, list.columns, d.sources⟩)

lemma finalize_realizes (d : Draft) : Realizes d.finalizeInPlace d.finalize := by
  intro s events
  cases d with
  | table d =>
    rw [finalizeInPlace, finalize, TableDraft.finalize]
    cases d.list.isEmpty with
    | true =>
      simp only [if_true, throw_bind, Logged.fail_bind]
      exact throw_realizes _ s events
    | false =>
      have hregister := Script.register_lift_realizes d.list.finalize
        (fun list => .tableVariable ⟨d.name, list.columns, d.schema.map (·.name)⟩) s events
      simp only [Bool.false_eq_true, if_false]
      exact hregister
  | insert d =>
    have hregister := Script.register_lift_realizes d.list.finalize
      (fun list => .insertData ⟨d.destination, list.columns, d.sources⟩) s events
    rw [finalizeInPlace, finalize, InsertDraft.finalize]
    exact hregister

end Draft

namespace Session

/-- Work on the script of a session, while a section is open or after it was taken out. -/
def onScript {α : Type} (work : InPlace (Tracked Script) α) : InPlace (Tracked Session) α :=
  ExceptT.mk fun t =>
    let (outcome, done) := work.run.run ⟨t.state.script, t.events⟩
    (outcome, ⟨⟨done.state, t.state.draft⟩, done.events⟩)

lemma run_onScript {α : Type} (work : InPlace (Tracked Script) α) (t : Tracked Session) :
    (onScript work).run.run t =
      let (outcome, done) := work.run.run ⟨t.state.script, t.events⟩
      (outcome, ⟨⟨done.state, t.state.draft⟩, done.events⟩) := rfl

def take : InPlace (Tracked Session) Unit :=
  change fun s => { s with draft := none }

def put (d : Draft) : InPlace (Tracked Session) Unit :=
  change fun s => { s with draft := some d }

lemma run_take_bind {β : Type} (k : Unit → InPlace (Tracked Session) β) (t : Tracked Session) :
    (take >>= k).run.run t = (k ()).run.run ⟨⟨t.state.script, none⟩, t.events⟩ := rfl

variable {d : Draft} {sc sc' : Script} {f : Fault}

lemma run_finish_ok (h : (d.finalize sc).outcome = .ok sc') (draft : Option Draft) (events : List Event) :
    (onScript d.finalizeInPlace).run.run ⟨⟨sc, draft⟩, events⟩ =
      (.ok (), ⟨⟨sc', draft⟩, events ++ (d.finalize sc).events⟩) := by
  rw [run_onScript, d.finalize_realizes sc events, h]

lemma run_finish_error (h : (d.finalize sc).outcome = .error f) (draft : Option Draft) (events : List Event) :
    (onScript d.finalizeInPlace).run.run ⟨⟨sc, draft⟩, events⟩ =
      (.error f, ⟨⟨sc, draft⟩, events ++ (d.finalize sc).events⟩) := by
  rw [run_onScript, d.finalize_realizes sc events, h]

end Session

/-- The action as work on the session, if the session allows it. -/
def Action.inPlace? : Action → Option Draft → Option (InPlace (Tracked Session) Unit)
  | .opening o, none => some do
      Session.put (← o.draft)
  | .table step, some (.table d) => some do
      Session.take
      Session.put (.table (← logged (step.apply d)))
  | .insert step, some (.insert d) => some do
      Session.take
      Session.put (.insert (← logged (step.apply d)))
  | .finalize, some d => some do
      Session.take
      Session.onScript d.finalizeInPlace
  | .beginInsert, some (.table d) => some do
      Session.take
      Session.onScript (Draft.table d).finalizeInPlace
      Session.put (.insert (← logged (d.insertStart.addAll d.seed)))
  | .abandon, some _ => some Session.take
  | _, _ => none

/-- What an action does in place is what it answers, and the session that it leaves, whether or not it fails. -/
lemma Session.inPlace_of_perform {s : Session} {a : Action} {p : Performed} (h : s.perform? a = some p)
    (events : List Event) : ∃ work, a.inPlace? s.draft = some work ∧
      work.run.run ⟨s, events⟩ = (p.answer.outcome, ⟨p.session, events ++ p.answer.events⟩) := by
  obtain ⟨sc, draft⟩ := s
  have ht := transition h
  cases ht with
  | opened ho =>
    refine ⟨_, rfl, ?_⟩
    rw [ho, lift_ok_bind, List.append_nil]
    rfl
  | refused ho =>
    refine ⟨_, rfl, ?_⟩
    rw [ho, lift_error_bind, List.append_nil]
    rfl
  | declared hx | inserted hx =>
    refine ⟨_, rfl, ?_⟩
    rw [run_take_bind, run_bind, run_logged, hx]
    rfl
  | undeclared hx | uninserted hx =>
    refine ⟨_, rfl, ?_⟩
    rw [run_take_bind, run_bind, run_logged, hx]
  | finished hf => exact ⟨_, rfl, run_finish_ok hf none events⟩
  | unfinished hf => exact ⟨_, rfl, run_finish_error hf none events⟩
  | @unbegun d _ hf =>
    have hfinish := run_finish_error (d := .table d) hf none events
    refine ⟨_, rfl, ?_⟩
    rw [run_take_bind, run_bind, hfinish]
    rfl
  | @begun d _ _ hf hi | @unseeded d _ _ hf hi =>
    -- what was registered stays, also if the insert cannot be seeded
    have hfinish := run_finish_ok (d := .table d) hf none events
    refine ⟨_, rfl, ?_⟩
    rw [run_take_bind, run_bind, hfinish]
    dsimp only
    rw [run_bind, run_logged, hi, List.append_assoc]
    rfl
  | abandoned =>
    refine ⟨_, rfl, ?_⟩
    rw [List.append_nil]
    rfl

end TransactScript
