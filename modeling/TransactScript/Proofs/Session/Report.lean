import TransactScript.Proofs.Session.Account

/-! The log of a run tells its script: the sections with their numbers and kinds, and of each section the columns
with which it was finished. -/

namespace TransactScript

namespace Session

/-- What has been reported since a section was last opened. -/
def sinceOpening (turns : List (Action × Logged Unit)) : List Event :=
  turns.foldl (fun es turn => if turn.1.opens then turn.2.events else es ++ turn.2.events) []

lemma sinceOpening_append (turns : List (Action × Logged Unit)) (a : Action) (answer : Logged Unit) :
    sinceOpening (turns ++ [(a, answer)]) = (if a.opens then [] else sinceOpening turns) ++ answer.events := by
  rw [sinceOpening, List.foldl_append]
  cases h : a.opens <;> simp [sinceOpening, h]

lemma exists_draft {s : Session} {a : Action} {p : Performed} (h : s.perform? a = some p) (ha : a.opens = false) :
    ∃ d, s.draft = some d := by
  obtain ⟨sc, draft⟩ := s
  have ht := transition h
  cases ht with
  | opened | refused => cases ha
  | _ => exact ⟨_, rfl⟩

structure Reported (turns : List (Action × Logged Unit)) (s : Session) : Prop where
  sound : s.Sound
  labelled : s.Labelled
  registered : registrations (turns.flatMap fun turn => turn.2.events) =
    s.script.sections.mapIdx fun i sec => (i + 1, sec.kind)
  told : ∀ d, s.draft = some d → additions (sinceOpening turns) = d.told

namespace Reported

variable {turns : List (Action × Logged Unit)} {s : Session}

lemma registered_perform {a : Action} {p : Performed} (hr : Reported turns s) (ha : Accounts s a p) :
    registrations ((turns ++ [(a, p.answer)]).flatMap fun turn => turn.2.events) =
      p.session.script.sections.mapIdx fun i sec => (i + 1, sec.kind) := by
  rw [List.flatMap_append, registrations_append, hr.registered, List.flatMap_singleton]
  by_cases hc : Closes a p.answer
  · obtain ⟨d, seeds, _, hsections, hevents, hseeds⟩ := ha.closing hc
    have hlast : registrations p.answer.events = [(s.script.sections.length + 1, d.finished.kind)] := by
      rw [hevents]
      exact congrArg _ hseeds
    rw [hsections, hlast, List.mapIdx_concat]
  · obtain ⟨hscript, hevents⟩ := ha.standing hc
    rw [hscript, hevents, List.append_nil]

lemma told_perform {a : Action} {p : Performed} (hr : Reported turns s) (h : s.perform? a = some p)
    (ha : Accounts s a p) {d : Draft} (hd : p.session.draft = some d) :
    additions (sinceOpening (turns ++ [(a, p.answer)])) = d.told := by
  have hok : p.answer.outcome = .ok () := by
    cases ho : p.answer.outcome with
    | ok => rfl
    | error f =>
      rw [perform_of_givesUp hr.sound h (.inr ⟨f, ho⟩)] at hd
      cases hd
  rw [sinceOpening_append, additions_append, (ha.added hok).2 d hd]
  cases hopens : a.opens with
  | true => rfl
  | false =>
    obtain ⟨e, he⟩ := exists_draft h hopens
    simp only [Bool.false_eq_true, if_false, hr.told e he, Session.told, he, Option.elim_some]

lemma perform {a : Action} {p : Performed} (hr : Reported turns s) (h : s.perform? a = some p) :
    Reported (turns ++ [(a, p.answer)]) p.session where
  sound := hr.sound.perform h
  labelled := labelled_of_perform hr.labelled h
  registered := hr.registered_perform (accounts hr.sound hr.labelled h)
  told _ hd := hr.told_perform h (accounts hr.sound hr.labelled h) hd

lemma run (hr : Reported turns s) (as : List Action) : Reported (turns ++ s.history as) (s.run as) := by
  induction as generalizing turns s with
  | nil => simpa [history, Session.run] using hr
  | cons a as ih =>
    rw [history, Session.run]
    cases ha : s.perform? a with
    | some p => simpa using ih (hr.perform ha)
    | none => exact ih hr

lemma start (o : RenderOptions) : Reported [] (start o) where
  sound := start_sound o
  labelled := nofun
  registered := rfl
  told := nofun

end Reported

end Session

namespace RenderOptions

open Logged

lemma statements_reportsOnly (o : RenderOptions) (head : String) (source : Source) :
    (o.statements head source).ReportsOnly Event.IsOther := by
  cases source with
  | values r => exact .pure _
  | rows rows =>
    rw [statements]
    split
    · exact (ReportsOnly.report ⟨rfl, rfl⟩).bind fun _ => .pure _
    · exact .pure _
  | query text =>
    simp only [statements]
    split
    · exact (ReportsOnly.report ⟨rfl, rfl⟩).bind fun _ => .pure _
    · exact .pure _

lemma fragment_reportsOnly (o : RenderOptions) (sec : Section) :
    (o.renderer.fragment sec).ReportsOnly Event.IsOther := by
  cases sec with
  | tableVariable t =>
    change (o.declaration t).ReportsOnly Event.IsOther
    rw [declaration]
    split <;> exact nofun
  | insertData i => exact (ReportsOnly.mapM (o.statements_reportsOnly _) i.sources).bind fun _ => .pure _

lemma script_reportsOnly (o : RenderOptions) (sections : List Section) :
    (o.renderer.script sections).ReportsOnly Event.IsOther := by
  induction sections with
  | nil => exact .pure _
  | cons sec sections ih => exact (o.fragment_reportsOnly sec).bind fun _ => ih.bind fun _ => .pure _

end RenderOptions

open Session in
theorem log_of_run (o : RenderOptions) (as : List Action) :
    let s := (start o).run as
    let turns := (start o).history as
    registrations (turns.flatMap fun turn => turn.2.events) =
        s.script.sections.mapIdx (fun i sec => (i + 1, sec.kind)) ∧
      (∀ a p, s.perform? a = some p → Accounts s a p ∧
        (Closes a p.answer → ∃ sec, p.session.script.sections = s.script.sections ++ [sec] ∧
          additions (sinceOpening turns) = sec.told)) ∧
      ∀ layout : RenderOptions, let es := (s.script.renderWith layout.renderer).events
        additions es = [] ∧ registrations es = [] := by
  intro s turns
  have hr : Reported turns s := (Reported.start o).run as
  refine ⟨hr.registered, fun a p h => ?_, fun layout => ?_⟩
  · have ha : Accounts s a p := accounts hr.sound hr.labelled h
    refine ⟨ha, fun hc => ?_⟩
    obtain ⟨d, _, hd, hsections, _⟩ := ha.closing hc
    exact ⟨d.finished, hsections, hr.told d hd⟩
  · have hother := layout.script_reportsOnly s.script.sections
    exact ⟨additions_of_other hother, registrations_of_other hother⟩

/-- A column is told although the section that it was added to is given up. -/
theorem additions_of_failedGeneration :
    let s := (Session.start {}).run [.opening (.declareFrom tenant "tenants")]
    ∃ p, s.perform? (.table .generate) = some p ∧ p.answer.outcome = .error (.unmappedType "Address") ∧
      p.session = ⟨s.script, none⟩ ∧ p.session.script.sections = [] ∧
      additions p.answer.events = [("@tenants", ⟨"Id", by decide⟩)] :=
  ⟨_, rfl, rfl, rfl, rfl, rfl⟩

end TransactScript
