import TransactScript.Proofs.Session.History
import TransactScript.Proofs.Session.InPlace

/-! A section that is given up, because an action failed or because it was abandoned, leaves no trace: the
session goes on as if the attempt at it had not been made. -/

namespace TransactScript

def GivesUp (a : Action) (answer : Logged Unit) : Prop :=
  a = .abandon ∨ ∃ f, answer.outcome = .error f

namespace Session

lemma perform_of_givesUp {s : Session} {a : Action} {p : Performed} (hs : s.Sound) (h : s.perform? a = some p)
    (hg : GivesUp a p.answer) : p.session = ⟨s.script, none⟩ := by
  obtain ⟨sc, draft⟩ := s
  have ht := transition h
  cases ht with
  | unseeded _ hi => exact (TableDraft.seeding_ne_error (hs.draft _ rfl) hi).elim
  | refused | undeclared | uninserted | unfinished | unbegun | abandoned => rfl
  | opened | declared | inserted | finished | begun =>
    rcases hg with hg | ⟨f, hf⟩
    · cases hg
    · cases hf

lemma history_append (s : Session) (as bs : List Action) :
    s.history (as ++ bs) = s.history as ++ (s.run as).history bs := by
  induction as generalizing s with
  | nil => rfl
  | cons a as ih =>
    simp only [List.cons_append, history, run]
    cases s.perform? a with
    | some p => exact congrArg _ (ih p.session)
    | none => exact ih s

lemma run_perform {s : Session} {a : Action} {p : Performed} (h : s.perform? a = some p) :
    s.run [a] = p.session := by
  simp [run, h]

lemma history_perform {s : Session} {a : Action} {p : Performed} (h : s.perform? a = some p) :
    s.history [a] = [(a, p.answer)] := by
  simp [history, h]

end Session

/-- The actions of a run that count: those that still do if the open section is given up, and those that do as
long as it is not. If the insert that follows a declaration is given up, the declaration is merely finished. -/
structure Ledger where
  settled : List Action := []
  standing : List Action := []

namespace Ledger

def settle (as : List Action) : Ledger :=
  ⟨as, as⟩

def next (l : Ledger) (turn : Action × Logged Unit) : Ledger :=
  match turn.2.outcome, turn.1 with
  | .error _, _ | .ok _, .abandon => settle l.settled
  | .ok _, .finalize => settle (l.standing ++ [.finalize])
  | .ok _, .beginInsert => ⟨l.standing ++ [.finalize], l.standing ++ [.beginInsert]⟩
  | .ok _, a => { l with standing := l.standing ++ [a] }

def ofHistory (turns : List (Action × Logged Unit)) : Ledger :=
  turns.foldl next {}

end Ledger

/-- The actions lead from one session to the other without giving anything up. -/
structure Leads (s : Session) (as : List Action) (s' : Session) : Prop where
  run : s.run as = s'
  steady : ∀ turn ∈ s.history as, ¬ GivesUp turn.1 turn.2

namespace Leads

lemma refl (s : Session) : Leads s [] s :=
  ⟨rfl, by simp [Session.history]⟩

lemma snoc {s s' : Session} {as : List Action} {a : Action} {p : Performed} (h : Leads s as s')
    (ha : s'.perform? a = some p) (hg : ¬ GivesUp a p.answer) : Leads s (as ++ [a]) p.session where
  run := by rw [Session.run_append, h.run, Session.run_perform ha]
  steady := by
    intro turn ht
    rw [Session.history_append, h.run, Session.history_perform ha, List.mem_append] at ht
    rcases ht with ht | ht
    · exact h.steady turn ht
    · rw [List.mem_singleton.mp ht]
      exact hg

end Leads

structure Ledger.Valid (origin : Session) (l : Ledger) (s : Session) : Prop where
  settled : Leads origin l.settled ⟨s.script, none⟩
  standing : Leads origin l.standing s

namespace Ledger

variable {origin s : Session} {l : Ledger} {a : Action} {p : Performed}

lemma Valid.settle {as : List Action} {sc : Script} (h : Leads origin as ⟨sc, none⟩) :
    (Ledger.settle as).Valid origin ⟨sc, none⟩ :=
  ⟨h, h⟩

lemma Valid.perform (hl : l.Valid origin s) (hs : s.Sound) (h : s.perform? a = some p) :
    (l.next (a, p.answer)).Valid origin p.session := by
  obtain ⟨sc, draft⟩ := s
  have ht := Session.transition h
  cases ht with
  | refused | undeclared | uninserted | unfinished | unbegun | abandoned => exact .settle hl.settled
  | opened | declared | inserted => exact ⟨hl.settled, hl.standing.snoc h (by simp [GivesUp])⟩
  | finished => exact .settle (hl.standing.snoc h (by simp [GivesUp]))
  | @begun d sc' i hf hi =>
    -- to give up the insert later is to have finished the declaration only
    have hclose : Session.perform? ⟨sc, some (.table d)⟩ .finalize =
        some ⟨⟨sc', none⟩, ⟨.ok (), (d.finalize sc).events⟩⟩ := by
      simp [Session.perform?, Session.close, hf]
    exact ⟨hl.standing.snoc hclose (by simp [GivesUp]), hl.standing.snoc h (by simp [GivesUp])⟩
  | unseeded _ hi => exact (TableDraft.seeding_ne_error (hs.draft _ rfl) hi).elim

lemma Valid.run (hl : l.Valid origin s) (hs : s.Sound) (as : List Action) :
    ((s.history as).foldl next l).Valid origin (s.run as) := by
  induction as generalizing l s with
  | nil => exact hl
  | cons a as ih =>
    rw [Session.history, Session.run]
    cases ha : s.perform? a with
    | some p => exact ih (hl.perform hs ha) (hs.perform ha)
    | none => exact ih hl hs

lemma valid_start (o : RenderOptions) (as : List Action) :
    (ofHistory ((Session.start o).history as)).Valid (Session.start o) ((Session.start o).run as) :=
  Valid.run (l := {}) ⟨.refl _, .refl _⟩ (Session.start_sound o) as

end Ledger

theorem givenUp_without_trace (o : RenderOptions) (as : List Action) {a : Action} {p : Performed}
    (h : ((Session.start o).run as).perform? a = some p) (hg : GivesUp a p.answer) :
    let start := Session.start o
    let s := start.run as
    let settled := (Ledger.ofHistory (start.history as)).settled
    p.session = ⟨s.script, none⟩ ∧
      (∃ work, a.inPlace? s.draft = some work ∧
        work.run.run ⟨s, []⟩ = (p.answer.outcome, ⟨⟨s.script, none⟩, p.answer.events⟩)) ∧
      (∀ turn ∈ start.history settled, ¬ GivesUp turn.1 turn.2) ∧
      ∀ later, start.run (as ++ a :: later) = start.run (settled ++ later) ∧
        ∃ answers, start.history (as ++ a :: later) = start.history as ++ (a, p.answer) :: answers ∧
          start.history (settled ++ later) = start.history settled ++ answers := by
  intro start s settled
  have hs : s.Sound := Session.run_sound o as
  have hp : p.session = ⟨s.script, none⟩ := Session.perform_of_givesUp hs h hg
  have hl : Leads start settled ⟨s.script, none⟩ := (Ledger.valid_start o as).settled
  obtain ⟨work, hwork, hleft⟩ := Session.inPlace_of_perform h []
  rw [hp] at hleft
  refine ⟨hp, ⟨work, hwork, hleft⟩, hl.steady, fun later => ⟨?_, p.session.history later, ?_, ?_⟩⟩
  · rw [Session.run_append, Session.run_append, hl.run, ← hp, Session.run, h]
  · rw [Session.history_append, Session.history, h]
  · rw [Session.history_append, hl.run, hp]

theorem givenUp_lateColumn : ∃ p,
    ((Session.start {}).run declareThenInsert).perform? (.insert (.column "Name" (.plain .int))) = some p ∧
      p.answer.outcome = .error (.dataPopulationStarted "@t") ∧
      p.session = ⟨((Session.start {}).run declareThenInsert).script, none⟩ ∧
      ∀ later, (Session.start {}).run (declareThenInsert ++ .insert (.column "Name" (.plain .int)) :: later) =
        (Session.start {}).run
          ([.opening (.declare "t"), .table (.column "Id" (.plain .int) false true), .finalize] ++ later) := by
  obtain ⟨p, hp⟩ : ∃ p, ((Session.start {}).run declareThenInsert).perform?
      (.insert (.column "Name" (.plain .int))) = some p := ⟨_, rfl⟩
  have hf : p.answer.outcome = .error (.dataPopulationStarted "@t") := by
    cases hp
    rfl
  obtain ⟨hsession, _, _, hlater⟩ := givenUp_without_trace {} declareThenInsert hp (.inr ⟨_, hf⟩)
  exact ⟨p, hp, hf, hsession, fun later => (hlater later).1⟩

end TransactScript
