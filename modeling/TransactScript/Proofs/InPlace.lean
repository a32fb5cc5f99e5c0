import Mathlib.Tactic.Lemma
import TransactScript.Event

/-! Work on a state in place, change by change. A failure leaves the state as it is at that moment. -/

namespace TransactScript

abbrev InPlace (σ α : Type) : Type :=
  ExceptT Fault (StateM σ) α

/-- A state, and what has been reported of the work on it. -/
structure Tracked (σ : Type) where
  state : σ
  events : List Event

namespace InPlace

section Laws

variable {σ α β : Type}

lemma run_get_bind (k : σ → InPlace σ β) (s : σ) : (get >>= k).run.run s = (k s).run.run s := rfl

lemma throw_bind (f : Fault) (k : α → InPlace σ β) : (throw f : InPlace σ α) >>= k = throw f := rfl

lemma lift_ok_bind (a : α) (k : α → InPlace σ β) :
    (liftM (.ok a : Except Fault α) : InPlace σ α) >>= k = k a := rfl

lemma lift_error_bind (f : Fault) (k : α → InPlace σ β) :
    (liftM (.error f : Except Fault α) : InPlace σ α) >>= k = throw f := rfl

lemma run_bind (x : InPlace σ α) (k : α → InPlace σ β) (s : σ) :
    (x >>= k).run.run s =
      match x.run.run s with
      | (.ok a, t) => (k a).run.run t
      | (.error f, t) => (.error f, t) := by
  rw [ExceptT.run_bind, StateT.run_bind]
  rcases x.run.run s with ⟨outcome, t⟩
  cases outcome <;> rfl

end Laws

variable {σ α : Type}

def change (f : σ → σ) : InPlace (Tracked σ) Unit :=
  modify fun t => { t with state := f t.state }

def report (e : Event) : InPlace (Tracked σ) Unit :=
  modify fun t => { t with events := t.events ++ [e] }

def logged (x : Logged α) : InPlace (Tracked σ) α := do
  modify fun t => { t with events := t.events ++ x.events }
  x.outcome

lemma run_logged (x : Logged α) (t : Tracked σ) :
    (logged x).run.run t = (x.outcome, { t with events := t.events ++ x.events }) := by
  obtain ⟨outcome, events⟩ := x
  cases outcome <;> rfl

/-- What the work leaves is what the operation gives: the new state, or the old one if it fails. -/
def Realizes (work : InPlace (Tracked σ) Unit) (operation : σ → Logged σ) : Prop :=
  ∀ s events, work.run.run ⟨s, events⟩ =
    match (operation s).outcome with
    | .ok s' => (.ok (), ⟨s', events ++ (operation s).events⟩)
    | .error f => (.error f, ⟨s, events ++ (operation s).events⟩)

lemma throw_realizes (f : Fault) : Realizes (throw f) fun _ : σ => Logged.fail f := by
  intro s events
  change ((.error f, ⟨s, events⟩) : Except Fault Unit × Tracked σ) = (.error f, ⟨s, events ++ []⟩)
  rw [List.append_nil]

end InPlace

end TransactScript
