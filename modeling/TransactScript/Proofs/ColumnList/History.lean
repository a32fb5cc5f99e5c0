import Mathlib.Data.List.Induction
import Mathlib.Data.List.Nodup
import Mathlib.Data.List.TakeWhile
import TransactScript.Proofs.ColumnList
import TransactScript.Proofs.Firsts
import TransactScript.Proofs.InPlace

/-! The columns of a list, told from all that was asked of it. It takes the first column of each name until it is
closed, and it is closed once. -/

namespace TransactScript

namespace ColumnList

inductive Step (α : Type) where
  | insert (column : α)
  | finalize
  | ensureOpen
  | contains (name : String)

namespace Step

variable {α : Type}

def isFinalize : Step α → Bool
  | finalize => true
  | _ => false

def inserted? : Step α → Option α
  | insert c => some c
  | _ => none

/-- The columns that are offered before the list is closed, whether or not it takes them. -/
def offered (steps : List (Step α)) : List α :=
  (steps.takeWhile fun step => !step.isFinalize).filterMap inserted?

end Step

variable {α : Type} [Named α] {l : ColumnList α}

/-- What is answered, and the list as it is then. An operation that fails gives no list. -/
def settle (l : ColumnList α) : Except Fault (ColumnList α) → Except Fault (Option Bool) × ColumnList α
  | .ok l' => (.ok none, l')
  | .error f => (.error f, l)

def perform (l : ColumnList α) : Step α → Except Fault (Option Bool) × ColumnList α
  | .insert c => l.settle (l.insert c).outcome
  | .finalize => l.settle l.finalize
  | .ensureOpen => l.settle (l.ensureOpen.map fun _ => l)
  | .contains name => (.ok (some (l.contains name)), l)

def ofSteps (label : String) (steps : List (Step α)) : ColumnList α :=
  steps.foldl (fun l step => (l.perform step).2) (empty label)

section InPlace

open InPlace (run_get_bind lift_ok_bind)

/-- The step as checks and changes of the list, in their order. -/
def Step.inPlace : Step α → InPlace (ColumnList α) (Option Bool)
  | insert c => do
      (← get).ensureOpen
      if (← get).contains (Named.name c).text then
        throw (.duplicateColumn (← get).label (Named.name c).text)
      modify (·.push c)
      pure none
  | finalize => do
      (← get).ensureOpen
      modify fun l => { l with finalized := true }
      pure none
  | ensureOpen => do
      (← get).ensureOpen
      pure none
  | contains name => do
      pure (some ((← get).contains name))

lemma inPlace_eq (l : ColumnList α) (step : Step α) : step.inPlace.run.run l = l.perform step := by
  cases step with
  | insert c =>
    rw [Step.inPlace, run_get_bind, perform, insert]
    cases l.ensureOpen with
    | error f => rfl
    | ok u =>
      rw [lift_ok_bind, run_get_bind, Logged.lift_ok_bind]
      dsimp only
      cases l.contains (Named.name c).text <;> rfl
  | finalize =>
    rw [Step.inPlace, run_get_bind, perform, finalize]
    cases l.ensureOpen <;> rfl
  | ensureOpen =>
    rw [Step.inPlace, run_get_bind, perform]
    cases l.ensureOpen <;> rfl
  | contains name => rfl

end InPlace

lemma perform_closed (h : l.finalized = true) (step : Step α) : l.perform step =
    match step with
    | .contains name => (.ok (some (l.contains name)), l)
    | _ => (.error (.sectionFinalized l.label), l) := by
  have hclosed : l.ensureOpen = .error (.sectionFinalized l.label) := by simp [ensureOpen, h]
  cases step with
  | insert c => simp [perform, insert, hclosed, settle]
  | finalize => simp [perform, finalize, hclosed, settle]
  | ensureOpen => simp [perform, hclosed, settle]
  | contains name => rfl

lemma perform_open (h : l.finalized = false) (step : Step α) : l.perform step =
    match step with
    | .insert c =>
        if Named.name c ∈ l.names then (.error (.duplicateColumn l.label (Named.name c).text), l)
        else (.ok none, l.push c)
    | .finalize => (.ok none, { l with finalized := true })
    | .ensureOpen => (.ok none, l)
    | .contains name => (.ok (some (l.contains name)), l) := by
  cases step with
  | insert c =>
    rw [perform, insert_outcome l c h]
    dsimp only
    split <;> rfl
  | finalize => rw [perform, finalize_ok h, settle]
  | ensureOpen => simp [perform, ensureOpen, h, settle]
  | contains name => rfl

section Offered

omit [Named α]

variable {steps : List (Step α)}

lemma offered_closed (h : steps.any Step.isFinalize = true) (later : List (Step α)) :
    Step.offered (steps ++ later) = Step.offered steps := by
  induction steps with
  | nil => cases h
  | cons step steps ih =>
    rw [Step.offered, Step.offered, List.cons_append, List.takeWhile_cons, List.takeWhile_cons]
    cases hs : step.isFinalize with
    | true => rfl
    | false =>
      rw [List.any_cons, hs, Bool.false_or] at h
      simp only [Bool.not_false, if_true, List.filterMap_cons]
      rw [← Step.offered, ← Step.offered, ih h]

lemma offered_open (h : steps.any Step.isFinalize = false) (step : Step α) :
    Step.offered (steps ++ [step]) = Step.offered steps ++ step.inserted?.toList := by
  have hall : ∀ s ∈ steps, (!s.isFinalize) = true := by simpa using h
  rw [Step.offered, Step.offered, List.takeWhile_append_of_pos hall, List.takeWhile_eq_self_iff.mpr hall,
    List.filterMap_append]
  cases step <;> rfl

end Offered

lemma ofSteps_concat (label : String) (steps : List (Step α)) (step : Step α) :
    ofSteps label (steps ++ [step]) = ((ofSteps label steps).perform step).2 := by
  rw [ofSteps, List.foldl_append]
  rfl

lemma ofSteps_eq (label : String) (steps : List (Step α)) :
    ofSteps label steps = ⟨label, firsts Named.name [] (Step.offered steps), steps.any Step.isFinalize⟩ := by
  induction steps using List.reverseRecOn with
  | nil => rfl
  | append_singleton steps step ih =>
    rw [ofSteps_concat, ih, List.any_append]
    cases h : steps.any Step.isFinalize with
    | true =>
      rw [perform_closed rfl, offered_closed h]
      cases step <;> rfl
    | false =>
      rw [perform_open rfl, offered_open h]
      cases step with
      | insert c =>
        rw [Step.inserted?, Option.toList_some, firsts_concat]
        dsimp only [names]
        simp only [mem_keys_firsts]
        split <;> rfl
      | finalize => simp [Step.inserted?, Step.isFinalize]
      | ensureOpen => simp [Step.inserted?, Step.isFinalize]
      | contains name => simp [Step.inserted?, Step.isFinalize]

omit [Named α] in
lemma settle_error {x : Except Fault (ColumnList α)} {f : Fault} (h : (l.settle x).1 = .error f) :
    (l.settle x).2 = l := by
  cases x with
  | ok l' => cases h
  | error e => rfl

lemma perform_error {step : Step α} {f : Fault} (h : (l.perform step).1 = .error f) : (l.perform step).2 = l := by
  cases step with
  | insert c => exact settle_error h
  | finalize => exact settle_error h
  | ensureOpen => exact settle_error h
  | contains name => rfl

lemma answer_eq (l : ColumnList α) (step : Step α) : (l.perform step).1 =
    match step with
    | .insert c =>
        if l.finalized then .error (.sectionFinalized l.label)
        else if Named.name c ∈ l.names then .error (.duplicateColumn l.label (Named.name c).text)
        else .ok none
    | .finalize | .ensureOpen => if l.finalized then .error (.sectionFinalized l.label) else .ok none
    | .contains name => .ok (some (l.contains name)) := by
  cases h : l.finalized with
  | true =>
    rw [perform_closed h]
    cases step <;> rfl
  | false =>
    rw [perform_open h]
    cases step with
    | insert c =>
      dsimp only
      split <;> rfl
    | _ => rfl

lemma mem_names_iff {n : ColumnName} : n ∈ l.names ↔ ∃ c ∈ l.columns, (Named.name c).text = n.text := by
  simp only [names, List.mem_map, Identifier.text_inj]

lemma contains_iff {name : String} : l.contains name = true ↔ ∃ c ∈ l.columns, (Named.name c).text = name := by
  simp [contains, names]

theorem list_of_steps (label : String) (steps : List (Step α)) :
    let l : ColumnList α := ofSteps label steps
    let closed := steps.any Step.isFinalize
    l = ⟨label, firsts Named.name [] (Step.offered steps), closed⟩ ∧
      (l.columns.map fun c => (Named.name c).text).Nodup ∧
      (∀ name, ∃ found, (l.perform (.contains name)).1 = .ok (some found) ∧
        (found = true ↔ ∃ c ∈ l.columns, (Named.name c).text = name)) ∧
      (∀ c, (l.perform (.insert c)).1 =
        if closed then .error (.sectionFinalized label)
        else if ∃ d ∈ l.columns, (Named.name d).text = (Named.name c).text then
          .error (.duplicateColumn label (Named.name c).text)
        else .ok none) ∧
      (l.perform .finalize).1 = (if closed then .error (.sectionFinalized label) else .ok none) ∧
      (l.perform .ensureOpen).1 = (if closed then .error (.sectionFinalized label) else .ok none) ∧
      ∀ step : Step α, step.inPlace.run.run l = l.perform step ∧
        ∀ f, (step.inPlace.run.run l).1 = .error f → (step.inPlace.run.run l).2 = l := by
  intro l closed
  have hl : l = ⟨label, firsts Named.name [] (Step.offered steps), closed⟩ := ofSteps_eq label steps
  have hlabel : l.label = label := by rw [hl]
  have hclosed : l.finalized = closed := by rw [hl]
  have hnodup : l.names.Nodup := by
    rw [hl]
    exact nodup_firsts Named.name [] (Step.offered steps)
  refine ⟨hl, ?_, fun name => ⟨l.contains name, rfl, contains_iff⟩, fun c => ?_, ?_, ?_, fun step => ?_⟩
  · have htexts : (l.names.map Identifier.text).Nodup :=
      List.Nodup.map (fun _ _ => Identifier.text_injective) hnodup
    rwa [names, List.map_map] at htexts
  · rw [answer_eq, hlabel, hclosed]
    simp only [mem_names_iff]
  · rw [answer_eq, hlabel, hclosed]
  · rw [answer_eq, hlabel, hclosed]
  · rw [inPlace_eq]
    exact ⟨rfl, fun _ => perform_error⟩

end ColumnList

end TransactScript
