import TransactScript.Proofs.Fault
import TransactScript.Proofs.Statement

/-! A script is rendered section by section. Its text is put together from the texts of its parts, and it is
refused for the first section that the renderer refuses. -/

namespace TransactScript

namespace Renderer

variable {r : Renderer} {f g : Fault} {text : String} {sec : Section} {sections xs ys : List Section}

/-- The fault is that of the first section that the renderer refuses. -/
def FirstFault (r : Renderer) (sections : List Section) (f : Fault) : Prop :=
  ∃ before sec after, sections = before ++ sec :: after ∧
    (∀ t ∈ before, ∃ text, (r.fragment t).outcome = .ok text) ∧ (r.fragment sec).outcome = .error f

lemma script_cons_error (hf : (r.fragment sec).outcome = .error g) :
    (r.script (sec :: sections)).outcome = .error g := by
  rw [script, Logged.outcome_bind, hf, Logged.error_bind]

lemma script_cons_ok (hf : (r.fragment sec).outcome = .ok text) :
    (r.script (sec :: sections)).outcome = (r.script sections).outcome.map (framed text ++ ·) := by
  rw [script, Logged.outcome_bind, hf, Logged.ok_bind, Logged.outcome_bind]
  cases (r.script sections).outcome <;> rfl

lemma script_error_iff : (r.script sections).outcome = .error f ↔ r.FirstFault sections f := by
  change _ ↔ TransactScript.FirstFault (fun sec => (r.fragment sec).outcome) sections f
  induction sections with
  | nil =>
    constructor
    · intro h
      cases h
    · exact fun h => (FirstFault.not_nil h).elim
  | cons sec sections ih =>
    cases hf : (r.fragment sec).outcome with
    | error g =>
      rw [script_cons_error hf, FirstFault.cons_error (g := fun sec => (r.fragment sec).outcome) hf]
      exact ⟨Except.error.inj, congrArg _⟩
    | ok text =>
      rw [script_cons_ok hf, FirstFault.cons_ok (g := fun sec => (r.fragment sec).outcome) hf, ← ih]
      cases (r.script sections).outcome with
      | error g => simp
      | ok rest => simp

lemma exists_firstFault_iff :
    (∃ f, r.FirstFault sections f) ↔ ∃ sec ∈ sections, ∃ f, (r.fragment sec).outcome = .error f :=
  TransactScript.FirstFault.exists_iff

lemma script_append (r : Renderer) (xs ys : List Section) :
    r.script (xs ++ ys) = (do pure ((← r.script xs) ++ (← r.script ys))) := by
  induction xs with
  | nil => simp only [List.nil_append, script, pure_bind, String.empty_append, bind_pure]
  | cons sec xs ih => simp only [List.cons_append, script, ih, bind_assoc, pure_bind, String.append_assoc]

lemma script_insert_append (o : RenderOptions) (d : Destination) (cs : List Column) (first second : List Source)
    (rest : List Section) :
    (o.renderer.script (.insertData ⟨d, cs, first ++ second⟩ :: rest)).outcome =
      (o.renderer.script (.insertData ⟨d, cs, first⟩ :: .insertData ⟨d, cs, second⟩ :: rest)).outcome := by
  have hfragment (sources : List Source) : (o.renderer.fragment (.insertData ⟨d, cs, sources⟩)).outcome = _ :=
    o.insertion_outcome ⟨d, cs, sources⟩
  rw [script_cons_ok (hfragment _), script_cons_ok (hfragment _), script_cons_ok (hfragment _)]
  -- no statement is empty, so that the lines of a fragment are those of its statements, however they are grouped
  simp only [framed_statements, List.flatMap_append]
  rw [List.map_append, String.join_append]
  cases (o.renderer.script rest).outcome with
  | error f => rfl
  | ok text => simp only [Logged.ok_map, String.append_assoc]

end Renderer

theorem rendering_composes (r : Renderer) (s : Script) (xs ys : List Section) :
    let rendered (r : Renderer) (sections : List Section) := ({ s with sections := sections }.renderWith r).outcome
    ((∃ f, rendered r (xs ++ ys) = .error f) ↔
        ∃ sec ∈ xs ++ ys, ∃ f, (r.fragment sec).outcome = .error f) ∧
      (∀ f, rendered r (xs ++ ys) = .error f ↔ r.FirstFault (xs ++ ys) f) ∧
      (∀ text, rendered r (xs ++ ys) = .ok text ↔
        ∃ front back, rendered r xs = .ok front ∧ rendered r ys = .ok back ∧ text = front ++ back) ∧
      ∀ (o : RenderOptions) d cs first second,
        rendered o.renderer (xs ++ .insertData ⟨d, cs, first ++ second⟩ :: ys) =
          rendered o.renderer (xs ++ .insertData ⟨d, cs, first⟩ :: .insertData ⟨d, cs, second⟩ :: ys) := by
  intro rendered
  have herror (f : Fault) : rendered r (xs ++ ys) = .error f ↔ r.FirstFault (xs ++ ys) f :=
    Renderer.script_error_iff
  refine ⟨?_, herror, ?_, ?_⟩
  · simp only [herror]
    exact Renderer.exists_firstFault_iff
  · intro text
    have happend : rendered r (xs ++ ys) = _ := congrArg Logged.outcome (r.script_append xs ys)
    rw [happend, Logged.outcome_bind]
    constructor
    · intro h
      obtain ⟨front, hfront, h⟩ := Logged.except_bind_ok h
      obtain ⟨back, hback, h⟩ := Logged.bind_ok h
      exact ⟨front, back, hfront, hback, (Except.ok.inj h).symm⟩
    · rintro ⟨front, back, hfront, hback, rfl⟩
      change (r.script xs).outcome = _ at hfront
      change (r.script ys).outcome = _ at hback
      rw [hfront, Logged.ok_bind, Logged.outcome_bind, hback]
      rfl
  · intro o d cs first second
    have happend (rest : List Section) : rendered o.renderer (xs ++ rest) = _ :=
      congrArg Logged.outcome (o.renderer.script_append xs rest)
    simp only [happend, Logged.outcome_bind, Renderer.script_insert_append]

end TransactScript
