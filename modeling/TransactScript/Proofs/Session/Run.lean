import TransactScript.Proofs.Session.Transition

/-! Runs of actions, and what holds of every session that a run leads to. -/

namespace TransactScript

namespace Script

structure Consistent (s : Script) : Prop where
  declared : s.declared = s.declaredVariables
  nodup : s.declared.Nodup
  names : ∀ sec ∈ s.sections, sec.names.Nodup
  nonempty : ∀ sec ∈ s.sections, sec.declaredVariable? ≠ none → sec.names ≠ []

lemma consistent_empty (o : RenderOptions) : Consistent { options := o } where
  declared := rfl
  nodup := List.nodup_nil
  names := by simp
  nonempty := by simp

lemma Consistent.append {s : Script} {added : Section} (h : s.Consistent) (hn : added.names.Nodup)
    (hd : ∀ v, added.declaredVariable? = some v → v ∉ s.declared ∧ added.names ≠ []) :
    (s.append added).Consistent where
  declared := by
    have hd : s.declared = s.sections.filterMap Section.declaredVariable? := h.declared
    simp only [Script.append, declaredVariables, List.filterMap_append, hd]
    cases hv : added.declaredVariable? <;> simp [hv]
  nodup := by
    simp only [Script.append]
    rw [List.nodup_append]
    refine ⟨h.nodup, ?_, ?_⟩
    · cases added.declaredVariable? <;> simp
    · intro v hv w hw he
      obtain ⟨hm, _⟩ := hd w (by simpa using hw)
      exact hm (he ▸ hv)
  names := by
    intro sec hs
    rcases List.mem_append.mp hs with hs | hs
    · exact h.names sec hs
    · rw [List.mem_singleton.mp hs]
      exact hn
  nonempty := by
    intro sec hs hv
    rcases List.mem_append.mp hs with hs | hs
    · exact h.nonempty sec hs hv
    · obtain rfl := List.mem_singleton.mp hs
      obtain ⟨v, hv⟩ := Option.ne_none_iff_exists'.mp hv
      exact (hd v hv).2

end Script

/-- The section that was open is now part of the script. -/
def Closes (a : Action) (answer : Logged Unit) : Prop :=
  (a = .finalize ∨ a = .beginInsert) ∧ answer.outcome = .ok ()

namespace Session

structure Sound (s : Session) : Prop where
  script : s.script.Consistent
  draft : ∀ d, s.draft = some d → d.Sound

lemma script_of_perform {s : Session} {a : Action} {p : Performed} (hs : s.Sound) (h : s.perform? a = some p) :
    (Closes a p.answer ∧ ∃ d, s.draft = some d ∧ d.Sound ∧ p.session.script = s.script.append d.finished ∧
        ∀ v, d.finished.declaredVariable? = some v → v ∉ s.script.declared ∧ d.finished.names ≠ []) ∨
      (¬ Closes a p.answer ∧ p.session.script = s.script) := by
  obtain ⟨sc, draft⟩ := s
  have ht := transition h
  cases ht with
  | finished hf =>
    have hd := hs.draft _ rfl
    obtain ⟨rfl, hv⟩ := Draft.finalize_ok hd hf
    exact Or.inl ⟨⟨Or.inl rfl, rfl⟩, _, rfl, hd, rfl, hv⟩
  | @begun d sc' i hf hi =>
    have hd := hs.draft _ rfl
    obtain ⟨rfl, hv⟩ := Draft.finalize_ok (d := .table d) hd hf
    exact Or.inl ⟨⟨Or.inr rfl, rfl⟩, _, rfl, hd, rfl, hv⟩
  | unseeded _ hi => exact (TableDraft.seeding_ne_error (hs.draft _ rfl) hi).elim
  | _ => exact Or.inr ⟨by simp [Closes], rfl⟩

lemma draft_of_perform {s : Session} {a : Action} {p : Performed} (hs : s.Sound) (h : s.perform? a = some p) :
    ∀ d, p.session.draft = some d → d.Sound := by
  obtain ⟨sc, draft⟩ := s
  have ht := transition h
  intro e he
  cases ht with
  | opened ho =>
    cases he
    exact Draft.start_sound ho
  | declared hx =>
    cases he
    exact ColumnList.Open.grow (hs.draft _ rfl) (TableDraft.apply_grows hx).list
  | inserted hx =>
    cases he
    exact ColumnList.Open.grow (hs.draft _ rfl) (InsertDraft.apply_grows hx).list
  | begun hf hi =>
    cases he
    exact ColumnList.Open.grow (ColumnList.open_empty _) (InsertDraft.addAll_grows hi).list
  | _ => cases he

lemma Sound.perform {s : Session} {a : Action} {p : Performed} (hs : s.Sound) (h : s.perform? a = some p) :
    p.session.Sound where
  script := by
    rcases script_of_perform hs h with ⟨_, d, _, hd, he, hv⟩ | ⟨_, he⟩
    · rw [he]
      exact hs.script.append (Draft.names_finished_nodup hd) hv
    · rw [he]
      exact hs.script
  draft := draft_of_perform hs h

def start (o : RenderOptions) : Session :=
  ⟨{ options := o }, none⟩

/-- Performs the actions in turn. Those that the state does not allow are passed over. -/
def run (s : Session) : List Action → Session
  | [] => s
  | a :: as =>
      match s.perform? a with
      | some p => p.session.run as
      | none => s.run as

lemma run_cons {s : Session} {a : Action} {p : Performed} (h : s.perform? a = some p) (as : List Action) :
    s.run (a :: as) = p.session.run as := by
  rw [run, h]

lemma run_append (s : Session) (as bs : List Action) : s.run (as ++ bs) = (s.run as).run bs := by
  induction as generalizing s with
  | nil => rfl
  | cons a as ih =>
    simp only [List.cons_append, run]
    cases s.perform? a with
    | some p => exact ih p.session
    | none => exact ih s

lemma run_property {P : Session → Prop}
    (hp : ∀ s a p, P s → s.perform? a = some p → P p.session) {s : Session} (hs : P s) (as : List Action) :
    P (s.run as) := by
  induction as generalizing s with
  | nil => exact hs
  | cons a as ih =>
    rw [run]
    cases ha : s.perform? a with
    | some p => exact ih (hp s a p hs ha)
    | none => exact ih hs

lemma Sound.run_property {P : Session → Prop}
    (hp : ∀ s a p, s.Sound → P s → s.perform? a = some p → P p.session) {s : Session} (hs : s.Sound) (h : P s)
    (as : List Action) : (s.run as).Sound ∧ P (s.run as) := by
  refine Session.run_property (P := fun s => s.Sound ∧ P s) ?_ ⟨hs, h⟩ as
  rintro s a p ⟨hs, h⟩ ha
  exact ⟨hs.perform ha, hp s a p hs h ha⟩

lemma start_sound (o : RenderOptions) : (start o).Sound where
  script := Script.consistent_empty o
  draft := by simp [start]

lemma run_sound (o : RenderOptions) (as : List Action) : ((start o).run as).Sound :=
  run_property (fun _ _ _ => Sound.perform) (start_sound o) as

/-- What holds of an insert when it is opened, and still does when it has grown, holds of every open insert. -/
lemma insert_run {P : InsertDraft → Prop} (hstart : ∀ destination schema, P (.start destination schema))
    (hgrow : ∀ {given d d'}, P d → InsertDraft.Grows given d d' → P d') (o : RenderOptions) (as : List Action)
    {i : InsertDraft} (hi : ((start o).run as).draft = some (.insert i)) : P i := by
  refine run_property (P := fun s => ∀ i, s.draft = some (.insert i) → P i) ?_ (by simp [start]) as i hi
  intro s a p hs h i hi
  obtain ⟨sc, draft⟩ := s
  have ht := transition h
  cases ht with
  | opened ho =>
    cases hi
    rcases Opening.draft_ok ho with ⟨v, schema, he⟩ | ⟨destination, schema, he⟩
    · cases he
    · cases he
      exact hstart destination schema
  | inserted hx =>
    cases hi
    exact hgrow (hs _ rfl) (InsertDraft.apply_grows hx)
  | begun hf hx =>
    cases hi
    exact hgrow (hstart _ _) (InsertDraft.addAll_grows hx)
  | _ => cases hi

lemma options_of_perform {s : Session} {a : Action} {p : Performed} (hs : s.Sound) (h : s.perform? a = some p) :
    p.session.script.options = s.script.options := by
  rcases script_of_perform hs h with ⟨_, d, _, _, he, _⟩ | ⟨_, he⟩
  · rw [he]
    rfl
  · rw [he]

lemma options_run (o : RenderOptions) (as : List Action) : ((start o).run as).script.options = o :=
  ((start_sound o).run_property (P := fun s => s.script.options = o)
    (fun _ _ _ hs ho ha => (options_of_perform hs ha).trans ho) rfl as).2

end Session

end TransactScript
