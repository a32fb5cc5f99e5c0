import TransactScript.Proofs.Document.Reading
import TransactScript.Proofs.Schema

/-! Schemas that documents write. A list of properties with a repeated name is refused. In a mapping of schemas
by their names a repeated name is not: the entry that is written last stands in the place of the first, so that
the others are lost. -/

namespace TransactScript.Document

section Repetition

variable {α : Type}

def keys (entries : List (String × α)) : List String :=
  entries.map (·.1)

def enter (done : List (String × α)) (e : String × α) : List (String × α) :=
  if done.any (·.1 == e.1) then done.map fun d => if d.1 == e.1 then e else d else done ++ [e]

lemma lastValues_eq (entries : List (String × α)) : lastValues entries = entries.foldl enter [] := rfl

lemma enter_new {done : List (String × α)} {e : String × α} (h : e.1 ∉ keys done) :
    enter done e = done ++ [e] := by
  rw [enter, if_neg]
  simpa [keys] using h

lemma keys_enter_known {done : List (String × α)} {e : String × α} (h : e.1 ∈ keys done) :
    keys (enter done e) = keys done := by
  have hany : done.any (·.1 == e.1) = true := by simpa [keys] using h
  rw [enter, if_pos hany, keys, keys, List.map_map]
  refine List.map_congr_left fun d _ => ?_
  by_cases hd : d.1 = e.1
  · simp [hd]
  · simp [hd]

lemma nodup_enter {done : List (String × α)} (h : (keys done).Nodup) (e : String × α) :
    (keys (enter done e)).Nodup := by
  by_cases hm : e.1 ∈ keys done
  · rw [keys_enter_known hm]
    exact h
  · rw [enter_new hm, keys, List.map_append, List.map_singleton]
    exact h.append (List.nodup_singleton _) (List.disjoint_singleton.mpr hm)

lemma nodup_lastValues (entries : List (String × α)) : (keys (lastValues entries)).Nodup := by
  rw [lastValues_eq]
  exact List.foldlRecOn (motive := fun done => (keys done).Nodup) entries enter List.nodup_nil
    fun _ h e _ => nodup_enter h e

lemma foldl_enter_of_nodup {done entries : List (String × α)} (h : (keys (done ++ entries)).Nodup) :
    entries.foldl enter done = done ++ entries := by
  induction entries generalizing done with
  | nil => simp
  | cons e entries ih =>
    have hnew : e.1 ∉ keys done := by
      rw [keys, List.map_append, List.map_cons] at h
      exact fun hm => (List.nodup_append.mp h).2.2 _ hm _ List.mem_cons_self rfl
    rw [List.foldl_cons, enter_new hnew, ih (by simpa using h)]
    simp

lemma lastValues_of_nodup {entries : List (String × α)} (h : (keys entries).Nodup) :
    lastValues entries = entries :=
  foldl_enter_of_nodup (show (keys ([] ++ entries)).Nodup from h)

end Repetition

section Written

variable {m : Type → Type} [Fallible m] {ν : Type} [Node m ν]

def writtenOutline? (n : ν) : m Schema.Outline := do
  (← Node.entries? n).mapM fun (name, type) => do pure (name, ← Node.text? type)

/-- The schemas of a document with all the entries that are written for them. -/
def writtenOutlines? (n : ν) : m (List (String × Schema.Outline)) := do
  let fields ← Node.record? ["schemas"] n
  fieldOr fields "schemas" [] fun n => do
    (← Node.entries? n).mapM fun (name, o) => do pure (name, ← writtenOutline? o)

def collapse (written : List (String × Schema.Outline)) : List (String × Schema.Outline) :=
  lastValues (written.map fun e => (e.1, lastValues e.2))

variable [LawfulMonad m]

lemma mapM_map {α β γ : Type} (f : α → m β) (g : β → γ) (as : List α) :
    as.mapM (fun a => g <$> f a) = List.map g <$> as.mapM f := by
  induction as with
  | nil => simp
  | cons a as ih => simp [List.mapM_cons, ih]

lemma outline?_eq (n : ν) : outline? n = lastValues <$> writtenOutline? n := by
  simp [outline?, writtenOutline?]

lemma outlines?_eq (n : ν) : outlines? n = collapse <$> writtenOutlines? n := by
  have hentries (entries : List (String × ν)) :
      entries.mapM (fun e => (fun o => (e.1, lastValues o)) <$> writtenOutline? (m := m) e.2) =
        (List.map fun e : String × Schema.Outline => (e.1, lastValues e.2)) <$>
          entries.mapM fun e => Prod.mk e.1 <$> writtenOutline? e.2 := by
    rw [← mapM_map]
    simp only [Functor.map_map]
  simp only [outlines?, writtenOutlines?, fieldOr, map_bind]
  congr 1
  funext fields
  cases fields.lookup "schemas" with
  | none => simp [collapse, lastValues]
  | some list =>
    simp only [outline?_eq, bind_pure_comp, map_bind, Functor.map_map, hentries]
    rfl

end Written

end TransactScript.Document

namespace TransactScript

open Document

namespace Schema

/-- The answer to a schema that was read: it is refused if a property is named twice, and else, if its name is
not blank, it is accepted as it is. -/
structure Judged (read : Schema) (answer : Except Fault Schema) : Prop where
  repeated : ¬ read.names.Nodup → ∃ detail, answer = .error (.schemaParse detail)
  accepted : ∀ s, answer = .ok s ↔ s = read ∧ read.Valid

lemma judged_validate (s : Schema) : Judged s s.validate where
  repeated h := by
    cases hv : s.validate with
    | ok t => exact (h (validate_ok_iff.mp hv).2.2).elim
    | error f =>
      have hf := validate_faults s f hv
      cases f with
      | schemaParse detail => exact ⟨detail, rfl⟩
      | _ => cases hf
  accepted _ := validate_ok_iff

def Distinct (written : List (String × Outline)) : Prop :=
  (keys written).Nodup ∧ ∀ e ∈ written, (keys e.2).Nodup

lemma collapse_of_distinct {written : List (String × Outline)} (h : Distinct written) :
    collapse written = written := by
  have hinner : (written.map fun e => (e.1, lastValues e.2)) = written := by
    refine (List.map_congr_left fun e he => ?_).trans (List.map_id _)
    rw [lastValues_of_nodup (h.2 e he)]
    rfl
  rw [collapse, hinner, lastValues_of_nodup h.1]

lemma names_of_follows {written : List (String × Outline)} {ss : List Schema}
    (h : List.Forall₂ Follows written ss) : ss.map Schema.name = keys written := by
  induction h with
  | nil => rfl
  | cons hs _ ih => rw [List.map_cons, ih, hs.name, keys, keys, List.map_cons]

lemma distinct_of_follows {written : List (String × Outline)} {ss : List Schema}
    (h : List.Forall₂ Follows written ss) (hs : (ss.map Schema.name).Nodup) (hv : ∀ s ∈ ss, s.Valid) :
    Distinct written := by
  refine ⟨names_of_follows h ▸ hs, ?_⟩
  clear hs
  induction h with
  | nil => simp
  | cons hs _ ih =>
    rw [List.forall_mem_cons] at hv
    rw [List.forall_mem_cons]
    refine ⟨?_, ih hv.2⟩
    rw [keys, ← hs.names]
    exact hv.1.2

/-- What is read is what is written exactly if no name is repeated. -/
lemma follows_iff_distinct {written : List (String × Outline)} {ss : List Schema}
    (h : ofOutlines (collapse written) = .ok ss) : List.Forall₂ Follows written ss ↔ Distinct written := by
  obtain ⟨hv, hall⟩ := ofOutlines_ok h
  constructor
  · intro hw
    -- the names of the schemas are those that are left after the collapse, where none is repeated
    refine distinct_of_follows hw ?_ hv
    rw [names_of_follows hall]
    exact nodup_lastValues _
  · intro hd
    rwa [collapse_of_distinct hd] at hall

lemma ofJsonText_of_load {text : String} {s : Schema} (h : loadJson schema? text = .ok s) :
    ofJsonText text = s.validate := by
  rw [ofJsonText, h]
  rfl

lemma ofYamlText_of_load {text : String} {s : Schema} (h : loadYaml schema? text = .ok s) :
    ofYamlText text = s.validate := by
  rw [ofYamlText, h]
  rfl

lemma manyOfYamlText_of_load {text : String} {outlines : List (String × Outline)}
    (h : loadYaml outlines? text = .ok outlines) : manyOfYamlText text = ofOutlines outlines := by
  rw [manyOfYamlText, h]
  rfl

lemma written_of_load {text : String} {outlines : List (String × Outline)}
    (h : loadYaml outlines? text = .ok outlines) :
    ∃ written, loadYaml writtenOutlines? text = .ok written ∧ outlines = collapse written := by
  have heq : (outlines? : Yaml.View → Yaml.Decoding _) = fun v => collapse <$> writtenOutlines? v :=
    funext outlines?_eq
  rw [heq, loadYaml_map] at h
  cases hw : loadYaml writtenOutlines? text with
  | ok written =>
    rw [hw] at h
    exact ⟨written, rfl, (Except.ok.inj h).symm⟩
  | error f =>
    rw [hw] at h
    cases h

end Schema

open Schema

theorem properties_of_documents (text : String) :
    (∀ read, loadJson schema? text = .ok read →
        (∃ j, Json.parse? text = some j ∧ Lists j read) ∧ Judged read (ofJsonText text)) ∧
      (∀ read, loadYaml schema? text = .ok read →
        (∃ d, Yaml.parse? text = some d ∧ Lists d.view read) ∧ Judged read (ofYamlText text)) ∧
      ∀ outlines, loadYaml outlines? text = .ok outlines →
        ∃ written, loadYaml writtenOutlines? text = .ok written ∧ outlines = collapse written ∧
          (∀ f, manyOfYamlText text = .error f → ∃ detail, f = .schemaParse detail) ∧
          ∀ ss, manyOfYamlText text = .ok ss →
            (∀ s ∈ ss, s.Valid) ∧ (List.Forall₂ Follows written ss ↔ Distinct written) := by
  refine ⟨?_, ?_, ?_⟩
  · intro read h
    obtain ⟨j, hj, hread⟩ := loadJson_ok h
    refine ⟨⟨j, hj, lists_of_schema hread⟩, ?_⟩
    rw [ofJsonText_of_load h]
    exact judged_validate read
  · intro read h
    obtain ⟨d, hd, hread⟩ := loadYaml_ok h
    refine ⟨⟨d, hd, lists_of_schema hread⟩, ?_⟩
    rw [ofYamlText_of_load h]
    exact judged_validate read
  · intro outlines h
    obtain ⟨written, hw, rfl⟩ := written_of_load h
    rw [manyOfYamlText_of_load h]
    refine ⟨written, hw, rfl, ?_, fun ss hss => ⟨(ofOutlines_ok hss).1, follows_iff_distinct hss⟩⟩
    intro f hf
    have hparse := ofOutlines_faults _ f hf
    cases f with
    | schemaParse detail => exact ⟨detail, rfl⟩
    | _ => cases hparse

def twoSchemas : String := "schemas: \x7bP: \x7bN: int\x7d, Q: \x7bN: string\x7d\x7d"

theorem properties_of_twoSchemas :
    loadYaml outlines? twoSchemas = .ok [("P", [("N", "int")]), ("Q", [("N", "string")])] ∧
      manyOfYamlText twoSchemas = .ok [⟨"P", [⟨"N", ⟨.int, false⟩⟩]⟩, ⟨"Q", [⟨"N", ⟨.string, false⟩⟩]⟩] ∧
        List.Forall₂ Follows [("P", [("N", "int")]), ("Q", [("N", "string")])]
          [⟨"P", [⟨"N", ⟨.int, false⟩⟩]⟩, ⟨"Q", [⟨"N", ⟨.string, false⟩⟩]⟩] := by
  have hload : loadYaml outlines? twoSchemas = .ok [("P", [("N", "int")]), ("Q", [("N", "string")])] := by
    decide +kernel
  have hwritten :
      loadYaml writtenOutlines? twoSchemas = .ok [("P", [("N", "int")]), ("Q", [("N", "string")])] := by
    decide +kernel
  have hread : manyOfYamlText twoSchemas =
      .ok [⟨"P", [⟨"N", ⟨.int, false⟩⟩]⟩, ⟨"Q", [⟨"N", ⟨.string, false⟩⟩]⟩] := by decide +kernel
  obtain ⟨written, hw, _, _, hall⟩ := (properties_of_documents twoSchemas).2.2 _ hload
  rw [hwritten] at hw
  cases hw
  exact ⟨hload, hread, (hall _ hread).2.mpr ⟨by decide, by decide⟩⟩

def repeatedProperty : String := "schemas: \x7bP: \x7bN: int, N: string\x7d\x7d"

theorem repeatedProperty_lost :
    loadYaml writtenOutlines? repeatedProperty = .ok [("P", [("N", "int"), ("N", "string")])] ∧
      manyOfYamlText repeatedProperty = .ok [⟨"P", [⟨"N", ⟨.string, false⟩⟩]⟩] := by
  decide +kernel

end TransactScript
