import Mathlib.Data.List.Forall2
import Mathlib.Data.List.Nodup
import TransactScript.Proofs.Fault
import TransactScript.Schema

/-! A schema is accepted exactly if its name is not blank and no property is named twice. -/

namespace TransactScript

lemma mapM_ok {α β : Type} {f : α → Except Fault β} {as : List α} {bs : List β} (h : as.mapM f = .ok bs) :
    List.Forall₂ (fun a b => f a = .ok b) as bs := by
  induction as generalizing bs with
  | nil =>
    cases h
    exact .nil
  | cons a as ih =>
    rw [List.mapM_cons] at h
    obtain ⟨b, hb, h⟩ := Logged.except_bind_ok h
    obtain ⟨bs, hbs, h⟩ := Logged.except_bind_ok h
    cases h
    exact .cons hb (ih hbs)

lemma mapM_of_forall₂ {α β : Type} {f : α → Except Fault β} {as : List α} {bs : List β}
    (h : List.Forall₂ (fun a b => f a = .ok b) as bs) : as.mapM f = .ok bs := by
  induction h with
  | nil => rfl
  | cons hb _ ih =>
    rw [List.mapM_cons, hb, ih]
    rfl

def Fault.IsSchemaParse : Fault → Prop
  | schemaParse _ => True
  | _ => False

lemma HostType.parse_faults (raw : String) : FailsOnly Fault.IsSchemaParse (parse raw) :=
  .ite (.error trivial) (.ok _)

namespace Schema

def names (s : Schema) : List String :=
  s.properties.map (·.name)

def Valid (s : Schema) : Prop :=
  Text.isBlankText s.name = false ∧ s.names.Nodup

lemma firstRepeated?_eq_none_iff {seen ns : List String} :
    firstRepeated? seen ns = none ↔ ns.Nodup ∧ ∀ n ∈ ns, n ∉ seen := by
  induction ns generalizing seen with
  | nil => simp [firstRepeated?]
  | cons n ns ih =>
    rw [firstRepeated?]
    by_cases hn : n ∈ seen
    · simp [hn]
    · simp only [List.contains_iff_mem, hn, if_false, ih, List.nodup_cons, List.mem_cons, not_or]
      constructor
      · rintro ⟨hd, hs⟩
        refine ⟨⟨fun hm => (hs n hm).1 rfl, hd⟩, ?_⟩
        rintro m (rfl | hm)
        · exact hn
        · exact (hs m hm).2
      · rintro ⟨⟨hm, hd⟩, hs⟩
        exact ⟨hd, fun m hm' => ⟨fun he => hm (he ▸ hm'), hs m (.inr hm')⟩⟩

lemma validate_ok_iff {s t : Schema} :
    s.validate = .ok t ↔ t = s ∧ s.Valid := by
  have hrepeated : firstRepeated? [] s.names = none ↔ s.names.Nodup := by
    rw [firstRepeated?_eq_none_iff]
    simp
  rw [Valid, ← hrepeated, validate, names]
  cases Text.isBlankText s.name with
  | true => simp
  | false =>
    cases firstRepeated? [] (s.properties.map (·.name)) with
    | some p => simp
    | none => simp [eq_comm]

lemma firstRepeated?_eq_some_iff {seen ns : List String} {n : String} : firstRepeated? seen ns = some n ↔
    ∃ before after, ns = before ++ n :: after ∧ before.Nodup ∧ (∀ m ∈ before, m ∉ seen) ∧
      (n ∈ seen ∨ n ∈ before) := by
  -- the names before the one that is found are all new, to those seen earlier and to each other
  induction ns generalizing seen with
  | nil => simp [firstRepeated?]
  | cons k ns ih =>
    rw [firstRepeated?]
    by_cases hk : k ∈ seen
    · rw [if_pos (by simpa using hk)]
      constructor
      · intro h
        obtain rfl := Option.some.inj h
        exact ⟨[], ns, rfl, List.nodup_nil, by simp, .inl hk⟩
      · rintro ⟨before, after, h, _, hnew, _⟩
        cases before with
        | nil => rw [List.head_eq_of_cons_eq h]
        | cons m before =>
          rw [List.head_eq_of_cons_eq h] at hk
          exact (hnew m List.mem_cons_self hk).elim
    · rw [if_neg (by simpa using hk), ih]
      constructor
      · rintro ⟨before, after, rfl, hd, hnew, hn⟩
        refine ⟨k :: before, after, rfl, List.nodup_cons.mpr ⟨?_, hd⟩, ?_, ?_⟩
        · exact fun hm => hnew k hm List.mem_cons_self
        · rw [List.forall_mem_cons]
          exact ⟨hk, fun m hm hs => hnew m hm (List.mem_cons_of_mem k hs)⟩
        · simpa [or_assoc, or_left_comm] using hn
      · rintro ⟨before, after, h, hd, hnew, hn⟩
        cases before with
        | nil =>
          obtain rfl := List.head_eq_of_cons_eq h
          simp [hk] at hn
        | cons m before =>
          obtain ⟨rfl, rfl⟩ := List.cons.inj h
          obtain ⟨hfresh, hd⟩ := List.nodup_cons.mp hd
          refine ⟨before, after, rfl, hd, ?_, by simpa [or_assoc, or_left_comm] using hn⟩
          intro m hm hs
          rcases List.mem_cons.mp hs with rfl | hs
          · exact hfresh hm
          · exact hnew m (List.mem_cons_of_mem k hm) hs

def blankName : Fault :=
  .schemaParse "schema name cannot be empty"

def repeatedName (s : Schema) (name : String) : Fault :=
  .schemaParse ("duplicate property '" ++ name ++ "' in schema '" ++ s.name ++ "'")

/-- The property is the first, in their order, whose name occurred earlier. -/
def FirstRepeated (s : Schema) (p : Property) : Prop :=
  ∃ before after, s.properties = before ++ p :: after ∧ (before.map (·.name)).Nodup ∧ p.name ∈ before.map (·.name)

lemma exists_firstRepeated_iff {s : Schema} {name : String} :
    firstRepeated? [] s.names = some name ↔ ∃ p, s.FirstRepeated p ∧ p.name = name := by
  rw [firstRepeated?_eq_some_iff]
  constructor
  · rintro ⟨before, after, h, hd, _, hn⟩
    obtain ⟨before, rest, hs, rfl, hrest⟩ := List.map_eq_append_iff.mp h
    obtain ⟨p, after, rfl, rfl, rfl⟩ := List.map_eq_cons_iff.mp hrest
    exact ⟨p, ⟨before, after, hs, hd, by simpa using hn⟩, rfl⟩
  · rintro ⟨p, ⟨before, after, hs, hd, hn⟩, rfl⟩
    refine ⟨before.map (·.name), after.map (·.name), ?_, hd, by simp, .inr hn⟩
    rw [names, hs, List.map_append, List.map_cons]

lemma FirstRepeated.not_nodup {s : Schema} {p : Property} (h : s.FirstRepeated p) : ¬ s.names.Nodup := by
  intro hn
  have hnone : firstRepeated? [] s.names = none := firstRepeated?_eq_none_iff.mpr ⟨hn, by simp⟩
  cases hnone.symm.trans (exists_firstRepeated_iff.mpr ⟨p, h, rfl⟩)

/-- A blank name is reported before a repeated one. -/
lemma validate_error_iff {s : Schema} {f : Fault} : s.validate = .error f ↔
    Text.isBlankText s.name = true ∧ f = blankName ∨
      Text.isBlankText s.name = false ∧ ∃ p, s.FirstRepeated p ∧ f = s.repeatedName p.name := by
  have hfirst {p : Property} (hp : s.FirstRepeated p) : firstRepeated? [] s.names = some p.name :=
    exists_firstRepeated_iff.mpr ⟨p, hp, rfl⟩
  rw [validate]
  cases Text.isBlankText s.name with
  | true => simpa [blankName] using eq_comm
  | false =>
    cases hr : firstRepeated? [] (s.properties.map (·.name)) with
    | none =>
      have hnone (p : Property) : ¬ s.FirstRepeated p := fun hp => by
        cases hr.symm.trans (hfirst hp)
      simp [hnone]
    | some name =>
      obtain ⟨p, hp, rfl⟩ := exists_firstRepeated_iff.mp hr
      constructor
      · intro h
        exact .inr ⟨rfl, p, hp, (Except.error.inj h).symm⟩
      · rintro (⟨h, _⟩ | ⟨_, q, hq, rfl⟩)
        · cases h
        · rw [← Option.some.inj ((hfirst hp).symm.trans (hfirst hq))]
          rfl

lemma validate_faults (s : Schema) : FailsOnly Fault.IsSchemaParse s.validate := by
  refine .ite (.error trivial) ?_
  split
  · exact .error trivial
  · exact .ok _

/-- The schema has exactly the properties that are outlined, in their order. -/
structure Follows (entry : String × Outline) (s : Schema) : Prop where
  name : s.name = entry.1
  properties : List.Forall₂ (fun e p => p.name = e.1 ∧ HostType.parse e.2 = .ok p.hostType) entry.2 s.properties

lemma Follows.names {entry : String × Outline} {s : Schema} (h : Follows entry s) :
    s.names = entry.2.map (·.1) := by
  obtain ⟨name, outline⟩ := entry
  obtain ⟨_, properties⟩ := s
  have hp := h.properties
  simp only [Schema.names] at hp ⊢
  clear h
  induction hp with
  | nil => rfl
  | cons hq _ ih => rw [List.map_cons, List.map_cons, hq.1, ih]

/-- The properties of an outline, if their types can be read. -/
def listed (outline : Outline) : Except Fault (List Property) :=
  outline.mapM fun p => (HostType.parse p.2).map (Property.mk p.1)

lemma ofOutline_eq (name : String) (outline : Outline) :
    ofOutline name outline = listed outline >>= fun properties => validate ⟨name, properties⟩ := rfl

lemma follows_of_listed {outline : Outline} {properties : List Property} (h : listed outline = .ok properties)
    (name : String) : Follows (name, outline) ⟨name, properties⟩ := by
  refine ⟨rfl, (mapM_ok h).imp ?_⟩
  intro p q hq
  cases ht : HostType.parse p.2 with
  | ok t =>
    rw [ht] at hq
    cases hq
    exact ⟨rfl, rfl⟩
  | error f =>
    rw [ht] at hq
    cases hq

lemma ofOutline_ok {name : String} {outline : Outline} {s : Schema} (h : ofOutline name outline = .ok s) :
    s.Valid ∧ Follows (name, outline) s := by
  obtain ⟨properties, hp, h⟩ := Logged.except_bind_ok h
  obtain ⟨rfl, hv⟩ := validate_ok_iff.mp h
  exact ⟨hv, follows_of_listed hp name⟩

lemma ofOutline_faults (name : String) (outline : Outline) :
    FailsOnly Fault.IsSchemaParse (ofOutline name outline) := by
  refine FailsOnly.bind (FailsOnly.mapM ?_ outline) fun _ _ => validate_faults _
  rintro ⟨p, type⟩
  exact (HostType.parse_faults type).map _

lemma ofOutlines_faults (entries : List (String × Outline)) :
    FailsOnly Fault.IsSchemaParse (ofOutlines entries) := by
  refine FailsOnly.mapM ?_ entries
  rintro ⟨name, outline⟩
  exact ofOutline_faults name outline

lemma ofOutlines_ok {entries : List (String × Outline)} {ss : List Schema} (h : ofOutlines entries = .ok ss) :
    (∀ s ∈ ss, s.Valid) ∧ List.Forall₂ Follows entries ss := by
  have hall : List.Forall₂ (fun e s => s.Valid ∧ Follows e s) entries ss := by
    refine (mapM_ok h).imp ?_
    rintro ⟨name, outline⟩ s hs
    exact ofOutline_ok hs
  obtain ⟨hvalid, hfollows⟩ := (List.forall₂_and_left _ _).mp hall.flip
  exact ⟨hvalid, hfollows.flip⟩

end Schema

end TransactScript
