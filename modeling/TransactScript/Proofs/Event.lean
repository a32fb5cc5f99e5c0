import Mathlib.Tactic.Lemma
import TransactScript.Event

/-! What a list of events tells: the columns that were added, the sections that were registered, and the properties
that were skipped. -/

namespace TransactScript

namespace Event

def addition? : Event → Option (String × ColumnName)
  | columnAdded label column => some (label, column)
  | _ => none

def registration? : Event → Option (Nat × SectionKind)
  | sectionRegistered number kind => some (number, kind)
  | _ => none

/-- It tells of neither a column nor a section. -/
def IsOther (e : Event) : Prop :=
  e.addition? = none ∧ e.registration? = none

end Event

def additions (es : List Event) : List (String × ColumnName) :=
  es.filterMap Event.addition?

def registrations (es : List Event) : List (Nat × SectionKind) :=
  es.filterMap Event.registration?

@[simp] lemma additions_nil : additions [] = [] := rfl

@[simp] lemma registrations_nil : registrations [] = [] := rfl

@[simp] lemma additions_append (es fs : List Event) : additions (es ++ fs) = additions es ++ additions fs :=
  List.filterMap_append

@[simp] lemma registrations_append (es fs : List Event) :
    registrations (es ++ fs) = registrations es ++ registrations fs :=
  List.filterMap_append

lemma additions_of_other {es : List Event} (h : ∀ e ∈ es, e.IsOther) : additions es = [] :=
  List.filterMap_eq_nil_iff.mpr fun e he => (h e he).1

lemma registrations_of_other {es : List Event} (h : ∀ e ∈ es, e.IsOther) : registrations es = [] :=
  List.filterMap_eq_nil_iff.mpr fun e he => (h e he).2

/-- A column that a property is skipped for was there before, or was added in between. -/
def SkipsKnown (known : List ColumnName) (es : List Event) : Prop :=
  ∀ before label column after, es = before ++ .propertySkipped label column :: after →
    column ∈ known ++ (additions before).map Prod.snd

lemma SkipsKnown.nil {known : List ColumnName} : SkipsKnown known [] := by
  intro before label column after h
  simp at h

lemma SkipsKnown.singleton {known : List ColumnName} {e : Event}
    (h : ∀ label column, e = .propertySkipped label column → column ∈ known) : SkipsKnown known [e] := by
  intro before label column after he
  cases before with
  | nil =>
    cases he
    exact List.mem_append_left _ (h label column rfl)
  | cons e' before => simp at he

lemma SkipsKnown.mono {known known' : List ColumnName} {es : List Event} (h : SkipsKnown known es)
    (hle : known ⊆ known') : SkipsKnown known' es := by
  intro before label column after he
  exact (List.mem_append.mp (h before label column after he)).elim
    (fun hm => List.mem_append_left _ (hle hm)) (List.mem_append_right _)

lemma SkipsKnown.append {known : List ColumnName} {es fs : List Event} (hes : SkipsKnown known es)
    (hfs : SkipsKnown (known ++ (additions es).map Prod.snd) fs) : SkipsKnown known (es ++ fs) := by
  intro before label column after h
  rcases List.append_eq_append_iff.mp h with ⟨rest, rfl, hrest⟩ | ⟨rest, rfl, hrest⟩
  · simpa using hfs rest label column after hrest
  · cases rest with
    | nil => simpa using hfs [] label column after hrest.symm
    | cons e rest =>
      obtain ⟨rfl, _⟩ := List.cons.inj hrest
      exact hes before label column rest rfl

end TransactScript
