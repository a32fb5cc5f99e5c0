import TransactScript.Proofs.Document.Schemas
import TransactScript.Proofs.Json.Reading

/-! A schema in a mapping of schemas is accepted exactly if it is accepted as a document of its own that lists its
properties in their order. -/

namespace TransactScript

open Document

namespace Schema

def propertyJson (p : String × String) : Json :=
  .object [("name", .string p.1), ("type", .string p.2)]

/-- The document of one schema, with the list of its properties. -/
def outlineJson (entry : String × Outline) : Json :=
  .object [("name", .string entry.1), ("properties", .array (entry.2.map propertyJson))]

lemma exact_outlineJson (entry : String × Outline) : (outlineJson entry).Exact := by
  have hlist : ∀ j ∈ entry.2.map propertyJson, j.Exact := by
    intro j hj
    obtain ⟨p, _, rfl⟩ := List.mem_map.mp hj
    exact .object (by simpa using ⟨.string p.1, .string p.2⟩)
  exact .object (by simpa using ⟨.string entry.1, .array hlist⟩)

lemma hostType?_string (type : String) : hostType? (Json.string type) = (HostType.parse type).toOption := by
  change expect (HostType.parse type).toOption = _
  cases HostType.parse type <;> rfl

lemma property?_propertyJson (p : String × String) :
    Document.property? (propertyJson p) = ((HostType.parse p.2).map (Property.mk p.1)).toOption := by
  let fields : List (String × Json) := [("name", .string p.1), ("type", .string p.2)]
  have hfields : Node.record? ["name", "type"] (propertyJson p) = some fields := rfl
  have hname : field fields "name" Node.text? = some p.1 := rfl
  have htype : field fields "type" hostType? = (HostType.parse p.2).toOption := hostType?_string p.2
  rw [Document.property?, hfields, some_bind, hname, some_bind, htype]
  cases HostType.parse p.2 <;> rfl

lemma mapM_toOption {α β : Type} (f : α → Except Fault β) (as : List α) :
    as.mapM (fun a => (f a).toOption) = (as.mapM f).toOption := by
  induction as with
  | nil => rfl
  | cons a as ih =>
    rw [List.mapM_cons, List.mapM_cons, ih]
    cases f a with
    | error e => rfl
    | ok b => cases as.mapM f <;> rfl

lemma schema?_outlineJson (entry : String × Outline) :
    schema? (outlineJson entry) = ((listed entry.2).map (Schema.mk entry.1)).toOption := by
  let fields : List (String × Json) :=
    [("name", .string entry.1), ("properties", .array (entry.2.map propertyJson))]
  have hfields : Node.record? ["name", "properties"] (outlineJson entry) = some fields := rfl
  have hname : field fields "name" Node.text? = some entry.1 := rfl
  have hlist : (entry.2.map propertyJson).mapM Document.property? = (listed entry.2).toOption := by
    rw [List.mapM_map, listed, ← mapM_toOption]
    exact congrArg (entry.2.mapM ·) (funext property?_propertyJson)
  have hproperties : fieldOr fields "properties" [] (fun n => do (← Node.items? n).mapM Document.property?) =
      (listed entry.2).toOption := hlist
  rw [schema?, hfields, some_bind, hname, some_bind, hproperties]
  cases listed entry.2 <;> rfl

/-- The document of one schema is checked as the schema is in the mapping, but for the fault if a type cannot be
read. -/
lemma ofJsonText_outlineJson (entry : String × Outline) : ofJsonText (outlineJson entry).write =
    match listed entry.2 with
    | .ok properties => validate ⟨entry.1, properties⟩
    | .error _ => .error .json := by
  rw [ofJsonText, loadJson, Json.parse?_write (exact_outlineJson entry), Option.bind_some, schema?_outlineJson]
  cases listed entry.2 <;> rfl

lemma ofJsonText_outlineJson_ok_iff {entry : String × Outline} {s : Schema} :
    ofJsonText (outlineJson entry).write = .ok s ↔ ofOutline entry.1 entry.2 = .ok s := by
  rw [ofJsonText_outlineJson, ofOutline_eq]
  cases listed entry.2 with
  | ok properties => exact Iff.rfl
  | error f => simp

/-- What the entry is refused for: its first type that cannot be read, or else its blank name. -/
def Refused (entry : String × Outline) (f : Fault) : Prop :=
  FirstFault (fun p : String × String => HostType.parse p.2) entry.2 f ∨
    (∀ p ∈ entry.2, ∃ t, HostType.parse p.2 = .ok t) ∧ Text.isBlankText entry.1 = true ∧ f = blankName

lemma listed_error_iff {outline : Outline} {f : Fault} :
    listed outline = .error f ↔ FirstFault (fun p : String × String => HostType.parse p.2) outline f :=
  FirstFault.mapM_iff.trans (FirstFault.map_iff fun p : String × String => Property.mk p.1)

lemma exists_listed_iff {outline : Outline} :
    (∃ properties, listed outline = .ok properties) ↔ ∀ p ∈ outline, ∃ t, HostType.parse p.2 = .ok t := by
  refine FirstFault.exists_mapM_iff.trans ?_
  simp only [exists_map_iff]

lemma ofOutline_error_iff {entry : String × Outline} (hk : (keys entry.2).Nodup) {f : Fault} :
    ofOutline entry.1 entry.2 = .error f ↔ Refused entry f := by
  rw [ofOutline_eq, Refused, ← listed_error_iff, ← exists_listed_iff]
  cases hl : listed entry.2 with
  | error g => simp
  | ok properties =>
    have hnames : (Schema.mk entry.1 properties).names = keys entry.2 := (follows_of_listed hl entry.1).names
    have hno (p : Property) : ¬ (Schema.mk entry.1 properties).FirstRepeated p :=
      fun hp => hp.not_nodup (hnames ▸ hk)
    rw [Logged.ok_bind, validate_error_iff]
    simp [hno]

lemma mem_lastValues {α : Type} {entries : List (String × α)} {e : String × α} (h : e ∈ lastValues entries) :
    e ∈ entries := by
  have hmem : ∀ e ∈ entries.foldl enter [], e ∈ entries := by
    refine List.foldlRecOn (motive := fun done => ∀ e ∈ done, e ∈ entries) entries enter (by simp) ?_
    intro done hdone e he d hd
    rw [enter] at hd
    split at hd
    · obtain ⟨c, hc, rfl⟩ := List.mem_map.mp hd
      split
      · exact he
      · exact hdone c hc
    · rcases List.mem_append.mp hd with hd | hd
      · exact hdone d hd
      · rwa [List.mem_singleton.mp hd]
  exact hmem e h

lemma distinct_collapse (written : List (String × Outline)) : Distinct (collapse written) := by
  refine ⟨nodup_lastValues _, fun e he => ?_⟩
  obtain ⟨d, _, rfl⟩ := List.mem_map.mp (mem_lastValues he)
  exact nodup_lastValues d.2

end Schema

open Schema

theorem schemas_of_entries (entries : List (String × Outline)) :
    (∀ ss, ofOutlines entries = .ok ss ↔
        List.Forall₂ (fun e s => ofJsonText (outlineJson e).write = .ok s) entries ss) ∧
      ((∃ ss, ofOutlines entries = .ok ss) ↔ ∀ e ∈ entries, ∃ s, ofJsonText (outlineJson e).write = .ok s) ∧
      (Distinct entries → ∀ f, ofOutlines entries = .error f ↔
        ∃ before e after, entries = before ++ e :: after ∧
          (∀ b ∈ before, ∃ s, ofJsonText (outlineJson b).write = .ok s) ∧ Refused e f) ∧
      (∀ f, ofOutlines entries = .error f → f.IsSchemaParse) ∧
      ∀ text, loadYaml outlines? text = .ok entries →
        Distinct entries ∧ manyOfYamlText text = ofOutlines entries := by
  simp only [ofJsonText_outlineJson_ok_iff]
  refine ⟨fun ss => ⟨mapM_ok, mapM_of_forall₂⟩, FirstFault.exists_mapM_iff, ?_, ofOutlines_faults entries, ?_⟩
  · intro hd f
    refine FirstFault.mapM_iff.trans ?_
    constructor
    · rintro ⟨before, e, after, rfl, hbefore, he⟩
      have hk : (keys e.2).Nodup := hd.2 e (by simp)
      exact ⟨before, e, after, rfl, hbefore, (ofOutline_error_iff hk).mp he⟩
    · rintro ⟨before, e, after, rfl, hbefore, he⟩
      have hk : (keys e.2).Nodup := hd.2 e (by simp)
      exact ⟨before, e, after, rfl, hbefore, (ofOutline_error_iff hk).mpr he⟩
  · intro text h
    obtain ⟨written, _, rfl⟩ := written_of_load h
    exact ⟨distinct_collapse written, manyOfYamlText_of_load h⟩

def blankSchema : String :=
  "schemas: \x7bP: \x7bN: int\x7d, \" \": \x7bA: string?\x7d, Q: \x7bB: \"?\"\x7d\x7d"

def blankEntries : List (String × Outline) :=
  [("P", [("N", "int")]), (" ", [("A", "string?")]), ("Q", [("B", "?")])]

-- both of the last two entries are bad, and the fault is that of the first of them
theorem schemas_of_blankSchema :
    loadYaml outlines? blankSchema = .ok blankEntries ∧ Distinct blankEntries ∧
      manyOfYamlText blankSchema = .error blankName := by
  have hload : loadYaml outlines? blankSchema = .ok blankEntries := by decide +kernel
  have hparsed : ofJsonText (outlineJson ("P", [("N", "int")])).write = .ok ⟨"P", [⟨"N", ⟨.int, false⟩⟩]⟩ := by
    decide +kernel
  have hrefused : Refused (" ", [("A", "string?")]) blankName :=
    .inr ⟨by simpa using ⟨⟨.string, true⟩, by decide +kernel⟩, by decide, rfl⟩
  obtain ⟨_, _, herror, _, hdecoded⟩ := schemas_of_entries blankEntries
  obtain ⟨hdistinct, hmany⟩ := hdecoded blankSchema hload
  refine ⟨hload, hdistinct, hmany.trans ((herror hdistinct blankName).mpr ?_)⟩
  exact ⟨[("P", [("N", "int")])], _, [("Q", [("B", "?")])], rfl, by simpa using ⟨_, hparsed⟩, hrefused⟩

end TransactScript
