import TransactScript.Proofs.Document.Outline
import TransactScript.Proofs.HostType

/-! A schema that some document gives is read back from the JSON that is written for it. -/

namespace TransactScript

open Document Document.Answering

section Reading

variable {m : Type → Type} [Fallible m] [Answering m] {ν : Type} [Node m ν]

lemma parsed_of_hostType {n : ν} {t : HostType} (h : Gives (hostType? n) t) : ∃ raw, HostType.parse raw = .ok t := by
  obtain ⟨raw, _, h⟩ := of_bind h
  refine ⟨raw, ?_⟩
  cases ht : HostType.parse raw with
  | ok u =>
    rw [ht] at h
    rw [Option.some.inj (gives_expect h)]
  | error f =>
    rw [ht] at h
    cases gives_expect h

lemma parsed_of_property {n : ν} {p : Property} (h : Gives (Document.property? n) p) :
    ∃ raw, HostType.parse raw = .ok p.hostType := by
  obtain ⟨fields, _, h⟩ := of_bind h
  obtain ⟨name, _, h⟩ := of_bind h
  obtain ⟨t, ht, h⟩ := of_bind h
  obtain rfl := eq_of_pure h
  obtain ⟨type, _, htype⟩ := gives_field ht
  exact parsed_of_hostType htype

end Reading

namespace Schema

variable {s : Schema} {text : String}

/-- Each of the host types can be read from some text. -/
def Typed (s : Schema) : Prop :=
  ∀ p ∈ s.properties, ∃ raw, HostType.parse raw = .ok p.hostType

lemma typed_of_lists {m : Type → Type} [Fallible m] [Answering m] {ν : Type} [Node m ν] {n : ν} (h : Lists n s) :
    s.Typed := by
  obtain ⟨_, _, _, ⟨_, hnone⟩ | ⟨_, items, _, _, hall⟩⟩ := h
  · rw [Typed, hnone]
    simp
  · exact forall_mem_of_forall₂ hall fun _ _ => parsed_of_property

lemma typed_of_follows {entry : String × Outline} (h : Follows entry s) : s.Typed :=
  forall_mem_of_forall₂ h.properties fun p _ hp => ⟨p.2, hp.2⟩

/-- Some document gives the schema. -/
def Returned (s : Schema) : Prop :=
  (∃ text, ofJsonText text = .ok s) ∨ (∃ text, ofYamlText text = .ok s) ∨
    ∃ text ss, manyOfYamlText text = .ok ss ∧ s ∈ ss

lemma Returned.valid_typed (h : Returned s) : s.Valid ∧ s.Typed := by
  rcases h with ⟨text, h⟩ | ⟨text, h⟩ | ⟨text, ss, h, hs⟩
  · obtain ⟨read, hload, h⟩ := Logged.except_bind_ok h
    obtain ⟨rfl, hv⟩ := validate_ok_iff.mp h
    obtain ⟨j, _, hj⟩ := loadJson_ok hload
    exact ⟨hv, typed_of_lists (lists_of_schema hj)⟩
  · obtain ⟨read, hload, h⟩ := Logged.except_bind_ok h
    obtain ⟨rfl, hv⟩ := validate_ok_iff.mp h
    obtain ⟨d, _, hd⟩ := loadYaml_ok hload
    exact ⟨hv, typed_of_lists (lists_of_schema hd)⟩
  · obtain ⟨outlines, _, h⟩ := Logged.except_bind_ok h
    obtain ⟨hv, hall⟩ := ofOutlines_ok h
    exact ⟨hv s hs, forall_mem_of_forall₂ hall (fun _ _ => typed_of_follows) s hs⟩

def outline (s : Schema) : Outline :=
  s.properties.map fun p => (p.name, p.hostType.text)

lemma toJson_eq (s : Schema) : s.toJson = outlineJson (s.name, s.outline) := by
  rw [toJson, outlineJson, outline, List.map_map]
  rfl

lemma Typed.listed (h : s.Typed) : Schema.listed s.outline = .ok s.properties := by
  refine mapM_of_forall₂ ?_
  rw [outline, List.forall₂_map_left_iff, List.forall₂_same]
  intro p hp
  obtain ⟨raw, hraw⟩ := h p hp
  rw [(HostType.written_of_parse hraw).parse_text]
  rfl

lemma ofJsonText_toJson (hv : s.Valid) (ht : s.Typed) : ofJsonText s.toJson.write = .ok s := by
  rw [toJson_eq, ofJsonText_outlineJson, ht.listed]
  exact validate_ok_iff.mpr ⟨rfl, hv⟩

lemma returned_iff : s.Returned ↔ s.Valid ∧ s.Typed :=
  ⟨Returned.valid_typed, fun h => .inl ⟨_, ofJsonText_toJson h.1 h.2⟩⟩

end Schema

open Schema

theorem schema_of_json :
    (∀ s : Schema, s.Returned ↔ s.Valid ∧ s.Typed) ∧
      (∀ s : Schema, s.Returned → ofJsonText s.toJson.write = .ok s) ∧
      ∀ text read, loadJson schema? text = .ok read →
        (∀ s, ofJsonText text = .ok s ↔ s = read ∧ read.Valid) ∧
        ∀ f, ofJsonText text = .error f ↔
          Text.isBlankText read.name = true ∧ f = blankName ∨
            Text.isBlankText read.name = false ∧ ∃ p, read.FirstRepeated p ∧ f = read.repeatedName p.name := by
  refine ⟨fun _ => returned_iff, fun s h => ?_, fun text read h => ?_⟩
  · obtain ⟨hv, ht⟩ := returned_iff.mp h
    exact ofJsonText_toJson hv ht
  · rw [ofJsonText_of_load h]
    exact ⟨fun _ => validate_ok_iff, fun _ => validate_error_iff⟩

def oddText : String :=
  "\x7b\"properties\": [\x7b\"name\": \"a\\tb\", \"type\": \" Vec<u8> ?\"\x7d,
    \x7b\"name\": \"\", \"type\": \"Maß\"\x7d], \"name\": \"\\u00dcber \\\"1\\\"\"\x7d"

def oddSchema : Schema :=
  ⟨"Über \"1\"", [⟨"a\tb", ⟨.bytes, true⟩⟩, ⟨"", ⟨.other "Maß", false⟩⟩]⟩

theorem schema_of_oddText :
    loadJson schema? oddText = .ok oddSchema ∧ ofJsonText oddText = .ok oddSchema ∧
      ofJsonText oddSchema.toJson.write = .ok oddSchema := by
  have hload : loadJson schema? oddText = .ok oddSchema := by decide +kernel
  obtain ⟨_, hback, hread⟩ := schema_of_json
  have hvalid : oddSchema.Valid := ⟨by decide, by decide⟩
  have hok : ofJsonText oddText = .ok oddSchema := ((hread oddText oddSchema hload).1 oddSchema).mpr ⟨rfl, hvalid⟩
  exact ⟨hload, hok, hback oddSchema (.inl ⟨oddText, hok⟩)⟩

end TransactScript
