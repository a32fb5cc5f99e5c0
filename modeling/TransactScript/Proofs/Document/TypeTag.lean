import TransactScript.Proofs.ColumnType
import TransactScript.Proofs.Document.Fields
import TransactScript.Proofs.Json.Reading

/-! Column types as JSON. An object that has the tag and the parameters of a type is read as this type, in whatever
order they stand and with whatever else beside them. -/

namespace TransactScript

open Document

variable {entries : List (String × Json)} {t : ColumnType}

namespace ColumnType

def octet (n : UInt8) : Json :=
  .integer n.toNat

def size : Option UInt16 → Json :=
  Json.ofOption fun n => .integer n.toNat

def ParametersIn (entries : List (String × Json)) : ColumnType → Prop
  | plain _ => True
  | decimal precision scale =>
      Tells entries "precision" octet precision defaultPrecision ∧ Tells entries "scale" octet scale defaultScale
  | string _ length => Tells entries "length" size length none

def fieldNames (t : ColumnType) : List String :=
  tagKey :: parameterNames t

/-- The names that matter before the type is known. -/
def typeNames : List String :=
  [tagKey, "precision", "scale", "length"]

lemma fieldNames_subset (t : ColumnType) : t.fieldNames ⊆ typeNames := by
  cases t <;> simp [fieldNames, parameterNames, typeNames]

/-- The entries are those of an object that stands for the type. -/
structure WrittenIn (entries : List (String × Json)) (t : ColumnType) : Prop where
  keyword : entries.lookup tagKey = some (.string t.keyword)
  parameters : t.ParametersIn entries
  once : Once t.fieldNames entries
  readable : ∀ e ∈ entries, e.2.isReadableWithin 1 = true

lemma parametersIn_filter {p : String → Bool} (hp : ∀ key ∈ parameterNames t, p key = true) :
    t.ParametersIn (entries.filter fun e => p e.1) ↔ t.ParametersIn entries := by
  cases t with
  | plain kind => exact Iff.rfl
  | decimal precision scale =>
    exact and_congr (tells_filter (hp _ List.mem_cons_self))
      (tells_filter (hp _ (List.mem_cons_of_mem _ List.mem_cons_self)))
  | string kind length => exact tells_filter (hp _ List.mem_cons_self)

lemma WrittenIn.of_filter (h : t.WrittenIn entries) {others : List (String × Json)}
    (ho : others.filter (fun e => t.fieldNames.contains e.1) = entries.filter fun e => t.fieldNames.contains e.1)
    (hr : ∀ e ∈ others, e.2.isReadableWithin 1 = true) : t.WrittenIn others where
  keyword := by
    have htag : t.fieldNames.contains tagKey = true := by simp [fieldNames]
    rw [← lookup_filter (p := t.fieldNames.contains) htag, ho, lookup_filter htag, h.keyword]
  parameters := by
    have hnames : ∀ key ∈ parameterNames t, t.fieldNames.contains key = true := by
      intro key hkey
      simp [fieldNames, hkey]
    rw [← parametersIn_filter hnames, ho, parametersIn_filter hnames]
    exact h.parameters
  once := by
    rw [Once, ho]
    exact h.once
  readable := hr

lemma WrittenIn.filter (h : t.WrittenIn entries) {p : String → Bool} (hp : ∀ key ∈ t.fieldNames, p key = true) :
    t.WrittenIn (entries.filter fun e => p e.1) :=
  h.of_filter (filter_names hp entries) fun e he => h.readable e (List.mem_of_mem_filter he)

lemma octet?_octet (n : UInt8) : (octet n).toDatum.octet? = some n := by
  have hn : n.toNat < UInt8.size := n.toNat_lt
  simp [octet, Json.toDatum, Datum.octet?, Datum.below?, hn]

lemma length?_size (length : Option UInt16) : (size length).toDatum.length? = some length := by
  cases length with
  | none => rfl
  | some n =>
    have hn : n.toNat < UInt16.size := n.toNat_lt
    simp [size, Json.ofOption, Json.toDatum, Datum.length?, Datum.below?, hn]

lemma ofKeyword?_keyword (t : ColumnType) : ofKeyword? t.keyword = some t.defaulted := by
  have h : ∀ t ∈ defaults, ofKeyword? t.keyword = some t := by decide +kernel
  rw [← keyword_defaulted]
  exact h _ t.defaulted_mem

/-- The entries as they are kept until the type is known. -/
def datums (entries : List (String × Json)) : List (String × Datum) :=
  entries.map fun e => (e.1, e.2.toDatum)

def textDatums (entries : List (String × Json)) : List (Datum × Datum) :=
  entries.map fun e => (.text e.1, e.2.toDatum)

lemma withParameters?_defaulted (h : t.ParametersIn entries) :
    withParameters? (datums entries) t.defaulted = some t := by
  cases t with
  | plain kind => rfl
  | decimal precision scale =>
    rcases h.1.map Json.toDatum with hp | ⟨hp, rfl⟩ <;> rcases h.2.map Json.toDatum with hs | ⟨hs, rfl⟩ <;>
      simp [defaulted, withParameters?, datums, hp, hs, octet?_octet]
  | string kind length =>
    rcases Tells.map h Json.toDatum with hl | ⟨hl, rfl⟩ <;>
      simp [defaulted, withParameters?, datums, hl, length?_size]

lemma datum?_of_readable {j : Json} (h : j.isReadableWithin 1 = true) : Node.datum? j = some j.toDatum :=
  if_pos h

lemma knownFields?_filterMap {α : Type} (names : List String) (fields : List (String × α)) :
    knownFields? names (fields.filterMap fun e => (if names.contains e.1 then some e.1 else none).map (·, e.2)) =
      knownFields? names fields := by
  have hfilter : (fields.filterMap fun e => (if names.contains e.1 then some e.1 else none).map (·, e.2)) =
      fields.filter fun e => names.contains e.1 := by
    rw [← List.filterMap_eq_filter]
    refine List.filterMap_congr fun e _ => ?_
    rw [Option.guard]
    split <;> simp
  rw [hfilter, knownFields?, List.filter_filter]
  simp only [Bool.and_self]
  rfl

lemma parameters?_textDatums (names : List String) (entries : List (String × Json)) :
    parameters? names (textDatums entries) = knownFields? names (datums entries) := by
  have hread : (textDatums entries).mapM (fun e => (e.1.parameter? names).map fun name => (name, e.2)) =
      some ((datums entries).map fun e => (if names.contains e.1 then some e.1 else none, e.2)) := by
    rw [textDatums, List.mapM_map, datums, List.map_map]
    exact Json.mapM_some fun _ _ => rfl
  rw [parameters?]
  simp only [hread, some_bind, List.filterMap_map]
  exact knownFields?_filterMap names (datums entries)

lemma typeOfFields?_textDatums (hp : t.ParametersIn entries) (hn : Once (parameterNames t) entries) :
    typeOfFields? (.text t.keyword) (textDatums entries) = some t := by
  have htag : tagged? (.text t.keyword) = some t.defaulted := ofKeyword?_keyword t
  have hnames : parameterNames t.defaulted = parameterNames t := by cases t <;> rfl
  have hread : (do withParameters? (← parameters? (parameterNames t.defaulted) (textDatums entries)) t.defaulted) =
      some t := by
    have hgiven : knownFields? (parameterNames t) (datums entries) =
        some (datums (entries.filter fun e => (parameterNames t).contains e.1)) := by
      rw [datums, (hn.map Json.toDatum).knownFields?, List.filter_map]
      rfl
    rw [hnames, parameters?_textDatums, hgiven]
    have hkept : ∀ key ∈ parameterNames t, (parameterNames t).contains key = true :=
      fun _ hkey => List.contains_iff_mem.mpr hkey
    exact withParameters?_defaulted ((parametersIn_filter hkept).mpr hp)
  -- a type without parameters does not even look at the entries
  rw [typeOfFields?, htag]
  cases t with
  | plain kind => rfl
  | decimal precision scale => exact hread
  | string kind length => exact hread

lemma knownFields?_congr {others : List (String × Json)} {names : List String}
    (h : (entries.filter fun e => names.contains e.1) = others.filter fun e => names.contains e.1) :
    knownFields? names (datums entries) = knownFields? names (datums others) := by
  have hfilter : (datums entries).filter (fun e => names.contains e.1) =
      (datums others).filter fun e => names.contains e.1 := by
    rw [datums, datums, List.filter_map, List.filter_map]
    exact congrArg datums h
  rw [knownFields?, knownFields?, hfilter]

lemma typeOfFields?_congr {others : List (String × Json)} (tag : Datum)
    (h : ∀ t : ColumnType, (entries.filter fun e => (parameterNames t).contains e.1) =
      others.filter fun e => (parameterNames t).contains e.1) :
    typeOfFields? tag (textDatums entries) = typeOfFields? tag (textDatums others) := by
  rw [typeOfFields?, typeOfFields?]
  cases tagged? tag with
  | none => rfl
  | some t =>
    cases t with
    | plain kind => rfl
    | decimal precision scale =>
      simp only [some_bind, parameters?_textDatums, knownFields?_congr (h _)]
    | string kind length =>
      simp only [some_bind, parameters?_textDatums, knownFields?_congr (h _)]

lemma partition_isTagKey {α : Type} (f : Json → α) (entries : List (String × Json)) :
    (entries.map fun e => (Datum.text e.1, f e.2)).partition (fun e => isTagKey e.1) =
      ((entries.filter fun e => e.1 == tagKey).map fun e => (.text e.1, f e.2),
        (entries.filter fun e => !(e.1 == tagKey)).map fun e => (.text e.1, f e.2)) := by
  rw [List.partition_eq_filter_filter, List.filter_map, List.filter_map]
  rfl

/-- The entry of the tag names the type, and the other entries are looked through for its parameters. -/
lemma embeddedType?_eq (hr : ∀ e ∈ entries, e.2.isReadableWithin 1 = true) : embeddedType? entries =
    match entries.filter fun e => e.1 == tagKey with
    | [e] => typeOfFields? e.2.toDatum (textDatums (entries.filter fun e => !(e.1 == tagKey)))
    | _ => none := by
  have hread : entries.mapM (fun e => (do pure (Datum.text e.1, ← Node.datum? e.2) : Option _)) =
      some (textDatums entries) := by
    refine Json.mapM_some fun e he => ?_
    rw [datum?_of_readable (hr e he)]
    rfl
  rw [embeddedType?, hread, some_bind, textDatums, partition_isTagKey]
  generalize (entries.filter fun e => e.1 == tagKey) = tagged
  rcases tagged with _ | ⟨e, _ | ⟨d, tagged⟩⟩
  · rfl
  · exact expect_eq _
  · rfl

lemma embeddedType?_congr {others : List (String × Json)} (hr : ∀ e ∈ entries, e.2.isReadableWithin 1 = true)
    (hr' : ∀ e ∈ others, e.2.isReadableWithin 1 = true)
    (h : (entries.filter fun e => typeNames.contains e.1) = others.filter fun e => typeNames.contains e.1) :
    embeddedType? entries = embeddedType? others := by
  have hsub {own : List String} (hown : own ⊆ typeNames) :
      (entries.filter fun e => own.contains e.1) = others.filter fun e => own.contains e.1 := by
    rw [← filter_subset hown, h, filter_subset hown]
  have htag : (entries.filter fun e => e.1 == tagKey) = others.filter fun e => e.1 == tagKey := by
    have hown : [tagKey] ⊆ typeNames := by simp [typeNames]
    simpa only [List.contains_cons, List.contains_nil, Bool.or_false] using hsub hown
  have htype (tag : Datum) : typeOfFields? tag (textDatums (entries.filter fun e => !(e.1 == tagKey))) =
      typeOfFields? tag (textDatums (others.filter fun e => !(e.1 == tagKey))) := by
    refine typeOfFields?_congr tag fun t => ?_
    rw [List.filter_comm, hsub fun _ hkey => t.fieldNames_subset (List.mem_cons_of_mem _ hkey), List.filter_comm]
  rw [embeddedType?_eq hr, embeddedType?_eq hr', htag]
  simp only [htype]

lemma readable_of_embeddedType? (h : Answering.Gives (embeddedType? entries) t) :
    ∀ e ∈ entries, e.2.isReadableWithin 1 = true := by
  obtain ⟨fields, hfields, _⟩ := Answering.of_bind h
  refine forall_mem_of_forall₂ (gives_mapM hfields).flip fun _ e he => ?_
  obtain ⟨d, hd, _⟩ := Answering.of_bind he
  by_contra hno
  have hnone : Node.datum? e.2 = none := if_neg hno
  cases hnone.symm.trans hd

end ColumnType

namespace ColumnType.WrittenIn

lemma typeOfFields? (h : t.WrittenIn entries) :
    Document.typeOfFields? (.text t.keyword) (textDatums (entries.filter fun e => !(e.1 == tagKey))) = some t := by
  have hnames : ∀ key ∈ parameterNames t, (!(key == tagKey)) = true := by
    cases t <;> simp [parameterNames, tagKey]
  have honce : Once (parameterNames t) entries := h.once.mono (List.subset_cons_self _ _)
  exact typeOfFields?_textDatums ((parametersIn_filter (p := fun key => !(key == tagKey)) hnames).mpr h.parameters)
    (honce.filter _)

lemma filter_tagKey (h : t.WrittenIn entries) :
    entries.filter (fun e => e.1 == tagKey) = [(tagKey, .string t.keyword)] :=
  h.once.filter_key List.mem_cons_self h.keyword

lemma embeddedType? (h : t.WrittenIn entries) : Document.embeddedType? entries = some t := by
  rw [embeddedType?_eq h.readable, h.filter_tagKey]
  exact h.typeOfFields?

lemma columnType? (h : t.WrittenIn entries) : Document.columnType? (Json.object entries) = some t := by
  have hparts : Node.parts? (Json.object entries) = some (.pairs (entries.map fun e => (Json.string e.1, e.2))) := rfl
  have hkeyed : (entries.map fun e => (Json.string e.1, e.2)).mapM
      (fun e => (do pure (← Node.datum? e.1, e.2) : Option _)) =
      some (entries.map fun e => (Datum.text e.1, e.2)) := by
    rw [List.mapM_map]
    exact Json.mapM_some fun _ _ => rfl
  have htag : Node.text? (Json.string t.keyword) = some t.keyword := rfl
  have hrest : (((entries.filter fun e => !(e.1 == tagKey)).map fun e => (Datum.text e.1, e.2)).mapM
      fun e => (do pure (e.1, ← Node.datum? e.2) : Option _)) =
      some (textDatums (entries.filter fun e => !(e.1 == tagKey))) := by
    rw [List.mapM_map]
    refine Json.mapM_some fun e he => ?_
    simp only [Function.comp_apply, datum?_of_readable (h.readable e (List.mem_of_mem_filter he))]
    rfl
  rw [Document.columnType?, hparts, some_bind]
  dsimp only
  rw [hkeyed, some_bind, partition_isTagKey (fun j => j), h.filter_tagKey,
    List.map_singleton]
  dsimp only
  rw [htag, some_bind, hrest, some_bind, h.typeOfFields?]
  rfl

end ColumnType.WrittenIn

end TransactScript
