import TransactScript.Proofs.Document.TypeTag
import TransactScript.Proofs.Name

/-! Columns as JSON. An object that has the fields of a column is read as this column, and what is written for a
column is such an object. -/

namespace TransactScript

open Document

section Columns

variable {entries : List (String × Json)}

structure Column.WrittenIn (entries : List (String × Json)) (c : Column) : Prop where
  name : entries.lookup "name" = some (.string c.name.text)
  type : c.type.WrittenIn entries
  once : Once ["name"] entries

def tableColumnNames : List String :=
  ["name", "allow_null", "is_primary_key"]

structure TableColumn.WrittenIn (entries : List (String × Json)) (c : TableColumn) : Prop where
  name : entries.lookup "name" = some (.string c.name.text)
  type : c.type.WrittenIn entries
  allowNull : Tells entries "allow_null" .bool c.allowNull false
  isPrimaryKey : Tells entries "is_primary_key" .bool c.isPrimaryKey false
  once : Once tableColumnNames entries

lemma field_name {n : Identifier} (h : entries.lookup "name" = some (.string n.text)) :
    field entries "name" identifier? = some n := by
  rw [field, h]
  change expect (Identifier.parse n.text).toOption = some n
  rw [Identifier.parse_text]
  rfl

lemma not_contains_typeName {own : List String} (hown : own ⊆ tableColumnNames) :
    ∀ key ∈ ColumnType.typeNames, (!own.contains key) = true := by
  have hno : ∀ key ∈ ColumnType.typeNames, key ∉ tableColumnNames := by decide
  intro key hkey
  simpa using fun hm => hno key hkey (hown hm)

lemma embeddedType?_beside {own : List String} (hown : own ⊆ tableColumnNames) {t : ColumnType}
    (h : t.WrittenIn entries) : embeddedType? (entries.filter fun e => !own.contains e.1) = some t := by
  refine (h.filter (p := fun key => !own.contains key) fun key hkey => ?_).embeddedType?
  exact not_contains_typeName hown key (t.fieldNames_subset hkey)

lemma Column.WrittenIn.column? {c : Column} (h : c.WrittenIn entries) :
    Document.column? (Json.object entries) = some c := by
  rw [Document.column?, ownFields?_object h.once, some_bind]
  dsimp only
  rw [field_filter rfl, field_name h.name, some_bind, embeddedType?_beside (by simp [tableColumnNames]) h.type]
  rfl

lemma TableColumn.WrittenIn.tableColumn? {c : TableColumn} (h : c.WrittenIn entries) :
    Document.tableColumn? (Json.object entries) = some c := by
  have hnull : fieldOr entries "allow_null" false Node.bool? = some c.allowNull := h.allowNull.fieldOr rfl
  have hkey : fieldOr entries "is_primary_key" false Node.bool? = some c.isPrimaryKey := h.isPrimaryKey.fieldOr rfl
  rw [Document.tableColumn?, ← tableColumnNames, ownFields?_object h.once, some_bind]
  dsimp only
  rw [field_filter rfl, fieldOr_filter rfl, fieldOr_filter rfl, field_name h.name, some_bind,
    embeddedType?_beside (List.Subset.refl _) h.type, some_bind, hnull, some_bind, hkey]
  rfl

end Columns

/-- A value without parts, which is read back from what is written for it. -/
structure Leaf (j : Json) : Prop where
  exact : j.Exact
  depth : j.depth? = some 0

lemma leaf_string (s : String) : Leaf (.string s) :=
  ⟨.string s, rfl⟩

lemma leaf_bool (b : Bool) : Leaf (.bool b) :=
  ⟨.bool b, rfl⟩

lemma leaf_natural {n : Nat} (h : n < 2 ^ 64) : Leaf (.integer n) :=
  ⟨.integer (by omega) (by omega), rfl⟩

lemma Leaf.readable {j : Json} (h : Leaf j) : j.isReadableWithin 1 = true := by
  rw [Json.isReadableWithin, h.depth]
  rfl

section Projection

open Answering (Gives of_bind eq_of_pure)

variable {entries : List (String × Json)}

lemma readable_of_flag {key : String} (hkey : key ∈ tableColumnNames) (honce : Once tableColumnNames entries)
    {b : Bool} (h : Gives (fieldOr entries key false Node.bool?) b) {e : String × Json} (he : e ∈ entries)
    (hk : e.1 = key) : e.2.isReadableWithin 1 = true := by
  rcases gives_fieldOr h with ⟨hnone, _⟩ | ⟨j, hj, hb⟩
  · rw [List.lookup_eq_none_iff] at hnone
    simpa [hk] using hnone e he
  · rw [honce.snd_eq hkey hj he hk]
    cases j with
    | bool b => exact (leaf_bool b).readable
    | _ => cases hb

/-- The flags of a table column do not hinder that the object is read as a column. -/
lemma column?_of_tableColumn? {j : Json} {c : TableColumn} (h : Gives (tableColumn? j) c) :
    column? j = some c.toColumn := by
  obtain ⟨⟨fields, rest⟩, hown, h⟩ := of_bind h
  obtain ⟨entries, rfl, honce, rfl, rfl⟩ := ownFields?_ok hown
  obtain ⟨name, hname, h⟩ := of_bind h
  obtain ⟨type, htype, h⟩ := of_bind h
  obtain ⟨allowNull, hnull, h⟩ := of_bind h
  obtain ⟨isPrimaryKey, hkey, h⟩ := of_bind h
  obtain rfl := eq_of_pure h
  rw [field_filter rfl] at hname
  rw [fieldOr_filter rfl] at hnull hkey
  have hsub : ["name"] ⊆ tableColumnNames := by simp [tableColumnNames]
  -- the flags stand among what is kept for the type now, and they can be kept since they are read as flags
  have hreadable : ∀ e ∈ entries.filter fun e => !(["name"].contains e.1), e.2.isReadableWithin 1 = true := by
    intro e he
    obtain ⟨he, hother⟩ := List.mem_filter.mp he
    by_cases hm : e.1 ∈ tableColumnNames
    · have hflag : e.1 = "allow_null" ∨ e.1 = "is_primary_key" := by
        simpa [tableColumnNames, show e.1 ≠ "name" by simpa using hother] using hm
      rcases hflag with hk | hk
      · exact readable_of_flag (by decide) honce hnull he hk
      · exact readable_of_flag (by decide) honce hkey he hk
    · refine ColumnType.readable_of_embeddedType? htype e (List.mem_filter.mpr ⟨he, ?_⟩)
      simpa [tableColumnNames] using hm
  have htype' : embeddedType? (entries.filter fun e => !(["name"].contains e.1)) = some type := by
    refine (ColumnType.embeddedType?_congr hreadable (ColumnType.readable_of_embeddedType? htype) ?_).trans htype
    exact (filter_names (p := fun key => !(["name"].contains key)) (not_contains_typeName hsub) entries).trans
      (filter_names (p := fun key => !tableColumnNames.contains key) (not_contains_typeName (List.Subset.refl _))
        entries).symm
  rw [column?, ownFields?_object (honce.mono hsub), some_bind]
  dsimp only
  rw [field_filter rfl, hname, some_bind, htype']
  rfl

end Projection

namespace ColumnType

lemma leaf_octet (n : UInt8) : Leaf (octet n) :=
  leaf_natural (n.toNat_lt.trans (by decide))

lemma leaf_size (length : Option UInt16) : Leaf (size length) := by
  cases length with
  | none => exact ⟨.null, rfl⟩
  | some n => exact leaf_natural (n.toNat_lt.trans (by decide))

variable (t : ColumnType)

lemma leaf_fields : ∀ e ∈ t.fields, Leaf e.2 := by
  cases t with
  | plain kind => simpa [fields] using leaf_string _
  | decimal precision scale => simpa [fields] using ⟨leaf_string _, leaf_octet precision, leaf_octet scale⟩
  | string kind length => simpa [fields] using ⟨leaf_string _, leaf_size length⟩

lemma keys_fields : keys t.fields = t.fieldNames := by
  cases t <;> rfl

lemma writtenIn_fields : t.WrittenIn t.fields where
  keyword := by cases t <;> rfl
  parameters := by
    cases t with
    | plain kind => trivial
    | decimal precision scale => exact ⟨.inl rfl, .inl rfl⟩
    | string kind length => exact .inl rfl
  once := by
    refine .of_nodup ?_ _
    rw [keys_fields]
    cases t <;> simp [fieldNames, parameterNames, tagKey]
  readable e he := (t.leaf_fields e he).readable

end ColumnType

namespace Column

def fields (c : Column) : List (String × Json) :=
  ("name", .string c.name.text) :: c.type.fields

variable (c : Column)

lemma leaf_fields : ∀ e ∈ c.fields, Leaf e.2 := by
  rw [fields, List.forall_mem_cons]
  exact ⟨leaf_string _, c.type.leaf_fields⟩

lemma writtenIn_fields : c.WrittenIn c.fields where
  name := rfl
  type := by
    refine c.type.writtenIn_fields.of_filter ?_ fun e he => (c.leaf_fields e he).readable
    rw [fields]
    cases c.type <;> rfl
  once := by
    rw [fields]
    cases c.type <;> exact List.nodup_singleton "name"

end Column

namespace TableColumn

def fields (c : TableColumn) : List (String × Json) :=
  ("name", .string c.name.text) :: c.type.fields ++
    [("allow_null", .bool c.allowNull), ("is_primary_key", .bool c.isPrimaryKey)]

variable (c : TableColumn)

lemma leaf_fields : ∀ e ∈ c.fields, Leaf e.2 := by
  rw [fields, List.forall_mem_append, List.forall_mem_cons]
  refine ⟨⟨leaf_string _, c.type.leaf_fields⟩, ?_⟩
  simpa using ⟨leaf_bool c.allowNull, leaf_bool c.isPrimaryKey⟩

lemma writtenIn_fields : c.WrittenIn c.fields where
  name := rfl
  type := by
    refine c.type.writtenIn_fields.of_filter ?_ fun e he => (c.leaf_fields e he).readable
    rw [fields]
    cases c.type <;> rfl
  allowNull := by
    rw [fields]
    cases c.type <;> exact .inl rfl
  isPrimaryKey := by
    rw [fields]
    cases c.type <;> exact .inl rfl
  once := by
    have hnames : tableColumnNames.Nodup := by decide
    rw [fields]
    cases c.type <;> exact hnames

end TableColumn

lemma loadJson_of_parse {α : Type} {decode : Json → Option α} {text : String} {j : Json} {a : α}
    (h : Json.parse? text = some j) (hd : decode j = some a) : loadJson decode text = .ok a := by
  rw [loadJson, h, Option.bind_some, hd]

lemma parse?_leaves {entries : List (String × Json)} (h : ∀ e ∈ entries, Leaf e.2) :
    Json.parse? (Json.object entries).write = some (.object entries) :=
  Json.parse?_write (.object fun e he => (h e he).exact)

/-- Each value is read back from what is written for it, and a value that was read from any other text too. -/
structure RoundTrips {α : Type} (decode : Json → Option α) (encode : α → Json) : Prop where
  own : ∀ a, loadJson decode (encode a).write = .ok a
  again : ∀ text, (loadJson decode text >>= fun a => loadJson decode (encode a).write) = loadJson decode text

lemma roundTrips_of_own {α : Type} {decode : Json → Option α} {encode : α → Json}
    (h : ∀ a, loadJson decode (encode a).write = .ok a) : RoundTrips decode encode := by
  refine ⟨h, fun text => ?_⟩
  simp only [h]
  cases loadJson decode text <;> rfl

theorem columns_of_json :
    RoundTrips columnType? ColumnType.toJson ∧ RoundTrips column? Column.toJson ∧
      RoundTrips tableColumn? TableColumn.toJson ∧
      (∀ c : TableColumn, loadJson column? c.toJson.write = .ok c.toColumn) ∧
      (∀ text c, loadJson tableColumn? text = .ok c → loadJson column? text = .ok c.toColumn) ∧
      ∀ text entries, Json.parse? text = some (.object entries) →
        (∀ t : ColumnType, t.WrittenIn entries → loadJson columnType? text = .ok t) ∧
        (∀ c : Column, c.WrittenIn entries → loadJson column? text = .ok c) ∧
        ∀ c : TableColumn, c.WrittenIn entries → loadJson tableColumn? text = .ok c := by
  have htable (c : TableColumn) : loadJson tableColumn? c.toJson.write = .ok c :=
    loadJson_of_parse (parse?_leaves c.leaf_fields) c.writtenIn_fields.tableColumn?
  have hproject (text : String) (c : TableColumn) (h : loadJson tableColumn? text = .ok c) :
      loadJson column? text = .ok c.toColumn := by
    obtain ⟨j, hj, hc⟩ := loadJson_ok h
    exact loadJson_of_parse hj (column?_of_tableColumn? hc)
  refine ⟨roundTrips_of_own fun t => ?_, roundTrips_of_own fun c => ?_, roundTrips_of_own htable,
    fun c => hproject _ c (htable c), hproject, ?_⟩
  · exact loadJson_of_parse (parse?_leaves t.leaf_fields) t.writtenIn_fields.columnType?
  · exact loadJson_of_parse (parse?_leaves c.leaf_fields) c.writtenIn_fields.column?
  · intro text entries hparse
    refine ⟨fun t h => ?_, fun c h => ?_, fun c h => ?_⟩
    · exact loadJson_of_parse hparse h.columnType?
    · exact loadJson_of_parse hparse h.column?
    · exact loadJson_of_parse hparse h.tableColumn?

def sparseEntries : List (String × Json) :=
  [("is_primary_key", .bool true), ("note", .array [.integer 1]), ("type", .string "decimal"), ("note", .null),
    ("scale", .integer 4), ("name", .string "Price")]

def sparseText : String :=
  "\x7b\"is_primary_key\":true,\"note\":[1],\"type\":\"decimal\",\"note\":null,\"scale\":4,\"name\":\"Price\"\x7d"

def sparseColumn : TableColumn :=
  ⟨⟨"Price", by decide⟩, .decimal 18 4, false, true⟩

theorem columns_of_sparseText :
    Json.parse? sparseText = some (.object sparseEntries) ∧ sparseColumn.WrittenIn sparseEntries ∧
      loadJson columnType? sparseText = .ok (.decimal 18 4) ∧ loadJson tableColumn? sparseText = .ok sparseColumn ∧
      loadJson column? sparseText = .ok sparseColumn.toColumn := by
  have htext : sparseText = (Json.object sparseEntries).write := by decide +kernel
  have hnote : ∀ j ∈ [Json.integer 1], j.Exact := by
    simpa using .integer (by decide) (by decide)
  have hexact : ∀ e ∈ sparseEntries, e.2.Exact := by
    simpa [sparseEntries, Json.Exact.null] using
      ⟨.bool true, .array hnote, .string _, .integer (by decide) (by decide), .string _⟩
  have hparse : Json.parse? sparseText = some (.object sparseEntries) := by
    rw [htext, Json.parse?_write (.object hexact)]
  have hwritten : sparseColumn.WrittenIn sparseEntries :=
    ⟨rfl, ⟨rfl, ⟨.inr ⟨rfl, rfl⟩, .inl rfl⟩, by decide, by decide⟩, .inr ⟨rfl, rfl⟩, .inl rfl, by decide⟩
  obtain ⟨-, -, -, -, hproject, hread⟩ := columns_of_json
  obtain ⟨htype, -, htable⟩ := hread sparseText sparseEntries hparse
  have hcolumn := htable sparseColumn hwritten
  exact ⟨hparse, hwritten, htype _ hwritten.type, hcolumn, hproject _ _ hcolumn⟩

end TransactScript
