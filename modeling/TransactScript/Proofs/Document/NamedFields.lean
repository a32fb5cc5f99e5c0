import TransactScript.Proofs.Document.Column

/-! What an object is read as is told by its named fields, in whatever order they stand and whatever stands beside
them. But all that stands beside the fields of a column must be such that it can be kept until the type is known. -/

namespace TransactScript

open Document

namespace Document

section Lookup

variable {α : Type} {entries others foreign : List (String × α)} {key : String}

lemma lookup_eq_some_iff_mem (hk : (keys entries).Nodup) {a : α} :
    entries.lookup key = some a ↔ (key, a) ∈ entries := by
  have hmem {b : α} (h : entries.lookup key = some b) : (key, b) ∈ entries := by
    obtain ⟨before, after, rfl, _⟩ := List.lookup_eq_some_iff.mp h
    exact List.mem_append_right _ List.mem_cons_self
  refine ⟨hmem, fun h => ?_⟩
  cases hb : entries.lookup key with
  | none => simpa using List.lookup_eq_none_iff.mp hb _ h
  | some b => rw [(Prod.mk.inj (List.inj_on_of_nodup_map hk (hmem hb) h rfl)).2]

lemma filter_key_eq (hk : (keys entries).Nodup) (key : String) :
    entries.filter (fun e => e.1 == key) = ((entries.lookup key).map fun a => (key, a)).toList := by
  cases ha : entries.lookup key with
  | none =>
    rw [List.lookup_eq_none_iff] at ha
    rw [Option.map_none, Option.toList_none, List.filter_eq_nil_iff]
    intro e he hkey
    exact absurd (beq_iff_eq.mp hkey).symm (by simpa using ha e he)
  | some a => exact filter_key_of_nodup hk ha

/-- The other entries are these in some order, and foreign ones. No key stands twice among them. -/
structure Extended (entries foreign others : List (String × α)) : Prop where
  order : others.Perm (entries ++ foreign)
  distinct : (keys others).Nodup

namespace Extended

variable (h : Extended entries foreign others)

include h

lemma distinct_own : (keys entries).Nodup := by
  have hall : (keys (entries ++ foreign)).Nodup := (h.order.map _).nodup_iff.mp h.distinct
  exact hall.sublist ((List.sublist_append_left entries foreign).map _)

lemma lookup_eq (hkey : ∀ e ∈ foreign, e.1 ≠ key) : others.lookup key = entries.lookup key := by
  refine Option.ext fun a => ?_
  have hno : (key, a) ∉ foreign := fun ha => hkey _ ha rfl
  rw [lookup_eq_some_iff_mem h.distinct, lookup_eq_some_iff_mem h.distinct_own, h.order.mem_iff, List.mem_append,
    or_iff_left hno]

lemma filter (p : String × α → Bool) : Extended (entries.filter p) (foreign.filter p) (others.filter p) where
  order := by
    rw [← List.filter_append]
    exact h.order.filter p
  distinct := h.distinct.sublist (List.filter_sublist.map _)

lemma forall_iff {P : String × α → Prop} (hf : ∀ e ∈ foreign, P e) : (∀ e ∈ others, P e) ↔ ∀ e ∈ entries, P e := by
  simp only [h.order.mem_iff, List.mem_append, or_imp, forall_and]
  exact and_iff_left hf

end Extended

end Lookup

end Document

namespace ColumnType

variable {entries others foreign : List (String × Json)}

lemma lookup_datums (key : String) : (datums entries).lookup key = (entries.lookup key).map Json.toDatum :=
  lookup_map Json.toDatum entries key

lemma withParameters?_congr {given given' : List (String × Datum)} {t : ColumnType}
    (h : ∀ key ∈ parameterNames t, given.lookup key = given'.lookup key) :
    withParameters? given t = withParameters? given' t := by
  cases t with
  | plain kind => rfl
  | decimal precision scale =>
    rw [withParameters?, withParameters?, h "precision" (by simp [parameterNames]),
      h "scale" (by simp [parameterNames])]
  | string kind length => rw [withParameters?, withParameters?, h "length" (by simp [parameterNames])]

lemma parameters?_of_nodup (hk : (keys entries).Nodup) (names : List String) :
    parameters? names (textDatums entries) = some ((datums entries).filter fun e => names.contains e.1) := by
  rw [parameters?_textDatums]
  exact ((Once.of_nodup hk names).map Json.toDatum).knownFields?

lemma typeOfFields?_extended (h : Extended entries foreign others) (hf : ∀ e ∈ foreign, e.1 ∉ typeNames)
    (tag : Datum) : typeOfFields? tag (textDatums others) = typeOfFields? tag (textDatums entries) := by
  have hparameters (t : ColumnType) :
      (do withParameters? (← parameters? (parameterNames t) (textDatums others)) t) =
        (do withParameters? (← parameters? (parameterNames t) (textDatums entries)) t) := by
    rw [parameters?_of_nodup h.distinct, parameters?_of_nodup h.distinct_own]
    refine withParameters?_congr fun key hkey => ?_
    have hown : (parameterNames t).contains key = true := List.contains_iff_mem.mpr hkey
    have hname : key ∈ typeNames := t.fieldNames_subset (List.mem_cons_of_mem _ hkey)
    have hlookup := h.lookup_eq fun e he hk => hf e he (hk ▸ hname)
    rw [lookup_filter hown, lookup_filter hown, lookup_datums, lookup_datums, hlookup]
  rw [typeOfFields?, typeOfFields?]
  cases tagged? tag with
  | none => rfl
  | some t =>
    cases t with
    | plain kind => rfl
    | decimal precision scale => exact hparameters _
    | string kind length => exact hparameters _

lemma embeddedType?_unreadable (h : ¬ ∀ e ∈ entries, e.2.isReadableWithin 1 = true) : embeddedType? entries = none :=
  Option.eq_none_iff_forall_ne_some.mpr fun _ ht => h (readable_of_embeddedType? ht)

lemma embeddedType?_extended (h : Extended entries foreign others) (hf : ∀ e ∈ foreign, e.1 ∉ typeNames)
    (hr : ∀ e ∈ foreign, e.2.isReadableWithin 1 = true) : embeddedType? others = embeddedType? entries := by
  have hiff := h.forall_iff hr
  by_cases hall : ∀ e ∈ entries, e.2.isReadableWithin 1 = true
  · have htag : tagKey ∈ typeNames := List.mem_cons_self
    have hlookup := h.lookup_eq fun e he hk => hf e he (hk ▸ htag)
    have hrest := h.filter fun e => !(e.1 == tagKey)
    rw [embeddedType?_eq (hiff.mpr hall), embeddedType?_eq hall, filter_key_eq h.distinct,
      filter_key_eq h.distinct_own, hlookup]
    simp only [typeOfFields?_extended hrest fun e he => hf e (List.mem_of_mem_filter he)]
  · rw [embeddedType?_unreadable hall, embeddedType?_unreadable (hiff.not.mpr hall)]

end ColumnType

namespace Document

section Objects

variable {α : Type} {entries others foreign : List (String × Json)} {names : List String}

lemma Extended.lookup_kept (h : Extended entries foreign others) (hf : ∀ e ∈ foreign, e.1 ∉ names) (key : String) :
    (others.filter fun e => names.contains e.1).lookup key =
      (entries.filter fun e => names.contains e.1).lookup key := by
  refine (h.filter fun e => names.contains e.1).lookup_eq fun e he => ?_
  obtain ⟨he, hname⟩ := List.mem_filter.mp he
  exact absurd (List.contains_iff_mem.mp hname) (hf e he)

lemma record?_of_nodup (hk : (keys entries).Nodup) (names : List String) :
    Node.record? names (Json.object entries) = some (entries.filter fun e => names.contains e.1) :=
  (Once.of_nodup hk names).knownFields?

lemma record_extended (h : Extended entries foreign others) (hf : ∀ e ∈ foreign, e.1 ∉ names)
    {read : List (String × Json) → Option α}
    (hread : ∀ fields fields', (∀ key, fields.lookup key = fields'.lookup key) → read fields = read fields') :
    (Node.record? names (Json.object others) >>= read) = (Node.record? names (Json.object entries) >>= read) := by
  rw [record?_of_nodup h.distinct, record?_of_nodup h.distinct_own]
  exact hread _ _ (h.lookup_kept hf)

def propertyNames : List String :=
  ["name", "type"]

lemma property?_extended (h : Extended entries foreign others) (hf : ∀ e ∈ foreign, e.1 ∉ propertyNames) :
    property? (Json.object others) = property? (Json.object entries) :=
  record_extended h hf fun _ _ hlookup => by simp only [field, hlookup]

def schemaNames : List String :=
  ["name", "properties"]

lemma schema?_extended (h : Extended entries foreign others) (hf : ∀ e ∈ foreign, e.1 ∉ schemaNames) :
    schema? (Json.object others) = schema? (Json.object entries) :=
  record_extended h hf fun _ _ hlookup => by simp only [field, fieldOr, hlookup]

def optionNames : List String :=
  ["indent", "quote_identifiers", "terminate_statements", "max_rows_per_insert"]

lemma renderOptions?_extended (h : Extended entries foreign others) (hf : ∀ e ∈ foreign, e.1 ∉ optionNames) :
    renderOptions? (Json.object others) = renderOptions? (Json.object entries) :=
  record_extended h hf fun _ _ hlookup => by simp only [fieldOr, hlookup]

/-- Columns of both kinds read their own fields by name, and a type from the fields that are left. -/
lemma ownFields_extended {own : List String} (h : Extended entries foreign others)
    (hf : ∀ e ∈ foreign, e.1 ∉ own ++ ColumnType.typeNames) (hr : ∀ e ∈ foreign, e.2.isReadableWithin 1 = true)
    {read : List (String × Json) × List (String × Json) → Option α}
    (hread : ∀ fields fields' rest rest', (∀ key, fields.lookup key = fields'.lookup key) →
      (embeddedType? rest : Option ColumnType) = embeddedType? rest' → read (fields, rest) = read (fields', rest')) :
    (ownFields? own (Json.object others) >>= read) = (ownFields? own (Json.object entries) >>= read) := by
  rw [ownFields?_object (Once.of_nodup h.distinct _), ownFields?_object (Once.of_nodup h.distinct_own _)]
  refine hread _ _ _ _ (h.lookup_kept fun e he hk => hf e he (List.mem_append_left _ hk)) ?_
  exact ColumnType.embeddedType?_extended (h.filter fun e => !own.contains e.1)
    (fun e he hk => hf e (List.mem_of_mem_filter he) (List.mem_append_right _ hk))
    fun e he => hr e (List.mem_of_mem_filter he)

lemma ownFields_refused {own : List String} (hk : (keys entries).Nodup) {e : String × Json} (he : e ∈ entries)
    (hown : e.1 ∉ own) (hr : ¬ e.2.isReadableWithin 1 = true)
    {read : List (String × Json) × List (String × Json) → Option α}
    (hread : ∀ fields rest, (embeddedType? rest : Option ColumnType) = none → read (fields, rest) = none) :
    (ownFields? own (Json.object entries) >>= read) = none := by
  have hrest : e ∈ entries.filter fun e => !own.contains e.1 := List.mem_filter.mpr ⟨he, by simpa using hown⟩
  rw [ownFields?_object (Once.of_nodup hk _)]
  exact hread _ _ (ColumnType.embeddedType?_unreadable fun hall => hr (hall e hrest))

def columnNames : List String :=
  ["name"] ++ ColumnType.typeNames

lemma column?_extended (h : Extended entries foreign others) (hf : ∀ e ∈ foreign, e.1 ∉ columnNames)
    (hr : ∀ e ∈ foreign, e.2.isReadableWithin 1 = true) :
    column? (Json.object others) = column? (Json.object entries) :=
  ownFields_extended h hf hr fun _ _ _ _ hlookup htype => by simp only [field, hlookup, htype]

lemma column?_refused (hk : (keys entries).Nodup) {e : String × Json} (he : e ∈ entries) (hf : e.1 ∉ columnNames)
    (hr : ¬ e.2.isReadableWithin 1 = true) : column? (Json.object entries) = none :=
  ownFields_refused hk he (fun hm => hf (List.mem_append_left _ hm)) hr fun fields _ htype => by
    dsimp only
    rw [htype]
    cases field fields "name" identifier? <;> rfl

def tableNames : List String :=
  tableColumnNames ++ ColumnType.typeNames

lemma tableColumn?_extended (h : Extended entries foreign others) (hf : ∀ e ∈ foreign, e.1 ∉ tableNames)
    (hr : ∀ e ∈ foreign, e.2.isReadableWithin 1 = true) :
    tableColumn? (Json.object others) = tableColumn? (Json.object entries) :=
  ownFields_extended h hf hr fun _ _ _ _ hlookup htype => by simp only [field, fieldOr, hlookup, htype]

lemma tableColumn?_refused (hk : (keys entries).Nodup) {e : String × Json} (he : e ∈ entries)
    (hf : e.1 ∉ tableNames) (hr : ¬ e.2.isReadableWithin 1 = true) : tableColumn? (Json.object entries) = none :=
  ownFields_refused hk he (fun hm => hf (List.mem_append_left _ hm)) hr fun fields _ htype => by
    dsimp only
    rw [htype]
    cases field fields "name" identifier? <;> rfl

end Objects

end Document

namespace RenderOptions

variable {α : Type} {o : RenderOptions} {kept : String → Bool}

def fields (o : RenderOptions) : List (String × Json) :=
  [("indent", .integer o.indent.toNat), ("quote_identifiers", .bool o.quoteIdentifiers),
    ("terminate_statements", .bool o.terminateStatements), ("max_rows_per_insert", .integer o.maxRowsPerInsert.toNat)]

/-- What is left out is as in the default options. -/
def Covered (o : RenderOptions) (kept : String → Bool) : Prop :=
  ∀ e ∈ o.fields, kept e.1 = false → e ∈ ({} : RenderOptions).fields

lemma nodup_fields (o : RenderOptions) : (keys o.fields).Nodup :=
  show optionNames.Nodup by decide

lemma nodup_kept (o : RenderOptions) (kept : String → Bool) : (keys (o.fields.filter fun e => kept e.1)).Nodup :=
  o.nodup_fields.sublist (List.filter_sublist.map _)

lemma leaf_fields (o : RenderOptions) : ∀ e ∈ o.fields, Leaf e.2 := by
  simpa [fields] using ⟨leaf_natural o.indent.toNat_lt, leaf_bool o.quoteIdentifiers,
    leaf_bool o.terminateStatements, leaf_natural o.maxRowsPerInsert.toNat_lt⟩

lemma Covered.tells (h : o.Covered kept) {key : String} {encode : α → Json} (hencode : Function.Injective encode)
    {value assumed : α} (hv : o.fields.lookup key = some (encode value))
    (ha : ({} : RenderOptions).fields.lookup key = some (encode assumed)) :
    Tells (o.fields.filter fun e => kept e.1) key encode value assumed := by
  cases hk : kept key with
  | true => exact .inl ((lookup_filter hk o.fields).trans hv)
  | false =>
    refine .inr ⟨List.lookup_eq_none_iff.mpr fun e he => ?_, ?_⟩
    · have hkept : kept e.1 = true := (List.mem_filter.mp he).2
      simp only [bne_iff_ne, ne_eq]
      rintro rfl
      exact absurd hkept (by simp [hk])
    · have hmem := h _ ((lookup_eq_some_iff_mem o.nodup_fields).mp hv) hk
      rw [← lookup_eq_some_iff_mem (nodup_fields _), ha] at hmem
      exact hencode (Option.some.inj hmem).symm

lemma word_injective : Function.Injective fun n : UInt64 => Json.integer n.toNat := by
  intro m n h
  exact UInt64.toNat_inj.mp (Int.ofNat_inj.mp (Json.integer.inj h))

lemma word?_toNat (n : UInt64) : Node.word? (Json.integer n.toNat) = some n := by
  have hword : Node.word? (Json.integer n.toNat) = some (UInt64.ofNat n.toNat) := if_pos (Int.natCast_nonneg _)
  rw [hword, UInt64.ofNat_toNat]

lemma bool_injective : Function.Injective Json.bool :=
  fun _ _ => Json.bool.inj

lemma Covered.renderOptions? (h : o.Covered kept) :
    Document.renderOptions? (Json.object (o.fields.filter fun e => kept e.1)) = some o := by
  let fields := o.fields.filter fun e => kept e.1
  have hindent : fieldOr fields "indent" 4 Node.word? = some o.indent :=
    (h.tells word_injective rfl rfl).fieldOr (word?_toNat _)
  have hquote : fieldOr fields "quote_identifiers" true Node.bool? = some o.quoteIdentifiers :=
    (h.tells bool_injective rfl rfl).fieldOr rfl
  have hterminate : fieldOr fields "terminate_statements" true Node.bool? = some o.terminateStatements :=
    (h.tells bool_injective rfl rfl).fieldOr rfl
  have hrows : fieldOr fields "max_rows_per_insert" 1000 Node.word? = some o.maxRowsPerInsert :=
    (h.tells word_injective rfl rfl).fieldOr (word?_toNat _)
  rw [Document.renderOptions?, record?_of_nodup (o.nodup_kept kept), some_bind]
  dsimp only
  rw [fieldOr_filter rfl, hindent, some_bind, fieldOr_filter rfl, hquote, some_bind, fieldOr_filter rfl, hterminate,
    some_bind, fieldOr_filter rfl, hrows]
  rfl

end RenderOptions

section Texts

variable {α : Type} {names : List String} {held : Json → Prop}

/-- The later text has the entries of the earlier one in some order, and foreign ones. No key stands twice in it. -/
def Adds (foreign : List (String × Json)) (text text' : String) : Prop :=
  ∃ entries others, Json.parse? text = some (.object entries) ∧ Json.parse? text' = some (.object others) ∧
    Extended entries foreign others

/-- The outcome is told by the named fields, if all that stands beside them can be held. If not, there is none. -/
structure ToldByName (names : List String) (held : Json → Prop) (load : String → Except Fault α) : Prop where
  same : ∀ {foreign text text'}, Adds foreign text text' → (∀ e ∈ foreign, e.1 ∉ names) →
    (∀ e ∈ foreign, held e.2) → load text' = load text
  refused : ∀ {foreign text text'}, Adds foreign text text' → (∀ e ∈ foreign, e.1 ∉ names) →
    (∃ e ∈ foreign, ¬ held e.2) → load text' = .error .json

/-- A value that is passed over may be any. -/
def Passed (_ : Json) : Prop :=
  True

/-- A value that is kept until the type is known must denote something, and it stands in one object at least. -/
def Kept (j : Json) : Prop :=
  j.isReadableWithin 1 = true

lemma toldByName_of_extended {decode : Json → Option α}
    (hsame : ∀ {entries foreign others}, Extended entries foreign others → (∀ e ∈ foreign, e.1 ∉ names) →
      (∀ e ∈ foreign, held e.2) → decode (.object others) = decode (.object entries))
    (hrefused : ∀ {entries}, (keys entries).Nodup → ∀ {e}, e ∈ entries → e.1 ∉ names → ¬ held e.2 →
      decode (.object entries) = none) : ToldByName names held (loadJson decode) where
  same := by
    rintro foreign text text' ⟨entries, others, hp, hp', hx⟩ hf hheld
    rw [loadJson, loadJson, hp, hp', Option.bind_some, Option.bind_some, hsame hx hf hheld]
  refused := by
    rintro foreign text text' ⟨entries, others, _, hp', hx⟩ hf ⟨e, he, hno⟩
    have hother : e ∈ others := hx.order.mem_iff.mpr (List.mem_append_right _ he)
    rw [loadJson, hp', Option.bind_some, hrefused hx.distinct hother (hf e he) hno]

lemma toldByName_of_passed {decode : Json → Option α}
    (hsame : ∀ {entries foreign others}, Extended entries foreign others → (∀ e ∈ foreign, e.1 ∉ names) →
      decode (.object others) = decode (.object entries)) : ToldByName names Passed (loadJson decode) :=
  toldByName_of_extended (fun hx hf _ => hsame hx hf) fun _ _ _ _ hno => (hno trivial).elim

lemma ToldByName.bind {β : Type} {load : String → Except Fault α} (h : ToldByName names Passed load)
    (f : α → Except Fault β) : ToldByName names Passed fun text => load text >>= f where
  same hadds hf hheld := by rw [h.same hadds hf hheld]
  refused := by
    rintro foreign text text' _ _ ⟨e, _, hno⟩
    exact (hno trivial).elim

end Texts

lemma toldByName_column : ToldByName columnNames Kept (loadJson column?) :=
  toldByName_of_extended column?_extended column?_refused

lemma toldByName_tableColumn : ToldByName tableNames Kept (loadJson tableColumn?) :=
  toldByName_of_extended tableColumn?_extended tableColumn?_refused

theorem outcomes_by_name :
    ToldByName optionNames Passed RenderOptions.ofJsonText ∧
      ToldByName propertyNames Passed (loadJson property?) ∧
      ToldByName schemaNames Passed (loadJson schema?) ∧ ToldByName schemaNames Passed Schema.ofJsonText ∧
      ToldByName columnNames Kept (loadJson column?) ∧ ToldByName tableNames Kept (loadJson tableColumn?) ∧
      ∀ (o : RenderOptions) (kept : String → Bool), o.Covered kept →
        ∀ text entries, Json.parse? text = some (.object entries) →
          entries.Perm (o.fields.filter fun e => kept e.1) → RenderOptions.ofJsonText text = .ok o := by
  have hschema := toldByName_of_passed schema?_extended
  refine ⟨toldByName_of_passed renderOptions?_extended, toldByName_of_passed property?_extended, hschema,
    hschema.bind Schema.validate, toldByName_column, toldByName_tableColumn, ?_⟩
  intro o kept hcovered text entries hparse hperm
  have hx : Extended (o.fields.filter fun e => kept e.1) [] entries :=
    ⟨by rwa [List.append_nil], (hperm.map _).nodup_iff.mpr (o.nodup_kept kept)⟩
  exact loadJson_of_parse hparse ((renderOptions?_extended hx (by simp)).trans hcovered.renderOptions?)

def nested : Nat → Json
  | 0 => .array []
  | n + 1 => .array [nested n]

lemma depth?_nested (n : Nat) : (nested n).depth? = some (n + 1) := by
  induction n with
  | zero => rfl
  | succ n ih =>
    rw [nested, Json.depth?, Json.depthOfItems?, Json.depthOfItems?, ih]
    rfl

lemma exact_nested (n : Nat) : (nested n).Exact := by
  induction n with
  | zero => exact .array (by simp)
  | succ n ih => exact .array (by simpa using ih)

lemma kept_nested {n : Nat} : Kept (nested n) ↔ n < 126 := by
  have hbound : n + 1 + 1 ≤ Json.depthLimit ↔ n < 126 := by
    rw [Json.depthLimit]
    omega
  rw [Kept, Json.isReadableWithin, depth?_nested]
  exact decide_eq_true_iff.trans hbound

def plainEntries : List (String × Json) :=
  [("name", .string "Id"), ("type", .string "int")]

def plainText : String :=
  "\x7b\"name\":\"Id\",\"type\":\"int\"\x7d"

def plainColumn : TableColumn :=
  ⟨⟨"Id", by decide⟩, .plain .int, false, false⟩

lemma parse?_plainText : Json.parse? plainText = some (.object plainEntries) := by
  have htext : plainText = (Json.object plainEntries).write := by decide +kernel
  rw [htext, parse?_leaves (by simpa [plainEntries] using ⟨leaf_string _, leaf_string _⟩)]

def brackets (n : Nat) : String :=
  String.ofList (List.replicate n '[' ++ List.replicate n ']')

def deepText : String :=
  "\x7b\"name\":\"Id\",\"type\":\"int\",\"x\":" ++ brackets 127 ++ "\x7d"

lemma adds_deepText : Adds [("x", nested 126)] plainText deepText := by
  have htext : deepText = (Json.object (plainEntries ++ [("x", nested 126)])).write := by decide +kernel
  have hexact : ∀ e ∈ plainEntries ++ [("x", nested 126)], e.2.Exact := by
    simpa [plainEntries] using ⟨.string _, .string _, exact_nested 126⟩
  refine ⟨plainEntries, _, parse?_plainText, ?_, .refl _, by decide⟩
  rw [htext, Json.parse?_write (.object hexact)]

lemma not_kept_deep : ∃ e ∈ [("x", nested 126)], ¬ Kept e.2 :=
  ⟨_, List.mem_cons_self, kept_nested.not.mpr (by decide)⟩

/-- The value is one that can be read where it stands alone. -/
theorem refused_deepText :
    Adds [("x", nested 126)] plainText deepText ∧ (nested 126).isReadableWithin 0 = true ∧
      "x" ∉ columnNames ∧ loadJson column? plainText = .ok plainColumn.toColumn ∧
      loadJson column? deepText = .error .json ∧
      "x" ∉ tableNames ∧ loadJson tableColumn? plainText = .ok plainColumn ∧
      loadJson tableColumn? deepText = .error .json := by
  have hcolumn : "x" ∉ columnNames := by decide
  have htable : "x" ∉ tableNames := by decide
  have halone : (nested 126).isReadableWithin 0 = true := by
    rw [Json.isReadableWithin, depth?_nested]
    rfl
  exact ⟨adds_deepText, halone, hcolumn, loadJson_of_parse parse?_plainText rfl,
    toldByName_column.refused adds_deepText (by simpa using hcolumn) not_kept_deep, htable,
    loadJson_of_parse parse?_plainText rfl,
    toldByName_tableColumn.refused adds_deepText (by simpa using htable) not_kept_deep⟩

def notedEntries : List (String × Json) :=
  ("note", nested 0) :: plainEntries.reverse

def notedText : String :=
  "\x7b\"note\":[],\"type\":\"int\",\"name\":\"Id\"\x7d"

lemma adds_notedText : Adds [("note", nested 0)] plainText notedText := by
  have htext : notedText = (Json.object notedEntries).write := by decide +kernel
  have hexact : ∀ e ∈ notedEntries, e.2.Exact := by
    simpa [notedEntries, plainEntries] using ⟨exact_nested 0, .string _, .string _⟩
  have horder : notedEntries.Perm (plainEntries ++ [("note", nested 0)]) :=
    ((List.reverse_perm plainEntries).cons _).trans (List.perm_append_singleton _ _).symm
  refine ⟨plainEntries, notedEntries, parse?_plainText, ?_, horder, by decide⟩
  rw [htext, Json.parse?_write (.object hexact)]

def rowsText : String :=
  "\x7b\"max_rows_per_insert\":0\x7d"

def rowsOptions : RenderOptions :=
  { maxRowsPerInsert := 0 }

def isRows (key : String) : Bool :=
  key == "max_rows_per_insert"

lemma parse?_rowsText : Json.parse? rowsText = some (.object (rowsOptions.fields.filter fun e => isRows e.1)) := by
  have htext : rowsText = (Json.object (rowsOptions.fields.filter fun e => isRows e.1)).write := by decide +kernel
  have hleaf : ∀ e ∈ rowsOptions.fields.filter fun e => isRows e.1, Leaf e.2 :=
    fun e he => rowsOptions.leaf_fields e (List.mem_of_mem_filter he)
  rw [htext, parse?_leaves hleaf]

theorem outcomes_of_plainText :
    loadJson tableColumn? notedText = .ok plainColumn ∧ loadJson column? deepText = .error .json ∧
      loadJson property? deepText = .ok ⟨"Id", ⟨.int, false⟩⟩ ∧
      RenderOptions.ofJsonText rowsText = .ok rowsOptions := by
  have hcovered : rowsOptions.Covered isRows := by
    simp [RenderOptions.Covered, RenderOptions.fields, rowsOptions, isRows]
  obtain ⟨-, hproperty, -, -, hcolumn, htable, hoptions⟩ := outcomes_by_name
  refine ⟨?_, ?_, ?_, ?_⟩
  · rw [htable.same adds_notedText (by decide) (by simp [kept_nested])]
    exact loadJson_of_parse parse?_plainText rfl
  · exact hcolumn.refused adds_deepText (by decide) not_kept_deep
  · rw [hproperty.same adds_deepText (by decide) fun _ _ => trivial]
    exact loadJson_of_parse parse?_plainText rfl
  · exact hoptions rowsOptions isRows hcovered rowsText _ parse?_rowsText (.refl _)

end TransactScript
