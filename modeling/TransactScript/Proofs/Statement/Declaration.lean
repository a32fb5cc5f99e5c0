import TransactScript.Proofs.ColumnType
import TransactScript.Proofs.Statement.Neutral
import TransactScript.Proofs.Text.Occurrence

/-! The text of a declaration can be read again: the name, the columns and the key, which is written once. -/

namespace TransactScript

open Text

lemma IsName.append_inj {cs ds r s : List Char} (hc : IsName cs) (hd : IsName ds) (hr : Stops isNameChar r)
    (hs : Stops isNameChar s) (h : cs ++ r = ds ++ s) : cs = ds ∧ r = s :=
  append_inj_of_stops hc.2 hd.2 hr hs h

lemma toList_commaSeparated (parts : List String) :
    (commaSeparated parts).toList = [',', ' '].intercalate (parts.map String.toList) :=
  String.toList_intercalate

lemma toList_commaLines (parts : List String) :
    (commaLines parts).toList = [',', '\n'].intercalate (parts.map String.toList) :=
  String.toList_intercalate

lemma VariableName.legible :
    Legible (Stops isNameChar) (fun _ => True) (fun v : VariableName => v.text.toList) id := by
  intro v w r s _ _ hr hs h
  simp only [text, String.toList_append, List.append_assoc] at h
  obtain ⟨hname, hrs⟩ := v.bare.valid.append_inj w.bare.valid hr hs (List.append_cancel_left h)
  have hbare : v.bare = w.bare := Identifier.text_injective (String.toList_injective hname)
  exact ⟨congrArg mk hbare, hrs⟩

namespace RenderOptions

variable (o : RenderOptions)

lemma toList_quote (n : Identifier) :
    (o.quote n.text).toList = if o.quoteIdentifiers then '[' :: (n.text.toList ++ [']']) else n.text.toList := by
  have hb : ']' ∉ n.text.toList := by
    intro hm
    cases n.atomic _ hm
  rw [quote]
  split
  · simp [bracketed, double_of_not_mem hb]
  · rfl

lemma quote_legible : Legible (Stops isNameChar) (fun _ => True) (fun n : Identifier => (o.quote n.text).toList) id := by
  intro n m r s _ _ hr hs h
  simp only [toList_quote] at h
  have hname : n.text.toList = m.text.toList ∧ r = s := by
    cases hq : o.quoteIdentifiers with
    | true =>
      simp only [hq, if_true, List.cons_append, List.append_assoc, List.cons.injEq, true_and, List.nil_append] at h
      have hstop {r : List Char} : Stops isNameChar (']' :: r) := stops_cons.mpr rfl
      obtain ⟨hname, h⟩ := n.valid.append_inj m.valid hstop hstop h
      exact ⟨hname, List.tail_eq_of_cons_eq h⟩
    | false =>
      simp only [hq, Bool.false_eq_true, if_false] at h
      exact n.valid.append_inj m.valid hr hs h
  exact ⟨Identifier.text_injective (String.toList_injective hname.1), hname.2⟩

lemma quotedNames_inj {ns ms : List Identifier} {r s : List Char} (hn : ns ≠ []) (hm : ms ≠ [])
    (h : (commaSeparated (ns.map fun n => o.quote n.text)).toList ++ (")".toList ++ r) =
      (commaSeparated (ms.map fun n => o.quote n.text)).toList ++ (")".toList ++ s)) : ns = ms ∧ r = s := by
  have hnames : Legible (fun _ => True) (fun ns => ns ≠ [] ∧ ∀ n ∈ ns, True) (fun ns : List Identifier =>
      [',', ' '].intercalate (ns.map fun n => (o.quote n.text).toList) ++ ")".toList) (List.map id) :=
    o.quote_legible.enclosed_ne_nil (fun _ => stops_cons.mpr rfl) fun _ => ⟨stops_append (by decide), by simp⟩
  simp only [toList_commaSeparated, List.map_map, ← List.append_assoc] at h
  obtain ⟨hns, hrs⟩ := hnames ⟨hn, fun _ _ => trivial⟩ ⟨hm, fun _ _ => trivial⟩ trivial trivial h
  exact ⟨by simpa using hns, hrs⟩

end RenderOptions

/-- A line of a declaration. A column says whether the key is written with it. -/
inductive Line where
  | column (c : TableColumn)
  | key (names : List ColumnName)

namespace Line

def text (o : RenderOptions) : Line → String
  | column c => o.columnDefinition true c
  | key names => "PRIMARY KEY (" ++ commaSeparated (names.map fun n => o.quote n.text) ++ ")"

def Written : Line → Prop
  | column _ => True
  | key names => names ≠ []

/-- A line goes on up to a comma before a line break, or to a line break. -/
def isLineChar (c : Char) : Bool :=
  c != ',' && c != '\n'

def suffix (allowNull isPrimaryKey : Bool) : List Char :=
  (if allowNull then " NULL" else " NOT NULL" : String).toList ++
    (if isPrimaryKey then " PRIMARY KEY" else "" : String).toList

lemma suffix_inj {a a' k k' : Bool} {r s : List Char} (hr : Stops isLineChar r) (hs : Stops isLineChar s)
    (h : suffix a k ++ r = suffix a' k' ++ s) : a = a' ∧ k = k' ∧ r = s := by
  have hline : ∀ a k, (suffix a k).all isLineChar = true := by decide
  have hinj : ∀ a a' k k', suffix a k = suffix a' k' → a = a' ∧ k = k' := by decide
  obtain ⟨he, hrs⟩ := append_inj_of_stops (List.all_eq_true.mp (hline a k)) (List.all_eq_true.mp (hline a' k')) hr hs h
  obtain ⟨ha, hk⟩ := hinj a a' k k' he
  exact ⟨ha, hk, hrs⟩

lemma toList_columnDefinition (o : RenderOptions) (c : TableColumn) : (o.columnDefinition true c).toList =
    (o.quote c.name.text).toList ++ (" ".toList ++ (c.type.text.toList ++ suffix c.allowNull c.isPrimaryKey)) := by
  simp only [RenderOptions.columnDefinition, String.toList_append, List.append_assoc, Bool.true_and, suffix]

lemma column_legible (o : RenderOptions) :
    Legible (Stops isLineChar) (fun _ => True) (fun c => (o.columnDefinition true c).toList) id := by
  intro c d r s _ _ hr hs h
  simp only [toList_columnDefinition, List.append_assoc] at h
  have hname {x : List Char} : Stops isNameChar (" ".toList ++ x) := stops_append (by decide)
  have htype {a k : Bool} {x : List Char} : Stops (fun c => c != ' ') (suffix a k ++ x) := by
    cases a <;> cases k <;> exact stops_append (by decide)
  obtain ⟨hn, h⟩ := o.quote_legible trivial trivial hname hname h
  obtain ⟨ht, h⟩ := ColumnType.text_legible trivial trivial htype htype (List.append_cancel_left h)
  obtain ⟨ha, hk, hrs⟩ := suffix_inj hr hs h
  obtain ⟨_, _, _, _⟩ := c
  obtain ⟨_, _, _, _⟩ := d
  cases hn
  cases ht
  cases ha
  cases hk
  exact ⟨rfl, hrs⟩

lemma column_ne_key {o : RenderOptions} {c : TableColumn} {r s : List Char}
    (h : (o.columnDefinition true c).toList ++ r = "PRIMARY KEY (".toList ++ s) : False := by
  simp only [toList_columnDefinition, List.append_assoc, RenderOptions.toList_quote] at h
  cases hq : o.quoteIdentifiers with
  | true => simp [hq] at h
  | false =>
    -- the column may have the name `PRIMARY`, but no type starts like the second word of the key clause
    rw [hq, if_neg Bool.false_ne_true] at h
    have hprimary : IsName "PRIMARY".toList := by decide
    have hstop {x : List Char} : Stops isNameChar (" ".toList ++ x) := stops_append (by decide)
    have hkey : "PRIMARY KEY (".toList ++ s = "PRIMARY".toList ++ (" ".toList ++ ("KEY (".toList ++ s)) := rfl
    obtain ⟨_, h⟩ := c.name.valid.append_inj hprimary hstop hstop (h.trans hkey)
    exact ColumnType.text_not_key (List.append_cancel_left h)

lemma legible (o : RenderOptions) : Legible (Stops isLineChar) Written (fun l => (text o l).toList) id := by
  intro l m r s hl hm hr hs h
  cases l with
  | column c =>
    cases m with
    | column d =>
      obtain ⟨hcd, hrs⟩ := column_legible o trivial trivial hr hs h
      exact ⟨congrArg column hcd, hrs⟩
    | key names =>
      simp only [text, String.toList_append, List.append_assoc] at h
      exact (column_ne_key h).elim
  | key names =>
    cases m with
    | column d =>
      simp only [text, String.toList_append, List.append_assoc] at h
      exact (column_ne_key h.symm).elim
    | key names' =>
      simp only [text, String.toList_append, List.append_assoc] at h
      obtain ⟨hnames, hrs⟩ := o.quotedNames_inj hl hm (List.append_cancel_left h)
      exact ⟨congrArg key hnames, hrs⟩

def column? : Line → Option TableColumn
  | column c => some c
  | key _ => none

def key? : Line → Option (List ColumnName)
  | column _ => none
  | key names => some names

def hasKey : Line → Bool
  | column c => c.isPrimaryKey
  | key _ => true

def keyNames (ls : List Line) : List ColumnName :=
  ((ls.filterMap column?).filter (·.isPrimaryKey)).map (·.name) ++ (ls.filterMap key?).flatten

/-- The columns of a table whose declaration has the lines. -/
def columns (ls : List Line) : List TableColumn :=
  (ls.filterMap column?).map fun c => { c with isPrimaryKey := decide (c.name ∈ keyNames ls) }

end Line

namespace TableVariable

variable (t : TableVariable)

def hasOneKey : Bool :=
  t.primaryKey.length == 1

def columnLines : List Line :=
  t.columns.map fun c => .column { c with isPrimaryKey := t.hasOneKey && c.isPrimaryKey }

def lines : List Line :=
  t.columnLines ++ if t.primaryKey.length ≤ 1 then [] else [.key (t.primaryKey.map (·.name))]

lemma column?_lines : t.lines.filterMap Line.column? =
    t.columns.map fun c => { c with isPrimaryKey := t.hasOneKey && c.isPrimaryKey } := by
  have hkey : (if t.primaryKey.length ≤ 1 then [] else [Line.key (t.primaryKey.map (·.name))]).filterMap
      Line.column? = [] := by
    split <;> rfl
  rw [lines, List.filterMap_append, hkey, columnLines, List.filterMap_map, List.append_nil]
  exact congrFun List.filterMap_eq_map t.columns

lemma key?_lines : t.lines.filterMap Line.key? =
    if t.primaryKey.length ≤ 1 then [] else [t.primaryKey.map (·.name)] := by
  have hcolumns : t.columnLines.filterMap Line.key? = [] := by
    simp [columnLines, Line.key?]
  rw [lines, List.filterMap_append, hcolumns, List.nil_append]
  split <;> rfl

lemma keyNames_lines : Line.keyNames t.lines = t.primaryKey.map (·.name) := by
  rw [Line.keyNames, column?_lines, key?_lines, List.filter_map, List.map_map]
  cases h : t.hasOneKey with
  | true =>
    have hlength : t.primaryKey.length ≤ 1 := (beq_iff_eq.mp h).le
    rw [if_pos hlength]
    simp [primaryKey, Function.comp_def]
  | false =>
    have hlength : t.primaryKey.length ≠ 1 := by simpa [hasOneKey] using h
    simp only [Bool.false_and, Function.comp_def, List.filter_false, List.map_nil, List.nil_append]
    split
    · have hnil : t.primaryKey = [] := List.eq_nil_of_length_eq_zero (by omega)
      simp [hnil]
    · simp

variable {t}

lemma name_mem_key (hn : (t.columns.map (·.name)).Nodup) {c : TableColumn} (hc : c ∈ t.columns) :
    c.name ∈ t.primaryKey.map (·.name) ↔ c.isPrimaryKey = true := by
  rw [List.mem_map]
  constructor
  · rintro ⟨d, hd, he⟩
    obtain ⟨hd, hk⟩ := List.mem_filter.mp hd
    rwa [List.inj_on_of_nodup_map hn hd hc he] at hk
  · exact fun hk => ⟨c, List.mem_filter.mpr ⟨hc, hk⟩, rfl⟩

lemma columns_lines (hn : (t.columns.map (·.name)).Nodup) : Line.columns t.lines = t.columns := by
  rw [Line.columns, column?_lines, keyNames_lines, List.map_map]
  refine (List.map_congr_left fun c hc => ?_).trans (List.map_id _)
  simp only [Function.comp_apply, name_mem_key hn hc, Bool.decide_eq_true, id]

lemma countP_lines : t.lines.countP Line.hasKey = if t.primaryKey = [] then 0 else 1 := by
  have hcolumns : t.columnLines.countP Line.hasKey = if t.hasOneKey then 1 else 0 := by
    rw [columnLines, List.countP_map]
    cases h : t.hasOneKey with
    | true =>
      have hlength : t.primaryKey.length = 1 := beq_iff_eq.mp h
      rwa [primaryKey, ← List.countP_eq_length_filter] at hlength
    | false => simp [Function.comp_def, Line.hasKey]
  rw [lines, List.countP_append, hcolumns]
  cases hkey : t.primaryKey with
  | nil => simp [hasOneKey, hkey]
  | cons c key =>
    cases key with
    | nil => simp [hasOneKey, hkey]
    | cons d key => simp [hasOneKey, hkey, Line.hasKey]

lemma written_lines (hc : t.columns ≠ []) : t.lines ≠ [] ∧ ∀ l ∈ t.lines, l.Written := by
  constructor
  · simp [lines, columnLines, hc]
  · intro l hl
    rcases List.mem_append.mp hl with hl | hl
    · obtain ⟨c, _, rfl⟩ := List.mem_map.mp hl
      trivial
    · split at hl
      · cases hl
      · next hlength =>
        obtain rfl := List.mem_singleton.mp hl
        intro hnil
        rw [List.map_eq_nil_iff] at hnil
        simp [hnil] at hlength

end TableVariable

namespace RenderOptions

variable (o : RenderOptions)

def body (ls : List Line) : List Char :=
  [',', '\n'].intercalate (ls.map fun l => o.indentation.toList ++ (l.text o).toList) ++ "\n)".toList

lemma definitions_eq_lines (t : TableVariable) :
    (t.columns.map fun c => o.indentation ++ o.columnDefinition (t.primaryKey.length == 1) c) ++
        o.keyLines t.primaryKey = t.lines.map fun l => o.indentation ++ l.text o := by
  have hkey : o.keyLines t.primaryKey = (if t.primaryKey.length ≤ 1 then [] else
      [Line.key (t.primaryKey.map (·.name))]).map fun l => o.indentation ++ l.text o := by
    rw [keyLines]
    split
    · rfl
    · simp [Line.text, Function.comp_def, String.append_assoc]
  rw [TableVariable.lines, List.map_append, ← hkey, TableVariable.columnLines, List.map_map]
  rfl

lemma toList_declare (t : TableVariable) : (o.declare t).toList =
    "DECLARE ".toList ++ (t.name.text.toList ++ (" TABLE (\n".toList ++ o.body t.lines)) := by
  rw [declare, definitions_eq_lines]
  simp only [String.toList_append, toList_commaLines, List.map_map, List.append_assoc, body, Function.comp_def]

lemma body_legible : Legible (fun _ => True) (fun ls => ls ≠ [] ∧ ∀ l ∈ ls, l.Written) o.body (List.map id) :=
  ((Line.legible o).behind o.indentation.toList).enclosed_ne_nil (fun _ => stops_cons.mpr rfl)
    fun _ => ⟨stops_append (by decide), by simp⟩

end RenderOptions

end TransactScript
