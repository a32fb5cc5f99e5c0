import TransactScript.Proofs.Injection
import TransactScript.Proofs.Statement.Declaration

/-! The text of an insert can be read again: where the rows go, the columns, and the rows with the texts of their
values. -/

namespace TransactScript

open Text

section NonEmpty

lemma Text.numeral_ne_nil (n : Nat) : (numeral n).toList ≠ [] := by
  rw [numeral, String.toList_ofList]
  exact Nat.toDigits_ne_nil

lemma Text.signedNumeral_ne_nil (i : Int) : (signedNumeral i).toList ≠ [] := by
  cases i with
  | ofNat n => exact numeral_ne_nil n
  | negSucc n => simp [signedNumeral]

lemma Number.Decimal.positional_ne_nil (d : Decimal) : d.positional.toList ≠ [] := by
  rw [positional]
  cases d.exponent with
  | ofNat k => simp [Nat.toDigits_ne_nil]
  | negSucc k => simp

lemma Number.Binary.positional_ne_nil {f : Format} {x : Binary} {s : String} (h : x.positional? f = some s) :
    s.toList ≠ [] := by
  cases x with
  | finite negative m e =>
    cases h
    cases negative with
    | true => simp [withSign]
    | false =>
      rw [withSign, if_neg Bool.false_ne_true]
      split
      · decide
      · exact Decimal.positional_ne_nil _
  | _ => cases h

end NonEmpty

namespace Literal

lemma sql_ne_nil {l : Literal} (h : l.isRaw = false) : l.sql.toList ≠ [] := by
  cases l with
  | null => decide
  | bool b => cases b <;> decide
  | int i => exact signedNumeral_ne_nil i
  | float x =>
    cases hx : x.positional? .double with
    | none =>
      rw [sql, hx]
      decide
    | some s =>
      rw [sql, hx]
      exact Number.Binary.positional_ne_nil hx
  | raw e => cases h
  | _ => simp [sql, nationalLiteral, quoted, octetText]

/-- Outside of quotes a value ends where none of these goes on. -/
def isValueChar (c : Char) : Bool :=
  isAtomChar c || c == '\''

lemma legible : Legible (Stops isValueChar) (fun l : Literal => l.isRaw = false) (fun l => l.sql.toList) sql := by
  intro l m r s hl hm hr hs h
  obtain ⟨htext, hrs⟩ := (sql_keeps hl).append_inj (sql_keeps hm) hr hs h
  exact ⟨String.toList_injective htext, hrs⟩

lemma sql_ne_close {l : Literal} (h : l.isRaw = false) {r s : List Char} : l.sql.toList ++ r ≠ ")".toList ++ s := by
  intro he
  obtain ⟨c, cs, hc⟩ := List.exists_cons_of_ne_nil (sql_ne_nil h)
  rw [hc] at he
  obtain rfl : c = ')' := List.head_eq_of_cons_eq he
  have hkeeps := sql_keeps h
  rw [hc] at hkeeps
  cases hkeeps.outside (c := ')') (by simp [marks])

end Literal

namespace RenderOptions

variable (o : RenderOptions)

lemma toList_row (r : List Literal) : (row r).toList =
    "(".toList ++ ([',', ' '].intercalate (r.map fun l => l.sql.toList) ++ ")".toList) := by
  simp only [row, String.toList_append, toList_commaSeparated, List.map_map, List.append_assoc, Function.comp_def]

lemma row_legible : Legible (fun _ => True) (fun r : List Literal => ∀ l ∈ r, l.isRaw = false)
    (fun r => (row r).toList) (List.map Literal.sql) := by
  simp only [toList_row]
  exact (Literal.legible.enclosed (fun _ => stops_cons.mpr rfl) (fun _ => ⟨stops_append (by decide), by simp⟩)
    fun hl => Literal.sql_ne_close hl).behind "(".toList

lemma rows_legible : Legible (fun r => ¬ ",\n".toList <+: r)
    (fun rows : List (List Literal) => rows ≠ [] ∧ ∀ r ∈ rows, ∀ l ∈ r, l.isRaw = false)
    (fun rows => (commaLines (rows.map fun r => o.indentation ++ row r)).toList)
    (List.map (List.map Literal.sql)) := by
  intro rows rows' r s h h' hr hs he
  simp only [toList_commaLines, List.map_map, Function.comp_def, String.toList_append] at he
  exact (row_legible.behind o.indentation.toList).separated_ne_nil (fun _ => trivial) (fun hr => ⟨trivial, hr⟩)
    h h' hr hs he

lemma quote_ne_variable {n : Identifier} {v : VariableName} {r s : List Char}
    (h : (o.quote n.text).toList ++ r = v.text.toList ++ s) : False := by
  have hv : v.text.toList = '@' :: v.bare.text.toList := by simp [VariableName.text]
  rw [toList_quote, hv] at h
  split at h
  · cases h
  · obtain ⟨c, cs, hc⟩ := List.exists_cons_of_ne_nil n.valid.1
    rw [hc] at h
    obtain rfl := List.head_eq_of_cons_eq h
    cases n.valid.2 '@' (hc ▸ List.mem_cons_self)

lemma destination_legible : Legible (Stops isNameChar) (fun _ => True) (fun d => (o.destination d).toList) id := by
  intro d e r s _ _ hr hs h
  cases d with
  | table n =>
    cases e with
    | table m =>
      obtain ⟨hname, hrs⟩ := o.quote_legible trivial trivial hr hs h
      exact ⟨congrArg Destination.table hname, hrs⟩
    | tableVariable w => exact (o.quote_ne_variable h).elim
  | tableVariable v =>
    cases e with
    | table m => exact (o.quote_ne_variable h.symm).elim
    | tableVariable w =>
      obtain ⟨hname, hrs⟩ := VariableName.legible trivial trivial hr hs h
      exact ⟨congrArg Destination.tableVariable hname, hrs⟩

lemma toList_columnNames (cs : List Column) : (o.columnNames cs).toList =
    if cs = [] then [] else " (".toList ++ ((commaSeparated ((cs.map (·.name)).map fun n => o.quote n.text)).toList ++
      ")".toList) := by
  cases cs with
  | nil => rfl
  | cons c cs => simp [columnNames, Function.comp_def]

lemma columnNames_inj {cs ds : List Column} {r s : List Char}
    (h : (o.columnNames cs).toList ++ ("\n".toList ++ r) = (o.columnNames ds).toList ++ ("\n".toList ++ s)) :
    cs.map (·.name) = ds.map (·.name) ∧ r = s := by
  rw [toList_columnNames, toList_columnNames] at h
  by_cases hc : cs = []
  · by_cases hd : ds = []
    · rw [if_pos hc, if_pos hd] at h
      exact ⟨by rw [hc, hd], List.append_cancel_left (List.append_cancel_left h)⟩
    · rw [if_pos hc, if_neg hd] at h
      cases h
  · by_cases hd : ds = []
    · rw [if_neg hc, if_pos hd] at h
      cases h
    · rw [if_neg hc, if_neg hd] at h
      simp only [List.append_assoc] at h
      obtain ⟨hnames, hrs⟩ := o.quotedNames_inj (by simpa using hc) (by simpa using hd) (List.append_cancel_left h)
      exact ⟨hnames, List.append_cancel_left hrs⟩

lemma insertHead_inj {d e : Destination} {cs ds : List Column} {r s : List Char}
    (h : (o.insertHead d cs).toList ++ ("\n".toList ++ r) = (o.insertHead e ds).toList ++ ("\n".toList ++ s)) :
    d = e ∧ cs.map (·.name) = ds.map (·.name) ∧ r = s := by
  have hstop {cs : List Column} {x : List Char} :
      Stops isNameChar ((o.columnNames cs).toList ++ ("\n".toList ++ x)) := by
    rw [toList_columnNames]
    split
    · rw [List.nil_append]
      exact stops_append (by decide)
    · rw [List.append_assoc]
      exact stops_append (by decide)
  simp only [insertHead, String.toList_append, List.append_assoc] at h
  obtain ⟨hd, h⟩ := o.destination_legible trivial trivial hstop hstop (List.append_cancel_left h)
  exact ⟨hd, o.columnNames_inj h⟩

/-- A batch of rows may be followed by the next statement, but by no further row. -/
lemma terminator_ends {r : List Char} (hr : Stops (fun c => c != '\n') r) :
    ¬ ",\n".toList <+: o.terminator.toList ++ r := by
  rw [terminator]
  split
  · simp
  · cases r with
    | nil => simp
    | cons c r =>
      obtain rfl : c = '\n' := by simpa using stops_cons.mp hr
      simp

end RenderOptions

namespace Statement

def destination? : Statement → Option Destination
  | declare _ => none
  | insertRow d _ _ | insertRows d _ _ | insertQuery d _ _ => some d

def columnNames : Statement → List ColumnName
  | declare t => t.columns.map (·.name)
  | insertRow _ cs _ | insertRows _ cs _ | insertQuery _ cs _ => cs.map (·.name)

def rowTexts : Statement → List (List String)
  | insertRow _ _ row => [row.map Literal.sql]
  | insertRows _ _ rows => rows.map (List.map Literal.sql)
  | _ => []

def InsertsData : Statement → Prop
  | insertRow _ _ row => ∀ l ∈ row, l.isRaw = false
  | insertRows _ _ rows => rows ≠ [] ∧ ∀ row ∈ rows, ∀ l ∈ row, l.isRaw = false
  | _ => False

/-- What is written behind the head, from the next line on. -/
def valuesText (o : RenderOptions) : Statement → String
  | insertRow _ _ row => "VALUES " ++ RenderOptions.row row
  | insertRows _ _ rows => "VALUES\n" ++ commaLines (rows.map fun row => o.indentation ++ RenderOptions.row row)
  | _ => ""

lemma valuesText_legible (o : RenderOptions) : Legible (fun r => ¬ ",\n".toList <+: r) InsertsData
    (fun st => (st.valuesText o).toList) rowTexts := by
  intro st st' r s hst hst' hr hs h
  cases st with
  | declare t | insertQuery d cs query => exact hst.elim
  | insertRow d cs row =>
    cases st' with
    | declare t | insertQuery d' cs' query => exact hst'.elim
    | insertRow d' cs' row' =>
      simp only [valuesText, String.toList_append, List.append_assoc] at h
      obtain ⟨hrow, hrs⟩ := RenderOptions.row_legible hst hst' trivial trivial (List.append_cancel_left h)
      exact ⟨congrArg (fun row => [row]) hrow, hrs⟩
    | insertRows d' cs' rows' => simp [valuesText] at h
  | insertRows d cs rows =>
    cases st' with
    | declare t | insertQuery d' cs' query => exact hst'.elim
    | insertRow d' cs' row' => simp [valuesText] at h
    | insertRows d' cs' rows' =>
      simp only [valuesText, String.toList_append, List.append_assoc] at h
      exact o.rows_legible hst hst' hr hs (List.append_cancel_left h)

lemma toList_text {o : RenderOptions} {st : Statement} (h : st.InsertsData) : ∃ d cs, st.destination? = some d ∧
    st.columnNames = cs.map Column.name ∧ (st.text o).toList =
      (o.insertHead d cs).toList ++ ("\n".toList ++ ((st.valuesText o).toList ++ o.terminator.toList)) := by
  cases st with
  | declare t | insertQuery d cs query => exact h.elim
  | insertRow d cs row =>
    have hline : "\nVALUES " = "\n" ++ "VALUES " := rfl
    refine ⟨d, cs, rfl, rfl, ?_⟩
    simp only [text, body, RenderOptions.insertRow, valuesText, hline, String.toList_append, List.append_assoc]
  | insertRows d cs rows =>
    have hline : "\nVALUES\n" = "\n" ++ "VALUES\n" := rfl
    refine ⟨d, cs, rfl, rfl, ?_⟩
    simp only [text, body, RenderOptions.insertRows, valuesText, hline, String.toList_append, List.append_assoc]

lemma legible (o : RenderOptions) : Legible (Stops fun c => c != '\n') InsertsData (fun st => (st.text o).toList)
    fun st => (st.destination?, st.columnNames, st.rowTexts) := by
  intro st st' r s hst hst' hr hs h
  obtain ⟨d, cs, hd, hcs, ht⟩ := toList_text (o := o) hst
  obtain ⟨d', cs', hd', hcs', ht'⟩ := toList_text (o := o) hst'
  simp only [ht, ht', List.append_assoc] at h
  obtain ⟨rfl, hnames, h⟩ := o.insertHead_inj h
  obtain ⟨hrows, hrs⟩ := valuesText_legible o hst hst' (o.terminator_ends hr) (o.terminator_ends hs) h
  exact ⟨by simp only [hd, hd', hcs, hcs', hnames, hrows], List.append_cancel_left hrs⟩

end Statement

def Source.rowTexts : Source → List (List String)
  | values row => [row.map Literal.sql]
  | rows all => all.map (List.map Literal.sql)
  | query _ => []

/-- The rows of all sources in order, each value as it is written. -/
def InsertData.rowTexts (i : InsertData) : List (List String) :=
  i.sources.flatMap Source.rowTexts

lemma ne_nil_of_mem_blocks {α : Type} {n : Nat} {as block : List α} (h : block ∈ blocks n as) : block ≠ [] := by
  induction as using blocks.induct n with
  | case1 => simp [blocks] at h
  | case2 a as ih =>
    rw [blocks] at h
    rcases List.mem_cons.mp h with rfl | h
    · exact List.cons_ne_nil _ _
    · exact ih h

namespace Source

variable {o : RenderOptions} {d : Destination} {cs : List Column} {source : Source}

lemma insertsData_statements (h : source.isData = true) {st : Statement} (hst : st ∈ source.statements o d cs) :
    st.InsertsData ∧ st.destination? = some d ∧ st.columnNames = cs.map (·.name) := by
  cases source with
  | values row =>
    rw [List.mem_singleton.mp hst]
    simp only [isData, List.all_eq_true, Bool.not_eq_true'] at h
    exact ⟨h, rfl, rfl⟩
  | rows all =>
    obtain ⟨block, hb, rfl⟩ := List.mem_map.mp hst
    simp only [isData, List.all_eq_true, Bool.not_eq_true'] at h
    exact ⟨⟨ne_nil_of_mem_blocks hb, fun row hr => h row (mem_of_mem_blocks hb hr)⟩, rfl, rfl⟩
  | query text => cases h

lemma rowTexts_statements (h : source.isData = true) :
    (source.statements o d cs).flatMap Statement.rowTexts = source.rowTexts := by
  cases source with
  | values row => rfl
  | rows all =>
    rw [statements, List.flatMap_map, rowTexts]
    conv_rhs => rw [← flatten_blocks (o.batchSize - 1) all]
    rw [List.map_flatten, List.flatMap_def]
    rfl
  | query text => cases h

end Source

namespace InsertData

variable {i : InsertData}

lemma insertsData_statements (h : ∀ source ∈ i.sources, source.isData = true) {o : RenderOptions} {st : Statement}
    (hst : st ∈ (Section.insertData i).statements o) :
    st.InsertsData ∧ st.destination? = some i.destination ∧ st.columnNames = i.columns.map (·.name) := by
  obtain ⟨source, hs, hst⟩ := List.mem_flatMap.mp hst
  exact Source.insertsData_statements (h source hs) hst

lemma rowTexts_statements (h : ∀ source ∈ i.sources, source.isData = true) (o : RenderOptions) :
    ((Section.insertData i).statements o).flatMap Statement.rowTexts = i.rowTexts := by
  rw [Section.statements, List.flatMap_assoc, rowTexts]
  exact List.flatMap_congr fun source hs => Source.rowTexts_statements (h source hs)

end InsertData

lemma statements_legible (o : RenderOptions) :
    Legible (· = []) (fun sts => sts ≠ [] ∧ ∀ st ∈ sts, st.InsertsData)
      (fun sts => ("\n".intercalate (sts.map (Statement.text o))).toList)
      (List.map fun st => (st.destination?, st.columnNames, st.rowTexts)) := by
  intro sts sts' r s hsts hsts' hr hs h
  have hend : ∀ {r : List Char}, r = [] → Stops (fun c => c != '\n') r ∧ ¬ "\n".toList <+: r := by
    rintro _ rfl
    exact ⟨stops_nil, by simp⟩
  simp only [String.toList_intercalate, List.map_map] at h
  exact (Statement.legible o).separated_ne_nil (fun _ => stops_cons.mpr rfl) hend hsts hsts' hr hs h

theorem data_of_insertion (o : RenderOptions) {i j : InsertData} {text : String}
    (hi : ∀ source ∈ i.sources, source.isData = true) (hj : ∀ source ∈ j.sources, source.isData = true)
    (hti : (o.renderer.insertData i).outcome = .ok text) (htj : (o.renderer.insertData j).outcome = .ok text)
    (hne : text ≠ "") :
    i.destination = j.destination ∧ i.columns.map (·.name) = j.columns.map (·.name) ∧ i.rowTexts = j.rowTexts := by
  have htext {i : InsertData} (ht : (o.renderer.insertData i).outcome = .ok text) :
      text = "\n".intercalate (((Section.insertData i).statements o).map (Statement.text o)) := by
    have hfragment : (o.renderer.fragment (.insertData i)).outcome = _ :=
      Section.fragment_outcome o fun t h => by cases h
    exact Except.ok.inj (ht.symm.trans hfragment)
  have hstatements {i : InsertData} (ht : (o.renderer.insertData i).outcome = .ok text) :
      (Section.insertData i).statements o ≠ [] := by
    intro hnil
    exact hne ((htext ht).trans (by rw [hnil]; rfl))
  have hdata {i : InsertData} (h : ∀ source ∈ i.sources, source.isData = true) :
      ∀ st ∈ (Section.insertData i).statements o, st.InsertsData :=
    fun st hst => (InsertData.insertsData_statements h hst).1
  obtain ⟨hread, _⟩ := statements_legible o ⟨hstatements hti, hdata hi⟩ ⟨hstatements htj, hdata hj⟩ rfl rfl
    (congrArg (fun t => t.toList ++ []) ((htext hti).symm.trans (htext htj)))
  have hrows := congrArg (List.flatMap fun m => m.2.2) hread
  rw [List.flatMap_map, List.flatMap_map] at hrows
  obtain ⟨st, sts, hst⟩ := List.exists_cons_of_ne_nil (hstatements hti)
  obtain ⟨st', sts', hst'⟩ := List.exists_cons_of_ne_nil (hstatements htj)
  obtain ⟨_, hd, hcs⟩ := InsertData.insertsData_statements hi (hst ▸ List.mem_cons_self)
  obtain ⟨_, hd', hcs'⟩ := InsertData.insertsData_statements hj (hst' ▸ List.mem_cons_self)
  rw [hst, hst'] at hread
  have hfirst := List.head_eq_of_cons_eq hread
  simp only [hd, hd', hcs, hcs', Prod.mk.injEq, Option.some.injEq] at hfirst
  refine ⟨hfirst.1, hfirst.2.1, ?_⟩
  rw [← InsertData.rowTexts_statements hi o, ← InsertData.rowTexts_statements hj o]
  exact hrows

/-- The text could end its row, and the number is written like the truth value. -/
def forgedRow (value : Literal) : InsertData where
  destination := .tableVariable ⟨⟨"Users", by decide⟩⟩
  columns := [⟨⟨"Login", by decide⟩, .string .nvarchar none⟩, ⟨⟨"Active", by decide⟩, .plain .bit⟩]
  sources := [.values [.text "x', 1)\nVALUES (N'y", value]]

theorem data_of_forgedRow :
    let o : RenderOptions := { quoteIdentifiers := false, terminateStatements := false }
    ∃ text, (o.renderer.insertData (forgedRow (.bool true))).outcome = .ok text ∧
      (o.renderer.insertData (forgedRow (.int 1))).outcome = .ok text ∧ text ≠ "" ∧
      (forgedRow (.bool true)).rowTexts = (forgedRow (.int 1)).rowTexts := by
  intro o
  have hdata : ∀ source ∈ (forgedRow (.bool true)).sources, source.isData = true := by decide
  have hdata' : ∀ source ∈ (forgedRow (.int 1)).sources, source.isData = true := by decide
  obtain ⟨text, ht, ht', hne⟩ : ∃ text, (o.renderer.insertData (forgedRow (.bool true))).outcome = .ok text ∧
      (o.renderer.insertData (forgedRow (.int 1))).outcome = .ok text ∧ text ≠ "" :=
    ⟨_, rfl, by decide, by decide⟩
  exact ⟨text, ht, ht', hne, (data_of_insertion o hdata hdata' ht ht' hne).2.2⟩

end TransactScript
