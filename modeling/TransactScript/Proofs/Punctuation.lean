import TransactScript.Proofs.Injection
import TransactScript.Proofs.Session.Rendering
import TransactScript.Proofs.Text.Items

/-! A script whose rows are data is the same text with brackets and semicolons and without them, but for these
characters outside of literals. -/

namespace TransactScript

open Text

namespace Text

lemma isPunctuation_of_isAtomChar {c : Char} (h : isAtomChar c = true) : isPunctuation c = false := by
  rw [Bool.eq_false_iff]
  intro hc
  simp only [isPunctuation, Bool.or_eq_true, beq_iff_eq] at hc
  rcases hc with (rfl | rfl) | rfl <;> cases h

lemma Sheds.atomic {s : String} (h : Atomic s.toList) : Sheds s s := by
  refine .plain fun c hc => isPlain_iff.mpr ⟨?_, isPunctuation_of_isAtomChar (h c hc)⟩
  rintro rfl
  cases h _ hc

end Text

lemma ColumnType.text_sheds (t : ColumnType) : Sheds t.text t.text := by
  cases t with
  | plain kind => cases kind <;> exact .plain (by decide)
  | decimal precision scale =>
    have hkeyword : Sheds (upperCase "decimal") (upperCase "decimal") := .plain (by decide)
    exact hkeyword.append (((((Sheds.plain (by decide)).append (.atomic (.numeral _))).append
      (.plain (by decide))).append (.atomic (.numeral _))).append (.plain (by decide)))
  | string kind length =>
    have hkeyword : Sheds (upperCase kind.keyword) (upperCase kind.keyword) := by
      cases kind <;> exact .plain (by decide)
    refine hkeyword.append ?_
    cases length with
    | none => cases kind <;> exact .plain (by decide)
    | some n => exact ((Sheds.plain (by decide)).append (.atomic (.numeral _))).append (.plain (by decide))

namespace RenderOptions

def punctuated (o : RenderOptions) : RenderOptions :=
  { o with quoteIdentifiers := true, terminateStatements := true }

def bare (o : RenderOptions) : RenderOptions :=
  { o with quoteIdentifiers := false, terminateStatements := false }

variable (o : RenderOptions)

lemma indentation_sheds : Sheds o.indentation o.indentation := by
  refine .plain fun c hc => ?_
  rw [indentation, String.toList_ofList] at hc
  rw [List.eq_of_mem_replicate hc]
  rfl

lemma quote_sheds (n : Identifier) : Sheds (o.punctuated.quote n.text) (o.bare.quote n.text) := by
  have hname : n.text.toList.filter (fun c => !isPunctuation c) = n.text.toList :=
    List.filter_eq_self.mpr fun c hc => by simp [isPunctuation_of_isAtomChar (n.atomic c hc)]
  have hbracket : ']' ∉ n.text.toList := by
    intro hm
    cases n.atomic _ hm
  have htext : (o.punctuated.quote n.text).toList = '[' :: (n.text.toList ++ [']']) := by
    simp [quote, punctuated, bracketed, double_of_not_mem hbracket]
  refine .unquoted ?_ ?_
  · rw [htext]
    intro hm
    have hquote : '\'' ∈ n.text.toList := by simpa using hm
    cases n.atomic _ hquote
  · rw [htext, List.filter_cons_of_neg (by decide), List.filter_append, hname]
    exact (List.append_nil _).symm

lemma names_shed {α : Type} (as : List α) (name : α → Identifier) :
    Sheds (commaSeparated (as.map fun a => o.punctuated.quote (name a).text))
      (commaSeparated (as.map fun a => o.bare.quote (name a).text)) :=
  .intercalate (.plain (by decide)) (Sheds.forall_map fun a _ => o.quote_sheds (name a))

lemma columnDefinition_sheds (inlineKey : Bool) (c : TableColumn) :
    Sheds (o.punctuated.columnDefinition inlineKey c) (o.bare.columnDefinition inlineKey c) :=
  ((((o.quote_sheds c.name).append (.plain (by decide))).append c.type.text_sheds).append
    (.ite (.plain (by decide)) (.plain (by decide)))).append (.ite (.plain (by decide)) .empty)

lemma keyLines_shed (key : List TableColumn) :
    List.Forall₂ Sheds (o.punctuated.keyLines key) (o.bare.keyLines key) := by
  rw [keyLines, keyLines]
  split
  · exact .nil
  · exact .cons (((o.indentation_sheds.append (.plain (by decide))).append (o.names_shed key _)).append
      (.plain (by decide))) .nil

lemma declare_sheds (t : TableVariable) : Sheds (o.punctuated.declare t) (o.bare.declare t) := by
  have hcolumn (c : TableColumn) (_ : c ∈ t.columns) :=
    o.indentation_sheds.append (o.columnDefinition_sheds (t.primaryKey.length == 1) c)
  have hlines := List.rel_append (Sheds.forall_map hcolumn) (o.keyLines_shed t.primaryKey)
  exact ((((Sheds.plain (by decide)).append (.atomic t.name.atomic)).append (.plain (by decide))).append
    (.intercalate (.plain (by decide)) hlines)).append (.plain (by decide))

lemma insertHead_sheds (d : Destination) (cs : List Column) :
    Sheds (o.punctuated.insertHead d cs) (o.bare.insertHead d cs) := by
  have hdestination : Sheds (o.punctuated.destination d) (o.bare.destination d) := by
    cases d with
    | table name => exact o.quote_sheds name
    | tableVariable name => exact .atomic name.atomic
  have hnames : Sheds (o.punctuated.columnNames cs) (o.bare.columnNames cs) :=
    .ite .empty (((Sheds.plain (by decide)).append (o.names_shed cs _)).append (.plain (by decide)))
  exact ((Sheds.plain (by decide)).append hdestination).append hnames

lemma terminator_sheds : Sheds o.punctuated.terminator o.bare.terminator := by
  have hsemicolon : Sheds ";" "" := .unquoted (by decide) (by decide)
  exact hsemicolon

lemma row_sheds {r : List Literal} (h : ∀ l ∈ r, l.isRaw = false) : Sheds (row r) (row r) := by
  have hvalue : ∀ l ∈ r, Keeps (fun c => !isPunctuation c) false l.sql.toList := by
    intro l hl
    exact (Literal.sql_keeps (h l hl)).mono fun hc => by rw [isPunctuation_of_isAtomChar hc, Bool.not_false]
  refine .closed (c := ')') ?_ rfl rfl
  rw [String.toList_append, commaSeparated, String.toList_intercalate]
  exact (Keeps.of_plain (by decide)).append
    (.intercalate (.of_plain (by decide)) (List.forall_mem_map.mpr (List.forall_mem_map.mpr hvalue)))

end RenderOptions

lemma Statement.text_sheds (o : RenderOptions) {st : Statement} (h : st.isData = true) :
    Sheds (st.text o.punctuated) (st.text o.bare) := by
  refine .append ?_ o.terminator_sheds
  cases st with
  | declare t => exact o.declare_sheds t
  | insertRow d cs row =>
    simp only [isData, List.all_eq_true, Bool.not_eq_true'] at h
    exact ((o.insertHead_sheds d cs).append (.plain (by decide))).append (RenderOptions.row_sheds h)
  | insertRows d cs rows =>
    simp only [isData, List.all_eq_true, Bool.not_eq_true'] at h
    have hrows := Sheds.forall_map fun r hr => o.indentation_sheds.append (RenderOptions.row_sheds (h r hr))
    exact ((o.insertHead_sheds d cs).append (.plain (by decide))).append (.intercalate (.plain (by decide)) hrows)
  | insertQuery d cs query => cases h

namespace Section

lemma statements_congr {o o' : RenderOptions} (h : o.batchSize = o'.batchSize) (sec : Section) :
    sec.statements o = sec.statements o' := by
  have hsource : ∀ d cs source, Source.statements o d cs source = Source.statements o' d cs source := by
    intro d cs source
    cases source with
    | values row => rfl
    | rows all => rw [Source.statements, Source.statements, h]
    | query text => rfl
  cases sec with
  | tableVariable t => rfl
  | insertData i => exact List.flatMap_congr fun source _ => hsource i.destination i.columns source

end Section

namespace Script

variable {s : Script} (layout : RenderOptions)

lemma textWith_eq {o : RenderOptions} (h : o.batchSize = layout.batchSize) : s.textWith o =
    String.join ((s.sections.flatMap (Section.statements layout)).map fun st => st.text o ++ "\n") := by
  rw [textWith, List.flatMap_congr fun sec _ => Section.statements_congr h sec]

lemma textWith_sheds (hdata : ∀ sec ∈ s.sections, sec.isData = true) :
    Sheds (s.textWith layout.punctuated) (s.textWith layout.bare) := by
  rw [textWith_eq layout (o := layout.punctuated) rfl, textWith_eq layout (o := layout.bare) rfl]
  refine .join (Sheds.forall_map fun st hst => ?_)
  obtain ⟨sec, hsec, hst⟩ := List.mem_flatMap.mp hst
  exact (st.text_sheds layout (Section.isData_statements (hdata sec hsec) st hst)).append (.plain (by decide))

end Script

theorem punctuation_of_run (o : RenderOptions) (as : List Action) (layout : RenderOptions)
    (hdata : ∀ sec ∈ ((Session.start o).run as).script.sections, sec.isData = true) :
    let s := ((Session.start o).run as).script
    let sts := s.sections.flatMap (Section.statements layout)
    s.render = s.renderWith o.renderer ∧ ∃ text bareText,
      (s.renderWith layout.punctuated.renderer).outcome = .ok text ∧
      (s.renderWith layout.bare.renderer).outcome = .ok bareText ∧
      withoutPunctuation text.toList = bareText.toList ∧
      literals text.toList = literals bareText.toList ∧
      text = String.join (sts.map fun st => st.text layout.punctuated ++ "\n") ∧
      bareText = String.join (sts.map fun st => st.text layout.bare ++ "\n") ∧
      ∀ st ∈ sts, withoutPunctuation (st.text layout.punctuated).toList = (st.text layout.bare).toList ∧
        literals (st.text layout.punctuated).toList = literals (st.text layout.bare).toList := by
  intro s sts
  have hs : s.Consistent := (Session.run_sound o as).script
  have htext : Sheds (s.textWith layout.punctuated) (s.textWith layout.bare) := Script.textWith_sheds layout hdata
  refine ⟨by rw [Script.render, Session.options_run], _, _, hs.renderWith_outcome layout.punctuated,
    hs.renderWith_outcome layout.bare, htext.withoutPunctuation_eq, htext.literals_eq,
    Script.textWith_eq layout rfl, Script.textWith_eq layout rfl, ?_⟩
  intro st hst
  obtain ⟨sec, hsec, hst⟩ := List.mem_flatMap.mp hst
  have hstatement := st.text_sheds layout (Section.isData_statements (hdata sec hsec) st hst)
  exact ⟨hstatement.withoutPunctuation_eq, hstatement.literals_eq⟩

/-- Its values hold the characters that are left out elsewhere, and quotes around them. -/
def bracketedInsert : List Action :=
  [.opening (.declare "t"), .table (.column "v" (.string .nvarchar none) true false), .beginInsert,
    .insert (.column "v" (.string .nvarchar none)),
    .insert (.define (.rows [[.text "];["], [.text "';'"]])), .finalize]

theorem punctuation_of_bracketedInsert :
    let s := ((Session.start {}).run bracketedInsert).script
    let layout : RenderOptions := { maxRowsPerInsert := 1 }
    ∃ text bareText, (s.renderWith layout.punctuated.renderer).outcome = .ok text ∧
      (s.renderWith layout.bare.renderer).outcome = .ok bareText ∧
      withoutPunctuation text.toList = bareText.toList ∧
      literals text.toList = ["'];['".toList, "''';'''".toList] ∧
      bareText = "DECLARE @t TABLE (\n    v NVARCHAR(MAX) NULL\n)\n" ++
        "INSERT INTO @t (v)\nVALUES\n    (N'];[')\nINSERT INTO @t (v)\nVALUES\n    (N''';''')\n" := by
  intro s layout
  obtain ⟨_, text, bareText, htext, hbareText, hwithout, hliterals, _, hbare, _⟩ :=
    punctuation_of_run {} bracketedInsert layout (by decide)
  have hwritten : bareText = "DECLARE @t TABLE (\n    v NVARCHAR(MAX) NULL\n)\n" ++
      "INSERT INTO @t (v)\nVALUES\n    (N'];[')\nINSERT INTO @t (v)\nVALUES\n    (N''';''')\n" := by
    rw [hbare]
    decide +kernel
  refine ⟨text, bareText, htext, hbareText, hwithout, ?_, hwritten⟩
  rw [hliterals, hwritten]
  decide +kernel

end TransactScript
