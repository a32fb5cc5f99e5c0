import TransactScript.Proofs.Statement.Declaration

/-! A declaration can be told from its text, and its key is written once. -/

namespace TransactScript

open Text

def keyCount (cs : List Char) : Nat :=
  occurrences "PRIMARY KEY".toList cs

/-- A text that no key goes on with. -/
def OffKey (r : List Char) : Prop :=
  Stops (fun c => decide (c ∈ "PRIMARY KEY".toList)) r

section Parts

variable {cs ds : List Char}

lemma keyCount_skip (h : 'P' ∉ cs) : keyCount (cs ++ ds) = keyCount ds := by
  rw [keyCount, occurrences_append (by decide) (apart_of_head_not_mem rfl h), occurrences_eq_zero (by decide) h,
    Nat.zero_add]
  rfl

lemma keyCount_word (hc : ' ' ∉ cs) (h : Apart "PRIMARY KEY".toList cs ds) : keyCount (cs ++ ds) = keyCount ds := by
  rw [keyCount, occurrences_append (by decide) h, occurrences_eq_zero (by decide) hc, Nat.zero_add]
  rfl

lemma apart_blank (h : ∀ x, ds ≠ 'K' :: x) : Apart "PRIMARY KEY".toList cs (" ".toList ++ ds) := by
  rintro x y he - hy - hprefix
  have hsuffix : ∀ y ∈ "PRIMARY KEY".toList.tails, y.head? = some ' ' → y = " KEY".toList := by decide
  obtain ⟨d, y, rfl⟩ := List.exists_cons_of_ne_nil hy
  obtain ⟨rfl, hnext⟩ := List.cons_prefix_cons.mp hprefix
  obtain rfl := List.tail_eq_of_cons_eq (hsuffix _ ((List.mem_tails _ _).mpr ⟨x, he.symm⟩) rfl)
  obtain ⟨rest, rfl⟩ := hnext
  exact h _ rfl

end Parts

lemma Identifier.not_mem_text {n : Identifier} {c : Char} (hc : isNameChar c = false) : c ∉ n.text.toList := by
  intro hm
  rw [n.valid.2 c hm] at hc
  cases hc

namespace RenderOptions

variable (o : RenderOptions)

lemma blank_not_mem_quote (n : Identifier) : ' ' ∉ (o.quote n.text).toList := by
  have hn : ' ' ∉ n.text.toList := Identifier.not_mem_text rfl
  rw [toList_quote]
  split
  · simp [hn]
  · exact hn

lemma keyCount_indentation (r : List Char) : keyCount (o.indentation.toList ++ r) = keyCount r := by
  refine keyCount_skip ?_
  simp [indentation]

lemma keyCount_quotedNames (ns : List Identifier) (r : List Char) :
    keyCount ((commaSeparated (ns.map fun n => o.quote n.text)).toList ++ (")".toList ++ r)) = keyCount r := by
  have hitem : ∀ (n : Identifier) r, OffKey r →
      occurrences "PRIMARY KEY".toList ((o.quote n.text).toList ++ r) =
        occurrences "PRIMARY KEY".toList r + if (fun _ => false) n then 1 else 0 :=
    fun n r hr => keyCount_word (o.blank_not_mem_quote n) (apart_of_stops hr)
  rw [toList_commaSeparated, List.map_map]
  refine (occurrences_intercalate hitem ?_ (stops_append (by decide)) ns).trans ?_
  · exact fun r => ⟨stops_append (by decide), keyCount_skip (by decide)⟩
  · simp only [List.countP_false, Function.const_apply, Nat.add_zero]
    exact keyCount_skip (by decide)

lemma keyCount_columnDefinition (c : TableColumn) {r : List Char} (hr : OffKey r) :
    keyCount ((o.columnDefinition true c).toList ++ r) = keyCount r + if c.isPrimaryKey then 1 else 0 := by
  have htype : 'P' ∉ c.type.text.toList := fun hm => c.type.text_chars _ hm (by decide)
  have hsuffix : ∀ a k, occurrences "PRIMARY KEY".toList (Line.suffix a k) = if k then 1 else 0 := by decide
  rw [Line.toList_columnDefinition]
  simp only [List.append_assoc]
  rw [keyCount_word (o.blank_not_mem_quote c.name) (apart_blank fun x h => ColumnType.text_not_key h),
    keyCount_skip (by decide), keyCount_skip htype, keyCount, occurrences_append (by decide) (apart_of_stops hr),
    hsuffix, Nat.add_comm]
  rfl

lemma keyCount_text (l : Line) {r : List Char} (hr : OffKey r) :
    keyCount ((l.text o).toList ++ r) = keyCount r + if l.hasKey then 1 else 0 := by
  cases l with
  | column c => exact o.keyCount_columnDefinition c hr
  | key names =>
    have hkey {x : List Char} : keyCount ("PRIMARY KEY (".toList ++ x) = keyCount x + 1 := by
      have hopen : "PRIMARY KEY (".toList ++ x = "PRIMARY KEY".toList ++ (" ".toList ++ ("(".toList ++ x)) := rfl
      have hone : occurrences "PRIMARY KEY".toList "PRIMARY KEY".toList = 1 := by decide
      rw [hopen, keyCount, occurrences_append (by decide) (apart_blank (by simp)), hone, Nat.add_comm]
      exact congrArg (· + 1) ((keyCount_skip (by decide)).trans (keyCount_skip (by decide)))
    simp only [Line.text, String.toList_append, List.append_assoc]
    rw [hkey, o.keyCount_quotedNames]
    rfl

lemma keyCount_body (ls : List Line) (r : List Char) :
    keyCount (o.body ls ++ r) = keyCount r + ls.countP Line.hasKey := by
  have hitem : ∀ (l : Line) r, OffKey r →
      occurrences "PRIMARY KEY".toList (o.indentation.toList ++ (l.text o).toList ++ r) =
        occurrences "PRIMARY KEY".toList r + if l.hasKey then 1 else 0 := by
    intro l r hr
    rw [List.append_assoc]
    exact (o.keyCount_indentation _).trans (o.keyCount_text l hr)
  rw [body, List.append_assoc]
  refine (occurrences_intercalate hitem ?_ (stops_append (by decide)) ls).trans ?_
  · exact fun r => ⟨stops_append (by decide), keyCount_skip (by decide)⟩
  · exact congrArg (· + _) (keyCount_skip (by decide))

lemma keyCount_declaration (t : TableVariable) :
    keyCount (o.declare t ++ o.terminator).toList = if t.primaryKey = [] then 0 else 1 := by
  have hname : ' ' ∉ t.name.text.toList := by
    simp [VariableName.text, Identifier.not_mem_text (show isNameChar ' ' = false from rfl)]
  have hend : keyCount o.terminator.toList = 0 := by
    rw [terminator]
    split <;> decide
  have hopen {x : List Char} : " TABLE (\n".toList ++ x = " ".toList ++ ("TABLE (\n".toList ++ x) := rfl
  rw [String.toList_append, toList_declare]
  simp only [List.append_assoc]
  rw [keyCount_skip (by decide), hopen, keyCount_word hname (apart_blank (by simp)), keyCount_skip (by decide),
    keyCount_skip (by decide), keyCount_body, hend, Nat.zero_add, TableVariable.countP_lines]

lemma declaration_outcome {t : TableVariable} (hc : t.columns ≠ []) :
    (o.renderer.tableVariable t).outcome = .ok (o.declare t ++ o.terminator) := by
  simp [renderer, declaration, hc]

lemma commaLines_append {ls ms : List String} (hl : ls ≠ []) (hm : ms ≠ []) :
    commaLines (ls ++ ms) = commaLines ls ++ ",\n" ++ commaLines ms :=
  String.intercalate_append_of_ne_nil hl hm

lemma commaLines_split {parts : List String} {part : String} (h : part ∈ parts) :
    ∃ before after, "\n" ++ commaLines parts = before ++ "\n" ++ part ++ after := by
  obtain ⟨ls, ms, rfl⟩ := List.append_of_mem h
  obtain ⟨after, hafter⟩ : ∃ after, commaLines (part :: ms) = part ++ after := by
    cases ms with
    | nil => exact ⟨"", by simp [commaLines]⟩
    | cons m ms => exact ⟨_, String.intercalate_cons_cons.trans (String.append_assoc ..)⟩
  by_cases hl : ls = []
  · exact ⟨"", after, by rw [hl, List.nil_append, hafter, String.append_assoc, String.empty_append]⟩
  · have hcomma : ",\n" = "," ++ "\n" := rfl
    refine ⟨"\n" ++ commaLines ls ++ ",", after, ?_⟩
    rw [commaLines_append hl (List.cons_ne_nil _ _), hafter, hcomma]
    simp only [String.append_assoc]

lemma declare_inj {t u : TableVariable} (ht : t.columns ≠ []) (hu : u.columns ≠ []) (h : o.declare t = o.declare u) :
    t.name = u.name ∧ t.lines = u.lines := by
  have hlist := congrArg String.toList h
  rw [toList_declare, toList_declare] at hlist
  have hstop {x : List Char} : Stops isNameChar (" TABLE (\n".toList ++ x) := stops_append (by decide)
  obtain ⟨hname, hlist⟩ := VariableName.legible trivial trivial hstop hstop (List.append_cancel_left hlist)
  obtain ⟨hlines, _⟩ := o.body_legible (TableVariable.written_lines ht) (TableVariable.written_lines hu) trivial trivial
    (congrArg (· ++ []) (List.append_cancel_left hlist))
  exact ⟨hname, by simpa using hlines⟩

lemma declare_inlineKey {t : TableVariable} {c : TableColumn} (h : t.primaryKey = [c]) : ∃ before after,
    o.declare t = before ++ "\n" ++ o.indentation ++ o.columnDefinition false c ++ " PRIMARY KEY" ++ after := by
  have hmem : c ∈ t.primaryKey := h ▸ List.mem_singleton_self c
  obtain ⟨hc, hk⟩ := List.mem_filter.mp hmem
  have hdefinition : o.columnDefinition (t.primaryKey.length == 1) c = o.columnDefinition false c ++ " PRIMARY KEY" := by
    simp [columnDefinition, h, hk]
  have hopen : " TABLE (\n" = " TABLE (" ++ "\n" := rfl
  have hline : o.indentation ++ o.columnDefinition (t.primaryKey.length == 1) c ∈
      (t.columns.map fun c => o.indentation ++ o.columnDefinition (t.primaryKey.length == 1) c) ++
        o.keyLines t.primaryKey := List.mem_append_left _ (List.mem_map_of_mem hc)
  obtain ⟨before, after, hlines⟩ := commaLines_split hline
  refine ⟨"DECLARE " ++ t.name.text ++ " TABLE (" ++ before, after ++ "\n)", ?_⟩
  calc o.declare t
      = "DECLARE " ++ t.name.text ++ " TABLE (" ++ ("\n" ++ commaLines
          ((t.columns.map fun c => o.indentation ++ o.columnDefinition (t.primaryKey.length == 1) c) ++
            o.keyLines t.primaryKey)) ++ "\n)" := by simp only [declare, hopen, String.append_assoc]
    _ = _ := by
      rw [hlines, hdefinition]
      simp only [String.append_assoc]

lemma declare_keyLine {t : TableVariable} (hc : t.columns ≠ []) (h : 2 ≤ t.primaryKey.length) : ∃ before,
    o.declare t = before ++ ",\n" ++ o.indentation ++ "PRIMARY KEY (" ++
      commaSeparated (t.primaryKey.map fun c => o.quote c.name.text) ++ ")\n)" := by
  have hkey : o.keyLines t.primaryKey = [o.indentation ++ "PRIMARY KEY (" ++
      commaSeparated (t.primaryKey.map fun c => o.quote c.name.text) ++ ")"] := by
    rw [keyLines, if_neg (by omega)]
  have hclose : ")\n)" = ")" ++ "\n)" := rfl
  have hcolumns : (t.columns.map fun c => o.indentation ++ o.columnDefinition (t.primaryKey.length == 1) c) ≠ [] := by
    simpa using hc
  rw [declare, hkey, commaLines_append hcolumns (List.cons_ne_nil _ _), hclose]
  refine ⟨"DECLARE " ++ t.name.text ++ " TABLE (\n" ++ commaLines
    (t.columns.map fun c => o.indentation ++ o.columnDefinition (t.primaryKey.length == 1) c), ?_⟩
  simp only [commaLines, String.intercalate_singleton, String.append_assoc]

end RenderOptions

theorem table_of_declaration (o : RenderOptions) (t : TableVariable) (hc : t.columns ≠ [])
    (hn : (t.columns.map (·.name)).Nodup) :
    ∃ text, (o.renderer.tableVariable t).outcome = .ok text ∧
      (∀ u : TableVariable, u.columns ≠ [] → (u.columns.map (·.name)).Nodup →
        (o.renderer.tableVariable u).outcome = .ok text → u.name = t.name ∧ u.columns = t.columns) ∧
      occurrences "PRIMARY KEY".toList text.toList = (if t.primaryKey = [] then 0 else 1) ∧
      (∀ c, t.primaryKey = [c] → ∃ before after,
        text = before ++ "\n" ++ o.indentation ++ o.columnDefinition false c ++ " PRIMARY KEY" ++ after) ∧
      (2 ≤ t.primaryKey.length → ∃ before,
        text = before ++ ",\n" ++ o.indentation ++ "PRIMARY KEY (" ++
          commaSeparated (t.primaryKey.map fun c => o.quote c.name.text) ++ ")\n)" ++ o.terminator) := by
  refine ⟨_, o.declaration_outcome hc, ?_, o.keyCount_declaration t, ?_, ?_⟩
  · intro u hu hun h
    rw [o.declaration_outcome hu] at h
    have hdeclare : o.declare u = o.declare t := by
      have hlist := congrArg String.toList (Except.ok.inj h)
      rw [String.toList_append, String.toList_append] at hlist
      exact String.toList_injective (List.append_cancel_right hlist)
    obtain ⟨hname, hlines⟩ := o.declare_inj hu hc hdeclare
    exact ⟨hname, by rw [← TableVariable.columns_lines hun, hlines, TableVariable.columns_lines hn]⟩
  · intro c hkey
    obtain ⟨before, after, h⟩ := o.declare_inlineKey hkey
    exact ⟨before, after ++ o.terminator, by rw [h, String.append_assoc]⟩
  · intro hkey
    obtain ⟨before, h⟩ := o.declare_keyLine hc hkey
    exact ⟨before, by rw [h]⟩

/-- Without quotes its lines look like parts of a key clause. -/
def keyedByKey : TableVariable where
  name := ⟨⟨"PRIMARY", by decide⟩⟩
  columns := [⟨⟨"PRIMARY", by decide⟩, .plain .int, false, true⟩, ⟨⟨"KEY", by decide⟩, .decimal 9 4, false, true⟩,
    ⟨⟨"NULL", by decide⟩, .string .varchar none, true, false⟩]
  schema := none

theorem table_of_keyedByKey : keyedByKey.columns ≠ [] ∧ (keyedByKey.columns.map (·.name)).Nodup ∧
    ∃ text, (({ quoteIdentifiers := false, indent := 1 } : RenderOptions).renderer.tableVariable keyedByKey).outcome =
        .ok text ∧ occurrences "PRIMARY KEY".toList text.toList = 1 := by
  have hc : keyedByKey.columns ≠ [] := by decide
  have hn : (keyedByKey.columns.map (·.name)).Nodup := by decide
  obtain ⟨text, ht, _, hcount, _⟩ := table_of_declaration { quoteIdentifiers := false, indent := 1 } keyedByKey hc hn
  exact ⟨hc, hn, text, ht, hcount⟩

end TransactScript
