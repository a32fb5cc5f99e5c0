import TransactScript.Proofs.Statement
import TransactScript.Proofs.Text.Atom

/-! Whatever the texts among its values hold, a statement whose rows are data leaves no literal open and
holds no semicolon outside of literals. -/

namespace TransactScript

open Text

lemma Text.double_of_not_mem {q : Char} {cs : List Char} (h : q ∉ cs) : double q cs = cs := by
  induction cs with
  | nil => rfl
  | cons c cs ih =>
    have hc : c ≠ q := fun he => h (he ▸ List.mem_cons_self)
    have hcs : q ∉ cs := fun hm => h (List.mem_cons_of_mem _ hm)
    rw [double, if_neg hc, ih hcs]

namespace Literal

def isRaw : Literal → Bool
  | raw _ => true
  | _ => false

lemma quoted_keeps {s : String} (h : Atomic s.toList) : Keeps isAtomChar false (quoted s).toList := by
  have hq : (quoted s).toList = '\'' :: (s.toList ++ ['\'']) := by simp [quoted]
  rw [hq]
  exact h.keeps.quoted

/-- The delimiters of rows stand in a value only where its text is quoted. -/
lemma sql_keeps {l : Literal} (h : l.isRaw = false) : Keeps isAtomChar false l.sql.toList := by
  cases l with
  | null => exact Atomic.keeps (by decide)
  | bool b => cases b <;> exact Atomic.keeps (by decide)
  | int i => exact (Atomic.signedNumeral i).keeps
  | float x =>
    cases hx : x.positional? .double with
    | none =>
      rw [sql, hx]
      exact Atomic.keeps (by decide)
    | some s =>
      rw [sql, hx]
      exact (Number.Binary.atomic hx).keeps
  | text s =>
    have hs : (sql (text s)).toList = 'N' :: '\'' :: (double '\'' s.toList ++ ['\'']) := by
      simp [sql, nationalLiteral]
    rw [hs]
    exact (Keeps.double _).quoted.cons (by decide) fun _ => rfl
  | uuid u => exact quoted_keeps u.atomic
  | bytes octets =>
    have hd : ∀ n < 16, isAtomChar (upperHexDigit n) = true := by decide
    simp only [sql, octetText, String.toList_append, String.toList_ofList]
    exact (Atomic.append (by decide) (Atomic.octets hd octets)).keeps
  | dateTime t => exact quoted_keeps t.atomic
  | dateTimeOffset t => exact quoted_keeps t.atomic
  | time t => exact quoted_keeps t.atomic
  | raw e => cases h

lemma sql_neutral {l : Literal} (h : l.isRaw = false) : Neutral false l.sql.toList :=
  (sql_keeps h).neutral

end Literal

lemma ColumnType.text_neutral (t : ColumnType) : Neutral false t.text.toList := by
  rw [text, String.toList_append]
  cases t with
  | plain kind => cases kind <;> decide
  | decimal precision scale =>
    have hk : Neutral false (upperCase "decimal").toList := by decide
    refine hk.append ?_
    simp only [parameters, String.toList_append]
    exact (((Neutral.append (by decide) (Atomic.numeral _).neutral).append (by decide)).append
      (Atomic.numeral _).neutral).append (by decide)
  | string kind length =>
    have hk : Neutral false (upperCase kind.keyword).toList := by
      cases kind <;> decide
    refine hk.append ?_
    cases length with
    | none => cases kind <;> decide
    | some n =>
      simp only [parameters, String.toList_append]
      exact (Neutral.append (by decide) (Atomic.numeral _).neutral).append (by decide)

section Lists

variable {parts : List String} (h : ∀ part ∈ parts, Neutral false part.toList)
include h

lemma intercalate_neutral {separator : String} (hs : Neutral false separator.toList) :
    Neutral false (separator.intercalate parts).toList := by
  rw [String.toList_intercalate]
  exact Neutral.intercalate hs (List.forall_mem_map.mpr h)

lemma commaSeparated_neutral : Neutral false (commaSeparated parts).toList :=
  intercalate_neutral h (by decide)

lemma commaLines_neutral : Neutral false (commaLines parts).toList :=
  intercalate_neutral h (by decide)

end Lists

namespace RenderOptions

variable (o : RenderOptions)

lemma indentation_neutral : Neutral false o.indentation.toList := by
  rw [indentation, String.toList_ofList]
  refine Neutral.plain fun c hc => ?_
  rw [List.eq_of_mem_replicate hc]
  decide

lemma quote_neutral (n : Identifier) : Neutral false (o.quote n.text).toList := by
  rw [quote]
  split
  · have hb : ']' ∉ n.text.toList := by
      intro hm
      cases n.atomic _ hm
    simp only [bracketed, double_of_not_mem hb, String.toList_append, String.toList_ofList]
    exact (Neutral.append (by decide) n.atomic.neutral).append (by decide)
  · exact n.atomic.neutral

lemma columnDefinition_neutral (inlineKey : Bool) (c : TableColumn) :
    Neutral false (o.columnDefinition inlineKey c).toList := by
  have hn : Neutral false (if c.allowNull then " NULL" else " NOT NULL" : String).toList := by
    split <;> decide
  have hk : Neutral false (if inlineKey && c.isPrimaryKey then " PRIMARY KEY" else "" : String).toList := by
    split <;> decide
  simp only [columnDefinition, String.toList_append]
  exact ((((o.quote_neutral c.name).append (by decide)).append c.type.text_neutral).append hn).append hk

lemma keyLines_neutral (key : List TableColumn) : ∀ line ∈ o.keyLines key, Neutral false line.toList := by
  intro line hl
  rw [keyLines] at hl
  split at hl
  · cases hl
  · rw [List.mem_singleton.mp hl]
    have hk : Neutral false (commaSeparated (key.map fun c => o.quote c.name.text)).toList :=
      commaSeparated_neutral (List.forall_mem_map.mpr fun c _ => o.quote_neutral c.name)
    simp only [String.toList_append]
    exact ((o.indentation_neutral.append (by decide)).append hk).append (by decide)

lemma declare_neutral (t : TableVariable) : Neutral false (o.declare t).toList := by
  have hd : ∀ line ∈ (t.columns.map fun c => o.indentation ++ o.columnDefinition (t.primaryKey.length == 1) c) ++
      o.keyLines t.primaryKey, Neutral false line.toList := by
    intro line hl
    rcases List.mem_append.mp hl with hl | hl
    · obtain ⟨c, _, rfl⟩ := List.mem_map.mp hl
      rw [String.toList_append]
      exact o.indentation_neutral.append (o.columnDefinition_neutral _ c)
    · exact o.keyLines_neutral _ line hl
  simp only [declare, String.toList_append]
  exact ((((Neutral.append (by decide) t.name.atomic.neutral).append (by decide)).append
    (commaLines_neutral hd)).append (by decide))

lemma insertHead_neutral (d : Destination) (cs : List Column) : Neutral false (o.insertHead d cs).toList := by
  have hd : Neutral false (o.destination d).toList := by
    cases d with
    | table name => exact o.quote_neutral name
    | tableVariable name => exact name.atomic.neutral
  have hc : Neutral false (o.columnNames cs).toList := by
    rw [columnNames]
    split
    · exact Neutral.nil
    · have hn : Neutral false (commaSeparated (cs.map fun c => o.quote c.name.text)).toList :=
        commaSeparated_neutral (List.forall_mem_map.mpr fun c _ => o.quote_neutral c.name)
      simp only [String.toList_append]
      exact (Neutral.append (by decide) hn).append (by decide)
  simp only [insertHead, String.toList_append]
  exact (Neutral.append (by decide) hd).append hc

lemma row_neutral {r : List Literal} (h : ∀ l ∈ r, l.isRaw = false) : Neutral false (row r).toList := by
  have hr : Neutral false (commaSeparated (r.map Literal.sql)).toList :=
    commaSeparated_neutral (List.forall_mem_map.mpr fun l hl => Literal.sql_neutral (h l hl))
  simp only [row, String.toList_append]
  exact (Neutral.append (by decide) hr).append (by decide)

end RenderOptions

/-- The statement is made of names, types and values, and of no text that somebody else wrote. -/
def Statement.isData : Statement → Bool
  | declare _ => true
  | insertRow _ _ row => row.all fun l => !l.isRaw
  | insertRows _ _ rows => rows.all fun row => row.all fun l => !l.isRaw
  | insertQuery _ _ _ => false

lemma Statement.body_neutral (o : RenderOptions) {s : Statement} (h : s.isData = true) :
    Neutral false (s.body o).toList := by
  cases s with
  | declare t => exact o.declare_neutral t
  | insertRow d cs row =>
    simp only [isData, List.all_eq_true, Bool.not_eq_true'] at h
    simp only [body, RenderOptions.insertRow, String.toList_append]
    exact ((o.insertHead_neutral d cs).append (by decide)).append (RenderOptions.row_neutral h)
  | insertRows d cs rows =>
    simp only [isData, List.all_eq_true, Bool.not_eq_true'] at h
    have hr : Neutral false (commaLines (rows.map fun r => o.indentation ++ RenderOptions.row r)).toList := by
      refine commaLines_neutral (List.forall_mem_map.mpr fun r hr => ?_)
      rw [String.toList_append]
      exact o.indentation_neutral.append (RenderOptions.row_neutral (h r hr))
    simp only [body, RenderOptions.insertRows, String.toList_append]
    exact ((o.insertHead_neutral d cs).append (by decide)).append hr
  | insertQuery d cs query => cases h

end TransactScript
