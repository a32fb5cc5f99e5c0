import TransactScript.Proofs.Session.Naming
import TransactScript.Proofs.Statement.Neutral

/-! The texts among the values of a script cannot change which statements it consists of. -/

namespace TransactScript

open Text

namespace Source

def isData : Source → Bool
  | values row => row.all fun l => !l.isRaw
  | rows all => all.all fun row => row.all fun l => !l.isRaw
  | query _ => false

def count (o : RenderOptions) : Source → Nat
  | values _ => 1
  | rows all => all.length ⌈/⌉ max 1 o.maxRowsPerInsert.toNat
  | query text => if (RenderOptions.queryBody text).isEmpty then 0 else 1

lemma keywords_statements (o : RenderOptions) (d : Destination) (cs : List Column) (source : Source) :
    (source.statements o d cs).map Statement.keyword = List.replicate (source.count o) "INSERT INTO " := by
  cases source with
  | values row => rfl
  | rows all =>
    have hlen : (blocks (o.batchSize - 1) all).length = all.length ⌈/⌉ max 1 o.maxRowsPerInsert.toNat := by
      rw [length_blocks, Nat.sub_add_cancel o.batchSize_pos]
      rfl
    rw [statements, List.map_map, count, ← hlen]
    exact List.map_const'
  | query text =>
    simp only [statements, count]
    split <;> rfl

lemma isData_statements {o : RenderOptions} {d : Destination} {cs : List Column} {source : Source}
    (h : source.isData = true) : ∀ st ∈ source.statements o d cs, st.isData = true := by
  intro st hst
  cases source with
  | values row =>
    rw [List.mem_singleton.mp hst]
    exact h
  | rows all =>
    obtain ⟨block, hb, rfl⟩ := List.mem_map.mp hst
    simp only [isData, List.all_eq_true] at h
    simp only [Statement.isData, List.all_eq_true]
    exact fun row hr => h row (mem_of_mem_blocks hb hr)
  | query text => cases h

end Source

namespace Section

def isData : Section → Bool
  | tableVariable _ => true
  | insertData i => i.sources.all Source.isData

def keywords (o : RenderOptions) : Section → List String
  | tableVariable _ => ["DECLARE "]
  | insertData i => i.sources.flatMap fun source => List.replicate (source.count o) "INSERT INTO "

lemma keywords_statements (o : RenderOptions) (sec : Section) :
    (sec.statements o).map Statement.keyword = sec.keywords o := by
  cases sec with
  | tableVariable t => rfl
  | insertData i => simp only [statements, keywords, List.map_flatMap, Source.keywords_statements]

lemma isData_statements {o : RenderOptions} {sec : Section} (h : sec.isData = true) :
    ∀ st ∈ sec.statements o, st.isData = true := by
  intro st hst
  cases sec with
  | tableVariable t =>
    rw [List.mem_singleton.mp hst]
    rfl
  | insertData i =>
    obtain ⟨source, hs, hst⟩ := List.mem_flatMap.mp hst
    exact Source.isData_statements (List.all_eq_true.mp h source hs) st hst

end Section

section WithoutText

/-- What is left when nothing is known of the characters of a text. -/
def Literal.withoutText : Literal → Literal
  | text _ => text ""
  | l => l

def Source.withoutText : Source → Source
  | values row => values (row.map Literal.withoutText)
  | rows all => rows (all.map fun row => row.map Literal.withoutText)
  | query text => query text

def Section.withoutText : Section → Section
  | tableVariable t => tableVariable t
  | insertData i => insertData { i with sources := i.sources.map Source.withoutText }

lemma Literal.isRaw_withoutText (l : Literal) : l.withoutText.isRaw = l.isRaw := by
  cases l <;> rfl

lemma Source.isData_withoutText (source : Source) : source.withoutText.isData = source.isData := by
  cases source with
  | values row => simp [withoutText, isData, Function.comp_def, Literal.isRaw_withoutText]
  | rows all => simp [withoutText, isData, Function.comp_def, Literal.isRaw_withoutText]
  | query text => rfl

lemma Source.count_withoutText (o : RenderOptions) (source : Source) :
    source.withoutText.count o = source.count o := by
  cases source with
  | values row => rfl
  | rows all => simp [withoutText, count]
  | query text => rfl

lemma Section.isData_withoutText (sec : Section) : sec.withoutText.isData = sec.isData := by
  cases sec with
  | tableVariable t => rfl
  | insertData i => simp [withoutText, isData, Function.comp_def, Source.isData_withoutText]

lemma Section.keywords_withoutText (o : RenderOptions) (sec : Section) :
    sec.withoutText.keywords o = sec.keywords o := by
  cases sec with
  | tableVariable t => rfl
  | insertData i => simp [withoutText, keywords, List.flatMap_map, Source.count_withoutText]

lemma Section.tableVariable_of_withoutText {sec : Section} {t : TableVariable}
    (h : sec.withoutText = .tableVariable t) : sec = .tableVariable t := by
  cases sec with
  | tableVariable t => exact h
  | insertData i => cases h

end WithoutText

namespace Script

variable {s s' : Script}

lemma keywords_statements (s : Script) :
    s.statements.map Statement.keyword = s.sections.flatMap (Section.keywords s.options) := by
  simp only [statements, List.map_flatMap, Section.keywords_statements]

lemma pieces_render (hcolumns : ∀ t, .tableVariable t ∈ s.sections → t.columns ≠ [])
    (hdata : ∀ sec ∈ s.sections, sec.isData = true) (hterm : s.options.terminateStatements = true) :
    ∃ text, s.render.outcome = .ok text ∧
      pieces text.toList = lines [] (s.statements.map fun st => (st.body s.options).toList) := by
  refine ⟨_, render_outcome hcolumns, ?_⟩
  have hneutral : ∀ body ∈ s.statements.map fun st => (st.body s.options).toList, Neutral false body := by
    intro body hb
    obtain ⟨st, hst, rfl⟩ := List.mem_map.mp hb
    obtain ⟨sec, hsec, hst⟩ := List.mem_flatMap.mp hst
    exact Statement.body_neutral s.options (Section.isData_statements (hdata sec hsec) st hst)
  have htext : (String.join (s.statements.map fun st => st.text s.options ++ "\n")).toList =
      (s.statements.map fun st => (st.body s.options).toList).flatMap fun body => body ++ [';', '\n'] := by
    simp [String.toList_join, List.flatMap_map, Statement.text, RenderOptions.terminator, hterm]
  rw [htext]
  exact pieces_statements Neutral.nil hneutral

section Alike

variable (h : s'.sections.map Section.withoutText = s.sections.map Section.withoutText)
include h

lemma mem_alike {sec : Section} (hs : sec ∈ s'.sections) :
    ∃ sec₀ ∈ s.sections, sec₀.withoutText = sec.withoutText := by
  have hm : sec.withoutText ∈ s.sections.map Section.withoutText := h ▸ List.mem_map_of_mem hs
  exact List.mem_map.mp hm

lemma columns_alike (hc : ∀ t, .tableVariable t ∈ s.sections → t.columns ≠ []) :
    ∀ t, .tableVariable t ∈ s'.sections → t.columns ≠ [] := by
  intro t ht
  obtain ⟨sec, hs, he⟩ := mem_alike h ht
  exact hc t (Section.tableVariable_of_withoutText he ▸ hs)

lemma isData_alike (hd : ∀ sec ∈ s.sections, sec.isData = true) : ∀ sec ∈ s'.sections, sec.isData = true := by
  intro sec hs
  obtain ⟨sec₀, hs₀, he⟩ := mem_alike h hs
  rw [← sec.isData_withoutText, ← he, sec₀.isData_withoutText]
  exact hd sec₀ hs₀

lemma keywords_alike (ho : s'.options = s.options) :
    s'.statements.map Statement.keyword = s.statements.map Statement.keyword := by
  have hk : ∀ sections : List Section, sections.flatMap (Section.keywords s.options) =
      (sections.map Section.withoutText).flatMap (Section.keywords s.options) := by
    intro sections
    simp only [List.flatMap_map, Section.keywords_withoutText]
  rw [keywords_statements, keywords_statements, ho, hk, hk s.sections, h]

end Alike

end Script

theorem pieces_of_run (o : RenderOptions) (as : List Action) (hterm : o.terminateStatements = true)
    (hdata : ∀ sec ∈ ((Session.start o).run as).script.sections, sec.isData = true) :
    let s := ((Session.start o).run as).script
    ∃ text, s.render.outcome = .ok text ∧
      pieces text.toList = lines [] (s.statements.map fun st => (st.body o).toList) ∧
      s.statements.map Statement.keyword = s.sections.flatMap (Section.keywords o) ∧
      (∀ st ∈ s.statements, st.keyword.toList <+: (st.body o).toList) ∧
      ∀ s' : Script, s'.options = o →
        s'.sections.map Section.withoutText = s.sections.map Section.withoutText →
        ∃ text', s'.render.outcome = .ok text' ∧
          (pieces text'.toList).length = (pieces text.toList).length ∧
          s'.statements.map Statement.keyword = s.statements.map Statement.keyword := by
  intro s
  have hopt : s.options = o := Session.options_run o as
  have hcolumns : ∀ t, .tableVariable t ∈ s.sections → t.columns ≠ [] :=
    fun t => (Session.run_sound o as).script.columns_ne_nil
  obtain ⟨text, htext, hpieces⟩ := Script.pieces_render hcolumns hdata (hopt ▸ hterm)
  refine ⟨text, htext, hopt ▸ hpieces, hopt ▸ s.keywords_statements, fun st _ => st.keyword_prefix o, ?_⟩
  intro s' ho h
  obtain ⟨text', htext', hpieces'⟩ := Script.pieces_render (Script.columns_alike h hcolumns)
    (Script.isData_alike h hdata) (ho ▸ hterm)
  have hkeywords := Script.keywords_alike h (ho.trans hopt.symm)
  refine ⟨text', htext', ?_, hkeywords⟩
  have hlength := congrArg List.length hkeywords
  simpa only [hpieces, hpieces', length_lines, List.length_map, Nat.add_right_cancel_iff] using hlength

def hostileInsert : List Action :=
  [.opening (.declare "t"), .table (.column "v" (.string .nvarchar none) true false), .beginInsert,
    .insert (.column "v" (.string .nvarchar none)), .insert (.define (.values [.text "'; DROP TABLE t; --\n"])),
    .insert (.define (.values [.text "'); INSERT INTO t VALUES ('"])), .finalize]

theorem pieces_of_hostileInsert : ∃ text,
    ((Session.start {}).run hostileInsert).script.render.outcome = .ok text ∧
      (pieces text.toList).map String.ofList =
        ["DECLARE @t TABLE (\n    [v] NVARCHAR(MAX) NULL\n)",
          "\nINSERT INTO @t ([v])\nVALUES (N'''; DROP TABLE t; --\n')",
          "\nINSERT INTO @t ([v])\nVALUES (N'''); INSERT INTO t VALUES (''')",
          "\n"] := by
  obtain ⟨text, htext, hpieces, _⟩ := pieces_of_run {} hostileInsert rfl (by decide)
  refine ⟨text, htext, ?_⟩
  rw [hpieces]
  rfl

end TransactScript
