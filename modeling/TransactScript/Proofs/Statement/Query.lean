import TransactScript.Proofs.Statement
import TransactScript.Proofs.Text.Trim

/-! Queries as sources of an insert. The text of a query stands in its statement as it was given, without the blanks
around it and without the terminator behind it. A query of which nothing is left has no statement. -/

namespace TransactScript

open Text RenderOptions

def endsStatement (c : Char) : Bool :=
  c == ';'

/-- The terminators behind a text, with or without blanks between them. -/
def terminators (cs : List Char) : Nat :=
  (cs.rtakeWhile fun c => isBlank c || endsStatement c).countP endsStatement

/-- The query is its body with blanks around it and one terminator behind it, which is missing only if the query ends
in none. -/
def Embeds (query body : List Char) : Prop :=
  ∃ lead gap mark trail, query = lead ++ body ++ gap ++ mark ++ trail ∧ Blanks lead ∧ Blanks gap ∧ Blanks trail ∧
    (mark = [';'] ∨ mark = [] ∧ (trim query).getLast? ≠ some ';')

section Bodies

variable {body lead gap trail : List Char} {query : String}

lemma trimmed_append_mark (h : Trimmed body) (hne : body ≠ []) : Trimmed (body ++ gap ++ [';']) where
  first c hc := by
    rw [List.append_assoc, List.head?_append_of_ne_nil _ hne] at hc
    exact h.first c hc
  last c hc := by
    obtain rfl : ';' = c := by simpa using hc
    rfl

lemma trim_marked (hl : Blanks lead) (hg : Blanks gap) (ht : Blanks trail) (h : Trimmed body) :
    ∃ stem, trim (lead ++ body ++ gap ++ [';'] ++ trail) = stem ++ [';'] ∧ trimEnd stem = body := by
  by_cases hne : body = []
  · have hmark : Trimmed [';'] := by decide
    subst hne
    refine ⟨[], ?_, rfl⟩
    rw [List.append_nil, trim_append (hl.append hg) ht, hmark.trim_eq, List.nil_append]
  · have hassoc : lead ++ body ++ gap ++ [';'] = lead ++ (body ++ gap ++ [';']) := by
      simp only [List.append_assoc]
    refine ⟨body ++ gap, ?_, ?_⟩
    · rw [hassoc, trim_append hl ht, (trimmed_append_mark h hne).trim_eq]
    · rw [trimEnd_append hg, h.trimEnd_eq]

lemma trim_unmarked (hl : Blanks lead) (hg : Blanks gap) (ht : Blanks trail) (h : Trimmed body) :
    trim (lead ++ body ++ gap ++ [] ++ trail) = body := by
  rw [List.append_nil, List.append_assoc, trim_append hl (hg.append ht), h.trim_eq]

lemma embeds_queryBody (query : String) : Embeds query.toList (queryBody query) := by
  obtain ⟨lead, trail, hlead, htrail, heq⟩ := exists_trim query.toList
  by_cases hmark : (trim query.toList).getLast? = some ';'
  · obtain ⟨stem, hstem⟩ := List.getLast?_eq_some_iff.mp hmark
    obtain ⟨gap, hgap, hbody⟩ := exists_trimEnd stem
    have hquery : queryBody query = trimEnd stem := by
      rw [queryBody, dropLastIf, if_pos hmark, hstem, List.dropLast_concat]
    refine ⟨lead, gap, [';'], trail, ?_, hlead, hgap, htrail, .inl rfl⟩
    rw [hquery, List.append_assoc lead, ← hbody, List.append_assoc lead, ← hstem]
    exact heq
  · have hquery : queryBody query = trim query.toList := by
      rw [queryBody, dropLastIf, if_neg hmark, (trimmed_trim _).trimEnd_eq]
    refine ⟨lead, [], [], trail, ?_, hlead, blanks_nil, htrail, .inr ⟨rfl, hmark⟩⟩
    rw [hquery, List.append_nil, List.append_nil]
    exact heq

lemma trimmed_queryBody (query : String) : Trimmed (queryBody query) :=
  trimmed_trimEnd_dropLastIf ';' query.toList

/-- No other trimmed text is the body of the query. -/
lemma queryBody_of_embeds (h : Embeds query.toList body) (hbody : Trimmed body) : queryBody query = body := by
  obtain ⟨lead, gap, mark, trail, heq, hl, hg, ht, rfl | ⟨rfl, hmark⟩⟩ := h
  · obtain ⟨stem, hstem, hstrip⟩ := trim_marked hl hg ht hbody
    rw [queryBody, heq, hstem, dropLastIf, List.getLast?_concat, if_pos rfl, List.dropLast_concat, hstrip]
  · rw [queryBody, dropLastIf, if_neg hmark, heq, trim_unmarked hl hg ht hbody, hbody.trimEnd_eq]

lemma queryBody_eq_nil_iff : queryBody query = [] ↔ trim query.toList = [] ∨ trim query.toList = [';'] :=
  trimEnd_dropLastIf_trim

end Bodies

section Terminators

variable {cs ds body : List Char} {query : String}

lemma terminators_append (h : ∀ c ∈ ds, (isBlank c || endsStatement c) = true) (cs : List Char) :
    terminators (cs ++ ds) = terminators cs + ds.countP endsStatement := by
  have hreverse : ∀ c ∈ ds.reverse, (isBlank c || endsStatement c) = true := fun c hc => h c (List.mem_reverse.mp hc)
  rw [terminators, List.rtakeWhile, List.reverse_append, List.takeWhile_append_of_pos hreverse, List.reverse_append,
    List.reverse_reverse, List.countP_append]
  rfl

lemma terminators_eq_zero {c : Char} (h : cs.getLast? = some c) (hb : isBlank c = false) (hc : c ≠ ';') :
    terminators cs = 0 := by
  obtain ⟨init, rfl⟩ := List.getLast?_eq_some_iff.mp h
  have hstop : ¬ (isBlank c || endsStatement c) = true := by
    simp [endsStatement, hb, hc]
  rw [terminators, List.rtakeWhile_concat, if_neg hstop, List.countP_nil]

lemma terminators_pos (h : cs.getLast? = some ';') : 0 < terminators cs := by
  obtain ⟨init, rfl⟩ := List.getLast?_eq_some_iff.mp h
  have hmark : ∀ c ∈ [';'], (isBlank c || endsStatement c) = true := List.forall_mem_singleton.mpr rfl
  have hone : [';'].countP endsStatement = 1 := by decide
  rw [terminators_append hmark, hone]
  exact Nat.succ_pos _

lemma countP_blanks (h : Blanks cs) : cs.countP endsStatement = 0 := by
  rw [List.countP_eq_zero]
  intro c hc he
  obtain rfl : c = ';' := by simpa [endsStatement] using he
  cases h _ hc

lemma getLast?_queryBody (h : terminators query.toList ≤ 1) : (queryBody query).getLast? ≠ some ';' := by
  intro hlast
  obtain ⟨lead, gap, mark, trail, heq, hl, hg, ht, hmark⟩ := embeds_queryBody query
  rcases hmark with rfl | ⟨rfl, hmark⟩
  · have hpadding : ∀ c ∈ gap ++ [';'] ++ trail, (isBlank c || endsStatement c) = true := by
      simp only [List.mem_append, List.mem_singleton]
      rintro c ((hc | rfl) | hc)
      · rw [hg c hc, Bool.true_or]
      · rfl
      · rw [ht c hc, Bool.true_or]
    have hcount : (gap ++ [';'] ++ trail).countP endsStatement = 1 := by
      rw [List.countP_append, List.countP_append, countP_blanks hg, countP_blanks ht]
      rfl
    have hbody : 0 < terminators (lead ++ queryBody query) := by
      apply terminators_pos
      rw [List.getLast?_append, hlast]
      rfl
    have hassoc : query.toList = lead ++ queryBody query ++ (gap ++ [';'] ++ trail) := by
      rw [heq]
      simp only [List.append_assoc]
    rw [hassoc, terminators_append hpadding, hcount] at h
    omega
  · rw [heq, trim_unmarked hl hg ht (trimmed_queryBody query)] at hmark
    exact hmark hlast

end Terminators

section Statements

variable {o : RenderOptions} {d : Destination} {columns : List Column} {head : String} {query query' : String}

lemma queryBody_terminated {gap trail : String} (h : (trim query.toList).getLast? ≠ some ';') (hg : Blanks gap.toList)
    (ht : Blanks trail.toList) : queryBody (query ++ gap ++ ";" ++ trail) = queryBody query := by
  obtain ⟨lead, gap', mark, trail', heq, hl, hg', ht', hmark⟩ := embeds_queryBody query
  refine queryBody_of_embeds ?_ (trimmed_queryBody query)
  rcases hmark with rfl | ⟨rfl, -⟩
  · obtain ⟨stem, hstem, -⟩ := trim_marked hl hg' ht' (trimmed_queryBody query)
    rw [heq, hstem, List.getLast?_concat] at h
    exact (h rfl).elim
  · refine ⟨lead, gap' ++ trail' ++ gap.toList, [';'], trail.toList, ?_, hl, (hg'.append ht').append hg, ht, .inl rfl⟩
    rw [String.toList_append, String.toList_append, String.toList_append, heq]
    simp

lemma queryBody_self {body : List Char} (h : Trimmed body) (hlast : body.getLast? ≠ some ';') :
    queryBody (String.ofList body) = body := by
  refine queryBody_of_embeds ⟨[], [], [], [], ?_, blanks_nil, blanks_nil, blanks_nil, .inr ⟨rfl, ?_⟩⟩ h
  · simp
  · rw [String.toList_ofList, h.trim_eq]
    exact hlast

lemma statements_query (o : RenderOptions) (head query : String) : (o.statements head (.query query)).outcome =
    .ok (if queryBody query = [] then [] else [insertQuery head (queryBody query) ++ o.terminator]) := by
  simp only [RenderOptions.statements, List.isEmpty_iff]
  split <;> rfl

lemma terminators_written (head : String) {body : List Char} (h : Trimmed body) (hne : body ≠ [])
    (hlast : body.getLast? ≠ some ';') : terminators (insertQuery head body ++ o.terminator).toList =
      if o.terminateStatements then 1 else 0 := by
  have hpadding : ∀ c ∈ o.terminator.toList, (isBlank c || endsStatement c) = true := by
    rw [terminator]
    split <;> simp [endsStatement]
  have hzero : terminators (insertQuery head body).toList = 0 := by
    have hc : body.getLast? = some (body.getLast hne) := List.getLast?_eq_getLast_of_ne_nil hne
    refine terminators_eq_zero (c := body.getLast hne) ?_ (h.last _ hc) fun he => hlast (he ▸ hc)
    rw [insertQuery, String.toList_append, String.toList_ofList, List.getLast?_append, hc]
    rfl
  rw [String.toList_append, terminators_append hpadding, hzero, terminator]
  split <;> decide

end Statements

theorem statement_of_query (o : RenderOptions) (d : Destination) (columns : List Column) (query : String) :
    let statements (query : String) := (o.statements (o.insertHead d columns) (.query query)).outcome
    let written (body : List Char) := o.insertHead d columns ++ "\n" ++ String.ofList body ++ o.terminator
    (statements query = .ok [] ↔ trim query.toList = [] ∨ trim query.toList = [';']) ∧
      (statements query ≠ .ok [] → ∃ body, statements query = .ok [written body] ∧ body ≠ [] ∧ Trimmed body ∧
        Embeds query.toList body ∧
        (terminators query.toList ≤ 1 →
          terminators (written body).toList = (if o.terminateStatements then 1 else 0) ∧
            statements (String.ofList body) = .ok [written body])) ∧
      ((trim query.toList).getLast? ≠ some ';' → ∀ gap trail, Blanks gap.toList → Blanks trail.toList →
        statements (query ++ gap ++ ";" ++ trail) = statements query ∧
          ∀ first last, (o.insertion ⟨d, columns, first ++ .query (query ++ gap ++ ";" ++ trail) :: last⟩).outcome =
            (o.insertion ⟨d, columns, first ++ .query query :: last⟩).outcome) := by
  intro statements written
  have hstatements (query : String) : statements query =
      .ok (if queryBody query = [] then [] else [written (queryBody query)]) :=
    statements_query o (o.insertHead d columns) query
  refine ⟨?_, ?_, ?_⟩
  · rw [hstatements, ← queryBody_eq_nil_iff]
    split <;> simp [*]
  · intro hne
    have hbody : queryBody query ≠ [] := by
      intro hnil
      rw [hstatements, if_pos hnil] at hne
      exact hne rfl
    refine ⟨queryBody query, ?_, hbody, trimmed_queryBody query, embeds_queryBody query, fun hone => ?_⟩
    · rw [hstatements, if_neg hbody]
    · have hlast := getLast?_queryBody hone
      refine ⟨terminators_written _ (trimmed_queryBody query) hbody hlast, ?_⟩
      rw [hstatements, queryBody_self (trimmed_queryBody query) hlast, if_neg hbody]
  · intro hlast gap trail hg ht
    have hsame (head : String) : o.statements head (.query (query ++ gap ++ ";" ++ trail)) =
        o.statements head (.query query) := by
      simp only [RenderOptions.statements, queryBody_terminated hlast hg ht]
    refine ⟨congrArg Logged.outcome (hsame _), fun first last => ?_⟩
    simp only [insertion, List.mapM_append, List.mapM_cons, hsame]

def staffQuery : String := "\n SELECT Id, N';' FROM Staff \t"

theorem statement_of_staffQuery :
    let o : RenderOptions := {}
    let d : Destination := .table ⟨"People", by decide⟩
    let statements (query : String) := (o.statements (o.insertHead d []) (.query query)).outcome
    let text := "INSERT INTO [People]\nSELECT Id, N';' FROM Staff;"
    statements staffQuery = .ok [text] ∧ terminators text.toList = 1 ∧
      (∃ body, Trimmed body ∧ statements (String.ofList body) = .ok [text]) ∧
      statements (staffQuery ++ " " ++ ";" ++ "\n") = .ok [text] := by
  intro o d statements text
  obtain ⟨-, hsome, happend⟩ := statement_of_query o d [] staffQuery
  have hstaff : statements staffQuery = .ok [text] := by decide +kernel
  have hne : statements staffQuery ≠ .ok [] := by
    rw [hstaff]
    simp
  obtain ⟨body, hbody, -, htrimmed, -, hself⟩ := hsome hne
  obtain ⟨hcount, hagain⟩ := hself (by decide +kernel)
  have htext : text = o.insertHead d [] ++ "\n" ++ String.ofList body ++ o.terminator :=
    List.singleton_injective (Except.ok.inj (hstaff.symm.trans hbody))
  refine ⟨hstaff, ?_, ⟨body, htrimmed, hagain.trans (hbody.symm.trans hstaff)⟩, ?_⟩
  · rw [htext]
    exact hcount
  · have hspace : Blanks " ".toList := by simp [Blanks, isBlank]
    have hline : Blanks "\n".toList := by simp [Blanks, isBlank]
    exact (happend (by decide +kernel) " " "\n" hspace hline).1.trans hstaff

end TransactScript
