import Mathlib.Algebra.Order.Floor.Div
import TransactScript.Proofs.Logged
import TransactScript.Script

/-! The statements of a script, and its text as what these statements are written as, one after the
other. -/

namespace TransactScript

section Blocks

variable {α : Type}

lemma flatten_blocks (n : Nat) (as : List α) : (blocks n as).flatten = as := by
  induction as using blocks.induct n with
  | case1 => simp [blocks]
  | case2 a as ih => rw [blocks, List.flatten_cons, ih, List.cons_append, List.take_append_drop]

lemma length_blocks (n : Nat) (as : List α) : (blocks n as).length = as.length ⌈/⌉ (n + 1) := by
  induction as using blocks.induct n with
  | case1 => simp [blocks]
  | case2 a as ih =>
    rw [blocks, List.length_cons, ih, List.length_drop, List.length_cons, Nat.ceilDiv_eq_add_pred_div,
      Nat.ceilDiv_eq_add_pred_div]
    rcases Nat.lt_or_ge as.length n with h | h
    · have hone : (as.length + 1 + (n + 1) - 1) / (n + 1) = 1 := Nat.div_eq_of_lt_le (by omega) (by omega)
      rw [Nat.sub_eq_zero_of_le h.le, Nat.div_eq_of_lt (by omega), hone]
    · have hsum : as.length + 1 + (n + 1) - 1 = as.length - n + (n + 1) - 1 + (n + 1) := by omega
      rw [hsum, Nat.add_div_right _ n.succ_pos]

lemma mem_of_mem_blocks {n : Nat} {as block : List α} {a : α} (hb : block ∈ blocks n as) (ha : a ∈ block) :
    a ∈ as := by
  rw [← flatten_blocks n as]
  exact List.mem_flatten.mpr ⟨block, hb, ha⟩

end Blocks

lemma RenderOptions.batchSize_pos (o : RenderOptions) : 0 < o.batchSize :=
  Nat.le_max_left 1 _

inductive Statement where
  | declare (table : TableVariable)
  | insertRow (destination : Destination) (columns : List Column) (row : List Literal)
  | insertRows (destination : Destination) (columns : List Column) (rows : List (List Literal))
  | insertQuery (destination : Destination) (columns : List Column) (body : List Char)

namespace Statement

def keyword : Statement → String
  | declare _ => "DECLARE "
  | _ => "INSERT INTO "

def body (o : RenderOptions) : Statement → String
  | declare t => o.declare t
  | insertRow d cs row => RenderOptions.insertRow (o.insertHead d cs) row
  | insertRows d cs rows => o.insertRows (o.insertHead d cs) rows
  | insertQuery d cs query => RenderOptions.insertQuery (o.insertHead d cs) query

def text (o : RenderOptions) (s : Statement) : String :=
  s.body o ++ o.terminator

lemma insertHead_prefix (o : RenderOptions) (d : Destination) (cs : List Column) (rest : String) :
    "INSERT INTO ".toList <+: (o.insertHead d cs ++ rest).toList := by
  simp only [RenderOptions.insertHead, String.toList_append, List.append_assoc]
  exact List.prefix_append _ _

lemma keyword_prefix (o : RenderOptions) (s : Statement) : s.keyword.toList <+: (s.body o).toList := by
  cases s with
  | declare t =>
    simp only [keyword, body, RenderOptions.declare, String.toList_append, List.append_assoc]
    exact List.prefix_append _ _
  | insertRow d cs row =>
    rw [body, RenderOptions.insertRow, String.append_assoc]
    exact insertHead_prefix o d cs _
  | insertRows d cs rows =>
    rw [body, RenderOptions.insertRows, String.append_assoc]
    exact insertHead_prefix o d cs _
  | insertQuery d cs query =>
    rw [body, RenderOptions.insertQuery, String.append_assoc]
    exact insertHead_prefix o d cs _

lemma text_ne_empty (o : RenderOptions) (s : Statement) : s.text o ≠ "" := by
  intro h
  have hk : s.keyword.toList <+: (s.text o).toList := by
    rw [text, String.toList_append]
    exact (s.keyword_prefix o).trans (List.prefix_append _ _)
  rw [h, String.toList_empty, List.prefix_nil, String.toList_eq_nil_iff] at hk
  cases s <;> simp [keyword] at hk

end Statement

def Source.statements (o : RenderOptions) (d : Destination) (cs : List Column) : Source → List Statement
  | .values row => [.insertRow d cs row]
  | .rows all => (blocks (o.batchSize - 1) all).map (.insertRows d cs)
  | .query text =>
      let body := RenderOptions.queryBody text
      if body.isEmpty then [] else [.insertQuery d cs body]

def Section.statements (o : RenderOptions) : Section → List Statement
  | tableVariable t => [.declare t]
  | insertData i => i.sources.flatMap (Source.statements o i.destination i.columns)

def Script.statements (s : Script) : List Statement :=
  s.sections.flatMap (Section.statements s.options)

lemma Source.statements_outcome (o : RenderOptions) (d : Destination) (cs : List Column) (source : Source) :
    (o.statements (o.insertHead d cs) source).outcome =
      .ok ((source.statements o d cs).map (Statement.text o)) := by
  cases source with
  | values row => rfl
  | rows rows =>
    simp only [RenderOptions.statements, statements, List.map_map]
    split <;> rfl
  | query text =>
    simp only [RenderOptions.statements, statements]
    split <;> rfl

namespace Renderer

lemma intercalate_lines {parts : List String} (h : parts ≠ []) :
    "\n".intercalate parts ++ "\n" = String.join (parts.map (· ++ "\n")) := by
  induction parts with
  | nil => exact absurd rfl h
  | cons part parts ih =>
    cases parts with
    | nil => simp
    | cons next parts =>
      rw [String.intercalate_cons_cons, String.append_assoc, ih (List.cons_ne_nil _ _)]
      simp

lemma framed_lines {parts : List String} (h : ∀ part ∈ parts, part ≠ "") :
    framed ("\n".intercalate parts) = String.join (parts.map (· ++ "\n")) := by
  cases parts with
  | nil => rfl
  | cons part parts =>
    have hne : ("\n".intercalate (part :: parts)).isEmpty = false := by
      have hp : part ≠ "" := h part List.mem_cons_self
      cases parts with
      | nil => simpa using hp
      | cons next parts => simp
    rw [framed, hne, if_neg Bool.false_ne_true, intercalate_lines (List.cons_ne_nil _ _)]

lemma framed_statements (o : RenderOptions) (sts : List Statement) :
    framed ("\n".intercalate (sts.map (Statement.text o))) = String.join (sts.map fun st => st.text o ++ "\n") := by
  rw [framed_lines, List.map_map]
  · rfl
  · intro part hp
    obtain ⟨st, _, rfl⟩ := List.mem_map.mp hp
    exact st.text_ne_empty o

end Renderer

lemma RenderOptions.insertion_outcome (o : RenderOptions) (i : InsertData) :
    (o.insertion i).outcome = .ok ("\n".intercalate
      ((i.sources.flatMap (Source.statements o i.destination i.columns)).map (Statement.text o))) := by
  have hs := Logged.mapM_outcome (Source.statements_outcome o i.destination i.columns) i.sources
  rw [insertion, Logged.outcome_bind, hs]
  simp [List.flatMap, Function.comp_def]

lemma Section.fragment_outcome (o : RenderOptions) {sec : Section}
    (h : ∀ t, sec = .tableVariable t → t.columns ≠ []) :
    (o.renderer.fragment sec).outcome =
      .ok ("\n".intercalate ((sec.statements o).map (Statement.text o))) := by
  cases sec with
  | tableVariable t =>
    have ht : t.columns ≠ [] := h t rfl
    simp [RenderOptions.renderer, RenderOptions.declaration, statements, Statement.text, Statement.body, ht]
  | insertData i => exact o.insertion_outcome i

lemma Script.render_outcome {s : Script} (h : ∀ t, .tableVariable t ∈ s.sections → t.columns ≠ []) :
    s.render.outcome = .ok (String.join (s.statements.map fun st => st.text s.options ++ "\n")) := by
  obtain ⟨o, sections, declared⟩ := s
  simp only [render, renderWith, statements] at h ⊢
  clear declared
  induction sections with
  | nil => rfl
  | cons sec sections ih =>
    have hsec := Section.fragment_outcome o fun t ht => h t (ht ▸ List.mem_cons_self)
    have hrest := ih fun t ht => h t (List.mem_cons_of_mem _ ht)
    simp [Renderer.script, hsec, hrest, Renderer.framed_statements]

end TransactScript
