import Mathlib.Data.List.Forall2
import TransactScript.Proofs.Statement

/-! Rows in batches. An insert reads as if its row lists had been given batch by batch: no row is lost, repeated
or moved. -/

namespace TransactScript

section Batches

variable {α : Type} {size : Nat} {rows : List α} {batches : List (List α)}

/-- The rows in order, cut into batches of one size. Only the last may be smaller. -/
structure Batches (size : Nat) (rows : List α) (batches : List (List α)) : Prop where
  flatten : batches.flatten = rows
  full : ∀ b ∈ batches.dropLast, b.length = size
  ne_nil : ∀ b ∈ batches, b ≠ []
  length_le : ∀ b ∈ batches, b.length ≤ size

lemma Batches.nil (size : Nat) : Batches size ([] : List α) [] := by
  constructor <;> simp

lemma Batches.single (hne : rows ≠ []) (hle : rows.length ≤ size) : Batches size rows [rows] := by
  constructor <;> simp [hne, hle]

lemma Batches.cons {b : List α} (h : Batches size rows batches) (hb : b.length = size) (hne : b ≠ []) :
    Batches size (b ++ rows) (b :: batches) where
  flatten := by rw [List.flatten_cons, h.flatten]
  full c hc := by
    cases batches with
    | nil => cases hc
    | cons next rest =>
      rw [List.dropLast_cons_cons] at hc
      rcases List.mem_cons.mp hc with rfl | hc
      · exact hb
      · exact h.full c hc
  ne_nil c hc := by
    rcases List.mem_cons.mp hc with rfl | hc
    · exact hne
    · exact h.ne_nil c hc
  length_le c hc := by
    rcases List.mem_cons.mp hc with rfl | hc
    · exact hb.le
    · exact h.length_le c hc

lemma Batches.tail {b : List α} (h : Batches size rows (b :: batches)) :
    Batches size batches.flatten batches where
  flatten := rfl
  full c hc := by
    cases batches with
    | nil => cases hc
    | cons next rest =>
      apply h.full c
      rw [List.dropLast_cons_cons]
      exact List.mem_cons_of_mem b hc
  ne_nil c hc := h.ne_nil c (List.mem_cons_of_mem b hc)
  length_le c hc := h.length_le c (List.mem_cons_of_mem b hc)

/-- There is only one way to cut the rows. -/
lemma Batches.eq_blocks (h : Batches size rows batches) : batches = blocks (size - 1) rows := by
  induction batches generalizing rows with
  | nil => rw [← h.flatten, List.flatten_nil, blocks]
  | cons b batches ih =>
    have hrest := ih h.tail
    have hflat := h.flatten
    have hle := h.length_le b List.mem_cons_self
    obtain ⟨a, as, rfl⟩ := List.exists_cons_of_ne_nil (h.ne_nil b List.mem_cons_self)
    rw [List.length_cons] at hle
    rw [List.flatten_cons, List.cons_append] at hflat
    rw [← hflat, blocks]
    cases batches with
    | nil =>
      have has : as.length ≤ size - 1 := by omega
      rw [List.flatten_nil, List.append_nil, List.take_of_length_le has, List.drop_of_length_le has, blocks]
    | cons next rest =>
      have hfull : (a :: as).length = size := h.full _ List.mem_cons_self
      have has : as.length = size - 1 := by
        rw [List.length_cons] at hfull
        omega
      rw [List.take_left' has, List.drop_left' has, ← hrest]

lemma Batches.length_eq (hs : 0 < size) (h : Batches size rows batches) :
    batches.length = rows.length ⌈/⌉ size := by
  rw [h.eq_blocks, length_blocks, Nat.sub_add_cancel hs]

end Batches

/-- A row list is replaced by its batches, each as a row list of its own. -/
inductive Source.Batched (size : Nat) : Source → List Source → Prop
  | values (row) : Batched size (.values row) [.values row]
  | rows {all batches} : Batches size all batches → Batched size (.rows all) (batches.map .rows)
  | query (text) : Batched size (.query text) [.query text]

namespace Source

variable {o : RenderOptions} {d : Destination} {cs : List Column}

lemma statements_rows {all : List (List Literal)} {batches : List (List (List Literal))}
    (h : Batches o.batchSize all batches) : (rows all).statements o d cs = batches.map (.insertRows d cs) := by
  rw [statements, h.eq_blocks]

lemma statements_whole {all : List (List Literal)} {limit : UInt64} (hne : all ≠ [])
    (hle : all.length ≤ limit.toNat) :
    (rows all).statements { o with maxRowsPerInsert := limit } d cs = [.insertRows d cs all] := by
  rw [statements_rows (Batches.single hne (hle.trans (Nat.le_max_right 1 _)))]
  rfl

lemma Batched.statements {source : Source} {parts : List Source} (h : Batched o.batchSize source parts)
    {limit : UInt64} (hl : ∀ all, Source.rows all ∈ parts → all.length ≤ limit.toNat) :
    parts.flatMap (Source.statements { o with maxRowsPerInsert := limit } d cs) = source.statements o d cs := by
  cases h with
  | values row => rfl
  | @rows all batches h =>
    rw [statements_rows h, List.flatMap_map, List.map_eq_flatMap]
    apply List.flatMap_congr
    intro b hb
    exact statements_whole (h.ne_nil b hb) (hl b (List.mem_map_of_mem hb))
  | query text => exact List.append_nil _

end Source

end TransactScript
