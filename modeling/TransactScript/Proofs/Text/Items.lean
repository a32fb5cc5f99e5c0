import Mathlib.Data.List.Forall2
import TransactScript.Proofs.Text.Scan

/-! A text as whole literals and single characters outside of them, and what is left of it without its brackets and
semicolons. -/

namespace TransactScript.Text

inductive Item where
  | outside (c : Char)
  | literal (cs : List Char)
deriving DecidableEq

def isPunctuation (c : Char) : Bool :=
  c == '[' || c == ']' || c == ';'

def isPlain (c : Char) : Bool :=
  c != '\'' && !isPunctuation c

def Plain (cs : List Char) : Prop :=
  ∀ c ∈ cs, isPlain c = true

instance (cs : List Char) : Decidable (Plain cs) :=
  List.decidableBAll (fun c => isPlain c = true) cs

lemma isPlain_iff {c : Char} : isPlain c = true ↔ c ≠ '\'' ∧ isPunctuation c = false := by
  rw [isPlain, Bool.and_eq_true, bne_iff_ne, Bool.not_eq_true']

lemma Keeps.of_plain {cs : List Char} (h : Plain cs) : Keeps (fun c => !isPunctuation c) false cs :=
  .plain fun c hc => (isPlain_iff.mp (h c hc)).imp_right fun hp => by rw [hp, Bool.not_false]

namespace Item

def chars : Item → List Char
  | outside c => [c]
  | literal cs => cs

def literal? : Item → Option (List Char)
  | outside _ => none
  | literal cs => some cs

def isKept : Item → Bool
  | outside c => !isPunctuation c
  | literal _ => true

end Item

/-- Marked characters make one literal as long as nothing stands between them. -/
def itemsOf : List (Char × Bool) → List Item
  | [] => []
  | (c, false) :: ms => .outside c :: itemsOf ms
  | (c, true) :: ms =>
      match itemsOf ms with
      | .literal cs :: rest => .literal (c :: cs) :: rest
      | rest => .literal [c] :: rest

def items (cs : List Char) : List Item :=
  itemsOf (marks false cs)

def literals (cs : List Char) : List (List Char) :=
  (items cs).filterMap Item.literal?

def withoutPunctuation (cs : List Char) : List Char :=
  ((items cs).filter Item.isKept).flatMap Item.chars

section Items

variable {c : Char} {cs ds : List Char}

lemma itemsOf_append_outside (c : Char) (ms ns : List (Char × Bool)) :
    itemsOf (ms ++ (c, false) :: ns) = itemsOf ms ++ .outside c :: itemsOf ns := by
  induction ms with
  | nil => rfl
  | cons m ms ih =>
    obtain ⟨d, marked⟩ := m
    cases marked with
    | false => rw [List.cons_append, itemsOf, itemsOf, ih, List.cons_append]
    | true =>
      rw [List.cons_append, itemsOf, itemsOf, ih]
      cases itemsOf ms with
      | nil => rfl
      | cons item rest => cases item <;> rfl

lemma chars_itemsOf (ms : List (Char × Bool)) : (itemsOf ms).flatMap Item.chars = ms.map Prod.fst := by
  induction ms with
  | nil => rfl
  | cons m ms ih =>
    obtain ⟨d, marked⟩ := m
    rw [List.map_cons, ← ih]
    cases marked with
    | false => rfl
    | true =>
      rw [itemsOf]
      cases itemsOf ms with
      | nil => rfl
      | cons item rest => cases item <;> rfl

lemma chars_items (cs : List Char) : (items cs).flatMap Item.chars = cs := by
  rw [items, chars_itemsOf, map_fst_marks]

lemma mem_of_outside_mem {ms : List (Char × Bool)} (h : .outside c ∈ itemsOf ms) : (c, false) ∈ ms := by
  induction ms with
  | nil => cases h
  | cons m ms ih =>
    obtain ⟨d, marked⟩ := m
    cases marked with
    | false =>
      rw [itemsOf, List.mem_cons] at h
      rcases h with h | h
      · cases h
        exact List.mem_cons_self
      · exact List.mem_cons_of_mem _ (ih h)
    | true =>
      refine List.mem_cons_of_mem _ (ih ?_)
      rw [itemsOf] at h
      split at h
      · next hrest => simpa [hrest] using h
      · simpa using h

lemma items_append_cons (hcs : inside false cs = false) (hc : c ≠ '\'') (ds : List Char) :
    items (cs ++ c :: ds) = items cs ++ .outside c :: items ds := by
  rw [items, marks_append, hcs, marks_plain hc, itemsOf_append_outside]
  rfl

lemma items_cons (hc : c ≠ '\'') (ds : List Char) : items (c :: ds) = .outside c :: items ds := by
  have hstart : inside false [] = false := rfl
  exact items_append_cons hstart hc ds

lemma items_append_of_unquoted (h : '\'' ∉ cs) (ds : List Char) :
    items (cs ++ ds) = cs.map .outside ++ items ds := by
  induction cs with
  | nil => rfl
  | cons c cs ih =>
    rw [List.mem_cons, not_or] at h
    rw [List.cons_append, items_cons (Ne.symm h.1), ih h.2, List.map_cons, List.cons_append]

lemma items_of_unquoted (h : '\'' ∉ cs) : items cs = cs.map .outside := by
  simpa [items, marks, itemsOf] using items_append_of_unquoted h []

/-- No text behind it changes how the text is read. -/
def Whole (cs : List Char) : Prop :=
  ∀ ds, items (cs ++ ds) = items cs ++ items ds

lemma Whole.append (hcs : Whole cs) (hds : Whole ds) : Whole (cs ++ ds) := by
  intro es
  rw [List.append_assoc, hcs, hds, hcs, List.append_assoc]

lemma whole_of_unquoted (h : '\'' ∉ cs) : Whole cs := by
  intro ds
  rw [items_append_of_unquoted h, items_of_unquoted h]

lemma whole_closed (hcs : inside false cs = false) (hc : c ≠ '\'') : Whole (cs ++ [c]) := by
  intro ds
  rw [List.append_assoc, List.singleton_append, items_append_cons hcs hc, items_append_cons hcs hc, List.append_assoc]
  rfl

end Items

/-- The second text is what the first one is without its punctuation, also where other text goes on. -/
structure Sheds (s t : String) : Prop where
  whole : Whole s.toList
  whole' : Whole t.toList
  kept : (items s.toList).filter Item.isKept = items t.toList

namespace Sheds

variable {s s' t t' : String}

lemma withoutPunctuation_eq (h : Sheds s t) : withoutPunctuation s.toList = t.toList := by
  rw [withoutPunctuation, h.kept, chars_items]

lemma literals_eq (h : Sheds s t) : literals s.toList = literals t.toList := by
  have hkept (i : Item) : (if i.isKept = true then i.literal? else none) = i.literal? := by
    cases i with
    | outside c => exact ite_self none
    | literal cs => rfl
  rw [literals, literals, ← h.kept, List.filterMap_filter]
  exact congrArg (List.filterMap · _) (funext fun i => (hkept i).symm)

lemma append (h : Sheds s t) (h' : Sheds s' t') : Sheds (s ++ s') (t ++ t') where
  whole := by simpa using h.whole.append h'.whole
  whole' := by simpa using h.whole'.append h'.whole'
  kept := by
    rw [String.toList_append, String.toList_append, h.whole, h.whole', List.filter_append, h.kept, h'.kept]

lemma unquoted (hs : '\'' ∉ s.toList) (ht : t.toList = s.toList.filter fun c => !isPunctuation c) : Sheds s t := by
  have ht' : '\'' ∉ t.toList := by
    rw [ht]
    exact fun hm => hs (List.mem_of_mem_filter hm)
  refine ⟨whole_of_unquoted hs, whole_of_unquoted ht', ?_⟩
  rw [items_of_unquoted hs, items_of_unquoted ht', ht, List.filter_map]
  rfl

lemma plain (h : Plain s.toList) : Sheds s s :=
  unquoted (fun hm => (isPlain_iff.mp (h _ hm)).1 rfl)
    (List.filter_eq_self.mpr fun c hc => by rw [(isPlain_iff.mp (h c hc)).2, Bool.not_false]).symm

/-- A text with literals stays as it is, provided that a plain character closes it. -/
lemma closed {c : Char} (h : Keeps (fun c => !isPunctuation c) false s.toList) (ht : t.toList = [c])
    (hplain : isPlain c = true) : Sheds (s ++ t) (s ++ t) := by
  obtain ⟨hq, hc⟩ := isPlain_iff.mp hplain
  have htext : (s ++ t).toList = s.toList ++ [c] := by rw [String.toList_append, ht]
  have hwhole : Whole (s ++ t).toList := htext ▸ whole_closed h.stays hq
  refine ⟨hwhole, hwhole, List.filter_eq_self.mpr fun i hi => ?_⟩
  rw [htext, items_append_cons h.stays hq] at hi
  cases i with
  | literal cs => rfl
  | outside d =>
    rcases List.mem_append.mp hi with hi | hi
    · exact h.outside (mem_of_outside_mem hi)
    · have hd : d = c := by simpa [items, marks, itemsOf] using hi
      simp [Item.isKept, hd, hc]

lemma empty : Sheds "" "" :=
  plain (by decide)

lemma ite {p : Prop} [Decidable p] (h : Sheds s t) (h' : Sheds s' t') :
    Sheds (if p then s else s') (if p then t else t') := by
  split
  · exact h
  · exact h'

lemma join {ss ts : List String} (h : List.Forall₂ Sheds ss ts) : Sheds (String.join ss) (String.join ts) := by
  induction h with
  | nil => exact empty
  | cons hst _ ih => simpa using hst.append ih

lemma intercalate {separator : String} (hseparator : Sheds separator separator) {ss ts : List String}
    (h : List.Forall₂ Sheds ss ts) : Sheds (separator.intercalate ss) (separator.intercalate ts) := by
  induction h with
  | nil => exact empty
  | cons hst hrest ih =>
    cases hrest with
    | nil => simpa using hst
    | cons _ _ =>
      rw [String.intercalate_cons_cons, String.intercalate_cons_cons]
      exact (hst.append hseparator).append ih

lemma forall_map {α : Type} {f g : α → String} {as : List α} (h : ∀ a ∈ as, Sheds (f a) (g a)) :
    List.Forall₂ Sheds (as.map f) (as.map g) := by
  rw [List.forall₂_map_left_iff, List.forall₂_map_right_iff]
  exact List.forall₂_same.mpr h

end Sheds

end TransactScript.Text
