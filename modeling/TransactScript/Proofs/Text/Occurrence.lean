import Mathlib.Data.List.Infix
import TransactScript.Proofs.Text.Legible

/-! How often a word occurs in a text that is written part by part. -/

namespace TransactScript.Text

/-- The number of places at which the word starts. -/
def occurrences (w cs : List Char) : Nat :=
  cs.tails.countP fun rest => w.isPrefixOf rest

/-- No part of the word that ends the one text is continued by the other. -/
def Apart (w cs ds : List Char) : Prop :=
  ∀ x y, w = x ++ y → x ≠ [] → y ≠ [] → x <:+ cs → ¬ y <+: ds

variable {w cs ds : List Char}

lemma occurrences_nil (hw : w ≠ []) : occurrences w [] = 0 := by
  simp [occurrences, hw]

lemma occurrences_cons (w : List Char) (c : Char) (cs : List Char) :
    occurrences w (c :: cs) = occurrences w cs + if w <+: c :: cs then 1 else 0 := by
  simp only [occurrences, List.tails_cons, List.countP_cons, List.isPrefixOf_iff_prefix]

lemma Apart.prefix_iff {c : Char} (h : Apart w (c :: cs) ds) : w <+: c :: cs ++ ds ↔ w <+: c :: cs := by
  refine ⟨fun hw => ?_, fun hw => hw.trans (List.prefix_append _ _)⟩
  rcases List.prefix_or_prefix_of_prefix hw (List.prefix_append (c :: cs) ds) with hc | ⟨y, rfl⟩
  · exact hc
  · have hy : y <+: ds := (List.prefix_append_right_inj (c :: cs)).mp hw
    by_cases hnil : y = []
    · simp [hnil]
    · exact (h (c :: cs) y rfl (List.cons_ne_nil _ _) hnil (List.suffix_refl _) hy).elim

lemma occurrences_append (hw : w ≠ []) (h : Apart w cs ds) :
    occurrences w (cs ++ ds) = occurrences w cs + occurrences w ds := by
  induction cs with
  | nil => rw [occurrences_nil hw, List.nil_append, Nat.zero_add]
  | cons c cs ih =>
    have hcs : Apart w cs ds :=
      fun x y he hx hy hsuffix => h x y he hx hy (hsuffix.trans (List.suffix_cons c cs))
    rw [List.cons_append, occurrences_cons, occurrences_cons, ← List.cons_append, ih hcs]
    simp only [h.prefix_iff]
    omega

lemma apart_of_stops (h : Stops (fun c => decide (c ∈ w)) ds) : Apart w cs ds := by
  rintro x y rfl - hy - hprefix
  obtain ⟨c, y, rfl⟩ := List.exists_cons_of_ne_nil hy
  obtain ⟨ds, rfl⟩ := hprefix
  simpa using stops_cons.mp h

lemma apart_of_head_not_mem {c : Char} (hw : w.head? = some c) (hc : c ∉ cs) : Apart w cs ds := by
  rintro x y rfl hx - hsuffix -
  obtain ⟨d, x, rfl⟩ := List.exists_cons_of_ne_nil hx
  obtain rfl : d = c := by simpa using hw
  exact hc (hsuffix.subset List.mem_cons_self)

lemma occurrences_eq_zero {c : Char} (hw : c ∈ w) (hc : c ∉ cs) : occurrences w cs = 0 := by
  rw [occurrences, List.countP_eq_zero]
  intro rest hrest hprefix
  have hsuffix : rest <:+ cs := (List.mem_tails _ _).mp hrest
  exact hc (hsuffix.subset ((List.isPrefixOf_iff_prefix.mp hprefix).subset hw))

section Lists

variable {α : Type} {f : α → List Char} {p : α → Bool} {separator tail : List Char} {follow : List Char → Prop}
  (hitem : ∀ a r, follow r → occurrences w (f a ++ r) = occurrences w r + if p a then 1 else 0)
  (hseparator : ∀ r, follow (separator ++ r) ∧ occurrences w (separator ++ r) = occurrences w r)
  (htail : follow tail)
include hitem hseparator htail

lemma occurrences_flatMap (as : List α) : follow ((as.flatMap fun a => separator ++ f a) ++ tail) ∧
    occurrences w ((as.flatMap fun a => separator ++ f a) ++ tail) = occurrences w tail + as.countP p := by
  induction as with
  | nil => exact ⟨htail, rfl⟩
  | cons a as ih =>
    obtain ⟨hfollow, hcount⟩ := ih
    rw [List.flatMap_cons, List.append_assoc, List.append_assoc, (hseparator _).2, hitem a _ hfollow, hcount,
      List.countP_cons, Nat.add_assoc]
    exact ⟨(hseparator _).1, rfl⟩

lemma occurrences_intercalate (as : List α) :
    occurrences w (separator.intercalate (as.map f) ++ tail) = occurrences w tail + as.countP p := by
  cases as with
  | nil => rfl
  | cons a as =>
    obtain ⟨hfollow, hcount⟩ := occurrences_flatMap hitem hseparator htail as
    rw [List.map_cons, intercalate_cons, List.flatMap_map, List.append_assoc, hitem a _ hfollow, hcount,
      List.countP_cons, Nat.add_assoc]

end Lists

end TransactScript.Text
