import Mathlib.Data.List.DropRight
import Mathlib.Data.List.TakeWhile
import TransactScript.Text.Blank

/-! Trimming: what is left neither begins nor ends with a blank, only blanks are lost, and nothing is left of a text
of blanks only. -/

namespace TransactScript.Text

lemma trimEnd_prefix (cs : List Char) : trimEnd cs <+: cs :=
  List.rdropWhile_prefix isBlank cs

lemma trimEnd_eq_nil_iff {cs : List Char} : trimEnd cs = [] ↔ ∀ c ∈ cs, isBlank c = true :=
  List.rdropWhile_eq_nil_iff

lemma head_trimStart {c : Char} {cs rest : List Char} (h : trimStart cs = c :: rest) : isBlank c = false := by
  have hne : cs.dropWhile isBlank ≠ [] := by
    rw [trimStart] at h
    simp [h]
  have hhead := List.head_dropWhile_not isBlank hne
  simp only [trimStart] at h
  simpa [h] using hhead

/-- A text with no blank at either end. -/
structure Trimmed (cs : List Char) : Prop where
  first : ∀ c ∈ cs.head?, isBlank c = false
  last : ∀ c ∈ cs.getLast?, isBlank c = false

instance (cs : List Char) : Decidable (Trimmed cs) :=
  decidable_of_iff (cs.head?.any isBlank = false ∧ cs.getLast?.any isBlank = false)
    ⟨fun h => ⟨(Option.any_eq_false _ _).mp h.1, (Option.any_eq_false _ _).mp h.2⟩,
      fun h => ⟨(Option.any_eq_false _ _).mpr h.first, (Option.any_eq_false _ _).mpr h.last⟩⟩

lemma trimmed_trimEnd {cs : List Char} (h : ∀ c ∈ cs.head?, isBlank c = false) : Trimmed (trimEnd cs) where
  first := by
    intro c hc
    obtain ⟨tail, ht⟩ := trimEnd_prefix cs
    apply h
    rw [← ht, List.head?_append, Option.mem_def.mp hc]
    rfl
  last := by
    intro c hc
    have hne : trimEnd cs ≠ [] := by
      intro hnil
      rw [hnil] at hc
      cases hc
    have hlast := List.rdropWhile_last_not isBlank cs hne
    rw [List.getLast?_eq_getLast_of_ne_nil hne] at hc
    obtain rfl := Option.mem_some.mp hc
    exact Bool.eq_false_iff.mpr hlast

lemma trimmed_trim (cs : List Char) : Trimmed (trim cs) := by
  apply trimmed_trimEnd
  intro c hc
  cases hs : trimStart cs with
  | nil =>
    rw [hs] at hc
    cases hc
  | cons d rest =>
    rw [hs] at hc
    obtain rfl : d = c := by simpa using hc
    exact head_trimStart hs

lemma head_trim {c : Char} {cs rest : List Char} (h : trim cs = c :: rest) : isBlank c = false :=
  (trimmed_trim cs).first c (by rw [h]; rfl)

lemma Trimmed.trimEnd_eq {cs : List Char} (h : Trimmed cs) : trimEnd cs = cs := by
  apply List.rdropWhile_eq_self_iff.mpr
  intro hne
  rw [h.last _ (List.getLast?_eq_getLast_of_ne_nil hne)]
  exact Bool.false_ne_true

lemma Trimmed.trim_eq {cs : List Char} (h : Trimmed cs) : trim cs = cs := by
  have hstart : trimStart cs = cs := by
    cases cs with
    | nil => rfl
    | cons c cs => rw [trimStart, List.dropWhile_cons, h.first c rfl, if_neg Bool.false_ne_true]
  rw [trim, hstart, h.trimEnd_eq]

def Blanks (cs : List Char) : Prop :=
  ∀ c ∈ cs, isBlank c = true

lemma blanks_nil : Blanks [] := by
  simp [Blanks]

lemma Blanks.append {cs ds : List Char} (hc : Blanks cs) (hd : Blanks ds) : Blanks (cs ++ ds) :=
  List.forall_mem_append.mpr ⟨hc, hd⟩

lemma trimStart_append {lead : List Char} (h : Blanks lead) (cs : List Char) : trimStart (lead ++ cs) = trimStart cs :=
  List.dropWhile_append_of_pos h

lemma trimEnd_append {trail : List Char} (h : Blanks trail) (cs : List Char) : trimEnd (cs ++ trail) = trimEnd cs := by
  have hreverse : ∀ c ∈ trail.reverse, isBlank c = true := fun c hc => h c (List.mem_reverse.mp hc)
  rw [trimEnd, List.reverse_append, List.dropWhile_append_of_pos hreverse]
  rfl

lemma trim_append {lead trail : List Char} (hlead : Blanks lead) (htrail : Blanks trail) (cs : List Char) :
    trim (lead ++ cs ++ trail) = trim cs := by
  rw [List.append_assoc, trim, trimStart_append hlead, trim, trimStart, trimStart, List.dropWhile_append]
  split
  · next hempty =>
    have hall : trail.dropWhile isBlank = [] := List.dropWhile_eq_nil_iff.mpr htrail
    rw [List.isEmpty_iff.mp hempty, hall]
  · exact trimEnd_append htrail _

lemma exists_trimEnd (cs : List Char) : ∃ trail, Blanks trail ∧ cs = trimEnd cs ++ trail :=
  ⟨cs.rtakeWhile isBlank, fun _ hc => List.mem_rtakeWhile_imp hc, List.rdropWhile_append_rtakeWhile.symm⟩

lemma exists_trim (cs : List Char) :
    ∃ lead trail, Blanks lead ∧ Blanks trail ∧ cs = lead ++ trim cs ++ trail := by
  obtain ⟨trail, htrail, heq⟩ := exists_trimEnd (trimStart cs)
  refine ⟨cs.takeWhile isBlank, trail, fun _ hc => List.mem_takeWhile_imp hc, htrail, ?_⟩
  calc cs = cs.takeWhile isBlank ++ trimStart cs := List.takeWhile_append_dropWhile.symm
    _ = cs.takeWhile isBlank ++ trim cs ++ trail := by rw [List.append_assoc, trim, ← heq]

lemma dropLastIf_prefix (c : Char) (cs : List Char) : dropLastIf c cs <+: cs := by
  rw [dropLastIf]
  split
  · exact List.dropLast_prefix cs
  · exact List.prefix_rfl

lemma trimmed_trimEnd_dropLastIf (c : Char) (cs : List Char) : Trimmed (trimEnd (dropLastIf c (trim cs))) := by
  apply trimmed_trimEnd
  intro d hd
  obtain ⟨tail, ht⟩ := dropLastIf_prefix c (trim cs)
  apply (trimmed_trim cs).first
  rw [← ht, List.head?_append, Option.mem_def.mp hd]
  rfl

lemma dropLastIf_cons (c d : Char) (cs : List Char) :
    dropLastIf c (d :: cs) = if cs = [] then (if d = c then [] else [d]) else d :: dropLastIf c cs := by
  cases cs with
  | nil => by_cases hd : d = c <;> simp [dropLastIf, hd]
  | cons e cs =>
    simp only [dropLastIf, List.getLast?_cons_cons, reduceCtorEq, if_false]
    split <;> rfl

/-- A trimmed text that ends in the mark is nothing without it only if it is the mark. -/
lemma trimEnd_dropLastIf_trim {c : Char} {cs : List Char} :
    trimEnd (dropLastIf c (trim cs)) = [] ↔ trim cs = [] ∨ trim cs = [c] := by
  rw [trimEnd_eq_nil_iff]
  cases ht : trim cs with
  | nil => simp [dropLastIf]
  | cons d rest =>
    have hd := head_trim ht
    rw [dropLastIf_cons]
    constructor
    · intro h
      by_cases hr : rest = []
      · by_cases he : d = c
        · simp [hr, he]
        · simp [hr, he, hd] at h
      · simp [hr, hd] at h
    · rintro (h | h)
      · cases h
      · cases h
        simp

end TransactScript.Text
