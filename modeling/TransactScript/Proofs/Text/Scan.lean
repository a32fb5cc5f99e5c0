import Mathlib.Tactic.Lemma
import TransactScript.Text.Quoted

/-! Texts read with string literals in mind, and texts that end no literal and no statement of their
surroundings. -/

namespace TransactScript.Text

/-- Each character with whether it belongs to a literal. A literal is opened by a quote and closed by the
first quote that no other quote follows. -/
def marks : Bool → List Char → List (Char × Bool)
  | _, [] => []
  | false, '\'' :: cs => ('\'', true) :: marks true cs
  | false, c :: cs => (c, false) :: marks false cs
  | true, '\'' :: '\'' :: cs => ('\'', true) :: ('\'', true) :: marks true cs
  | true, '\'' :: cs => ('\'', true) :: marks false cs
  | true, c :: cs => (c, true) :: marks true cs

def pieces (cs : List Char) : List (List Char) :=
  ((marks false cs).splitOn (';', false)).map fun piece => piece.map Prod.fst

def inside (start : Bool) (cs : List Char) : Bool :=
  cs.foldl (fun b c => if c = '\'' then !b else b) start

lemma marks_quote (b : Bool) (cs : List Char) : marks b ('\'' :: cs) = ('\'', true) :: marks (!b) cs := by
  cases b with
  | false => simp [marks]
  | true =>
    cases cs with
    | nil => simp [marks]
    | cons c cs =>
      by_cases hc : c = '\''
      · subst hc
        simp [marks]
      · simp [marks, hc]

lemma marks_plain {c : Char} (hc : c ≠ '\'') (b : Bool) (cs : List Char) :
    marks b (c :: cs) = (c, b) :: marks b cs := by
  cases b <;> simp [marks, hc]

lemma inside_quote (b : Bool) (cs : List Char) : inside b ('\'' :: cs) = inside (!b) cs := by
  simp [inside]

lemma inside_plain {c : Char} (hc : c ≠ '\'') (b : Bool) (cs : List Char) :
    inside b (c :: cs) = inside b cs := by
  simp [inside, hc]

lemma inside_append (b : Bool) (xs ys : List Char) : inside b (xs ++ ys) = inside (inside b xs) ys :=
  List.foldl_append

lemma marks_append (b : Bool) (xs ys : List Char) :
    marks b (xs ++ ys) = marks b xs ++ marks (inside b xs) ys := by
  induction xs generalizing b with
  | nil => simp [marks, inside]
  | cons c xs ih =>
    rw [List.cons_append]
    by_cases hc : c = '\''
    · subst hc
      rw [marks_quote, marks_quote, inside_quote, ih, List.cons_append]
    · rw [marks_plain hc, marks_plain hc, inside_plain hc, ih, List.cons_append]

lemma map_fst_marks (b : Bool) (cs : List Char) : (marks b cs).map Prod.fst = cs := by
  induction cs generalizing b with
  | nil => simp [marks]
  | cons c cs ih =>
    by_cases hc : c = '\''
    · subst hc
      rw [marks_quote, List.map_cons, ih]
    · rw [marks_plain hc, List.map_cons, ih]

/-- Text that a reader leaves as it came, inside of a literal or outside, and that holds no character outside of
literals but the allowed ones. -/
structure Keeps (allowed : Char → Bool) (b : Bool) (cs : List Char) : Prop where
  stays : inside b cs = b
  outside : ∀ {c}, (c, false) ∈ marks b cs → allowed c = true

namespace Keeps

variable {allowed : Char → Bool} {b : Bool} {cs : List Char}

lemma nil : Keeps allowed b [] := by
  constructor <;> simp [inside, marks]

lemma append {ds : List Char} (hc : Keeps allowed b cs) (hd : Keeps allowed b ds) : Keeps allowed b (cs ++ ds) where
  stays := by rw [inside_append, hc.stays, hd.stays]
  outside := by
    intro c hm
    rw [marks_append, hc.stays, List.mem_append] at hm
    exact hm.elim hc.outside hd.outside

lemma cons {c : Char} (hq : c ≠ '\'') (ha : b = false → allowed c = true) (h : Keeps allowed b cs) :
    Keeps allowed b (c :: cs) where
  stays := by rw [inside_plain hq, h.stays]
  outside := by
    intro d hm
    rw [marks_plain hq, List.mem_cons] at hm
    rcases hm with he | hm
    · cases he
      exact ha rfl
    · exact h.outside hm

lemma plain (h : ∀ c ∈ cs, c ≠ '\'' ∧ allowed c = true) : Keeps allowed b cs := by
  induction cs with
  | nil => exact nil
  | cons c cs ih =>
    obtain ⟨hq, ha⟩ := h c List.mem_cons_self
    exact (ih fun d hd => h d (List.mem_cons_of_mem _ hd)).cons hq fun _ => ha

lemma quoted (h : Keeps allowed true cs) : Keeps allowed false ('\'' :: (cs ++ ['\''])) where
  stays := by
    rw [inside_quote, inside_append, Bool.not_false, h.stays, inside_quote]
    rfl
  outside := by
    intro c hm
    rw [marks_quote, marks_append, Bool.not_false, h.stays, marks_quote] at hm
    have hc : (c, false) ∈ marks true cs := by simpa [marks] using hm
    exact h.outside hc

lemma double (cs : List Char) : Keeps allowed true (double '\'' cs) := by
  induction cs with
  | nil => exact nil
  | cons c cs ih =>
    rw [Text.double]
    by_cases hc : c = '\''
    · rw [if_pos hc]
      refine ⟨by simpa [inside_quote] using ih.stays, fun {d} hm => ih.outside (c := d) ?_⟩
      simpa [marks] using hm
    · rw [if_neg hc]
      exact ih.cons hc nofun

lemma intercalate {separator : List Char} {parts : List (List Char)} (hs : Keeps allowed b separator)
    (h : ∀ part ∈ parts, Keeps allowed b part) : Keeps allowed b (separator.intercalate parts) := by
  induction parts with
  | nil => exact nil
  | cons part parts ih =>
    have hp : Keeps allowed b part := h part List.mem_cons_self
    have hr : ∀ p ∈ parts, Keeps allowed b p := fun p hm => h p (List.mem_cons_of_mem _ hm)
    cases parts with
    | nil => simpa using hp
    | cons next parts =>
      rw [List.intercalate_cons_cons]
      exact (hp.append hs).append (ih hr)

lemma mono {allowed' : Char → Bool} (h : Keeps allowed b cs) (ha : ∀ {c}, allowed c = true → allowed' c = true) :
    Keeps allowed' b cs :=
  ⟨h.stays, fun hm => ha (h.outside hm)⟩

end Keeps

/-- Text that a reader leaves as it came, inside of a literal or outside, and that does not cut what it
stands in. -/
structure Neutral (b : Bool) (cs : List Char) : Prop where
  stays : inside b cs = b
  whole : (';', false) ∉ marks b cs

instance (b : Bool) (cs : List Char) : Decidable (Neutral b cs) :=
  decidable_of_iff (inside b cs = b ∧ (';', false) ∉ marks b cs) ⟨fun h => ⟨h.1, h.2⟩, fun h => ⟨h.1, h.2⟩⟩

lemma neutral_iff_keeps {b : Bool} {cs : List Char} : Neutral b cs ↔ Keeps (fun c => c != ';') b cs := by
  refine ⟨fun h => ⟨h.stays, fun {c} hm => ?_⟩, fun h => ⟨h.stays, fun hm => by cases h.outside hm⟩⟩
  rw [bne_iff_ne]
  rintro rfl
  exact h.whole hm

namespace Neutral

variable {b : Bool} {cs : List Char}

lemma nil : Neutral b [] :=
  neutral_iff_keeps.mpr .nil

lemma append {ds : List Char} (hc : Neutral b cs) (hd : Neutral b ds) : Neutral b (cs ++ ds) :=
  neutral_iff_keeps.mpr ((neutral_iff_keeps.mp hc).append (neutral_iff_keeps.mp hd))

lemma plain (h : ∀ c ∈ cs, c ≠ '\'' ∧ c ≠ ';') : Neutral b cs :=
  neutral_iff_keeps.mpr (.plain fun c hc => ⟨(h c hc).1, bne_iff_ne.mpr (h c hc).2⟩)

lemma intercalate {separator : List Char} {parts : List (List Char)} (hs : Neutral b separator)
    (h : ∀ part ∈ parts, Neutral b part) : Neutral b (separator.intercalate parts) :=
  neutral_iff_keeps.mpr (.intercalate (neutral_iff_keeps.mp hs) fun part hp => neutral_iff_keeps.mp (h part hp))

end Neutral

lemma pieces_neutral {cs : List Char} (h : Neutral false cs) (rest : List Char) :
    pieces (cs ++ ';' :: rest) = cs :: pieces rest := by
  rw [pieces, pieces, marks_append, h.stays, marks_plain (by decide),
    List.splitOn_append_cons_self_of_not_mem h.whole, List.map_cons, map_fst_marks]

lemma pieces_of_neutral {cs : List Char} (h : Neutral false cs) : pieces cs = [cs] := by
  rw [pieces, List.splitOn_eq_singleton h.whole, List.map_singleton, map_fst_marks]

/-- Texts that follow one another on lines of their own, the first one behind `lead`. -/
def lines (lead : List Char) : List (List Char) → List (List Char)
  | [] => [lead]
  | p :: ps => (lead ++ p) :: lines ['\n'] ps

lemma length_lines (lead : List Char) (ps : List (List Char)) : (lines lead ps).length = ps.length + 1 := by
  induction ps generalizing lead with
  | nil => rfl
  | cons p ps ih => rw [lines, List.length_cons, ih, List.length_cons]

lemma pieces_statements {lead : List Char} (hl : Neutral false lead) {bodies : List (List Char)}
    (h : ∀ body ∈ bodies, Neutral false body) :
    pieces (lead ++ bodies.flatMap fun body => body ++ [';', '\n']) = lines lead bodies := by
  induction bodies generalizing lead with
  | nil => simpa [lines] using pieces_of_neutral hl
  | cons body bodies ih =>
    have hb : Neutral false (lead ++ body) := hl.append (h body List.mem_cons_self)
    have hn : Neutral false ['\n'] := by decide
    have hr := ih hn fun b hm => h b (List.mem_cons_of_mem _ hm)
    rw [lines, ← hr, ← pieces_neutral hb]
    simp

end TransactScript.Text
