import TransactScript.Proofs.Text.Scan

/-! What is written for a value can be read again, whatever text follows it: where the value ends, and which
it was. -/

namespace TransactScript.Text

lemma intercalate_cons {α : Type} (separator a : List α) (as : List (List α)) :
    separator.intercalate (a :: as) = a ++ as.flatMap (separator ++ ·) := by
  induction as generalizing a with
  | nil => simp
  | cons b as ih => rw [List.intercalate_cons_cons, ih, List.flatMap_cons, List.append_assoc, List.append_assoc]

section Stops

variable {γ : Type} {p : γ → Bool} {xs ys r s : List γ}

/-- A run of what satisfies `p` ends here. -/
def Stops (p : γ → Bool) (r : List γ) : Prop :=
  ∀ c ∈ r.head?, p c = false

lemma stops_nil : Stops p ([] : List γ) := by
  simp [Stops]

lemma stops_cons {c : γ} : Stops p (c :: r) ↔ p c = false := by
  simp [Stops]

lemma stops_append (h : r.head?.any (fun c => !p c) = true) : Stops p (r ++ s) := by
  cases r with
  | nil => cases h
  | cons c r => exact stops_cons.mpr (by simpa using h)

lemma takeWhile_of_stops (h : Stops p r) : r.takeWhile p = [] := by
  cases r with
  | nil => rfl
  | cons c r => rw [List.takeWhile_cons, stops_cons.mp h, if_neg Bool.false_ne_true]

lemma append_inj_of_stops (hx : ∀ c ∈ xs, p c = true) (hy : ∀ c ∈ ys, p c = true) (hr : Stops p r) (hs : Stops p s)
    (h : xs ++ r = ys ++ s) : xs = ys ∧ r = s := by
  have hxy : xs = ys := by
    have ht := congrArg (List.takeWhile p) h
    rwa [List.takeWhile_append_of_pos hx, List.takeWhile_append_of_pos hy, takeWhile_of_stops hr,
      takeWhile_of_stops hs, List.append_nil, List.append_nil] at ht
  subst hxy
  exact ⟨rfl, List.append_cancel_left h⟩

end Stops

/-- A quote never ends a text that keeps its literals, since it may go on with one. -/
lemma Keeps.append_inj {allowed : Char → Bool} {xs ys r s : List Char} (hx : Keeps allowed false xs)
    (hy : Keeps allowed false ys) (hr : Stops (fun c => allowed c || c == '\'') r)
    (hs : Stops (fun c => allowed c || c == '\'') s) (h : xs ++ r = ys ++ s) : xs = ys ∧ r = s := by
  have hstop {r : List Char} (hr : Stops (fun c => allowed c || c == '\'') r) :
      Stops (fun m : Char × Bool => allowed m.1 || m.2) (marks false r) := by
    cases r with
    | nil => exact stops_nil
    | cons c r =>
      have hc := stops_cons.mp hr
      simp only [Bool.or_eq_false_iff, beq_eq_false_iff_ne] at hc
      rw [marks_plain hc.2, stops_cons, hc.1, Bool.or_false]
  have hall {xs : List Char} (hx : Keeps allowed false xs) :
      ∀ m ∈ marks false xs, (allowed m.1 || m.2) = true := by
    rintro ⟨c, b⟩ hm
    cases b with
    | true => exact Bool.or_true _
    | false => rw [hx.outside hm, Bool.true_or]
  have hmarks := congrArg (marks false) h
  rw [marks_append, marks_append, hx.stays, hy.stays] at hmarks
  have hxy := (append_inj_of_stops (hall hx) (hall hy) (hstop hr) (hstop hs) hmarks).1
  have hxy : xs = ys := by rw [← map_fst_marks false xs, hxy, map_fst_marks]
  subst hxy
  exact ⟨rfl, List.append_cancel_left h⟩

variable {α β : Type}

/-- From a text that starts with what `f` writes for a value, and that goes on as `follow` allows, `read` of the
value can be told, and where it ends. -/
def Legible (follow : List Char → Prop) (P : α → Prop) (f : α → List Char) (read : α → β) : Prop :=
  ∀ ⦃a b r s⦄, P a → P b → follow r → follow s → f a ++ r = f b ++ s → read a = read b ∧ r = s

namespace Legible

variable {follow follow' : List Char → Prop} {P : α → Prop} {f : α → List Char} {read : α → β}

lemma behind (h : Legible follow P f read) (cs : List Char) : Legible follow P (fun a => cs ++ f a) read := by
  intro a b r s ha hb hr hs he
  rw [List.append_assoc, List.append_assoc] at he
  exact h ha hb hr hs (List.append_cancel_left he)

variable {separator : List Char}

lemma follow_flatMap (hsep : ∀ x, follow (separator ++ x)) (hend : ∀ {r}, follow' r → follow r ∧ ¬ separator <+: r)
    {as : List α} {r : List Char} (hr : follow' r) : follow ((as.flatMap fun a => separator ++ f a) ++ r) := by
  cases as with
  | nil => exact (hend hr).1
  | cons a as =>
    rw [List.flatMap_cons, List.append_assoc, List.append_assoc]
    exact hsep _

lemma flatMap (hf : Legible follow P f read) (hsep : ∀ x, follow (separator ++ x))
    (hend : ∀ {r}, follow' r → follow r ∧ ¬ separator <+: r) :
    Legible follow' (fun as => ∀ a ∈ as, P a) (fun as => as.flatMap fun a => separator ++ f a) (List.map read) := by
  have hfirst {a : α} {as : List α} {r s : List Char} (hr : follow' r)
      (he : r = ((a :: as).flatMap fun a => separator ++ f a) ++ s) : False := by
    refine (hend hr).2 ?_
    rw [he, List.flatMap_cons, List.append_assoc, List.append_assoc]
    exact List.prefix_append _ _
  -- the lists are read side by side: where only one of them goes on, its separator follows what ends the other
  intro as
  induction as with
  | nil =>
    intro bs r s _ _ hr hs he
    cases bs with
    | nil => exact ⟨rfl, he⟩
    | cons b bs => exact (hfirst hr he).elim
  | cons a as ih =>
    intro bs r s ha hb hr hs he
    cases bs with
    | nil => exact (hfirst hs he.symm).elim
    | cons b bs =>
      simp only [List.flatMap_cons, List.append_assoc] at he
      obtain ⟨hab, he⟩ := hf (ha a List.mem_cons_self) (hb b List.mem_cons_self)
        (follow_flatMap hsep hend hr) (follow_flatMap hsep hend hs) (List.append_cancel_left he)
      obtain ⟨hmap, hrs⟩ := ih (fun c hc => ha c (List.mem_cons_of_mem a hc))
        (fun c hc => hb c (List.mem_cons_of_mem b hc)) hr hs he
      exact ⟨by rw [List.map_cons, List.map_cons, hab, hmap], hrs⟩

lemma separated_ne_nil (hf : Legible follow P f read) (hsep : ∀ x, follow (separator ++ x))
    (hend : ∀ {r}, follow' r → follow r ∧ ¬ separator <+: r) :
    Legible follow' (fun as => as ≠ [] ∧ ∀ a ∈ as, P a) (fun as => separator.intercalate (as.map f))
      (List.map read) := by
  rintro as bs r s ⟨ha, has⟩ ⟨hb, hbs⟩ hr hs he
  obtain ⟨a, as, rfl⟩ := List.exists_cons_of_ne_nil ha
  obtain ⟨b, bs, rfl⟩ := List.exists_cons_of_ne_nil hb
  have hrest := hf.flatMap hsep hend
  simp only [List.map_cons, intercalate_cons, List.flatMap_map, List.append_assoc] at he
  obtain ⟨hab, he⟩ := hf (has a List.mem_cons_self) (hbs b List.mem_cons_self)
    (follow_flatMap hsep hend hr) (follow_flatMap hsep hend hs) he
  obtain ⟨hmap, hrs⟩ := hrest (fun c hc => has c (List.mem_cons_of_mem a hc))
    (fun c hc => hbs c (List.mem_cons_of_mem b hc)) hr hs he
  exact ⟨by rw [List.map_cons, List.map_cons, hab, hmap], hrs⟩

variable {close : List Char}

lemma enclosed_ne_nil (hf : Legible follow P f read) (hsep : ∀ x, follow (separator ++ x))
    (hclose : ∀ x, follow (close ++ x) ∧ ¬ separator <+: close ++ x) :
    Legible (fun _ => True) (fun as => as ≠ [] ∧ ∀ a ∈ as, P a) (fun as => separator.intercalate (as.map f) ++ close)
      (List.map read) := by
  have hend : ∀ {r}, (∃ x, r = close ++ x) → follow r ∧ ¬ separator <+: r := by
    rintro _ ⟨x, rfl⟩
    exact hclose x
  intro as bs r s ha hb _ _ he
  rw [List.append_assoc, List.append_assoc] at he
  obtain ⟨hab, hrs⟩ := hf.separated_ne_nil hsep hend ha hb ⟨r, rfl⟩ ⟨s, rfl⟩ he
  exact ⟨hab, List.append_cancel_left hrs⟩

lemma enclosed (hf : Legible follow P f read) (hsep : ∀ x, follow (separator ++ x))
    (hclose : ∀ x, follow (close ++ x) ∧ ¬ separator <+: close ++ x)
    (hfirst : ∀ {a x y}, P a → f a ++ x ≠ close ++ y) :
    Legible (fun _ => True) (fun as => ∀ a ∈ as, P a) (fun as => separator.intercalate (as.map f) ++ close)
      (List.map read) := by
  have hempty {a : α} {as : List α} {r s : List Char} (ha : P a)
      (he : close ++ r = separator.intercalate ((a :: as).map f) ++ close ++ s) : False := by
    rw [List.map_cons, intercalate_cons, List.append_assoc, List.append_assoc] at he
    exact hfirst ha he.symm
  intro as bs r s ha hb hr hs he
  cases as with
  | nil =>
    cases bs with
    | nil => exact ⟨rfl, List.append_cancel_left he⟩
    | cons b bs => exact (hempty (hb b List.mem_cons_self) he).elim
  | cons a as =>
    cases bs with
    | nil => exact (hempty (ha a List.mem_cons_self) he.symm).elim
    | cons b bs => exact hf.enclosed_ne_nil hsep hclose ⟨List.cons_ne_nil _ _, ha⟩ ⟨List.cons_ne_nil _ _, hb⟩ hr hs he

end Legible

end TransactScript.Text
