import Mathlib.Logic.Basic

/-! Of the items of a list, the first of each key that is not taken. -/

namespace TransactScript

variable {ι κ κ' : Type} [DecidableEq κ] [DecidableEq κ']

/-- Of the items whose key is not taken, the first of each key. -/
def firsts (key : ι → κ) (taken : List κ) (is : List ι) : List ι :=
  (is.filter fun i => key i ∉ taken).eraseDupsBy fun i j => key i = key j

lemma firsts_cons (key : ι → κ) (taken : List κ) (i : ι) (is : List ι) :
    firsts key taken (i :: is) =
      if key i ∈ taken then firsts key taken is else i :: firsts key (taken ++ [key i]) is := by
  by_cases hi : key i ∈ taken
  · simp [firsts, hi]
  · simp only [firsts, hi, if_false, not_false_eq_true, decide_true, List.filter_cons_of_pos,
      List.eraseDupsBy_cons, List.filter_filter]
    congr 2
    refine List.filter_congr fun j _ => ?_
    simp [and_comm]

lemma firsts_eq_nil {key : ι → κ} {taken : List κ} {is : List ι} (h : ∀ i ∈ is, key i ∈ taken) :
    firsts key taken is = [] := by
  have hf : is.filter (fun i => key i ∉ taken) = [] := by simpa using h
  rw [firsts, hf]
  rfl

lemma key_mem_firsts (key : ι → κ) (taken : List κ) {is : List ι} {i : ι} (h : i ∈ is) :
    key i ∈ taken ∨ ∃ j ∈ firsts key taken is, key j = key i := by
  induction is generalizing taken with
  | nil => cases h
  | cons k is ih =>
    rw [firsts_cons]
    split
    · next hk =>
      rcases List.mem_cons.mp h with rfl | h
      · exact .inl hk
      · exact ih taken h
    · rcases List.mem_cons.mp h with rfl | h
      · exact .inr ⟨i, List.mem_cons_self, rfl⟩
      · rcases ih (taken ++ [key k]) h with hi | ⟨j, hj, he⟩
        · rcases List.mem_append.mp hi with hi | hi
          · exact .inl hi
          · exact .inr ⟨k, List.mem_cons_self, (List.mem_singleton.mp hi).symm⟩
        · exact .inr ⟨j, List.mem_cons_of_mem k hj, he⟩

lemma not_mem_taken_of_mem_firsts {key : ι → κ} {taken : List κ} {is : List ι} {i : ι}
    (h : i ∈ firsts key taken is) : key i ∉ taken := by
  induction is generalizing taken with
  | nil => cases h
  | cons k is ih =>
    rw [firsts_cons] at h
    split at h
    · exact ih h
    · next hk =>
      rcases List.mem_cons.mp h with rfl | h
      · exact hk
      · exact fun hi => ih h (List.mem_append_left _ hi)

lemma find?_of_mem_firsts {key : ι → κ} {taken : List κ} {is : List ι} {i : ι}
    (h : i ∈ firsts key taken is) : is.find? (fun j => key j == key i) = some i := by
  induction is generalizing taken with
  | nil => cases h
  | cons k is ih =>
    rw [firsts_cons] at h
    split at h
    · next hk =>
      have hne : key k ≠ key i := fun he => not_mem_taken_of_mem_firsts h (he ▸ hk)
      rw [List.find?_cons_of_neg (by simpa using hne), ih h]
    · rcases List.mem_cons.mp h with rfl | h
      · simp
      · have hne : key k ≠ key i := by
          intro he
          exact not_mem_taken_of_mem_firsts h (he ▸ List.mem_append_right _ List.mem_cons_self)
        rw [List.find?_cons_of_neg (by simpa using hne), ih h]

lemma firsts_congr {key : ι → κ} {key' : ι → κ'} {taken : List κ} {taken' : List κ'} {is : List ι}
    (ht : ∀ i ∈ is, key i ∈ taken ↔ key' i ∈ taken') (he : ∀ i ∈ is, ∀ j ∈ is, key i = key j ↔ key' i = key' j) :
    firsts key taken is = firsts key' taken' is := by
  induction is generalizing taken taken' with
  | nil => rfl
  | cons i is ih =>
    have he' : ∀ j ∈ is, ∀ k ∈ is, key j = key k ↔ key' j = key' k :=
      fun j hj k hk => he j (List.mem_cons_of_mem i hj) k (List.mem_cons_of_mem i hk)
    have hi := ht i List.mem_cons_self
    rw [firsts_cons, firsts_cons]
    by_cases h : key i ∈ taken
    · rw [if_pos h, if_pos (hi.mp h)]
      exact ih (fun j hj => ht j (List.mem_cons_of_mem i hj)) he'
    · rw [if_neg h, if_neg (hi.not.mp h)]
      refine congrArg _ (ih (fun j hj => ?_) he')
      simp only [List.mem_append, List.mem_singleton, ht j (List.mem_cons_of_mem i hj),
        he j (List.mem_cons_of_mem i hj) i List.mem_cons_self]

lemma nodup_firsts (key : ι → κ) (taken : List κ) (is : List ι) : ((firsts key taken is).map key).Nodup := by
  induction is generalizing taken with
  | nil => exact List.nodup_nil
  | cons i is ih =>
    rw [firsts_cons]
    split
    · exact ih taken
    · rw [List.map_cons, List.nodup_cons]
      refine ⟨fun hi => ?_, ih _⟩
      obtain ⟨j, hj, he⟩ := List.mem_map.mp hi
      exact not_mem_taken_of_mem_firsts hj (he ▸ List.mem_append_right _ List.mem_cons_self)

lemma mem_keys_firsts {key : ι → κ} {is : List ι} {k : κ} : k ∈ (firsts key [] is).map key ↔ k ∈ is.map key := by
  simp only [List.mem_map]
  constructor
  · rintro ⟨i, hi, rfl⟩
    exact ⟨i, List.mem_of_find?_eq_some (find?_of_mem_firsts hi), rfl⟩
  · rintro ⟨i, hi, rfl⟩
    exact (key_mem_firsts key [] hi).resolve_left List.not_mem_nil

lemma firsts_append (key : ι → κ) (taken : List κ) (is js : List ι) :
    firsts key taken (is ++ js) = firsts key taken is ++ firsts key (taken ++ is.map key) js := by
  induction is generalizing taken with
  | nil => simp [firsts]
  | cons i is ih =>
    rw [List.cons_append, firsts_cons, firsts_cons]
    split
    · next hi =>
      rw [ih]
      refine congrArg _ (firsts_congr (fun j _ => ?_) fun _ _ _ _ => Iff.rfl)
      have hkey : key j = key i → key j ∈ taken := fun he => he ▸ hi
      rw [List.mem_append, List.mem_append, List.map_cons, List.mem_cons, ← or_assoc, or_iff_left_of_imp hkey]
    · rw [ih, List.cons_append, List.append_assoc, List.map_cons, List.singleton_append]

lemma firsts_concat (key : ι → κ) (is : List ι) (i : ι) :
    firsts key [] (is ++ [i]) = if key i ∈ is.map key then firsts key [] is else firsts key [] is ++ [i] := by
  rw [firsts_append, List.nil_append, firsts_cons]
  split
  · exact List.append_nil _
  · rfl

end TransactScript
