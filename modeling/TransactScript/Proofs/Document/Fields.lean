import TransactScript.Proofs.Document.Schemas

/-! The fields of an object are found by their names, wherever they stand and whatever stands beside them. -/

namespace TransactScript.Document

section Lookup

variable {α β : Type} {entries : List (String × α)} {key : String} {a : α}

lemma lookup_map (f : α → β) (entries : List (String × α)) (key : String) :
    (entries.map fun e => (e.1, f e.2)).lookup key = (entries.lookup key).map f := by
  induction entries with
  | nil => rfl
  | cons e entries ih =>
    rw [List.map_cons, List.lookup_cons, List.lookup_cons, ih]
    split <;> rfl

lemma lookup_filter {p : String → Bool} (hp : p key = true) (entries : List (String × α)) :
    (entries.filter fun e => p e.1).lookup key = entries.lookup key := by
  induction entries with
  | nil => rfl
  | cons e entries ih =>
    by_cases hkey : key = e.1
    · subst hkey
      rw [List.filter_cons, if_pos hp, List.lookup_cons_self, List.lookup_cons_self]
    · have hno : (key == e.1) = false := beq_eq_false_iff_ne.mpr hkey
      rw [List.lookup_cons, hno, ← ih, List.filter_cons]
      split
      · rw [List.lookup_cons, hno]
      · rfl

lemma filter_key_of_nodup (hk : (keys entries).Nodup) (h : entries.lookup key = some a) :
    entries.filter (fun e => e.1 == key) = [(key, a)] := by
  induction entries with
  | nil => cases h
  | cons e entries ih =>
    obtain ⟨hnew, hk⟩ := List.nodup_cons.mp hk
    by_cases hkey : key = e.1
    · subst hkey
      rw [List.lookup_cons_self] at h
      obtain rfl := Option.some.inj h
      have hrest : entries.filter (fun d => d.1 == e.1) = [] := by
        rw [List.filter_eq_nil_iff]
        intro d hd he
        exact hnew (List.mem_map.mpr ⟨d, hd, beq_iff_eq.mp he⟩)
      rw [List.filter_cons, if_pos (beq_self_eq_true e.1), hrest]
    · rw [List.lookup_cons, beq_eq_false_iff_ne.mpr hkey] at h
      rw [List.filter_cons, if_neg (by simpa using Ne.symm hkey), ih hk h]

lemma filter_names {names : List String} {p : String → Bool} (hp : ∀ key ∈ names, p key = true)
    (entries : List (String × α)) : (entries.filter fun e => p e.1).filter (fun e => names.contains e.1) =
      entries.filter fun e => names.contains e.1 := by
  rw [List.filter_filter]
  refine List.filter_congr fun e _ => ?_
  by_cases he : e.1 ∈ names
  · simp [he, hp e.1 he]
  · simp [he]

lemma filter_subset {names own : List String} (hown : own ⊆ names) (entries : List (String × α)) :
    (entries.filter fun e => names.contains e.1).filter (fun e => own.contains e.1) =
      entries.filter fun e => own.contains e.1 :=
  filter_names (p := names.contains) (fun _ hkey => List.contains_iff_mem.mpr (hown hkey)) entries

/-- None of the names stands twice. Any other name may. -/
def Once (names : List String) (entries : List (String × α)) : Prop :=
  (keys (entries.filter fun e => names.contains e.1)).Nodup

instance (names : List String) (entries : List (String × α)) : Decidable (Once names entries) :=
  inferInstanceAs (Decidable (List.Nodup _))

namespace Once

variable {names own : List String}

lemma of_nodup (h : (keys entries).Nodup) (names : List String) : Once names entries :=
  h.sublist (List.filter_sublist.map _)

lemma mono (h : Once names entries) (hown : own ⊆ names) : Once own entries := by
  rw [Once, ← filter_subset hown]
  exact h.sublist (List.filter_sublist.map _)

lemma filter (h : Once names entries) (p : String × α → Bool) : Once names (entries.filter p) := by
  rw [Once, List.filter_comm]
  exact h.sublist (List.filter_sublist.map _)

lemma map (h : Once names entries) (f : α → β) : Once names (entries.map fun e => (e.1, f e.2)) := by
  rw [Once, List.filter_map, keys, List.map_map]
  exact h

lemma knownFields? (h : Once names entries) :
    Document.knownFields? names entries = some (entries.filter fun e => names.contains e.1) :=
  if_pos h

lemma filter_key (h : Once names entries) (hkey : key ∈ names) (ha : entries.lookup key = some a) :
    entries.filter (fun e => e.1 == key) = [(key, a)] := by
  have hone : Once [key] entries := h.mono (by simpa using hkey)
  have hfilter : (entries.filter fun e => [key].contains e.1) = entries.filter fun e => e.1 == key := by
    simp only [List.contains_cons, List.contains_nil, Bool.or_false]
  have hfound := filter_key_of_nodup hone ((lookup_filter (p := [key].contains) (by simp) entries).trans ha)
  simpa only [hfilter, List.filter_filter, Bool.and_self] using hfound

lemma snd_eq (h : Once names entries) (hkey : key ∈ names) (ha : entries.lookup key = some a) {e : String × α}
    (he : e ∈ entries) (hk : e.1 = key) : e.2 = a := by
  have hm : e ∈ entries.filter fun e => e.1 == key := List.mem_filter.mpr ⟨he, beq_iff_eq.mpr hk⟩
  rw [h.filter_key hkey ha, List.mem_singleton] at hm
  rw [hm]

end Once

end Lookup

section Objects

variable {α : Type} {entries : List (String × Json)}

/-- The entry of the key holds the value. If there is none, the value is the one that is assumed then. -/
def Tells (entries : List (String × Json)) (key : String) (encode : α → Json) (value assumed : α) : Prop :=
  entries.lookup key = some (encode value) ∨ entries.lookup key = none ∧ value = assumed

variable {key : String} {encode : α → Json} {value assumed : α}

lemma tells_filter {p : String → Bool} (hp : p key = true) :
    Tells (entries.filter fun e => p e.1) key encode value assumed ↔ Tells entries key encode value assumed := by
  rw [Tells, lookup_filter hp, Tells]

lemma Tells.map (h : Tells entries key encode value assumed) {ν : Type} (f : Json → ν) :
    (entries.map fun e => (e.1, f e.2)).lookup key = some (f (encode value)) ∨
      (entries.map fun e => (e.1, f e.2)).lookup key = none ∧ value = assumed := by
  rw [lookup_map]
  rcases h with h | ⟨h, hvalue⟩
  · exact .inl (congrArg (Option.map f) h)
  · exact .inr ⟨congrArg (Option.map f) h, hvalue⟩

lemma Tells.fieldOr (h : Tells entries key encode value assumed) {decode : Json → Option α}
    (hd : decode (encode value) = some value) : fieldOr entries key assumed decode = some value := by
  rw [Document.fieldOr]
  rcases h with h | ⟨h, rfl⟩
  · rw [h]
    exact hd
  · rw [h]
    rfl

variable {own : List String}

lemma field_filter (hkey : own.contains key = true) (entries : List (String × Json)) (decode : Json → Option α) :
    field (entries.filter fun e => own.contains e.1) key decode = field entries key decode := by
  rw [field, field, lookup_filter hkey]

lemma fieldOr_filter (hkey : own.contains key = true) (entries : List (String × Json)) (assumed : α)
    (decode : Json → Option α) :
    fieldOr (entries.filter fun e => own.contains e.1) key assumed decode = fieldOr entries key assumed decode := by
  rw [fieldOr, fieldOr, lookup_filter hkey]

lemma ownFields?_object (h : Once own entries) : ownFields? own (Json.object entries) =
    some (entries.filter fun e => own.contains e.1, entries.filter fun e => !own.contains e.1) := by
  have hentries : Node.entries? (Json.object entries) = some entries := rfl
  rw [ownFields?, hentries, some_bind, h.knownFields?]
  rfl

lemma ownFields?_ok {j : Json} {fields rest : List (String × Json)}
    (h : ownFields? own j = some (fields, rest)) : ∃ entries, j = .object entries ∧ Once own entries ∧
      fields = (entries.filter fun e => own.contains e.1) ∧ rest = entries.filter fun e => !own.contains e.1 := by
  cases j with
  | object entries =>
    have honce : Once own entries := by
      by_contra hno
      have hnone : knownFields? own entries = none := if_neg hno
      have hentries : Node.entries? (Json.object entries) = some entries := rfl
      rw [ownFields?, hentries, some_bind, hnone] at h
      cases h
    rw [ownFields?_object honce] at h
    cases h
    exact ⟨entries, rfl, honce, rfl, rfl⟩
  | _ => cases h

end Objects

end TransactScript.Document
