import TransactScript.HostType
import TransactScript.Proofs.Text.Trim

/-! The text of a host type that has been read can be read again, and gives the same type. -/

namespace TransactScript

open Text

namespace HostKind

/-- The name of the kind is one that reading keeps, and it is not the name of another kind. -/
structure Stable (k : HostKind) : Prop where
  ne_nil : k.name.toList ≠ []
  trimmed : Trimmed k.name.toList
  ofName : ofName k.name = k

lemma stable_known : ∀ k ∈ known, k.Stable := by
  have h : ∀ k ∈ known, k.name.toList ≠ [] ∧ Trimmed k.name.toList ∧ ofName k.name = k := by decide
  intro k hk
  exact ⟨(h k hk).1, (h k hk).2.1, (h k hk).2.2⟩

lemma not_marked_known : ∀ k ∈ known, k.name.toList.getLast? ≠ some '?' := by
  decide

lemma other_not_known {name : String} : other name ∉ known := by
  simp [known]

lemma mem_known {k : HostKind} (h : ∀ name, k ≠ other name) : k ∈ known := by
  cases k with
  | other name => exact (h name rfl).elim
  | _ => decide

lemma ofName_cases (s : String) : ofName s ∈ known ∨ ofName s = other s := by
  rw [ofName]
  cases h : known.find? fun k => k.name == s || k.aliases.contains s with
  | some k => exact .inl (List.mem_of_find?_eq_some h)
  | none => exact .inr rfl

lemma ofName_other {s name : String} (h : ofName s = other name) :
    name = s ∧ ∀ k ∈ known, name ≠ k.name ∧ name ∉ k.aliases := by
  rw [ofName] at h
  cases hf : known.find? fun k => k.name == s || k.aliases.contains s with
  | some k =>
    rw [hf] at h
    obtain rfl : k = other name := h
    exact (other_not_known (List.mem_of_find?_eq_some hf)).elim
  | none =>
    rw [hf] at h
    obtain rfl : s = name := other.inj h
    refine ⟨rfl, fun k hk => ?_⟩
    have hno := List.find?_eq_none.mp hf k hk
    simp only [Bool.or_eq_true, beq_iff_eq, List.contains_iff_mem, not_or] at hno
    exact ⟨fun he => hno.1 he.symm, hno.2⟩

lemma stable_ofName {cs : List Char} (hne : cs ≠ []) (ht : Trimmed cs) : (ofName (String.ofList cs)).Stable := by
  rcases ofName_cases (String.ofList cs) with hk | ho
  · exact stable_known _ hk
  · rw [ho]
    constructor
    · simpa [name] using hne
    · simpa [name] using ht
    · exact ho

end HostKind

namespace HostType

/-- The name in a text, without the blanks around it and the mark behind it. -/
def baseName (raw : String) : List Char :=
  trimEnd (dropLastIf '?' (trim raw.toList))

def isMarked (raw : String) : Bool :=
  (trim raw.toList).getLast? = some '?'

lemma parse_eq (raw : String) : parse raw =
    if baseName raw = [] then
      .error (.schemaParse ("empty host type name in '" ++ String.ofList (trim raw.toList) ++ "'"))
    else .ok ⟨HostKind.ofName (String.ofList (baseName raw)), isMarked raw⟩ := by
  by_cases hm : (trim raw.toList).getLast? = some '?'
  · simp [parse, baseName, isMarked, dropLastIf, hm]
  · simp [parse, baseName, isMarked, dropLastIf, hm, (trimmed_trim raw.toList).trimEnd_eq]

lemma exists_error_iff {raw : String} :
    (∃ f, parse raw = .error f) ↔ trim raw.toList = [] ∨ trim raw.toList = ['?'] := by
  rw [← trimEnd_dropLastIf_trim, parse_eq, baseName]
  by_cases h : trimEnd (dropLastIf '?' (trim raw.toList)) = []
  · simp [h]
  · simp [h]

lemma trimmed_baseName (raw : String) : Trimmed (baseName raw) :=
  trimmed_trimEnd_dropLastIf '?' raw.toList

lemma isMarked_of_baseName {raw : String} (h : (baseName raw).getLast? = some '?') : isMarked raw = true := by
  rw [isMarked, decide_eq_true_eq]
  by_contra hm
  rw [baseName, dropLastIf, if_neg hm, (trimmed_trim _).trimEnd_eq] at h
  exact hm h

/-- A type of which some text can be read: a name that ends in the mark is the name of a nullable type. -/
structure Written (t : HostType) : Prop where
  stable : t.kind.Stable
  marked : t.kind.name.toList.getLast? = some '?' → t.nullable = true

lemma parse_ok {raw : String} {t : HostType} (h : parse raw = .ok t) :
    baseName raw ≠ [] ∧ t = ⟨HostKind.ofName (String.ofList (baseName raw)), isMarked raw⟩ := by
  rw [parse_eq] at h
  by_cases hb : baseName raw = []
  · rw [if_pos hb] at h
    cases h
  · rw [if_neg hb] at h
    exact ⟨hb, (Except.ok.inj h).symm⟩

lemma written_of_parse {raw : String} {t : HostType} (h : parse raw = .ok t) : t.Written := by
  obtain ⟨hne, rfl⟩ := parse_ok h
  constructor
  · dsimp only
    exact HostKind.stable_ofName hne (trimmed_baseName raw)
  · dsimp only
    intro hlast
    rcases HostKind.ofName_cases (String.ofList (baseName raw)) with hk | ho
    · exact (HostKind.not_marked_known _ hk hlast).elim
    · rw [ho, HostKind.name, String.toList_ofList] at hlast
      exact isMarked_of_baseName hlast

namespace Written

variable {t : HostType}

lemma trim_text (h : t.Written) : trim t.text.toList = t.text.toList := by
  apply Trimmed.trim_eq
  rw [text]
  split
  · rw [String.toList_append]
    constructor
    · intro c hc
      rw [List.head?_append_of_ne_nil _ h.stable.ne_nil] at hc
      exact h.stable.trimmed.first c hc
    · intro c hc
      obtain rfl : '?' = c := by simpa using hc
      rfl
  · exact h.stable.trimmed

lemma baseName_text (h : t.Written) : baseName t.text = t.kind.name.toList := by
  rw [baseName, h.trim_text, text, dropLastIf]
  by_cases hn : t.nullable = true
  · simp [hn, h.stable.trimmed.trimEnd_eq]
  · have hlast : t.kind.name.toList.getLast? ≠ some '?' := fun hl => hn (h.marked hl)
    simp [hn, hlast, h.stable.trimmed.trimEnd_eq]

lemma isMarked_text (h : t.Written) : isMarked t.text = t.nullable := by
  rw [isMarked, h.trim_text, text]
  by_cases hn : t.nullable = true
  · simp [hn]
  · have hlast : t.kind.name.toList.getLast? ≠ some '?' := fun hl => hn (h.marked hl)
    simp [hn, hlast]

lemma parse_text (h : t.Written) : parse t.text = .ok t := by
  rw [parse_eq, h.baseName_text, if_neg h.stable.ne_nil, String.ofList_toList, h.stable.ofName, h.isMarked_text]

end Written

lemma kind_other {raw name : String} {t : HostType} (h : parse raw = .ok t) (hk : t.kind = .other name) :
    (∀ k : HostKind, (∀ name', k ≠ .other name') → name ≠ k.name ∧ name ∉ k.aliases) ∧ Trimmed name.toList ∧
      (name.toList.getLast? = some '?' → t.nullable = true) := by
  have hw := written_of_parse h
  have hname : t.kind.name = name := by rw [hk, HostKind.name]
  refine ⟨?_, hname ▸ hw.stable.trimmed, hname ▸ hw.marked⟩
  obtain ⟨_, rfl⟩ := parse_ok h
  dsimp only at hk
  intro k hother
  exact (HostKind.ofName_other hk).2 k (HostKind.mem_known hother)

theorem text_of_parsed (raw : String) :
    ((∃ f, parse raw = .error f) ↔ trim raw.toList = [] ∨ trim raw.toList = ['?']) ∧
      ∀ t, parse raw = .ok t →
        (t.nullable = true ↔ (trim raw.toList).getLast? = some '?') ∧
        parse t.text = .ok t ∧ (parse t.text).map text = .ok t.text ∧
        (∀ raw' t', parse raw' = .ok t' → t'.text = t.text → t' = t) ∧
        ∀ name, t.kind = .other name →
          (∀ k : HostKind, (∀ name', k ≠ .other name') → name ≠ k.name ∧ name ∉ k.aliases) ∧
          (∀ c, name.toList.head? = some c ∨ name.toList.getLast? = some c → isBlank c = false) ∧
          (name.toList.getLast? = some '?' → t.nullable = true) := by
  refine ⟨exists_error_iff, fun t ht => ?_⟩
  have hparse : parse t.text = .ok t := (written_of_parse ht).parse_text
  refine ⟨?_, hparse, by rw [hparse]; rfl, ?_, ?_⟩
  · obtain ⟨_, rfl⟩ := parse_ok ht
    exact decide_eq_true_iff
  · intro raw' t' ht' htext
    have hparse' : parse t'.text = .ok t' := (written_of_parse ht').parse_text
    rw [htext, hparse] at hparse'
    exact (Except.ok.inj hparse').symm
  · intro name hk
    obtain ⟨hknown, htrimmed, hmarked⟩ := kind_other ht hk
    refine ⟨hknown, ?_, hmarked⟩
    rintro c (hc | hc)
    · exact htrimmed.first c hc
    · exact htrimmed.last c hc

end HostType

end TransactScript
