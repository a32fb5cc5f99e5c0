import TransactScript.Name
import TransactScript.Proofs.Logged

/-! With which faults an operation can fail. An operation on a list fails for its first item that it fails for, and
reading a name fails for what is wrong with the name only. -/

namespace TransactScript

def FailsOnly {α : Type} (R : Fault → Prop) (x : Except Fault α) : Prop :=
  ∀ f, x = .error f → R f

namespace FailsOnly

variable {α β ι : Type} {R R' : Fault → Prop}

lemma ok (a : α) : FailsOnly R (.ok a : Except Fault α) := by
  intro f h
  cases h

lemma error {f : Fault} (h : R f) : FailsOnly R (.error f : Except Fault α) := by
  intro f' hf
  cases hf
  exact h

lemma mono {x : Except Fault α} (h : FailsOnly R x) (hr : ∀ f, R f → R' f) : FailsOnly R' x :=
  fun f hf => hr f (h f hf)

lemma ite {c : Prop} [Decidable c] {x y : Except Fault α} (hx : FailsOnly R x) (hy : FailsOnly R y) :
    FailsOnly R (if c then x else y) := by
  split
  · exact hx
  · exact hy

lemma map {x : Except Fault α} (h : FailsOnly R x) (g : α → β) : FailsOnly R (x.map g) := by
  cases x with
  | ok a => exact ok _
  | error f => exact error (h f rfl)

lemma bind {x : Except Fault α} {g : α → Except Fault β} (h : FailsOnly R x)
    (hg : ∀ a, x = .ok a → FailsOnly R (g a)) : FailsOnly R (x >>= g) := by
  cases x with
  | ok a => exact hg a rfl
  | error f => exact error (h f rfl)

lemma mapM {g : ι → Except Fault β} (h : ∀ i, FailsOnly R (g i)) (is : List ι) : FailsOnly R (is.mapM g) := by
  induction is with
  | nil => exact ok []
  | cons i is ih =>
    rw [List.mapM_cons]
    exact (h i).bind fun b _ => ih.bind fun bs _ => ok (b :: bs)

lemma logged_bind {x : Logged α} {g : α → Logged β} (h : FailsOnly R x.outcome)
    (hg : ∀ a, x.outcome = .ok a → FailsOnly R (g a).outcome) : FailsOnly R (x >>= g).outcome := by
  rw [Logged.outcome_bind]
  exact h.bind hg

lemma foldlM {I : α → Prop} {g : α → ι → Logged α} (hi : ∀ a i b, I a → (g a i).outcome = .ok b → I b)
    {is : List ι} (hg : ∀ a, ∀ i ∈ is, I a → FailsOnly R (g a i).outcome) {a : α} (ha : I a) :
    FailsOnly R (is.foldlM g a).outcome := by
  induction is generalizing a with
  | nil => exact ok a
  | cons i is ih =>
    rw [List.foldlM_cons]
    refine (hg a i List.mem_cons_self ha).logged_bind fun b hb => ?_
    exact ih (fun c j hj => hg c j (List.mem_cons_of_mem i hj)) (hi a i b ha hb)

end FailsOnly

section First

variable {β ι : Type} {g : ι → Except Fault β} {i : ι} {is : List ι} {b : β} {f f' : Fault}

/-- The fault is that of the first item for which the operation fails. -/
def FirstFault (g : ι → Except Fault β) (is : List ι) (f : Fault) : Prop :=
  ∃ before i after, is = before ++ i :: after ∧ (∀ j ∈ before, ∃ b, g j = .ok b) ∧ g i = .error f

lemma exists_map_iff {α : Type} {x : Except Fault α} {h : α → β} : (∃ b, x.map h = .ok b) ↔ ∃ a, x = .ok a := by
  cases x <;> simp

namespace FirstFault

lemma not_nil : ¬ FirstFault g [] f := by
  rintro ⟨before, i, after, h, _, _⟩
  cases before <;> cases h

lemma cons_error (hi : g i = .error f') : FirstFault g (i :: is) f ↔ f' = f := by
  constructor
  · rintro ⟨before, j, after, h, hbefore, hj⟩
    cases before with
    | nil =>
      obtain ⟨rfl, rfl⟩ := List.cons.inj h
      exact Except.error.inj (hi.symm.trans hj)
    | cons k before =>
      obtain ⟨rfl, rfl⟩ := List.cons.inj h
      obtain ⟨b, hb⟩ := hbefore i List.mem_cons_self
      rw [hi] at hb
      cases hb
  · rintro rfl
    exact ⟨[], i, is, rfl, by simp, hi⟩

lemma cons_ok (hi : g i = .ok b) : FirstFault g (i :: is) f ↔ FirstFault g is f := by
  constructor
  · rintro ⟨before, j, after, h, hbefore, hj⟩
    cases before with
    | nil =>
      obtain ⟨rfl, rfl⟩ := List.cons.inj h
      rw [hi] at hj
      cases hj
    | cons k before =>
      obtain ⟨rfl, rfl⟩ := List.cons.inj h
      exact ⟨before, j, after, rfl, fun k hk => hbefore k (List.mem_cons_of_mem _ hk), hj⟩
  · rintro ⟨before, j, after, rfl, hbefore, hj⟩
    refine ⟨i :: before, j, after, rfl, ?_, hj⟩
    intro k hk
    rcases List.mem_cons.mp hk with rfl | hk
    · exact ⟨b, hi⟩
    · exact hbefore k hk

lemma exists_iff : (∃ f, FirstFault g is f) ↔ ∃ i ∈ is, ∃ f, g i = .error f := by
  constructor
  · rintro ⟨f, before, i, after, rfl, _, hi⟩
    exact ⟨i, List.mem_append_right before List.mem_cons_self, f, hi⟩
  · intro h
    induction is with
    | nil => simp at h
    | cons i is ih =>
      cases hi : g i with
      | error f => exact ⟨f, (cons_error hi).mpr rfl⟩
      | ok b =>
        obtain ⟨j, hj, f, hf⟩ := h
        rcases List.mem_cons.mp hj with rfl | hj
        · rw [hi] at hf
          cases hf
        · obtain ⟨f', hfirst⟩ := ih ⟨j, hj, f, hf⟩
          exact ⟨f', (cons_ok hi).mpr hfirst⟩

lemma map_iff {α : Type} {g : ι → Except Fault α} (h : ι → α → β) :
    FirstFault (fun i => (g i).map (h i)) is f ↔ FirstFault g is f := by
  have herror (i : ι) : (g i).map (h i) = .error f ↔ g i = .error f := by
    cases g i <;> simp
  simp only [FirstFault, exists_map_iff, herror]

lemma mapM_iff : is.mapM g = .error f ↔ FirstFault g is f := by
  induction is with
  | nil =>
    constructor
    · intro h
      cases h
    · exact fun h => (not_nil h).elim
  | cons i is ih =>
    rw [List.mapM_cons]
    cases hi : g i with
    | error f' =>
      rw [cons_error hi]
      exact ⟨Except.error.inj, congrArg _⟩
    | ok b =>
      rw [cons_ok hi, ← ih, Logged.ok_bind]
      cases is.mapM g with
      | error f' => exact Iff.rfl
      | ok bs =>
        constructor <;>
        · intro h
          cases h

lemma exists_mapM_iff : (∃ bs, is.mapM g = .ok bs) ↔ ∀ i ∈ is, ∃ b, g i = .ok b := by
  constructor
  · rintro ⟨bs, hbs⟩ i hi
    cases hg : g i with
    | ok b => exact ⟨b, rfl⟩
    | error f =>
      obtain ⟨f', hf⟩ := exists_iff.mpr ⟨i, hi, f, hg⟩
      cases hbs.symm.trans (mapM_iff.mpr hf)
  · intro h
    cases hm : is.mapM g with
    | ok bs => exact ⟨bs, rfl⟩
    | error f =>
      obtain ⟨i, hi, f', hf⟩ := exists_iff.mp ⟨f, mapM_iff.mp hm⟩
      obtain ⟨b, hb⟩ := h i hi
      cases hb.symm.trans hf

end FirstFault

end First

namespace Fault

def IsInvalidIdentifier : Fault → Prop
  | invalidIdentifier .. => True
  | _ => False

def Concerns (raw : String) (f : Fault) : Prop :=
  ∃ reason, f = invalidIdentifier raw reason

lemma Concerns.isInvalidIdentifier {raw : String} {f : Fault} (h : Concerns raw f) : f.IsInvalidIdentifier := by
  obtain ⟨reason, rfl⟩ := h
  trivial

end Fault

lemma Identifier.parseWithin_concerns (whole body : String) :
    FailsOnly (Fault.Concerns whole) (parseWithin whole body) := by
  refine .ite (.error ⟨_, rfl⟩) ?_
  split
  · exact .ok _
  · exact .error ⟨_, rfl⟩

lemma VariableName.parse_concerns (raw : String) : FailsOnly (Fault.Concerns raw) (parse raw) :=
  .ite (.error ⟨_, rfl⟩) (.ite (.error ⟨_, rfl⟩) ((Identifier.parseWithin_concerns raw _).map _))

lemma Destination.parse_concerns (raw : String) : FailsOnly (Fault.Concerns raw) (parse raw) :=
  .ite ((VariableName.parse_concerns raw).map _) ((Identifier.parseWithin_concerns raw raw).map _)

lemma Identifier.parseWithin_faults (whole body : String) :
    FailsOnly Fault.IsInvalidIdentifier (parseWithin whole body) :=
  (parseWithin_concerns whole body).mono fun _ => Fault.Concerns.isInvalidIdentifier

lemma VariableName.parse_faults (raw : String) : FailsOnly Fault.IsInvalidIdentifier (parse raw) :=
  (parse_concerns raw).mono fun _ => Fault.Concerns.isInvalidIdentifier

lemma Destination.parse_faults (raw : String) : FailsOnly Fault.IsInvalidIdentifier (parse raw) :=
  (parse_concerns raw).mono fun _ => Fault.Concerns.isInvalidIdentifier

end TransactScript
