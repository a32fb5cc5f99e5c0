import Mathlib.Tactic.Lemma
import TransactScript.Event

/-! Outcomes of logged operations: they compose as if nothing were reported. What is reported ends where an operation
fails. -/

namespace TransactScript.Logged

variable {α β γ δ ι : Type}

@[simp] lemma outcome_pure (a : α) : (pure a : Logged α).outcome = .ok a := rfl

@[simp] lemma outcome_fail (f : Fault) : (fail f : Logged α).outcome = .error f := rfl

@[simp] lemma outcome_report (e : Event) : (report e).outcome = .ok () := rfl

@[simp] lemma outcome_lift (x : Except Fault α) : (liftM x : Logged α).outcome = x := rfl

@[simp] lemma ok_bind (a : α) (f : α → Except Fault β) : (.ok a : Except Fault α) >>= f = f a := rfl

@[simp] lemma error_bind (e : Fault) (f : α → Except Fault β) :
    (.error e : Except Fault α) >>= f = .error e := rfl

@[simp] lemma ok_map (f : α → β) (a : α) : (.ok a : Except Fault α).map f = .ok (f a) := rfl

@[simp] lemma error_map (f : α → β) (e : Fault) : (.error e : Except Fault α).map f = .error e := rfl

lemma fail_bind (e : Fault) (f : α → Logged β) : (fail e : Logged α) >>= f = fail e := rfl

lemma lift_ok_bind (a : α) (f : α → Logged β) : (liftM (.ok a : Except Fault α) : Logged α) >>= f = f a := rfl

lemma lift_error_bind (e : Fault) (f : α → Logged β) :
    (liftM (.error e : Except Fault α) : Logged α) >>= f = fail e := rfl

@[simp] lemma outcome_bind (x : Logged α) (f : α → Logged β) :
    (x >>= f).outcome = x.outcome >>= fun a => (f a).outcome := by
  simp only [bind, andThen]
  cases x.outcome <;> rfl

@[simp] lemma outcome_map (f : α → β) (x : Logged α) : (f <$> x).outcome = x.outcome.map f := by
  change (x >>= fun a => pure (f a)).outcome = _
  rw [outcome_bind]
  cases x.outcome <;> rfl

@[simp] lemma events_map (f : α → β) (x : Logged α) : (f <$> x).events = x.events := by
  change (x >>= fun a => pure (f a)).events = _
  simp only [bind, andThen, pure]
  cases x.outcome <;> simp

lemma events_bind_ok {x : Logged α} {a : α} (h : x.outcome = .ok a) (f : α → Logged β) :
    (x >>= f).events = x.events ++ (f a).events := by
  simp only [bind, andThen, h]

lemma events_bind_error {x : Logged α} {e : Fault} (h : x.outcome = .error e) (f : α → Logged β) :
    (x >>= f).events = x.events := by
  simp only [bind, andThen, h]

instance : LawfulMonad Logged :=
  LawfulMonad.mk' Logged
    (by
      rintro α ⟨outcome, events⟩
      cases outcome <;> simp [Functor.map, andThen])
    (by
      intro α β a f
      simp [pure, bind, andThen])
    (by
      rintro α β γ ⟨outcome, events⟩ f g
      cases outcome with
      | error e => rfl
      | ok a =>
        simp only [bind, andThen]
        cases (f a).outcome <;> simp)

lemma map_ok {x : Logged α} {a : α} (h : x.outcome = .ok a) (f : α → β) : f <$> x = ⟨.ok (f a), x.events⟩ := by
  obtain ⟨outcome, events⟩ := x
  cases h
  simp [Functor.map, andThen]

lemma mapM_outcome {f : α → Logged β} {g : α → β} (h : ∀ a, (f a).outcome = .ok (g a)) (as : List α) :
    (as.mapM f).outcome = .ok (as.map g) := by
  induction as with
  | nil => rfl
  | cons a as ih => simp [List.mapM_cons, h a, ih]

lemma except_bind_ok {x : Except Fault α} {f : α → Except Fault β} {b : β} (h : x >>= f = .ok b) :
    ∃ a, x = .ok a ∧ f a = .ok b := by
  cases x with
  | ok a => exact ⟨a, rfl, h⟩
  | error e => cases h

lemma bind_ok {x : Logged α} {f : α → Logged β} {b : β} (h : (x >>= f).outcome = .ok b) :
    ∃ a, x.outcome = .ok a ∧ (f a).outcome = .ok b := by
  rw [outcome_bind] at h
  exact except_bind_ok h

lemma foldlM_ok {R : α → α → Prop} (hr : ∀ a, R a a) (ht : ∀ a b c, R a b → R b c → R a c)
    {f : α → ι → Logged α} (hf : ∀ a i b, (f a i).outcome = .ok b → R a b)
    {is : List ι} {a b : α} (h : (is.foldlM f a).outcome = .ok b) : R a b := by
  induction is generalizing a with
  | nil =>
    cases h
    exact hr _
  | cons i is ih =>
    rw [List.foldlM_cons] at h
    obtain ⟨c, hc, h⟩ := bind_ok h
    exact ht _ _ _ (hf _ _ _ hc) (ih h)

lemma ok_of_foldlM_lift {f : α → β → Logged α} {g : ι → Except Fault β} {is : List ι} {a b : α}
    (h : (is.foldlM (fun a i => do f a (← g i)) a : Logged α).outcome = .ok b) : ∀ i ∈ is, ∃ c, g i = .ok c := by
  induction is generalizing a with
  | nil => simp
  | cons i is ih =>
    rw [List.foldlM_cons] at h
    obtain ⟨a', ha, h⟩ := bind_ok h
    obtain ⟨c, hc, _⟩ := bind_ok ha
    intro j hj
    rcases List.mem_cons.mp hj with rfl | hj
    · exact ⟨c, hc⟩
    · exact ih h j hj

lemma foldlM_congr {I : α → Prop} {f g : α → ι → Logged α} {is : List ι}
    (hi : ∀ a i b, I a → (f a i).outcome = .ok b → I b)
    (h : ∀ a, I a → ∀ i ∈ is, (f a i).outcome = (g a i).outcome) {a : α} (ha : I a) :
    (is.foldlM f a).outcome = (is.foldlM g a).outcome := by
  induction is generalizing a with
  | nil => rfl
  | cons i is ih =>
    rw [List.foldlM_cons, List.foldlM_cons, outcome_bind, outcome_bind, ← h a ha i List.mem_cons_self]
    cases hb : (f a i).outcome with
    | error e => rfl
    | ok b => exact ih (fun c hc j hj => h c hc j (List.mem_cons_of_mem i hj)) (hi a i b ha hb)

lemma bind_simulation {f : α → β} {g : γ → δ} {x : Logged α} {y : Logged β}
    {k : α → Logged γ} {l : β → Logged δ} (h : y.outcome = x.outcome.map f)
    (hk : ∀ a, (l (f a)).outcome = (k a).outcome.map g) :
    (y >>= l).outcome = (x >>= k).outcome.map g := by
  rw [outcome_bind, outcome_bind, h]
  cases x.outcome with
  | ok a => exact hk a
  | error e => rfl

lemma foldlM_simulation {f : α → β} {k : α → ι → Logged α} {l : β → ι → Logged β}
    (hk : ∀ a i, (l (f a) i).outcome = (k a i).outcome.map f) (is : List ι) (a : α) :
    (is.foldlM l (f a)).outcome = (is.foldlM k a).outcome.map f := by
  induction is generalizing a with
  | nil => rfl
  | cons i is ih =>
    rw [List.foldlM_cons, List.foldlM_cons]
    exact bind_simulation (hk a i) ih

lemma foldlM_map {f : α → β} {k : α → ι → Logged α} {l : β → ι → Logged β}
    (hk : ∀ a i, l (f a) i = f <$> k a i) (is : List ι) (a : α) : is.foldlM l (f a) = f <$> is.foldlM k a := by
  induction is generalizing a with
  | nil => simp
  | cons i is ih =>
    rw [List.foldlM_cons, List.foldlM_cons, hk, bind_map_left, map_bind]
    exact congrArg _ (funext ih)

/-- Nothing is reported if it fails. -/
def FailsSilently (x : Logged α) : Prop :=
  ∀ e, x.outcome = .error e → x.events = []

lemma failsSilently_fail (e : Fault) : FailsSilently (fail e : Logged α) :=
  fun _ _ => rfl

lemma FailsSilently.lift_bind {x : Except Fault α} {f : α → Logged β} (h : ∀ a, x = .ok a → FailsSilently (f a)) :
    FailsSilently (liftM x >>= f) := by
  cases x with
  | ok a =>
    change FailsSilently (pure a >>= f)
    rw [pure_bind]
    exact h a rfl
  | error e => exact failsSilently_fail e

/-- A run that fails has reported what it did up to the item at which it failed. -/
lemma foldlM_error {f : α → ι → Logged α} (hf : ∀ a i, FailsSilently (f a i)) {is : List ι} {a : α} {e : Fault}
    (h : (is.foldlM f a).outcome = .error e) : ∃ done i rest b, is = done ++ i :: rest ∧
      (done.foldlM f a).outcome = .ok b ∧ (is.foldlM f a).events = (done.foldlM f a).events := by
  induction is generalizing a with
  | nil => cases h
  | cons i is ih =>
    rw [List.foldlM_cons] at h ⊢
    cases hi : (f a i).outcome with
    | error e' =>
      refine ⟨[], i, is, a, rfl, rfl, ?_⟩
      rw [events_bind_error hi, hf a i e' hi]
      rfl
    | ok b =>
      rw [outcome_bind, hi, ok_bind] at h
      obtain ⟨done, j, rest, c, rfl, hc, hevents⟩ := ih h
      refine ⟨i :: done, j, rest, c, rfl, ?_, ?_⟩
      · rw [List.foldlM_cons, outcome_bind, hi, ok_bind, hc]
      · rw [List.foldlM_cons, events_bind_ok hi, events_bind_ok hi, hevents]

section ReportsOnly

variable {P : Event → Prop}

/-- All that is reported is of the given kind. -/
def ReportsOnly (P : Event → Prop) (x : Logged α) : Prop :=
  ∀ e ∈ x.events, P e

lemma ReportsOnly.pure (a : α) : ReportsOnly P (Pure.pure a) :=
  nofun

lemma ReportsOnly.report {e : Event} (h : P e) : ReportsOnly P (report e) := by
  intro e' he
  rwa [List.mem_singleton.mp he]

lemma ReportsOnly.bind {x : Logged α} {f : α → Logged β} (hx : x.ReportsOnly P) (hf : ∀ a, (f a).ReportsOnly P) :
    (x >>= f).ReportsOnly P := by
  intro e he
  cases ho : x.outcome with
  | error fault =>
    rw [events_bind_error ho] at he
    exact hx e he
  | ok a =>
    rw [events_bind_ok ho] at he
    exact (List.mem_append.mp he).elim (hx e) (hf a e)

lemma ReportsOnly.mapM {f : α → Logged β} (hf : ∀ a, (f a).ReportsOnly P) (as : List α) :
    (as.mapM f).ReportsOnly P := by
  induction as with
  | nil => exact .pure _
  | cons a as ih =>
    rw [List.mapM_cons]
    exact (hf a).bind fun _ => ih.bind fun _ => .pure _

end ReportsOnly

end TransactScript.Logged
