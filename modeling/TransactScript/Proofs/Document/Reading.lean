import Mathlib.Data.List.Forall2
import TransactScript.Document.Load
import TransactScript.Proofs.Logged

/-! What a reading of a document can give, whatever has been read of the document before. A schema that is
read has one property for each item of the list of its properties. -/

namespace TransactScript.Document

lemma forall_mem_of_forall₂ {α β : Type} {R : α → β → Prop} {P : β → Prop} {as : List α} {bs : List β}
    (h : List.Forall₂ R as bs) (hp : ∀ a b, R a b → P b) : ∀ b ∈ bs, P b := by
  induction h with
  | nil => simp
  | cons hab _ ih => exact List.forall_mem_cons.mpr ⟨hp _ _ hab, ih⟩

class Answering (m : Type → Type) [Fallible m] where
  Gives : {α : Type} → m α → α → Prop
  eq_of_pure : ∀ {α : Type} {a b : α}, Gives (pure a) b → b = a
  of_bind : ∀ {α β : Type} {x : m α} {f : α → m β} {b : β}, Gives (x >>= f) b → ∃ a, Gives x a ∧ Gives (f a) b
  not_fail : ∀ {α : Type} {a : α}, ¬ Gives Fallible.fail a

open Answering (Gives)

instance : Answering Option where
  Gives x a := x = some a
  eq_of_pure h := (Option.some.inj h).symm
  of_bind h := Option.bind_eq_some_iff.mp h
  not_fail h := by cases h

instance : LawfulMonad Yaml.Decoding :=
  inferInstanceAs (LawfulMonad (StateT Nat Option))

instance : Answering Yaml.Decoding where
  Gives x a := ∃ jumps left, x jumps = some (a, left)
  eq_of_pure := by
    rintro α a b ⟨jumps, left, h⟩
    cases h
    rfl
  of_bind := by
    rintro α β x f b ⟨jumps, left, h⟩
    obtain ⟨⟨a, between⟩, hx, hf⟩ := Option.bind_eq_some_iff.mp h
    exact ⟨a, ⟨jumps, between, hx⟩, between, left, hf⟩
  not_fail := by
    rintro α a ⟨jumps, left, h⟩
    cases h

variable {m : Type → Type} [Fallible m] [Answering m] {ν : Type}

lemma some_bind {α β : Type} (a : α) (f : α → Option β) : (some a >>= f) = f a := rfl

lemma expect_eq {α : Type} (o : Option α) : (expect o : Option α) = o := by
  cases o <;> rfl

lemma gives_expect {α : Type} {o : Option α} {a : α} (h : Gives (expect o : m α) a) : o = some a := by
  cases o with
  | none => exact (Answering.not_fail h).elim
  | some b => rw [Answering.eq_of_pure h]

lemma gives_field {α : Type} {fields : List (String × ν)} {key : String} {decode : ν → m α} {a : α}
    (h : Gives (field fields key decode) a) : ∃ n, fields.lookup key = some n ∧ Gives (decode n) a := by
  rw [field] at h
  cases hn : fields.lookup key with
  | none =>
    rw [hn] at h
    exact (Answering.not_fail h).elim
  | some n =>
    rw [hn] at h
    exact ⟨n, rfl, h⟩

lemma gives_fieldOr {α : Type} {fields : List (String × ν)} {key : String} {default a : α} {decode : ν → m α}
    (h : Gives (fieldOr fields key default decode) a) :
    (fields.lookup key = none ∧ a = default) ∨ ∃ n, fields.lookup key = some n ∧ Gives (decode n) a := by
  rw [fieldOr] at h
  cases hn : fields.lookup key with
  | none =>
    rw [hn] at h
    exact .inl ⟨rfl, Answering.eq_of_pure h⟩
  | some n =>
    rw [hn] at h
    exact .inr ⟨n, rfl, h⟩

lemma gives_mapM [LawfulMonad m] {α β : Type} {f : α → m β} {as : List α} {bs : List β}
    (h : Gives (as.mapM f) bs) : List.Forall₂ (fun a b => Gives (f a) b) as bs := by
  induction as generalizing bs with
  | nil =>
    rw [List.mapM_nil] at h
    obtain rfl := Answering.eq_of_pure h
    exact .nil
  | cons a as ih =>
    rw [List.mapM_cons] at h
    obtain ⟨b, hb, h⟩ := Answering.of_bind h
    obtain ⟨bs, hbs, h⟩ := Answering.of_bind h
    obtain rfl := Answering.eq_of_pure h
    exact .cons hb (ih hbs)

variable [Node m ν]

/-- The node is a record that writes the schema: its name, and its properties as the items of a list, of which
there are none if the list is missing. -/
def Lists (n : ν) (s : Schema) : Prop :=
  ∃ fields, Gives (Node.record? ["name", "properties"] n) fields ∧
    (∃ name, fields.lookup "name" = some name ∧ Gives (Node.text? name) s.name) ∧
    (fields.lookup "properties" = none ∧ s.properties = [] ∨
      ∃ list items, fields.lookup "properties" = some list ∧ Gives (Node.items? list) items ∧
        List.Forall₂ (fun item p => Gives (property? item) p) items s.properties)

lemma lists_of_schema [LawfulMonad m] {n : ν} {s : Schema} (h : Gives (schema? n) s) : Lists n s := by
  obtain ⟨fields, hfields, h⟩ := Answering.of_bind h
  obtain ⟨name, hname, h⟩ := Answering.of_bind h
  obtain ⟨properties, hproperties, h⟩ := Answering.of_bind h
  obtain rfl := Answering.eq_of_pure h
  refine ⟨fields, hfields, gives_field hname, ?_⟩
  rcases gives_fieldOr hproperties with hnone | ⟨list, hlist, h⟩
  · exact .inl hnone
  · obtain ⟨items, hitems, h⟩ := Answering.of_bind h
    exact .inr ⟨list, items, hlist, hitems, gives_mapM h⟩

end TransactScript.Document

namespace TransactScript

open Document Document.Answering

lemma loadJson_ok {α : Type} {decode : Json → Option α} {text : String} {a : α}
    (h : loadJson decode text = .ok a) : ∃ j, Json.parse? text = some j ∧ Gives (decode j) a := by
  rw [loadJson] at h
  split at h
  · next b hb =>
    obtain rfl := Except.ok.inj h
    exact Option.bind_eq_some_iff.mp hb
  · cases h

def Yaml.Document.view (d : Yaml.Document) : Yaml.View :=
  ⟨d.anchors, Yaml.depthLimit, d.root⟩

lemma loadYaml_ok {α : Type} {decode : Yaml.View → Yaml.Decoding α} {text : String} {a : α}
    (h : loadYaml decode text = .ok a) : ∃ d, Yaml.parse? text = some d ∧ Gives (decode d.view) a := by
  rw [loadYaml] at h
  split at h
  · next b hb =>
    obtain rfl := Except.ok.inj h
    obtain ⟨d, hd, hdecode⟩ := Option.bind_eq_some_iff.mp hb
    obtain ⟨⟨c, left⟩, hrun, hc⟩ := Option.map_eq_some_iff.mp hdecode
    obtain rfl : c = b := hc
    exact ⟨d, hd, _, left, hrun⟩
  · cases h

lemma loadYaml_map {α β : Type} (decode : Yaml.View → Yaml.Decoding α) (g : α → β) (text : String) :
    loadYaml (fun v => g <$> decode v) text = (loadYaml decode text).map g := by
  rw [loadYaml, loadYaml]
  cases hd : Yaml.parse? text with
  | none => rfl
  | some d =>
    simp only [Option.bind_some, Yaml.Document.decode?, StateT.run'_eq, StateT.run_map, Option.map_eq_map]
    generalize Yaml.jumpsPerMark * (d.root.map Yaml.Node.size).getD 0 = jumps
    cases (decode ⟨d.anchors, Yaml.depthLimit, d.root⟩).run jumps with
    | none => rfl
    | some read => rfl

end TransactScript
