import TransactScript.Json.Writer
import TransactScript.Proofs.Json.Integer

/-! What is written for a JSON value is read back as this value, if all its numbers are whole numbers of 64 bits. -/

namespace TransactScript.Json

open Text

lemma mapM_some {α β : Type} {f : α → Option β} {g : α → β} {as : List α} (h : ∀ a ∈ as, f a = some (g a)) :
    as.mapM f = some (as.map g) := by
  induction as with
  | nil => rfl
  | cons a as ih =>
    rw [List.mapM_cons, h a List.mem_cons_self, ih fun b hb => h b (List.mem_cons_of_mem a hb)]
    rfl

section Strings

lemma natural?_control :
    ∀ n < 0x20, natural? 16 ['0', '0', lowerHexDigit (n / 16), lowerHexDigit (n % 16)] = some n := by
  decide

lemma escape?_control {c : Char} (h : c.toNat < 0x20) (cs : List Char) :
    escape? ('u' :: '0' :: '0' :: lowerHexDigit (c.toNat / 16) :: lowerHexDigit (c.toNat % 16) :: cs) =
      some (some c, cs) := by
  have hhigh : isHighSurrogate c.toNat = false := by
    simp only [isHighSurrogate, Bool.and_eq_false_iff, decide_eq_false_iff_not]
    omega
  have hlow : isLowSurrogate c.toNat = false := by
    simp only [isLowSurrogate, Bool.and_eq_false_iff, decide_eq_false_iff_not]
    omega
  simp only [escape?, unit?, natural?_control _ h, Option.map_some, Option.bind_eq_bind, Option.bind_some, hhigh,
    hlow, Bool.false_eq_true, if_false, Char.ofNat_toNat, Option.pure_def]

def before (c : Unpaired) : List Unpaired × List Char → List Unpaired × List Char
  | (chars, rest) => (c :: chars, rest)

lemma stringBody?_escape {c : Unpaired} {e cs : List Char} (h : escape? e = some (c, cs)) (fuel : Nat) :
    stringBody? (fuel + 1) ('\\' :: e) = (stringBody? fuel cs).map (before c) := by
  rw [stringBody?, h]
  change (stringBody? fuel cs >>= fun read => pure (before c read)) = _
  cases stringBody? fuel cs <;> rfl

lemma stringBody?_plain {c : Char} (hquote : c ≠ '"') (hslash : c ≠ '\\') (hcontrol : ¬ c.toNat < 0x20) (fuel : Nat)
    (cs : List Char) : stringBody? (fuel + 1) (c :: cs) = (stringBody? fuel cs).map (before (some c)) := by
  rw [stringBody?.eq_5 _ _ _ hquote hslash, if_neg hcontrol]
  cases stringBody? fuel cs <;> rfl

lemma stringBody?_escaped (c : Char) (fuel : Nat) (cs : List Char) :
    stringBody? (fuel + 1) (escaped c ++ cs) = (stringBody? fuel cs).map (before (some c)) := by
  rw [escaped.eq_def]
  split
  · exact stringBody?_escape rfl fuel
  · exact stringBody?_escape rfl fuel
  · exact stringBody?_escape rfl fuel
  · exact stringBody?_escape rfl fuel
  · exact stringBody?_escape rfl fuel
  · exact stringBody?_escape rfl fuel
  · exact stringBody?_escape rfl fuel
  · next hquote hslash _ _ _ _ _ =>
    split
    · next hcontrol => exact stringBody?_escape (escape?_control hcontrol cs) fuel
    · next hcontrol => exact stringBody?_plain hquote hslash hcontrol fuel cs

lemma stringBody?_text (cs : List Char) {fuel : Nat} (hf : cs.length < fuel) (rest : List Char) :
    stringBody? fuel (cs.flatMap escaped ++ '"' :: rest) = some (cs.map some, rest) := by
  induction cs generalizing fuel with
  | nil =>
    obtain ⟨fuel, rfl⟩ := Nat.exists_eq_add_one_of_ne_zero (Nat.ne_of_gt hf)
    rfl
  | cons c cs ih =>
    obtain ⟨fuel, rfl⟩ := Nat.exists_eq_add_one_of_ne_zero (Nat.ne_zero_of_lt hf)
    rw [List.flatMap_cons, List.append_assoc, stringBody?_escaped, ih (Nat.lt_of_succ_lt_succ hf)]
    rfl

lemma escaped_ne_nil (c : Char) : escaped c ≠ [] := by
  rw [escaped.eq_def]
  split
  case h_8 => split <;> exact List.cons_ne_nil _ _
  all_goals exact List.cons_ne_nil _ _

lemma length_le_escaped (cs : List Char) : cs.length ≤ (cs.flatMap escaped).length := by
  induction cs with
  | nil => exact Nat.le_refl 0
  | cons c cs ih =>
    have hpos : 0 < (escaped c).length := List.length_pos_iff.mpr (escaped_ne_nil c)
    rw [List.flatMap_cons, List.length_append, List.length_cons]
    omega

lemma string?_quoted (s : String) (rest : List Char) :
    string? (s.toList.flatMap escaped ++ '"' :: rest) = some (some s, rest) := by
  have hfuel : s.toList.length < (s.toList.flatMap escaped ++ '"' :: rest).length + 1 := by
    have hle := length_le_escaped s.toList
    rw [List.length_append]
    omega
  have hchars : (s.toList.map some).mapM id = some s.toList := by
    rw [List.mapM_map, mapM_some (f := id ∘ some) (g := id) fun _ _ => rfl, List.map_id]
  rw [string?, stringBody?_text s.toList hfuel, Option.bind_eq_bind, Option.bind_some]
  simp only [hchars, Option.map_some, String.ofList_toList, Option.pure_def]

lemma toList_quoted (s : String) : (quoted s).toList = '"' :: (s.toList.flatMap escaped ++ ['"']) := by
  simp [quoted]

end Strings

/-- A value with whole numbers of 64 bits, signed or not, and no others. -/
inductive Exact : Json → Prop
  | null : Exact null
  | bool (b) : Exact (bool b)
  | integer {i} : -2 ^ 63 ≤ i → i < 2 ^ 64 → Exact (integer i)
  | string (s) : Exact (string s)
  | array {items} : (∀ j ∈ items, Exact j) → Exact (array items)
  | object {entries} : (∀ e ∈ entries, Exact e.2) → Exact (object entries)

section Values

variable {j : Json} {fuel : Nat} {rest : List Char}

/-- What is written for the value starts as no list ends, and it is read back, whatever follows. -/
structure ReadBack (j : Json) : Prop where
  starts : ∃ c cs, (write j).toList = c :: cs ∧ isSpace c = false ∧ c ≠ ']'
  reads : ∀ fuel rest, (write j).toList.length ≤ fuel → EndsNumber rest →
    value? fuel ((write j).toList ++ rest) = some (j, rest)

lemma skipSpace_comma (cs : List Char) : skipSpace (',' :: cs) = ',' :: cs :=
  skipSpace_cons rfl cs

lemma skipSpace_bracket (cs : List Char) : skipSpace (']' :: cs) = ']' :: cs :=
  skipSpace_cons rfl cs

lemma skipSpace_quote (cs : List Char) : skipSpace ('"' :: cs) = '"' :: cs :=
  skipSpace_cons rfl cs

lemma skipSpace_colon (cs : List Char) : skipSpace (':' :: cs) = ':' :: cs :=
  skipSpace_cons rfl cs

lemma toList_writeItems (j k : Json) (items : List Json) :
    (writeItems (j :: k :: items)).toList = (write j).toList ++ ',' :: (writeItems (k :: items)).toList := by
  simp [writeItems]

lemma items?_write {items : List Json} (hne : items ≠ []) (h : ∀ j ∈ items, ReadBack j)
    (hf : (writeItems items).toList.length < fuel) (rest : List Char) :
    items? fuel ((writeItems items).toList ++ ']' :: rest) = some (items, rest) := by
  induction items generalizing fuel with
  | nil => exact (hne rfl).elim
  | cons j items ih =>
    obtain ⟨fuel, rfl⟩ := Nat.exists_eq_add_one_of_ne_zero (Nat.ne_zero_of_lt hf)
    have hj := (h j List.mem_cons_self).reads fuel
    cases items with
    | nil =>
      rw [writeItems] at hf ⊢
      rw [items?, hj _ (Nat.le_of_lt_succ hf) (stops_cons.mpr rfl)]
      simp only [Option.bind_eq_bind, Option.bind_some, skipSpace_bracket, Option.pure_def]
    | cons k items =>
      have hrest (hlt : (writeItems (k :: items)).toList.length < fuel) :=
        ih (List.cons_ne_nil k items) (fun i hi => h i (List.mem_cons_of_mem j hi)) hlt
      rw [toList_writeItems, List.length_append, List.length_cons] at hf
      rw [toList_writeItems, List.append_assoc, List.cons_append, items?,
        hj _ (by omega) (stops_cons.mpr rfl)]
      simp only [Option.bind_eq_bind, Option.bind_some, skipSpace_comma, hrest (by omega), Option.pure_def]

/-- The entries that are read when one of them has been read, of the text after it. -/
def furtherEntries? (fuel : Nat) (e : Option String × Json) (cs : List Char) :
    Option (List (Option String × Json) × List Char) :=
  match skipSpace cs with
  | ',' :: cs => do
      let (entries, cs) ← entries? fuel cs
      pure (e :: entries, cs)
  | '\x7d' :: cs => pure ([e], cs)
  | _ => none

lemma furtherEntries?_comma (e : Option String × Json) (cs : List Char) :
    furtherEntries? fuel e (',' :: cs) = (entries? fuel cs).map fun read => (e :: read.1, read.2) := by
  rw [furtherEntries?, skipSpace_comma]
  change (entries? fuel cs >>= fun read => pure (e :: read.1, read.2)) = _
  cases entries? fuel cs <;> rfl

lemma entries?_quoted (k : String) (hj : ReadBack j) (hf : (write j).toList.length ≤ fuel) (hrest : EndsNumber rest) :
    entries? (fuel + 1) ((quoted k).toList ++ ':' :: ((write j).toList ++ rest)) =
      furtherEntries? fuel (some k, j) rest := by
  rw [toList_quoted, List.cons_append, List.append_assoc, entries?, skipSpace_quote]
  simp only [List.cons_append, List.nil_append, string?_quoted, Option.bind_eq_bind, Option.bind_some,
    skipSpace_colon, hj.reads fuel rest hf hrest]
  rfl

lemma toList_writeEntries (e f : String × Json) (entries : List (String × Json)) :
    (writeEntries (e :: f :: entries)).toList =
      (quoted e.1).toList ++ ':' :: ((write e.2).toList ++ ',' :: (writeEntries (f :: entries)).toList) := by
  simp [writeEntries]

lemma starts_writeEntries (e : String × Json) (entries : List (String × Json)) :
    ∃ cs, (writeEntries (e :: entries)).toList = '"' :: cs := by
  cases entries with
  | nil => exact ⟨_, by rw [writeEntries, String.toList_append, String.toList_append, toList_quoted]; rfl⟩
  | cons f entries => exact ⟨_, by rw [toList_writeEntries, toList_quoted]; rfl⟩

lemma entries?_write {entries : List (String × Json)} (hne : entries ≠ []) (h : ∀ e ∈ entries, ReadBack e.2)
    (hf : (writeEntries entries).toList.length < fuel) (rest : List Char) :
    entries? fuel ((writeEntries entries).toList ++ '\x7d' :: rest) =
      some (entries.map fun e => (some e.1, e.2), rest) := by
  induction entries generalizing fuel with
  | nil => exact (hne rfl).elim
  | cons e entries ih =>
    obtain ⟨fuel, rfl⟩ := Nat.exists_eq_add_one_of_ne_zero (Nat.ne_zero_of_lt hf)
    have he := h e List.mem_cons_self
    cases entries with
    | nil =>
      have hlist : (writeEntries [e]).toList = (quoted e.1).toList ++ ':' :: (write e.2).toList := by
        simp [writeEntries]
      rw [hlist, List.length_append, List.length_cons] at hf
      rw [hlist, List.append_assoc, List.cons_append, entries?_quoted e.1 he (by omega) (stops_cons.mpr rfl)]
      rfl
    | cons f entries =>
      have hrest (hlt : (writeEntries (f :: entries)).toList.length < fuel) :=
        ih (List.cons_ne_nil f entries) (fun i hi => h i (List.mem_cons_of_mem e hi)) hlt
      rw [toList_writeEntries, List.length_append, List.length_cons, List.length_append, List.length_cons] at hf
      rw [toList_writeEntries, List.append_assoc, List.cons_append, List.append_assoc, List.cons_append,
        entries?_quoted e.1 he (by omega) (stops_cons.mpr rfl), furtherEntries?_comma, hrest (by omega)]
      rfl

lemma ofEntries_some (entries : List (String × Json)) :
    ofEntries (entries.map fun e => (some e.1, e.2)) = object entries := by
  rw [ofEntries, List.mapM_map, mapM_some (g := id), List.map_id]
  exact fun _ _ => rfl

lemma starts_signedNumeral (i : Int) :
    ∃ c cs, (signedNumeral i).toList = c :: cs ∧ (c.isDigit = true ∨ c = '-') := by
  cases i with
  | ofNat n =>
    obtain ⟨c, cs, hcs, hdigit⟩ := toDigits_eq_cons n
    exact ⟨c, cs, (toList_signedNumeral_ofNat n).trans hcs, .inl (hdigit c List.mem_cons_self)⟩
  | negSucc n => exact ⟨'-', _, toList_signedNumeral_negSucc n, .inr rfl⟩

lemma readBack_integer {i : Int} (hlow : -2 ^ 63 ≤ i) (hhigh : i < 2 ^ 64) : ReadBack (integer i) := by
  obtain ⟨c, cs, hcs, hc⟩ := starts_signedNumeral i
  refine ⟨⟨c, cs, hcs, isSpace_of_number hc, ?_⟩, fun fuel rest hf hrest => ?_⟩
  · rintro rfl
    rcases hc with hc | hc <;> cases hc
  · rw [write, hcs, List.length_cons] at hf
    obtain ⟨fuel, rfl⟩ := Nat.exists_eq_add_one_of_ne_zero (Nat.ne_zero_of_lt hf)
    exact value?_signedNumeral hlow hhigh fuel hrest

lemma starts_writeItems (hj : ReadBack j) (items : List Json) :
    ∃ c cs, (writeItems (j :: items)).toList = c :: cs ∧ isSpace c = false ∧ c ≠ ']' := by
  obtain ⟨c, cs, hcs, hc⟩ := hj.starts
  cases items with
  | nil => exact ⟨c, cs, hcs, hc⟩
  | cons k items =>
    refine ⟨c, cs ++ ',' :: (writeItems (k :: items)).toList, ?_, hc⟩
    rw [toList_writeItems, hcs, List.cons_append]

lemma readBack_array {items : List Json} (h : ∀ j ∈ items, ReadBack j) : ReadBack (array items) := by
  have hlist : (write (array items)).toList = '[' :: ((writeItems items).toList ++ [']']) := by
    simp [write]
  refine ⟨⟨_, _, hlist, rfl, by decide⟩, fun fuel rest hf _ => ?_⟩
  rw [hlist, List.length_cons, List.length_append, List.length_singleton] at hf
  obtain ⟨fuel, rfl⟩ := Nat.exists_eq_add_one_of_ne_zero (Nat.ne_zero_of_lt hf)
  rw [hlist, List.cons_append, List.append_assoc, List.singleton_append, value?, skipSpace_cons rfl]
  cases items with
  | nil => rfl
  | cons j items =>
    have hlt : (writeItems (j :: items)).toList.length < fuel := by omega
    have hread := items?_write (List.cons_ne_nil j items) h hlt rest
    obtain ⟨c, cs, hcs, hspace, hc⟩ := starts_writeItems (h j List.mem_cons_self) items
    rw [hcs, List.cons_append] at hread ⊢
    simp only [skipSpace_cons hspace]
    split
    · next he => exact (hc (List.head_eq_of_cons_eq he)).elim
    · rw [hread]
      rfl

lemma readBack_object {entries : List (String × Json)} (h : ∀ e ∈ entries, ReadBack e.2) :
    ReadBack (object entries) := by
  have hlist : (write (object entries)).toList = '\x7b' :: ((writeEntries entries).toList ++ ['\x7d']) := by
    simp [write]
  refine ⟨⟨_, _, hlist, rfl, by decide⟩, fun fuel rest hf _ => ?_⟩
  rw [hlist, List.length_cons, List.length_append, List.length_singleton] at hf
  obtain ⟨fuel, rfl⟩ := Nat.exists_eq_add_one_of_ne_zero (Nat.ne_zero_of_lt hf)
  rw [hlist, List.cons_append, List.append_assoc, List.singleton_append, value?, skipSpace_cons rfl]
  cases entries with
  | nil => rfl
  | cons e entries =>
    have hlt : (writeEntries (e :: entries)).toList.length < fuel := by omega
    have hread := entries?_write (List.cons_ne_nil e entries) h hlt rest
    obtain ⟨cs, hcs⟩ := starts_writeEntries e entries
    rw [hcs, List.cons_append] at hread ⊢
    simp only [skipSpace_quote]
    split
    · next he => cases he
    · simp only [hread, ofEntries_some, Option.bind_eq_bind, Option.bind_some, Option.pure_def]

lemma readBack_word (c : Char) (cs : List Char) (hwrite : (write j).toList = c :: cs)
    (hc : isSpace c = false ∧ c ≠ ']') (hread : ∀ fuel rest, value? (fuel + 1) (c :: cs ++ rest) = some (j, rest)) : ReadBack j := by
  refine ⟨⟨c, cs, hwrite, hc⟩, fun fuel rest hf _ => ?_⟩
  rw [hwrite, List.length_cons] at hf
  obtain ⟨fuel, rfl⟩ := Nat.exists_eq_add_one_of_ne_zero (Nat.ne_zero_of_lt hf)
  rw [hwrite, hread]

lemma readBack_string (s : String) : ReadBack (string s) := by
  refine readBack_word _ _ (toList_quoted s) (by decide) fun fuel rest => ?_
  rw [List.cons_append, List.append_assoc, value?, skipSpace_quote]
  simp only [List.cons_append, List.nil_append, string?_quoted, Option.bind_eq_bind, Option.bind_some,
    Option.map_some, Option.getD_some, Option.pure_def]

lemma Exact.readBack {j : Json} (h : Exact j) : ReadBack j := by
  -- the parts of a value are followed by more text, so that the induction is for every text behind it
  induction h with
  | null => exact readBack_word 'n' ['u', 'l', 'l'] rfl (by decide) fun _ _ => rfl
  | bool b =>
    cases b with
    | false => exact readBack_word 'f' ['a', 'l', 's', 'e'] rfl (by decide) fun _ _ => rfl
    | true => exact readBack_word 't' ['r', 'u', 'e'] rfl (by decide) fun _ _ => rfl
  | integer hlow hhigh => exact readBack_integer hlow hhigh
  | string s => exact readBack_string s
  | array _ ih => exact readBack_array ih
  | object _ ih => exact readBack_object ih

lemma parse?_write {j : Json} (h : Exact j) : parse? (write j) = some j := by
  have hread := h.readBack.reads (2 * (write j).toList.length + 2) [] (by omega) stops_nil
  rw [List.append_nil] at hread
  simp only [parse?, hread]
  rfl

end Values

end TransactScript.Json
