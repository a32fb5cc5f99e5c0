import TransactScript.Proofs.Calendar.Order
import TransactScript.Proofs.Literal.Reading
import TransactScript.Proofs.Text.Padded

/-! The texts of dates and times. They are read back up to the millisecond, and their order as texts is their order
in time. -/

namespace TransactScript

open Text

namespace Date

/-- The years that are written with four digits and no sign. -/
def HasPlainYear (d : Date) : Prop :=
  0 ≤ d.year ∧ d.year ≤ 9999

def read? (cs : List Char) : Option (Date × List Char) := do
  let (year, cs) ← field? 4 cs
  let cs ← behind? '-' cs
  let (month, cs) ← field? 2 cs
  let cs ← behind? '-' cs
  let (day, cs) ← field? 2 cs
  let d ← ofFields? year month day
  pure (d, cs)

variable {a b d : Date}

lemma month_lt (d : Date) : d.month < 10 ^ 2 := by
  have h := d.valid.1.2
  omega

lemma monthLength_le (year : Int) (month : Nat) : monthLength year month ≤ 31 := by
  have hfebruary : (if isLeapYear year then 29 else 28) ≤ 31 := by
    split <;> decide
  rw [monthLength.eq_def]
  split
  · exact hfebruary
  all_goals decide

lemma day_lt (d : Date) : d.day < 10 ^ 2 := by
  have hday := d.valid.2.2
  have hlength := monthLength_le d.year d.month
  omega

lemma HasPlainYear.toNat_lt (h : d.HasPlainYear) : d.year.toNat < 10 ^ 4 := by
  have hyear := h.2
  omega

lemma HasPlainYear.toList_text (h : d.HasPlainYear) :
    d.text.toList = padded 4 d.year.toNat ++ '-' :: (padded 2 d.month ++ '-' :: padded 2 d.day) := by
  have hyear : yearText d.year = paddedNumeral 4 d.year.toNat := if_pos h
  simp [text, hyear, padded]

lemma HasPlainYear.read?_text (h : d.HasPlainYear) (cs : List Char) : read? (d.text.toList ++ cs) = some (d, cs) := by
  have hyear : (d.year.toNat : Int) = d.year := Int.toNat_of_nonneg h.1
  have hdate : ofFields? d.year.toNat d.month d.day = some d := by
    rw [hyear, ofFields?, dif_pos d.valid]
  have hfirst := field?_padded (by decide) h.toNat_lt
  have hsecond := field?_padded (by decide) d.month_lt
  have hthird := field?_padded (by decide) d.day_lt
  rw [h.toList_text]
  simp only [read?, List.append_assoc, List.cons_append, hfirst, hsecond, hthird, behind?_cons, hdate,
    Option.bind_eq_bind, Option.bind_some, Option.pure_def]

lemma HasPlainYear.fits (h : d.HasPlainYear) : Fits "0000-00-00".toList d.text.toList := by
  rw [h.toList_text]
  exact (fits_padded (by decide) h.toNat_lt).append (fits_mark (by decide)
    ((fits_padded (by decide) d.month_lt).append (fits_mark (by decide) (fits_padded (by decide) d.day_lt))))

lemma text_append_le (ha : a.HasPlainYear) (hb : b.HasPlainYear) {r s : List Char}
    (h : a.Before b ∨ a = b ∧ r ≤ s) : a.text.toList ++ r ≤ b.text.toList ++ s := by
  rcases h with h | ⟨rfl, h⟩
  · rw [ha.toList_text, hb.toList_text]
    simp only [List.append_assoc, List.cons_append]
    have hya := ha.1
    have hyb := hb.1
    apply padded_append_le (by decide) hb.toNat_lt
    rcases h with h | ⟨hyear, h⟩
    · exact .inl (by omega)
    refine .inr ⟨by rw [hyear], List.cons_le_cons _ (padded_append_le (by decide) b.month_lt ?_)⟩
    rcases h with h | ⟨hmonth, h⟩
    · exact .inl h
    · exact .inr ⟨hmonth, List.cons_le_cons _ (padded_append_le (by decide) b.day_lt (.inl h))⟩
  · rcases h.lt_or_eq with h | rfl
    · exact le_of_lt (List.Lex.append_left _ h _)
    · exact le_rfl

end Date

namespace TimeOfDay

def cut (t : TimeOfDay) : TimeOfDay where
  hour := t.hour
  minute := t.minute
  second := t.second
  nanosecond := t.nanosecond / 1000000 * 1000000
  valid := by
    obtain ⟨hclock, hfraction⟩ := t.valid
    refine ⟨hclock, ?_⟩
    rw [nanosecondsPerSecond] at hfraction ⊢
    omega

/-- Second 60 is a leap second. -/
def read? (cs : List Char) : Option (TimeOfDay × List Char) := do
  let (hour, cs) ← field? 2 cs
  let cs ← behind? ':' cs
  let (minute, cs) ← field? 2 cs
  let cs ← behind? ':' cs
  let (second, cs) ← field? 2 cs
  let cs ← behind? '.' cs
  let (millisecond, cs) ← field? 3 cs
  let t ← ofFields? hour minute (min second 59) ((second - 59) * nanosecondsPerSecond + millisecond * 1000000)
  pure (t, cs)

variable {s t : TimeOfDay}

lemma hour_lt (t : TimeOfDay) : t.hour < 10 ^ 2 :=
  t.valid.1.1.trans (by decide)

lemma minute_lt (t : TimeOfDay) : t.minute < 10 ^ 2 :=
  t.valid.1.2.1.trans (by decide)

lemma shownSecond_lt (t : TimeOfDay) : t.shownSecond < 10 ^ 2 := by
  obtain ⟨⟨_, _, hsecond⟩, hfraction⟩ := t.valid
  rw [nanosecondsPerSecond] at hfraction
  rw [shownSecond, nanosecondsPerSecond]
  omega

lemma millisecond_lt (t : TimeOfDay) : t.millisecond < 10 ^ 3 := by
  rw [millisecond, nanosecondsPerSecond]
  omega

lemma toList_text (t : TimeOfDay) : t.text.toList = padded 2 t.hour ++ ':' :: (padded 2 t.minute ++
    ':' :: (padded 2 t.shownSecond ++ '.' :: padded 3 t.millisecond)) := by
  simp [text, padded]

lemma text_cut (t : TimeOfDay) : t.cut.text = t.text := by
  have hsecond : t.cut.shownSecond = t.shownSecond := by
    simp only [shownSecond, cut, nanosecondsPerSecond]
    omega
  have hmillisecond : t.cut.millisecond = t.millisecond := by
    simp only [millisecond, cut, nanosecondsPerSecond]
    omega
  rw [text, text, hsecond, hmillisecond]
  rfl

lemma ofFields?_shown (t : TimeOfDay) : ofFields? t.hour t.minute (min t.shownSecond 59)
    ((t.shownSecond - 59) * nanosecondsPerSecond + t.millisecond * 1000000) = some t.cut := by
  obtain ⟨⟨_, _, hlast⟩, hfraction⟩ := t.valid
  rw [nanosecondsPerSecond] at hfraction
  have hsecond : min t.shownSecond 59 = t.second := by
    rw [shownSecond, nanosecondsPerSecond]
    omega
  have hnanosecond : (t.shownSecond - 59) * nanosecondsPerSecond + t.millisecond * 1000000 =
      t.nanosecond / 1000000 * 1000000 := by
    rw [shownSecond, millisecond, nanosecondsPerSecond]
    omega
  rw [hsecond, hnanosecond]
  exact dif_pos t.cut.valid

lemma read?_text (t : TimeOfDay) (cs : List Char) : read? (t.text.toList ++ cs) = some (t.cut, cs) := by
  have hhour := field?_padded (by decide) t.hour_lt
  have hminute := field?_padded (by decide) t.minute_lt
  have hsecond := field?_padded (by decide) t.shownSecond_lt
  have hmillisecond := field?_padded (by decide) t.millisecond_lt
  rw [toList_text]
  simp [read?, hhour, hminute, hsecond, hmillisecond, t.ofFields?_shown]

lemma text_eq_iff : s.text = t.text ↔ s.cut = t.cut := by
  constructor
  · intro h
    have hread := s.read?_text []
    rw [h, t.read?_text] at hread
    exact (congrArg Prod.fst (Option.some.inj hread)).symm
  · intro h
    rw [← s.text_cut, h, t.text_cut]

lemma fits (t : TimeOfDay) : Fits "00:00:00.000".toList t.text.toList := by
  rw [toList_text]
  exact (fits_padded (by decide) t.hour_lt).append (fits_mark (by decide)
    ((fits_padded (by decide) t.minute_lt).append (fits_mark (by decide)
      ((fits_padded (by decide) t.shownSecond_lt).append (fits_mark (by decide)
        (fits_padded (by decide) t.millisecond_lt))))))

/-- What is shown is compared field by field, the last ones being the second with its carry and the millisecond. -/
lemma NotAfter.shown (h : s.NotAfter t) : s.hour < t.hour ∨ s.hour = t.hour ∧ (s.minute < t.minute ∨
    s.minute = t.minute ∧ (s.shownSecond < t.shownSecond ∨ s.shownSecond = t.shownSecond ∧
      (s.millisecond < t.millisecond ∨ s.millisecond = t.millisecond))) := by
  obtain ⟨⟨_, hs, hs'⟩, hsfraction⟩ := s.valid
  obtain ⟨⟨_, ht, ht'⟩, htfraction⟩ := t.valid
  simp only [NotAfter, secondOfDay, Prod.Lex.toLex_le_toLex] at h
  simp only [nanosecondsPerSecond] at hsfraction htfraction
  simp only [shownSecond, millisecond, nanosecondsPerSecond]
  omega

lemma NotAfter.text_append_le (h : s.NotAfter t) (r : List Char) : s.text.toList ++ r ≤ t.text.toList ++ r := by
  rw [toList_text, toList_text]
  simp only [List.append_assoc, List.cons_append]
  apply padded_append_le (by decide) t.hour_lt
  refine h.shown.imp_right fun ⟨hhour, h⟩ => ⟨hhour, List.cons_le_cons _ ?_⟩
  apply padded_append_le (by decide) t.minute_lt
  refine h.imp_right fun ⟨hminute, h⟩ => ⟨hminute, List.cons_le_cons _ ?_⟩
  apply padded_append_le (by decide) t.shownSecond_lt
  refine h.imp_right fun ⟨hsecond, h⟩ => ⟨hsecond, List.cons_le_cons _ ?_⟩
  apply padded_append_le (by decide) t.millisecond_lt
  exact h.imp_right fun hmillisecond => ⟨hmillisecond, le_rfl⟩

end TimeOfDay

namespace DateTime

def cut (t : DateTime) : DateTime :=
  { t with time := t.time.cut }

def read? (cs : List Char) : Option (DateTime × List Char) := do
  let (date, cs) ← Date.read? cs
  let cs ← behind? 'T' cs
  let (time, cs) ← TimeOfDay.read? cs
  pure (⟨date, time⟩, cs)

variable {s t : DateTime}

lemma toList_text (t : DateTime) : t.text.toList = t.date.text.toList ++ 'T' :: t.time.text.toList := by
  simp [text]

lemma text_cut (t : DateTime) : t.cut.text = t.text := by
  rw [text, text, cut, TimeOfDay.text_cut]

lemma read?_text (h : t.date.HasPlainYear) (cs : List Char) : read? (t.text.toList ++ cs) = some (t.cut, cs) := by
  simp only [read?, toList_text, List.append_assoc, List.cons_append, h.read?_text, behind?_cons,
    TimeOfDay.read?_text, Option.bind_eq_bind, Option.bind_some, Option.pure_def]
  rfl

lemma text_eq_iff (hs : s.date.HasPlainYear) (ht : t.date.HasPlainYear) : s.text = t.text ↔ s.cut = t.cut := by
  constructor
  · intro h
    have hread := read?_text hs []
    rw [h, read?_text ht] at hread
    exact (congrArg Prod.fst (Option.some.inj hread)).symm
  · intro h
    rw [← s.text_cut, h, t.text_cut]

lemma fits (h : t.date.HasPlainYear) : Fits "0000-00-00T00:00:00.000".toList t.text.toList := by
  rw [toList_text]
  exact h.fits.append (fits_mark (by decide) t.time.fits)

lemma NotAfter.text_append_le (hs : s.date.HasPlainYear) (ht : t.date.HasPlainYear) (h : s.NotAfter t)
    (r : List Char) : s.text.toList ++ r ≤ t.text.toList ++ r := by
  simp only [toList_text, List.append_assoc, List.cons_append]
  exact Date.text_append_le hs ht
    ((notAfter_iff.mp h).imp_right fun ⟨hdate, htime⟩ => ⟨hdate, List.cons_le_cons _ (htime.text_append_le r)⟩)

end DateTime

namespace Literal

lemma quoted_inj {s t : String} : quoted s = quoted t ↔ s = t := by
  refine ⟨fun h => String.toList_injective ?_, congrArg quoted⟩
  have hbody := quoted?_quoted s
  rw [h, quoted?_quoted] at hbody
  exact (Option.some.inj hbody).symm

lemma quoted_le {s t : String} (h : ∀ r, s.toList ++ r ≤ t.toList ++ r) : quoted s ≤ quoted t := by
  rw [String.le_iff_toList_le]
  simpa [quoted] using List.cons_le_cons '\'' (h ['\''])

end Literal

theorem texts_of_times :
    (∀ t : DateTime, t.date.HasPlainYear → ∃ cs, quoted? (Literal.dateTime t).sql.toList = some cs ∧
      Fits "0000-00-00T00:00:00.000".toList cs ∧ DateTime.read? cs = some (t.cut, [])) ∧
    (∀ t : TimeOfDay, ∃ cs, quoted? (Literal.time t).sql.toList = some cs ∧
      Fits "00:00:00.000".toList cs ∧ TimeOfDay.read? cs = some (t.cut, [])) ∧
    (∀ s t : DateTime, s.date.HasPlainYear → t.date.HasPlainYear →
      ((Literal.dateTime s).sql = (Literal.dateTime t).sql ↔ s.cut = t.cut) ∧
        (s.NotAfter t → (Literal.dateTime s).sql ≤ (Literal.dateTime t).sql)) ∧
    ∀ s t : TimeOfDay, ((Literal.time s).sql = (Literal.time t).sql ↔ s.cut = t.cut) ∧
      (s.NotAfter t → (Literal.time s).sql ≤ (Literal.time t).sql) := by
  refine ⟨fun t h => ?_, fun t => ?_, fun s t hs ht => ⟨?_, fun h => ?_⟩, fun s t => ⟨?_, fun h => ?_⟩⟩
  · refine ⟨_, Literal.quoted?_quoted t.text, DateTime.fits h, ?_⟩
    simpa using DateTime.read?_text h []
  · refine ⟨_, Literal.quoted?_quoted t.text, t.fits, ?_⟩
    simpa using t.read?_text []
  · exact Literal.quoted_inj.trans (DateTime.text_eq_iff hs ht)
  · exact Literal.quoted_le (h.text_append_le hs ht)
  · exact Literal.quoted_inj.trans TimeOfDay.text_eq_iff
  · exact Literal.quoted_le h.text_append_le

/-- The last nanosecond of a leap second. -/
def leapSecondEnd : DateTime :=
  ⟨⟨1999, 12, 31, by decide⟩, ⟨23, 59, 59, 1999999999, by decide⟩⟩

/-- The nanosecond after midnight that follows the leap second. -/
def leapSecondOver : DateTime :=
  ⟨⟨2000, 1, 1, by decide⟩, ⟨0, 0, 0, 1, by decide⟩⟩

theorem texts_of_leapSecond : leapSecondEnd.date.HasPlainYear ∧ leapSecondOver.date.HasPlainYear ∧
    leapSecondEnd.NotAfter leapSecondOver ∧
    (Literal.dateTime leapSecondEnd).sql = "'1999-12-31T23:59:60.999'" ∧
    (∃ cs, quoted? (Literal.dateTime leapSecondEnd).sql.toList = some cs ∧
      DateTime.read? cs = some (leapSecondEnd.cut, [])) ∧
    (Literal.dateTime leapSecondEnd).sql ≤ (Literal.dateTime leapSecondOver).sql := by
  have hend : leapSecondEnd.date.HasPlainYear := ⟨by decide, by decide⟩
  have hover : leapSecondOver.date.HasPlainYear := ⟨by decide, by decide⟩
  have hle : leapSecondEnd.NotAfter leapSecondOver := DateTime.notAfter_iff.mpr (.inl (.inl (by decide)))
  obtain ⟨cs, hcs, _, hread⟩ := texts_of_times.1 leapSecondEnd hend
  exact ⟨hend, hover, hle, by decide, ⟨cs, hcs, hread⟩,
    (texts_of_times.2.2.1 leapSecondEnd leapSecondOver hend hover).2 hle⟩

end TransactScript
