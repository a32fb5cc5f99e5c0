import TransactScript.Proofs.Calendar.Text

/-! What a point in time with an offset denotes, and what its text denotes. The offset is written in whole minutes,
the local time is not adjusted to it. -/

namespace TransactScript

open Text

def DateTime.milliseconds (t : DateTime) : Int :=
  t.instant.1 * 1000 + (t.instant.2 / 1000000 : Nat)

lemma DateTime.milliseconds_cut (t : DateTime) : t.cut.milliseconds = t.milliseconds := by
  have hfraction : t.cut.instant.2 / 1000000 = t.instant.2 / 1000000 :=
    Nat.mul_div_cancel _ (by decide)
  rw [milliseconds, milliseconds, hfraction]
  rfl

namespace OffsetDateTime

def milliseconds (t : OffsetDateTime) : Int :=
  t.instant.1 * 1000 + (t.instant.2 / 1000000 : Nat)

/-- The minutes that are written for an offset in seconds. -/
def shownMinutes (offset : Int) : Int :=
  if offset < 0 then -((offset.natAbs + 30) / 60 : Nat) else ((offset.natAbs + 30) / 60 : Nat)

def minutes? (cs : List Char) : Option Int := do
  let (hours, cs) ← field? 2 cs
  let cs ← behind? ':' cs
  let (minutes, cs) ← field? 2 cs
  if cs = [] then some (hours * 60 + minutes) else none

def offset? : List Char → Option Int
  | '+' :: cs => minutes? cs
  | '-' :: cs => (minutes? cs).map fun minutes => -minutes
  | _ => none

/-- The local time less the offset, as both are written. -/
def denoted? (cs : List Char) : Option Int := do
  let (clock, cs) ← DateTime.read? cs
  let minutes ← offset? cs
  pure (clock.milliseconds - minutes * 60000)

lemma minutes?_padded {n : Nat} (h : n < 6000) :
    minutes? (padded 2 (n / 60) ++ ':' :: padded 2 (n % 60)) = some (n : Int) := by
  have hhours : n / 60 < 10 ^ 2 := Nat.div_lt_of_lt_mul h
  have hminutes : n % 60 < 10 ^ 2 := (Nat.mod_lt n (by decide)).trans (by decide)
  have hlast : field? 2 (padded 2 (n % 60) ++ []) = some (n % 60, []) := field?_padded (by decide) hminutes []
  rw [List.append_nil] at hlast
  simp only [minutes?, field?_padded (by decide) hhours, behind?_cons, hlast, Option.bind_eq_bind, Option.bind_some,
    if_true, Option.some.injEq]
  omega

lemma offset?_offsetText {offset : Int} (h : offset.natAbs < 86400) :
    offset? (offsetText offset).toList = some (shownMinutes offset) := by
  have hminutes : minutes? (padded 2 ((offset.natAbs + 30) / 60 / 60) ++
      ':' :: padded 2 ((offset.natAbs + 30) / 60 % 60)) = some ((offset.natAbs + 30) / 60 : Nat) :=
    minutes?_padded (by omega)
  have htext : (offsetText offset).toList = (if offset < 0 then '-' else '+') ::
      (padded 2 ((offset.natAbs + 30) / 60 / 60) ++ ':' :: padded 2 ((offset.natAbs + 30) / 60 % 60)) := by
    rw [offsetText]
    split <;> simp [padded]
  rw [htext, shownMinutes]
  split
  · rw [offset?, hminutes]
    rfl
  · exact hminutes

lemma denoted?_text {t : OffsetDateTime} (h : t.clock.date.HasPlainYear) :
    denoted? t.text.toList = some (t.milliseconds + 1000 * (t.offset - 60 * shownMinutes t.offset)) := by
  have hclock := DateTime.read?_text h (offsetText t.offset).toList
  have hmilliseconds : t.milliseconds = t.clock.milliseconds - t.offset * 1000 := by
    simp only [milliseconds, DateTime.milliseconds, instant]
    omega
  simp only [denoted?, text, String.toList_append, hclock, offset?_offsetText t.offset_lt, Option.bind_eq_bind,
    Option.bind_some, Option.pure_def, DateTime.milliseconds_cut, Option.some.injEq]
  omega

lemma shownMinutes_near (offset : Int) : (offset - 60 * shownMinutes offset).natAbs ≤ 30 := by
  rw [shownMinutes]
  split <;> omega

lemma shownMinutes_exact_iff (offset : Int) : offset - 60 * shownMinutes offset = 0 ↔ 60 ∣ offset := by
  have hnear := shownMinutes_near offset
  omega

end OffsetDateTime

open OffsetDateTime

/-- A text is off by the seconds that its offset lacks of a whole number of minutes, and by nothing else. -/
theorem instant_of_text {t : OffsetDateTime} (h : t.clock.date.HasPlainYear) :
    ∃ cs, quoted? (Literal.dateTimeOffset t).sql.toList = some cs ∧
      denoted? cs = some (t.milliseconds + 1000 * (t.offset - 60 * shownMinutes t.offset)) ∧
      (t.offset - 60 * shownMinutes t.offset).natAbs ≤ 30 ∧
      (denoted? cs = some t.milliseconds ↔ 60 ∣ t.offset) ∧
      ∀ u : OffsetDateTime, u.clock.date.HasPlainYear →
        (Literal.dateTimeOffset t).same (.dateTimeOffset u) = true →
        ∃ ds, quoted? (Literal.dateTimeOffset u).sql.toList = some ds ∧
          (denoted? cs = denoted? ds ↔
            t.offset - 60 * shownMinutes t.offset = u.offset - 60 * shownMinutes u.offset) := by
  have htext := denoted?_text h
  refine ⟨_, Literal.quoted?_quoted t.text, htext, shownMinutes_near t.offset, ?_, fun u hu hsame => ?_⟩
  · rw [htext, ← shownMinutes_exact_iff, Option.some.injEq]
    omega
  · have hinstant : t.instant = u.instant := by simpa [Literal.same] using hsame
    have hmilliseconds : t.milliseconds = u.milliseconds := by rw [milliseconds, milliseconds, hinstant]
    refine ⟨_, Literal.quoted?_quoted u.text, ?_⟩
    rw [htext, denoted?_text hu, hmilliseconds, Option.some.injEq]
    omega

/-- Midnight of the first of March, half a minute ahead of universal time. -/
def halfMinuteEast : OffsetDateTime :=
  ⟨⟨⟨2024, 3, 1, by decide⟩, ⟨0, 0, 0, 0, by decide⟩⟩, 30, by decide⟩

def sameUniversal : OffsetDateTime :=
  .ofUniversal ⟨⟨2024, 2, 29, by decide⟩, ⟨23, 59, 30, 0, by decide⟩⟩

theorem instant_of_halfMinuteEast : halfMinuteEast.clock.date.HasPlainYear ∧
    sameUniversal.clock.date.HasPlainYear ∧
    ∃ cs, quoted? (Literal.dateTimeOffset halfMinuteEast).sql.toList = some cs ∧
      denoted? cs = some (halfMinuteEast.milliseconds - 30000) ∧
      ∃ ds, quoted? (Literal.dateTimeOffset sameUniversal).sql.toList = some ds ∧ denoted? cs ≠ denoted? ds := by
  have heast : halfMinuteEast.clock.date.HasPlainYear := ⟨by decide, by decide⟩
  have huniversal : sameUniversal.clock.date.HasPlainYear := ⟨by decide, by decide⟩
  obtain ⟨cs, hcs, hdenoted, _, _, hsame⟩ := instant_of_text heast
  obtain ⟨ds, hds, hiff⟩ := hsame sameUniversal huniversal (by decide)
  exact ⟨heast, huniversal, cs, hcs, hdenoted, ds, hds, mt hiff.mp (by decide)⟩

/-- The two values are equal, yet the text of one denotes another instant. -/
theorem halfMinute_lost :
    (Literal.dateTimeOffset halfMinuteEast).same (.dateTimeOffset sameUniversal) = true ∧
      halfMinuteEast.clock.time.nanosecond < nanosecondsPerSecond ∧
      (Literal.dateTimeOffset halfMinuteEast).sql = "'2024-03-01T00:00:00.000+00:01'" ∧
      (Literal.dateTimeOffset sameUniversal).sql = "'2024-02-29T23:59:30.000+00:00'" ∧
      denoted? halfMinuteEast.text.toList = some (halfMinuteEast.milliseconds - 30000) ∧
      denoted? sameUniversal.text.toList = some halfMinuteEast.milliseconds :=
  ⟨by decide, by decide, by decide, by decide, denoted?_text ⟨by decide, by decide⟩,
    denoted?_text ⟨by decide, by decide⟩⟩

end TransactScript
