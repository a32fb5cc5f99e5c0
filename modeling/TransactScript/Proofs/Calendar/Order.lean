import Mathlib.Data.Prod.Lex
import Mathlib.Order.SuccPred.Basic
import Mathlib.Tactic.Lemma
import TransactScript.Calendar

/-! The order of dates and of times of day. To count the days, or the seconds of the day, is to compare field by
field. -/

namespace TransactScript

lemma isLeapYear_iff (year : Int) :
    isLeapYear year = true ↔ year % 4 = 0 ∧ (year % 100 ≠ 0 ∨ year % 400 = 0) := by
  simp [isLeapYear]

namespace Date

def yearLength (year : Int) : Nat :=
  if isLeapYear year then 366 else 365

def daysBeforeYear (year : Int) : Int :=
  (year - 1) * 365 + (year - 1).fdiv 4 - (year - 1).fdiv 100 + (year - 1).fdiv 400

lemma dayNumber_eq (d : Date) : d.dayNumber = daysBeforeYear d.year + daysBefore d.year d.month + d.day := rfl

lemma daysBeforeYear_succ (year : Int) : daysBeforeYear (year + 1) = daysBeforeYear year + yearLength year := by
  have hdiv {n : Int} (hn : 0 ≤ n) (a : Int) : a.fdiv n = a / n := Int.fdiv_eq_ediv_of_nonneg a hn
  have h4 := hdiv (n := 4) (by decide)
  have h100 := hdiv (n := 100) (by decide)
  have h400 := hdiv (n := 400) (by decide)
  simp only [daysBeforeYear, yearLength, isLeapYear_iff, Int.add_sub_cancel, h4, h100, h400]
  split <;> omega

lemma daysBeforeYear_mono {year later : Int} (h : year ≤ later) : daysBeforeYear year ≤ daysBeforeYear later := by
  refine monotone_int_of_le_succ (fun year => ?_) h
  rw [daysBeforeYear_succ]
  omega

variable {year : Int}

lemma daysBefore_succ {month : Nat} (h : 1 ≤ month) :
    daysBefore year (month + 1) = daysBefore year month + monthLength year month := by
  have hmonth : month + 1 - 1 = month - 1 + 1 := by omega
  have hlast : 1 + (month - 1) = month := by omega
  rw [daysBefore, daysBefore, hmonth, List.range'_1_concat, List.foldl_append, hlast]
  rfl

lemma daysBefore_le {month later : Nat} (h : 1 ≤ month) (hlt : month < later) :
    daysBefore year month + monthLength year month ≤ daysBefore year later := by
  induction later, hlt using Nat.le_induction with
  | base => rw [daysBefore_succ h]
  | succ later hlt ih =>
    rw [daysBefore_succ (by omega)]
    omega

lemma daysBefore_december : daysBefore year 12 + monthLength year 12 = yearLength year := by
  have hmonths : daysBefore year 12 + monthLength year 12 =
      0 + 31 + monthLength year 2 + 31 + 30 + 31 + 30 + 31 + 31 + 30 + 31 + 30 + 31 := rfl
  rw [hmonths, monthLength, yearLength]
  split <;> rfl

lemma dayOfYear_le (d : Date) : daysBefore d.year d.month + d.day ≤ yearLength d.year := by
  obtain ⟨⟨hone, htwelve⟩, _, hday⟩ := d.valid
  rw [← daysBefore_december]
  rcases htwelve.lt_or_eq with hlt | heq
  · have hle : _ ≤ daysBefore d.year 12 := daysBefore_le hone hlt
    omega
  · rw [heq] at hday ⊢
    omega

def Before (a b : Date) : Prop :=
  a.year < b.year ∨ a.year = b.year ∧ (a.month < b.month ∨ a.month = b.month ∧ a.day < b.day)

variable {a b : Date}

lemma dayNumber_lt_of_before (h : a.Before b) : a.dayNumber < b.dayNumber := by
  have hfirst : 1 ≤ b.day := b.valid.2.1
  rw [dayNumber_eq, dayNumber_eq]
  rcases h with h | ⟨hyear, h | ⟨hmonth, h⟩⟩
  · have hnext : daysBeforeYear (a.year + 1) ≤ daysBeforeYear b.year := daysBeforeYear_mono h
    have hlast := dayOfYear_le a
    rw [daysBeforeYear_succ] at hnext
    omega
  · have hnext : _ ≤ daysBefore a.year b.month := daysBefore_le a.valid.1.1 h
    have hlast : a.day ≤ monthLength a.year a.month := a.valid.2.2
    rw [← hyear]
    omega
  · rw [← hyear, ← hmonth]
    omega

lemma before_or_eq_or_before (a b : Date) : a.Before b ∨ a = b ∨ b.Before a := by
  obtain ⟨y, m, d, hv⟩ := a
  obtain ⟨y', m', d', hv'⟩ := b
  simp only [Before, mk.injEq]
  omega

lemma before_of_dayNumber_lt (h : a.dayNumber < b.dayNumber) : a.Before b := by
  rcases before_or_eq_or_before a b with hab | rfl | hba
  · exact hab
  · exact (lt_irrefl _ h).elim
  · exact (lt_asymm h (dayNumber_lt_of_before hba)).elim

lemma eq_of_dayNumber_eq (h : a.dayNumber = b.dayNumber) : a = b := by
  rcases before_or_eq_or_before a b with hab | rfl | hba
  · exact ((dayNumber_lt_of_before hab).ne h).elim
  · rfl
  · exact ((dayNumber_lt_of_before hba).ne' h).elim

end Date

namespace TimeOfDay

lemma secondOfDay_lt (t : TimeOfDay) : t.secondOfDay < 86400 := by
  obtain ⟨⟨hhour, hminute, hsecond⟩, _⟩ := t.valid
  rw [secondOfDay]
  omega

/-- A leap second is later than what else has its second. -/
def NotAfter (s t : TimeOfDay) : Prop :=
  toLex (s.secondOfDay, s.nanosecond) ≤ toLex (t.secondOfDay, t.nanosecond)

end TimeOfDay

namespace DateTime

def NotAfter (s t : DateTime) : Prop :=
  toLex s.instant ≤ toLex t.instant

lemma notAfter_iff {s t : DateTime} : s.NotAfter t ↔ s.date.Before t.date ∨ s.date = t.date ∧ s.time.NotAfter t.time := by
  have hs := s.time.secondOfDay_lt
  have ht := t.time.secondOfDay_lt
  simp only [NotAfter, TimeOfDay.NotAfter, instant, Prod.Lex.toLex_le_toLex]
  constructor
  · intro h
    rcases Int.lt_trichotomy s.date.dayNumber t.date.dayNumber with hd | hd | hd
    · exact .inl (Date.before_of_dayNumber_lt hd)
    · exact .inr ⟨Date.eq_of_dayNumber_eq hd, by omega⟩
    · omega
  · rintro (h | ⟨h, htime⟩)
    · have hd := Date.dayNumber_lt_of_before h
      omega
    · rw [h]
      omega

end DateTime

end TransactScript
