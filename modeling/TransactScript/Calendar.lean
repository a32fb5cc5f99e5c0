import TransactScript.Text.Numeral

/-!
Calendar dates, times of day and offsets from universal time, with their fixed-width texts.
-/

namespace TransactScript

def isLeapYear (year : Int) : Bool :=
  year % 4 == 0 && (year % 100 != 0 || year % 400 == 0)

def monthLength (year : Int) (month : Nat) : Nat :=
  match month with
  | 2 => if isLeapYear year then 29 else 28
  | 4 | 6 | 9 | 11 => 30
  | _ => 31

def IsDate (year : Int) (month day : Nat) : Prop :=
  (1 ≤ month ∧ month ≤ 12) ∧ 1 ≤ day ∧ day ≤ monthLength year month

instance (year : Int) (month day : Nat) : Decidable (IsDate year month day) :=
  inferInstanceAs (Decidable (_ ∧ _))

structure Date where
  year : Int
  month : Nat
  day : Nat
  valid : IsDate year month day
deriving DecidableEq, Repr

def nanosecondsPerSecond : Nat := 1000000000

/-- A leap second is a nanosecond count of one second or more. It is admitted at second 59 only, which is a
restriction: a clock whose fields are set one by one, or that an offset with seconds has moved, can hold it at any. -/
def IsTimeOfDay (hour minute second nanosecond : Nat) : Prop :=
  (hour < 24 ∧ minute < 60 ∧ second < 60) ∧
    (nanosecond < nanosecondsPerSecond ∨ second = 59 ∧ nanosecond < 2 * nanosecondsPerSecond)

instance (hour minute second nanosecond : Nat) :
    Decidable (IsTimeOfDay hour minute second nanosecond) :=
  inferInstanceAs (Decidable (_ ∧ _))

structure TimeOfDay where
  hour : Nat
  minute : Nat
  second : Nat
  nanosecond : Nat
  valid : IsTimeOfDay hour minute second nanosecond
deriving DecidableEq, Repr

structure DateTime where
  date : Date
  time : TimeOfDay
deriving DecidableEq, Repr

structure OffsetDateTime where
  clock : DateTime
  offset : Int
  offset_lt : offset.natAbs < 86400
deriving DecidableEq, Repr

namespace Date

def ofFields? (year : Int) (month day : Nat) : Option Date :=
  if h : IsDate year month day then some ⟨year, month, day, h⟩ else none

def daysBefore (year : Int) (month : Nat) : Nat :=
  (List.range' 1 (month - 1)).foldl (fun n m => n + monthLength year m) 0

def dayNumber (d : Date) : Int :=
  let y := d.year - 1
  y * 365 + y.fdiv 4 - y.fdiv 100 + y.fdiv 400 + daysBefore d.year d.month + d.day

def yearText (year : Int) : String :=
  if 0 ≤ year ∧ year ≤ 9999 then Text.paddedNumeral 4 year.toNat
  else (if year < 0 then "-" else "+") ++ Text.paddedNumeral 4 year.natAbs

def text (d : Date) : String :=
  yearText d.year ++ "-" ++ Text.paddedNumeral 2 d.month ++ "-" ++ Text.paddedNumeral 2 d.day

end Date

namespace TimeOfDay

def ofFields? (hour minute second nanosecond : Nat) : Option TimeOfDay :=
  if h : IsTimeOfDay hour minute second nanosecond then some ⟨hour, minute, second, nanosecond, h⟩
  else none

def secondOfDay (t : TimeOfDay) : Nat :=
  t.hour * 3600 + t.minute * 60 + t.second

def shownSecond (t : TimeOfDay) : Nat :=
  t.second + t.nanosecond / nanosecondsPerSecond

def millisecond (t : TimeOfDay) : Nat :=
  t.nanosecond % nanosecondsPerSecond / 1000000

def text (t : TimeOfDay) : String :=
  Text.paddedNumeral 2 t.hour ++ ":" ++ Text.paddedNumeral 2 t.minute ++ ":" ++
    Text.paddedNumeral 2 t.shownSecond ++ "." ++ Text.paddedNumeral 3 t.millisecond

end TimeOfDay

namespace DateTime

def text (t : DateTime) : String :=
  t.date.text ++ "T" ++ t.time.text

def instant (t : DateTime) : Int × Nat :=
  (t.date.dayNumber * 86400 + t.time.secondOfDay, t.time.nanosecond)

end DateTime

namespace OffsetDateTime

def ofOffset? (clock : DateTime) (offset : Int) : Option OffsetDateTime :=
  if h : offset.natAbs < 86400 then some ⟨clock, offset, h⟩ else none

def ofUniversal (clock : DateTime) : OffsetDateTime :=
  ⟨clock, 0, by decide⟩

def instant (t : OffsetDateTime) : Int × Nat :=
  (t.clock.instant.1 - t.offset, t.clock.instant.2)

/-- Hours and minutes with a sign, the offset being rounded to the nearest minute. -/
def offsetText (offset : Int) : String :=
  let minutes := (offset.natAbs + 30) / 60
  (if offset < 0 then "-" else "+") ++ Text.paddedNumeral 2 (minutes / 60) ++ ":" ++
    Text.paddedNumeral 2 (minutes % 60)

def text (t : OffsetDateTime) : String :=
  t.clock.text ++ offsetText t.offset

end OffsetDateTime

end TransactScript
