/-! Calendar dates and times of day as documents hold them. -/
namespace SchemaCompiler

structure Date where
  year : Nat
  month : Nat
  day : Nat
deriving DecidableEq

/-- A time on a date. `offset` is the distance from universal time in minutes, if given. -/
structure DateTime where
  date : Date
  hour : Nat
  minute : Nat
  second : Nat
  micro : Nat
  offset : Option Int
deriving DecidableEq

/-- Why numbers make no date or time. -/
inductive CalendarError where
  | year (given : Nat)
  | month
  | day
  | hour
  | minute
  | second
  | offset (given : Int)

private def digits (width n : Nat) : String :=
  let ds := Nat.toDigits 10 n
  String.ofList (List.replicate (width - ds.length) '0' ++ ds)

/-- A time span of whole minutes: days, rounded down, and the seconds that remain. -/
def spanText (minutes : Int) : String :=
  let days := Int.fdiv minutes 1440
  let seconds := Int.fmod minutes 1440 * 60
  let parts := (if days == 0 then [] else [s!"days={days}"]) ++
    (if seconds == 0 then [] else [s!"seconds={seconds}"])
  "datetime.timedelta(" ++ (if parts.isEmpty then "0" else ", ".intercalate parts) ++ ")"

def CalendarError.message : CalendarError → String
  | .year given => s!"year {given} is out of range"
  | .month => "month must be in 1..12"
  | .day => "day is out of range for month"
  | .hour => "hour must be in 0..23"
  | .minute => "minute must be in 0..59"
  | .second => "second must be in 0..59"
  | .offset given =>
    "offset must be a timedelta strictly between -timedelta(hours=24) and timedelta(hours=24), " ++
    s!"not {spanText given}."

def isLeapYear (year : Nat) : Bool :=
  year % 4 == 0 && (year % 100 != 0 || year % 400 == 0)

def daysInMonth (year month : Nat) : Nat :=
  if month == 2 then (if isLeapYear year then 29 else 28)
  else if [4, 6, 9, 11].contains month then 30
  else 31

def Date.check (d : Date) : Except CalendarError Date :=
  if d.year < 1 || 9999 < d.year then .error (.year d.year)
  else if d.month < 1 || 12 < d.month then .error .month
  else if d.day < 1 || daysInMonth d.year d.month < d.day then .error .day
  else .ok d

def DateTime.check (t : DateTime) : Except CalendarError DateTime := do
  match t.offset with
  | some minutes => if minutes.natAbs ≥ 1440 then throw (.offset minutes)
  | none => pure ()
  let _ ← t.date.check
  if 23 < t.hour then throw .hour
  if 59 < t.minute then throw .minute
  if 59 < t.second then throw .second
  return t

def Date.text (d : Date) : String :=
  s!"{digits 4 d.year}-{digits 2 d.month}-{digits 2 d.day}"

/-- Date and time with `separator` between them. -/
def DateTime.text (separator : String) (t : DateTime) : String :=
  let micro := if t.micro == 0 then "" else s!".{digits 6 t.micro}"
  let offset := match t.offset with
    | none => ""
    | some m =>
      let mark := if m < 0 then "-" else "+"
      s!"{mark}{digits 2 (m.natAbs / 60)}:{digits 2 (m.natAbs % 60)}"
  let time := s!"{digits 2 t.hour}:{digits 2 t.minute}:{digits 2 t.second}"
  t.date.text ++ separator ++ time ++ micro ++ offset

def Date.shown (d : Date) : String := s!"datetime.date({d.year}, {d.month}, {d.day})"

def DateTime.shown (t : DateTime) : String :=
  let d := t.date
  let micro := if t.micro == 0 then [] else [t.micro]
  let second := if t.second == 0 && t.micro == 0 then [] else [t.second]
  let numbers := [d.year, d.month, d.day, t.hour, t.minute] ++ second ++ micro
  let zone := match t.offset with
    | none => []
    | some 0 => ["tzinfo=datetime.timezone.utc"]
    | some m => [s!"tzinfo=datetime.timezone({spanText m})"]
  "datetime.datetime(" ++ ", ".intercalate (numbers.map toString ++ zone) ++ ")"

/-- The number of days before a date, counted from the start of year zero. -/
def Date.ordinal (d : Date) : Nat :=
  let past := d.year - 1
  let before := (List.range (d.month - 1)).foldl
    (fun days m => days + daysInMonth d.year (m + 1)) 0
  past * 365 + past / 4 - past / 100 + past / 400 + before + d.day

/-- Universal time in microseconds; a time without an offset is taken as it stands. -/
def DateTime.instant (t : DateTime) : Int :=
  let minutes : Int := ((t.date.ordinal * 24 + t.hour) * 60 + t.minute : Nat)
  ((minutes - t.offset.getD 0) * 60 + t.second) * 1000000 + t.micro

/-- Whether two times are the same point in time. A time with an offset never equals one without. -/
def DateTime.same (a b : DateTime) : Bool :=
  a.offset.isSome == b.offset.isSome && a.instant == b.instant

end SchemaCompiler
