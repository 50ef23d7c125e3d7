/-!
# Dates and times

The calendar values of a configuration file: a date, a time of day, or both, with or without an
offset from universal time. A value has two texts: the standard one, and the one that messages
show, which spells out its parts and leaves out what is zero at the end.
-/

namespace SampleTypes.Toml

/-- A day of the calendar. -/
structure Date where
  year : Nat
  month : Nat
  day : Nat
  deriving DecidableEq, Repr

/-- A time of day, to the microsecond. -/
structure TimeOfDay where
  hour : Nat
  minute : Nat
  second : Nat
  micro : Nat
  deriving DecidableEq, Repr

/-- A calendar value. An offset is counted in minutes. -/
inductive Moment where
  | date (date : Date)
  | time (time : TimeOfDay)
  | local (date : Date) (time : TimeOfDay)
  | offset (date : Date) (time : TimeOfDay) (minutes : Int)
  deriving DecidableEq, Repr

/-- The number padded with zeros in front. -/
def padded (width n : Nat) : String :=
  let ds := Nat.toDigits 10 n
  String.ofList (List.replicate (width - ds.length) '0' ++ ds)

/-! ## The calendar -/

/-- A year with a leap day. -/
def isLeap (year : Nat) : Bool :=
  year % 4 = 0 && (year % 100 ≠ 0 || year % 400 = 0)

/-- The number of days of a month. -/
def daysInMonth (year month : Nat) : Nat :=
  match month with
  | 2 => if isLeap year then 29 else 28
  | 4 => 30
  | 6 => 30
  | 9 => 30
  | 11 => 30
  | _ => 31

/-- The date exists. There is no year zero. -/
def Date.isValid (d : Date) : Bool :=
  1 ≤ d.year && 1 ≤ d.month && d.month ≤ 12 && 1 ≤ d.day && d.day ≤ daysInMonth d.year d.month

/-! ## Texts -/

/-- The standard text of a date. -/
def Date.text (d : Date) : String :=
  padded 4 d.year ++ "-" ++ padded 2 d.month ++ "-" ++ padded 2 d.day

/-- The standard text of a time, with a fraction only if there is one. -/
def TimeOfDay.text (t : TimeOfDay) : String :=
  padded 2 t.hour ++ ":" ++ padded 2 t.minute ++ ":" ++ padded 2 t.second ++
    (if t.micro = 0 then "" else "." ++ padded 6 t.micro)

/-- The standard text of an offset. -/
def offsetText (minutes : Int) : String :=
  (if minutes < 0 then "-" else "+") ++ padded 2 (minutes.natAbs / 60) ++ ":" ++
    padded 2 (minutes.natAbs % 60)

/-- The standard text with the given mark between date and time. -/
def Moment.textWith (mark : String) : Moment → String
  | .date d => d.text
  | .time t => t.text
  | .local d t => d.text ++ mark ++ t.text
  | .offset d t minutes => d.text ++ mark ++ t.text ++ offsetText minutes

/-- The standard text. -/
def Moment.text (m : Moment) : String :=
  m.textWith "T"

/-- The parts of a date. -/
def Date.parts (d : Date) : List String :=
  [toString d.year, toString d.month, toString d.day]

/-- The parts of a time, without zeros for the second and the microsecond at the end. -/
def TimeOfDay.parts (t : TimeOfDay) : List String :=
  [toString t.hour, toString t.minute] ++
    (if t.micro ≠ 0 then [toString t.second, toString t.micro]
     else if t.second ≠ 0 then [toString t.second]
     else [])

/-- An offset as messages show it; a negative one is a day less and what is then missing. -/
def offsetShown (minutes : Int) : String :=
  if minutes = 0 then "datetime.timezone.utc"
  else
    let inside :=
      if minutes < 0 then "days=-1, seconds=" ++ toString (86400 + minutes * 60)
      else "seconds=" ++ toString (minutes * 60)
    "datetime.timezone(datetime.timedelta(" ++ inside ++ "))"

/-- The value as messages show it. -/
def Moment.shown : Moment → String
  | .date d => "datetime.date(" ++ ", ".intercalate d.parts ++ ")"
  | .time t => "datetime.time(" ++ ", ".intercalate t.parts ++ ")"
  | .local d t => "datetime.datetime(" ++ ", ".intercalate (d.parts ++ t.parts) ++ ")"
  | .offset d t minutes =>
    "datetime.datetime(" ++ ", ".intercalate (d.parts ++ t.parts) ++ ", tzinfo=" ++
      offsetShown minutes ++ ")"

end SampleTypes.Toml
