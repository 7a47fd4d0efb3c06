/-!
# Dates and times

A moment is a day, or a time of a day. A time may say how far its clock is ahead of the common one; two such
times are the same if the common clock shows the same.
-/

namespace AlLint

/-- A time of a day. The offset from the common clock is in minutes. -/
structure TimeOfDay where
  hour : Nat
  minute : Nat
  second : Nat
  micros : Nat := 0
  offset : Option Int := none
deriving DecidableEq, Repr

structure Moment where
  year : Nat
  month : Nat
  day : Nat
  time : Option TimeOfDay := none
deriving DecidableEq, Repr

namespace Moment

def isLeap (year : Nat) : Bool := year % 4 == 0 && (year % 100 != 0 || year % 400 == 0)

def monthDays (year month : Nat) : Nat :=
  if month = 2 then if isLeap year then 29 else 28
  else if [4, 6, 9, 11].contains month then 30
  else 31

def dayMinutes : Nat := 24 * 60

def daysBefore (m : Moment) : Nat :=
  let y := m.year - 1
  let months := (List.range (m.month - 1)).map fun k => monthDays m.year (k + 1)
  365 * y + y / 4 - y / 100 + y / 400 + months.foldl (· + ·) 0 + m.day

/-- What the common clock shows at a time that says its offset, in millionths of a second. -/
def instant? (m : Moment) : Option Int := do
  let t ← m.time
  let minutes ← t.offset
  let own : Int := (m.daysBefore * dayMinutes + t.hour * 60 + t.minute : Nat)
  return ((own - minutes) * 60 + t.second) * 1000000 + t.micros

def same (a b : Moment) : Bool :=
  match a.instant?, b.instant? with
  | some i, some j => i == j
  | none, none => a == b
  | _, _ => false

/-! ## Texts -/

def padded (width n : Nat) : String :=
  let digits := Nat.toDigits 10 n
  String.ofList (List.replicate (width - digits.length) '0' ++ digits)

def typeName (m : Moment) : String := if m.time.isSome then "datetime" else "date"

def offsetText (minutes : Int) : String :=
  (if minutes < 0 then "-" else "+") ++ padded 2 (minutes.natAbs / 60) ++ ":" ++ padded 2 (minutes.natAbs % 60)

def shown (m : Moment) : String :=
  let date := padded 4 m.year ++ "-" ++ padded 2 m.month ++ "-" ++ padded 2 m.day
  match m.time with
  | none => date
  | some t =>
    let micros := if t.micros = 0 then "" else "." ++ padded 6 t.micros
    date ++ " " ++ padded 2 t.hour ++ ":" ++ padded 2 t.minute ++ ":" ++ padded 2 t.second ++ micros ++
      (t.offset.map offsetText).getD ""

def durationText (minutes : Int) : String :=
  let days := Int.fdiv minutes dayMinutes
  let seconds := Int.fmod minutes dayMinutes * 60
  let parts := (if days = 0 then [] else ["days=" ++ toString days]) ++
    (if seconds = 0 then [] else ["seconds=" ++ toString seconds])
  "datetime.timedelta(" ++ (if parts.isEmpty then "0" else ", ".intercalate parts) ++ ")"

def zoneText (minutes : Int) : String :=
  if minutes = 0 then "datetime.timezone.utc" else "datetime.timezone(" ++ durationText minutes ++ ")"

/-- A moment as it stands inside another value. Seconds and their parts are left out at the end if they are zero. -/
def quoted (m : Moment) : String :=
  let numbers : List Nat := [m.year, m.month, m.day] ++
    match m.time with
    | none => []
    | some t =>
      [t.hour, t.minute] ++
        if t.micros ≠ 0 then [t.second, t.micros] else if t.second ≠ 0 then [t.second] else []
  let zone := ((m.time.bind TimeOfDay.offset).map fun minutes => ", tzinfo=" ++ zoneText minutes).getD ""
  "datetime." ++ m.typeName ++ "(" ++ ", ".intercalate (numbers.map toString) ++ zone ++ ")"

end Moment

end AlLint
