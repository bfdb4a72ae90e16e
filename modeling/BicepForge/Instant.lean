/-!
# Instants

Points in time counted in nanoseconds since the Unix epoch, and their text: a calendar date and a
time of day in UTC. Documents show milliseconds; stored instants show as many digits as they need.
-/

namespace BicepForge

/-- A point in time, in nanoseconds since the start of 1970 in UTC. -/
structure Instant where
  nanos : Int
deriving DecidableEq, Repr

namespace Instant

def ofMillis (millis : Int) : Instant :=
  ⟨millis * 1000000⟩

/-- The date that lies `days` after the first of January 1970, as year, month and day. Years are
counted from March, so that a leap day ends its year. -/
def civilDate (days : Int) : Int × Nat × Nat :=
  let shifted := days + 719468
  let era := shifted / 146097
  let dayOfEra := (shifted % 146097).toNat
  let yearOfEra :=
    (dayOfEra - dayOfEra / 1460 + dayOfEra / 36524 - dayOfEra / 146096) / 365
  let dayOfYear := dayOfEra - (365 * yearOfEra + yearOfEra / 4 - yearOfEra / 100)
  let marchMonth := (5 * dayOfYear + 2) / 153
  let day := dayOfYear - (153 * marchMonth + 2) / 5 + 1
  let month := if marchMonth < 10 then marchMonth + 3 else marchMonth - 9
  let year := yearOfEra + era * 400
  (if month ≤ 2 then year + 1 else year, month, day)

/-- The days from the first of January 1970 to a date. -/
def dayNumber (year : Int) (month day : Nat) : Int :=
  let y := if month ≤ 2 then year - 1 else year
  let era := y / 400
  let yearOfEra := (y % 400).toNat
  let marchMonth := if month > 2 then month - 3 else month + 9
  let dayOfYear := (153 * marchMonth + 2) / 5 + day - 1
  let dayOfEra := yearOfEra * 365 + yearOfEra / 4 - yearOfEra / 100 + dayOfYear
  era * 146097 + dayOfEra - 719468

/-- A number with zeros in front up to a width. -/
def padded (width n : Nat) : String :=
  let digits := Nat.toDigits 10 n
  String.ofList (List.replicate (width - digits.length) '0' ++ digits)

/-- A year in four digits; one that needs a sign has it. -/
def yearText (year : Int) : String :=
  if 0 ≤ year ∧ year ≤ 9999 then padded 4 year.toNat
  else (if year < 0 then "-" else "+") ++ padded 4 year.natAbs

/-- Date and time in UTC down to the second. -/
def secondsText (t : Instant) : String :=
  let seconds := t.nanos / 1000000000
  let (year, month, day) := civilDate (seconds / 86400)
  let ofDay := (seconds % 86400).toNat
  yearText year ++ "-" ++ padded 2 month ++ "-" ++ padded 2 day ++ "T" ++
    padded 2 (ofDay / 3600) ++ ":" ++ padded 2 (ofDay / 60 % 60) ++ ":" ++ padded 2 (ofDay % 60)

/-- The nanoseconds since the last full second. -/
def fraction (t : Instant) : Nat :=
  (t.nanos % 1000000000).toNat

def timestamp (t : Instant) : String :=
  t.secondsText ++ "." ++ padded 3 (t.fraction / 1000000) ++ "Z"

/-- The text with none, three, six or nine digits of fraction, as few as hold it. -/
def text (t : Instant) : String :=
  let f := t.fraction
  t.secondsText ++
    (if f = 0 then ""
      else if f % 1000000 = 0 then "." ++ padded 3 (f / 1000000)
      else if f % 1000 = 0 then "." ++ padded 6 (f / 1000)
      else "." ++ padded 9 f) ++ "Z"

/-- A number of exactly `width` digits at the front. -/
def digits? (width : Nat) (cs : List Char) : Option (Nat × List Char) :=
  let front := cs.take width
  if front.length = width ∧ front.all Char.isDigit then
    some (front.foldl (fun n c => n * 10 + (c.toNat - 48)) 0, cs.drop width)
  else none

/-- One of the characters at the front. -/
def expect? (allowed : List Char) : List Char → Option (List Char)
  | c :: cs => if c ∈ allowed then some cs else none
  | [] => none

/-- A fraction of a second in nanoseconds; digits past the ninth are dropped. -/
def fraction? : List Char → Option (Nat × List Char)
  | '.' :: cs =>
    let digits := cs.takeWhile Char.isDigit
    if digits.isEmpty then none
    else
      let nine := (digits ++ List.replicate 9 '0').take 9
      some (nine.foldl (fun n c => n * 10 + (c.toNat - 48)) 0, cs.dropWhile Char.isDigit)
  | cs => some (0, cs)

/-- An offset from UTC in seconds. -/
def offset? : List Char → Option Int
  | ['Z'] | ['z'] => some 0
  | sign :: cs => do
    let (hours, cs) ← digits? 2 cs
    let cs ← expect? [':'] cs
    let (minutes, cs) ← digits? 2 cs
    if cs.isEmpty ∧ hours < 24 ∧ minutes < 60 then
      let seconds : Int := hours * 3600 + minutes * 60
      if sign = '+' then some seconds else if sign = '-' then some (-seconds) else none
    else none
  | [] => none

/-- The instant of a text with a date, a time and an offset. -/
def parse? (s : String) : Option Instant := do
  let (year, cs) ← digits? 4 s.toList
  let cs ← expect? ['-'] cs
  let (month, cs) ← digits? 2 cs
  let cs ← expect? ['-'] cs
  let (day, cs) ← digits? 2 cs
  let cs ← expect? ['T', 't', ' '] cs
  let (hour, cs) ← digits? 2 cs
  let cs ← expect? [':'] cs
  let (minute, cs) ← digits? 2 cs
  let cs ← expect? [':'] cs
  let (second, cs) ← digits? 2 cs
  let (nanos, cs) ← fraction? cs
  let offset ← offset? cs
  if civilDate (dayNumber year month day) = ((year : Int), month, day) ∧
      hour < 24 ∧ minute < 60 ∧ second < 60 then
    let seconds := dayNumber year month day * 86400 + hour * 3600 + minute * 60 + second - offset
    some ⟨seconds * 1000000000 + nanos⟩
  else none

end Instant

end BicepForge
