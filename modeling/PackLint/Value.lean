import PackLint.Number.Shortest
import PackLint.Text.Quoted
import PackLint.Entries

/-!
# Values

A `Value` is what a scalar of a document, or a whole tree, stands for. Values are compared as
`Value.same` says: numbers by their size, a truth value being one or zero, moments as moments
wherever they were noted, and dictionaries without regard to order. `Value.text` writes a list or
dictionary on one line. These are the values that `to_python` gives, compared as
`_check_duplicates` compares them.
-/

namespace PackLint

/-- A day of the calendar. -/
structure Date where
  year : Nat
  month : Nat
  day : Nat
deriving DecidableEq, Inhabited

/-- A moment of a day, with the distance in minutes from universal time if it is known. -/
structure DateTime where
  date : Date
  hour : Nat
  minute : Nat
  second : Nat
  microsecond : Nat := 0
  offset : Option Int := none
deriving DecidableEq, Inhabited

/-- What a scalar or a tree stands for. -/
inductive Value where
  | null
  | bool (b : Bool)
  | number (n : Number)
  | str (s : String)
  | bytes (bs : List UInt8)
  | date (d : Date)
  | dateTime (t : DateTime)
  | list (items : List Value)
  | dict (entries : List (String × Value))
deriving Inhabited

/-! ## The calendar -/

namespace Date

/-- Whether a year has 366 days. -/
def isLeapYear (year : Nat) : Bool :=
  year % 4 = 0 && (year % 100 ≠ 0 || year % 400 = 0)

/-- The number of days of a month. -/
def daysIn (year month : Nat) : Nat :=
  if month = 2 then (if isLeapYear year then 29 else 28)
  else if month = 4 ∨ month = 6 ∨ month = 9 ∨ month = 11 then 30 else 31

/-- Whether the day is in the calendar, in the years 1 to 9999. -/
def isValid (d : Date) : Bool :=
  decide (1 ≤ d.year ∧ d.year ≤ 9999 ∧ 1 ≤ d.month ∧ d.month ≤ 12 ∧ 1 ≤ d.day ∧
    d.day ≤ daysIn d.year d.month)

/-- The number of days before a year, counted from the year 1. -/
def daysBeforeYear (year : Nat) : Nat :=
  let y := year - 1
  y * 365 + y / 4 - y / 100 + y / 400

/-- The number of the day, counted from the first day of the year 1. -/
def dayNumber (d : Date) : Nat :=
  let daysBeforeMonth :=
    (List.range (d.month - 1)).foldl (fun days m => days + daysIn d.year (m + 1)) 0
  daysBeforeYear d.year + daysBeforeMonth + d.day - 1

/-- The next day. -/
def next (d : Date) : Date :=
  if d.day < daysIn d.year d.month then { d with day := d.day + 1 }
  else if d.month < 12 then ⟨d.year, d.month + 1, 1⟩
  else ⟨d.year + 1, 1, 1⟩

end Date

namespace DateTime

/-- The microseconds since the first day of the year 1, by the clock that shows the moment. -/
def clock (t : DateTime) : Int :=
  ((t.date.dayNumber * 24 + t.hour) * 60 + t.minute) * 60 * 1000000 + t.second * 1000000 +
    t.microsecond

/-- Whether two moments are the same; one that is not tied to universal time is the same only as
another such. -/
def same (t u : DateTime) : Bool :=
  match t.offset, u.offset with
  | none, none => t.clock = u.clock
  | some a, some b => t.clock - a * 60000000 = u.clock - b * 60000000
  | _, _ => false

/-- The moment one second later. -/
def nextSecond (t : DateTime) : DateTime :=
  if t.second < 59 then { t with second := t.second + 1 }
  else if t.minute < 59 then { t with minute := t.minute + 1, second := 0 }
  else if t.hour < 23 then { t with hour := t.hour + 1, minute := 0, second := 0 }
  else { t with date := t.date.next, hour := 0, minute := 0, second := 0 }

end DateTime

/-! ## Dates as text -/

/-- A number with at least `width` digits. -/
def padded (width n : Nat) : String :=
  let ds := Nat.toDigits 10 n
  String.ofList (List.replicate (width - ds.length) '0' ++ ds)

/-- A day as year, month and day. -/
def Date.text (d : Date) : String :=
  padded 4 d.year ++ "-" ++ padded 2 d.month ++ "-" ++ padded 2 d.day

/-- The distance from universal time as hours and minutes with a sign. -/
def offsetText (minutes : Int) : String :=
  (if minutes < 0 then "-" else "+") ++ padded 2 (minutes.natAbs / 60) ++ ":" ++
    padded 2 (minutes.natAbs % 60)

/-- A moment as day, time and distance from universal time, with `separator` behind the day. -/
def DateTime.text (t : DateTime) (separator : String := "T") : String :=
  let time := padded 2 t.hour ++ ":" ++ padded 2 t.minute ++ ":" ++ padded 2 t.second
  t.date.text ++ separator ++ time ++
    (if t.microsecond = 0 then "" else "." ++ padded 6 t.microsecond) ++
    (t.offset.map offsetText).getD ""

namespace Value

/-! ## Equality -/

/-- The number that a value is equal to, if there is one. -/
def number? : Value → Option Number
  | bool b => some (.int (if b then 1 else 0))
  | number n => some n
  | _ => none

/-- Whether two values that hold no others are the same. -/
def sameAtom (v w : Value) : Bool :=
  match v, w with
  | null, null => true
  | str s, str t => s = t
  | bytes bs, bytes cs => bs = cs
  | date d, date e => d = e
  | dateTime t, dateTime u => t.same u
  | v, w =>
    match v.number?, w.number? with
    | some a, some b => Number.eq a b
    | _, _ => false

/-- Whether a value is no number at all, which equals itself only inside a collection. -/
def isNan : Value → Bool
  | number (.float .nan) => true
  | _ => false

mutual

/-- Whether two values are the same. -/
def same : Value → Value → Bool
  | list vs, w =>
    match w with
    | list ws => sameItems vs ws
    | _ => false
  | dict vs, w =>
    match w with
    | dict ws => vs.length = ws.length && sameEntries vs ws
    | _ => false
  | v, w => sameAtom v w

/-- Whether two lists hold the same values in the same order. -/
def sameItems : List Value → List Value → Bool
  | [], [] => true
  | v :: vs, w :: ws => (v.isNan && w.isNan || same v w) && sameItems vs ws
  | _, _ => false

/-- Whether every entry is found under its key in another dictionary. -/
def sameEntries : List (String × Value) → List (String × Value) → Bool
  | [], _ => true
  | (k, v) :: vs, ws =>
    (match ws.lookup k with
      | some w => v.isNan && w.isNan || same v w
      | none => false) && sameEntries vs ws

end

/-! ## Text -/

/-- A byte of a text between single quotes. -/
def byteText (quote : Char) (b : UInt8) : List Char :=
  let c := Char.ofNat b.toNat
  if c = quote ∨ c = '\\' then ['\\', c]
  else if c = '\n' then ['\\', 'n']
  else if c = '\r' then ['\\', 'r']
  else if c = '\t' then ['\\', 't']
  else if 32 ≤ b.toNat ∧ b.toNat < 127 then [c]
  else '\\' :: 'x' :: hexDigits 2 b.toNat

/-- Bytes between quotes, marked with a `b`. -/
def bytesText (bs : List UInt8) : String :=
  let q := quoteFor (bs.map fun b => Char.ofNat b.toNat)
  String.ofList ('b' :: q :: bs.flatMap (byteText q) ++ [q])

/-- The distance from universal time as a term. -/
def zoneTerm (minutes : Int) : String :=
  if minutes = 0 then "datetime.timezone.utc"
  else
    let (days, seconds) := (Int.fdiv (minutes * 60) 86400, Int.fmod (minutes * 60) 86400)
    "datetime.timezone(datetime.timedelta(" ++ (if days = 0 then "" else "days=" ++ toString days ++
      ", ") ++ "seconds=" ++ toString seconds ++ "))"

/-- A moment as a term of its parts; seconds and microseconds stand there if they are not zero. -/
def dateTimeTerm (t : DateTime) : String :=
  let seconds :=
    if t.microsecond ≠ 0 then [t.second, t.microsecond] else if t.second ≠ 0 then [t.second] else []
  let parts := [t.date.year, t.date.month, t.date.day, t.hour, t.minute] ++ seconds
  let zone := match t.offset with
    | some m => ", tzinfo=" ++ zoneTerm m
    | none => ""
  "datetime.datetime(" ++ ", ".intercalate (parts.map toString) ++ zone ++ ")"

mutual

/-- A value as one line of text. -/
def text : Value → String
  | null => "None"
  | bool b => if b then "True" else "False"
  | number (.int n) => toString n
  | number (.float x) => x.text
  | str s => String.ofList (quoted s.toList)
  | bytes bs => bytesText bs
  | date d =>
    "datetime.date(" ++ ", ".intercalate ([d.year, d.month, d.day].map toString) ++ ")"
  | dateTime t => dateTimeTerm t
  | list vs => "[" ++ itemsText vs ++ "]"
  | dict vs => "\x7b" ++ entriesText vs ++ "\x7d"

/-- Values with commas between them. -/
def itemsText : List Value → String
  | [] => ""
  | [v] => text v
  | v :: w :: vs => text v ++ ", " ++ itemsText (w :: vs)

/-- Entries with commas between them. -/
def entriesText : List (String × Value) → String
  | [] => ""
  | [(k, v)] => String.ofList (quoted k.toList) ++ ": " ++ text v
  | (k, v) :: e :: vs =>
    String.ofList (quoted k.toList) ++ ": " ++ text v ++ ", " ++ entriesText (e :: vs)

end

/-- A value as text that stands alone: a string without quotes, a date or moment as usual. -/
def plainText : Value → String
  | str s => s
  | date d => d.text
  | dateTime t => t.text " "
  | v => v.text

mutual

/-- Whether no integer in a value is too long to be written. -/
def isWritable : Value → Bool
  | number n => n.isWritable
  | list vs => areWritable vs
  | dict vs => entriesWritable vs
  | _ => true

/-- Whether values are writable. -/
def areWritable : List Value → Bool
  | [] => true
  | v :: vs => isWritable v && areWritable vs

/-- Whether the values of entries are writable. -/
def entriesWritable : List (String × Value) → Bool
  | [] => true
  | (_, v) :: vs => isWritable v && entriesWritable vs

end

end Value

end PackLint
