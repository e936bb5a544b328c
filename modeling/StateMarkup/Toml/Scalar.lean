import StateMarkup.Toml.Value

/-!
# TOML numbers and dates

Truth values, numbers and dates are written without quotes. Each is one run of the characters that
may stand in them, so `Value.ofRun?` takes such a run whole: it is a value or it is not.

Integers lie between -2^63 and 2^63 - 1. A number with a fraction or an exponent may be of any size
below the largest that rounds to a finite one in binary with 53 digits (`overflows`).
-/

namespace StateMarkup.Toml

/-- The value of a digit in some base up to sixteen. -/
def digit? (base : Nat) (c : Char) : Option Nat :=
  let value :=
    if c.isDigit then c.toNat - '0'.toNat
    else if 'a' ≤ c && c ≤ 'f' then c.toNat - 'a'.toNat + 10
    else if 'A' ≤ c && c ≤ 'F' then c.toNat - 'A'.toNat + 10
    else base
  if value < base then some value else none

/-- The value of digits with single underscores between them, behind digits of the given value. -/
def digitsFrom? (base value : Nat) : List Char → Option Nat
  | [] => some value
  | '_' :: c :: rest =>
    match digit? base c with
    | some d => digitsFrom? base (value * base + d) rest
    | none => none
  | c :: rest =>
    match digit? base c with
    | some d => digitsFrom? base (value * base + d) rest
    | none => none

/-- The value of at least one digit, with single underscores between digits. -/
def digits? (base : Nat) : List Char → Option Nat
  | [] => none
  | '_' :: _ => none
  | cs => digitsFrom? base 0 cs

/-- The value of a decimal without a sign: a zero at its start is its only digit. -/
def decimal? : List Char → Option Nat
  | '0' :: _ :: _ => none
  | cs => digits? 10 cs

/-- A sign, or none, and what follows it; true for a minus. -/
def takeSign : List Char → Bool × List Char
  | '-' :: rest => (true, rest)
  | '+' :: rest => (false, rest)
  | cs => (false, cs)

/-- The first number that is too large for an integer. -/
def integerBound : Nat := Nat.pow 2 63

/-- The integers there are. -/
def inRange (n : Int) : Bool := -Int.ofNat integerBound ≤ n && n < Int.ofNat integerBound

/-- The integer of a run. -/
def integer? (cs : List Char) : Option Int :=
  let n : Option Int := match cs with
    | '0' :: 'x' :: rest => (digits? 16 rest).map Int.ofNat
    | '0' :: 'o' :: rest => (digits? 8 rest).map Int.ofNat
    | '0' :: 'b' :: rest => (digits? 2 rest).map Int.ofNat
    | _ =>
      let (negative, rest) := takeSign cs
      (decimal? rest).map fun n => if negative then -(Int.ofNat n) else Int.ofNat n
  n.filter inRange

/-- Whether `digits * 10 ^ exponent` is too large for the binary format: from halfway between its
largest number and the next on. -/
def overflows (digits : Nat) (exponent : Int) : Bool :=
  let size : Int := (Nat.toDigits 10 digits).length + exponent
  if digits = 0 || size ≤ 308 then false
  else if size > 310 then true
  else
    let limit := Nat.pow 2 1024 - Nat.pow 2 970
    if exponent < 0 then limit * Nat.pow 10 (-exponent).toNat ≤ digits
    else limit ≤ digits * Nat.pow 10 exponent.toNat

/-- The exponent behind a number: its letter, a sign and digits. -/
def exponent? : List Char → Option Int
  | c :: rest =>
    if c = 'e' || c = 'E' then
      let (negative, rest) := takeSign rest
      (digits? 10 rest).map fun n => if negative then -(Int.ofNat n) else Int.ofNat n
    else none
  | [] => none

/-- Whether a run is a number with a fraction, an exponent or both. -/
def isFloat (cs : List Char) : Bool :=
  let (negative, rest) := takeSign cs
  let isMark (c : Char) : Bool := c == '.' || c == 'e' || c == 'E'
  let isExponentMark (c : Char) : Bool := c == 'e' || c == 'E'
  let whole := rest.takeWhile (!isMark ·)
  let tail := rest.dropWhile (!isMark ·)
  if rest = ['i', 'n', 'f'] || rest = ['n', 'a', 'n'] then true
  else
    let fits (fraction : List Char) (exponent : Option Int) : Bool :=
      match decimal? whole, digits? 10 ('0' :: fraction), exponent with
      | some w, some f, some e =>
        let places := (fraction.filter (· != '_')).length
        negative || !overflows (w * Nat.pow 10 places + f) (e - places)
      | _, _, _ => false
    match tail with
    | '.' :: tail =>
      let fraction := tail.takeWhile (!isExponentMark ·)
      (digits? 10 fraction).isSome &&
        match tail.dropWhile (!isExponentMark ·) with
        | [] => fits fraction (some 0)
        | tail => fits fraction (exponent? tail)
    | [] => false
    | tail => fits [] (exponent? tail)

/-! ## Dates -/

/-- The number of some digits if there are just so many and it lies between two others. -/
def fixed? (count low high : Nat) (cs : List Char) : Option Nat :=
  if cs.length = count && cs.all Char.isDigit then
    (digitsFrom? 10 0 cs).filter fun n => low ≤ n && n ≤ high
  else none

/-- The days of a month. -/
def daysOf (year month : Nat) : Nat :=
  if month = 2 then
    if year % 4 = 0 && (year % 100 ≠ 0 || year % 400 = 0) then 29 else 28
  else if month = 4 || month = 6 || month = 9 || month = 11 then 30
  else 31

/-- Whether a run is a day: year, month and day of the month. -/
def isDay (cs : List Char) : Bool :=
  match fixed? 4 0 9999 (cs.take 4), (cs.drop 4).take 1, fixed? 2 1 12 ((cs.drop 5).take 2),
      (cs.drop 7).take 1 with
  | some year, ['-'], some month, ['-'] => (fixed? 2 1 (daysOf year month) (cs.drop 8)).isSome
  | _, _, _, _ => false

/-- Whether a run is an hour and a minute. -/
def isHourMinute (cs : List Char) : Bool :=
  (fixed? 2 0 23 (cs.take 2)).isSome && (cs.drop 2).take 1 == [':'] &&
    (fixed? 2 0 59 (cs.drop 3)).isSome

/-- Whether a run is a time of the day: hour, minute, second and perhaps parts of a second. -/
def isTime (cs : List Char) : Bool :=
  isHourMinute (cs.take 5) && (cs.drop 5).take 1 == [':'] &&
    (fixed? 2 0 60 ((cs.drop 6).take 2)).isSome &&
    match cs.drop 8 with
    | [] => true
    | '.' :: parts => !parts.isEmpty && parts.all Char.isDigit
    | _ => false

/-- A time without what says how far it is from the time at Greenwich; none if that is wrong. -/
def withoutOffset? (cs : List Char) : Option (List Char) :=
  let time := cs.takeWhile fun c => c.isDigit || c == ':' || c == '.'
  match cs.drop time.length with
  | [] => some time
  | ['Z'] => some time
  | ['z'] => some time
  | '+' :: offset => if isHourMinute offset then some time else none
  | '-' :: offset => if isHourMinute offset then some time else none
  | _ => none

/-- Whether a run is a day, a time, or both with a mark between them. -/
def isDate (cs : List Char) : Bool :=
  isDay cs || isTime cs ||
    isDay (cs.take 10) &&
      match cs.drop 10 with
      | c :: rest => (c == 'T' || c == 't') && (withoutOffset? rest).any isTime
      | [] => false

/-! ## Runs -/

/-- A character that may stand in a value without quotes. -/
def isRunChar (c : Char) : Bool :=
  c.isAlphanum || c == '_' || c == '+' || c == '-' || c == '.' || c == ':'

/-- The value of a run. -/
def Value.ofRun? (cs : List Char) : Option Value :=
  if cs = "true".toList then some (.boolean true)
  else if cs = "false".toList then some (.boolean false)
  else if isDate cs then some (.date (String.ofList cs))
  else if isFloat cs then some (.float (String.ofList cs))
  else (integer? cs).map .integer

/-- The value at the start of a text, and the text behind it. A day and a time may have a space
between them. -/
def readRun? (cs : List Char) : Option (Value × List Char) :=
  let run := cs.takeWhile isRunChar
  let rest := cs.dropWhile isRunChar
  match isDay run, rest with
  | true, ' ' :: d :: more =>
    if d.isDigit then
      let time := (d :: more).takeWhile isRunChar
      (Value.ofRun? (run ++ 'T' :: time)).map fun v => (v, (d :: more).dropWhile isRunChar)
    else (Value.ofRun? run).map fun v => (v, rest)
  | _, _ => (Value.ofRun? run).map fun v => (v, rest)

end StateMarkup.Toml
