import DdlCatalog.Toml.Lexical

/-!
# Numbers and dates of TOML

Integers have 64 bits. A floating-point number may not be too great for a double; one that is too
small stands for minus infinity.
-/

namespace DdlCatalog.Toml

open Reader

/-! ### Integers -/

/-- A run of digits of a base, with single underscores between them. -/
def digits (base : Nat) : Reader (List Nat) := do
  let digit : Reader Nat := do
    let c ← satisfy fun c => (hexValue? c).any (· < base)
    return (hexValue? c).getD 0
  let first ← digit
  let others ← many do
    let _ ← maybe (word "_")
    digit
  return first :: others

/-- The number that digits of a base stand for. -/
def ofDigits (base : Nat) (ds : List Nat) : Nat :=
  ds.foldl (fun n d => base * n + d) 0

def sign : Reader Bool := do
  match ← maybe (satisfy fun c => c == '+' || c == '-') with
  | some c => return c == '-'
  | none => return false

/-- Decimal digits of which the first is no zero, unless it is the only one. -/
def decimalDigits : Reader (List Nat) :=
  (do word "0"; return [0]) <|> digits 10

/-- The integers that 64 bits do not hold start here. -/
def integerBound : Nat :=
  Nat.pow 2 63

/-- An integer in a base that two characters announce. -/
def basedInteger (mark : String) (base : Nat) : Reader Int := do
  word mark
  let n := ofDigits base (← digits base)
  if n < integerBound then return n else failure

def integer : Reader Int :=
  basedInteger "0x" 16 <|> basedInteger "0o" 8 <|> basedInteger "0b" 2 <|> do
    let minus ← sign
    let n := ofDigits 10 (← decimalDigits)
    if minus ∧ n ≤ integerBound then return -n
    else if n < integerBound then return n
    else failure

/-! ### Floating-point numbers -/

/-- The least number that no longer rounds to a finite double: half a unit above the greatest. -/
def overflowBound : Nat :=
  Nat.pow 2 1024 - Nat.pow 2 970

/-- Whether a number, given by its decimal digits and a power of ten, is too great for a double.
Only numbers near the bound are compared with it exactly. -/
def overflows (ds : List Nat) (exponent : Int) : Bool :=
  let ds := ds.dropWhile (· == 0)
  let size := ds.length + exponent
  if ds.isEmpty || size < 308 then false
  else if 310 < size then true
  else if 0 ≤ exponent then overflowBound ≤ ofDigits 10 ds * Nat.pow 10 exponent.toNat
  else overflowBound * Nat.pow 10 (-exponent).toNat ≤ ofDigits 10 ds

def exponent : Reader Int := do
  let _ ← satisfy fun c => c == 'e' || c == 'E'
  let minus ← sign
  let n : Int := ofDigits 10 (← digits 10)
  return if minus then -n else n

/-- The digits after a point. -/
def fraction : Reader (List Nat) := do
  word "."
  digits 10

/-- A number with a fraction or a power of ten. -/
def finiteFloat : Reader Unit := do
  let minus ← sign
  let whole ← decimalDigits
  let part ← maybe fraction
  let power ← maybe exponent
  let places := part.getD []
  if part.isNone && power.isNone then failure
  else if !minus && overflows (whole ++ places) (power.getD 0 - places.length) then failure
  else return ()

/-- Infinity or no number. -/
def specialFloat : Reader Unit := do
  let _ ← sign
  word "inf" <|> word "nan"

def float : Reader String :=
  literal (finiteFloat <|> specialFloat)

/-! ### Dates and times -/

/-- A number of exactly `count` decimal digits within bounds. -/
def boundedNumber (count low high : Nat) : Reader Nat := do
  let ds ← (List.replicate count ()).mapM fun _ => satisfy Char.isDigit
  let n := ofDigits 10 (ds.map fun c => c.toNat - '0'.toNat)
  if low ≤ n ∧ n ≤ high then return n else failure

def daysOfMonth (year month : Nat) : Nat :=
  if month = 2 then
    if year % 4 = 0 ∧ (year % 100 ≠ 0 ∨ year % 400 = 0) then 29 else 28
  else if month = 4 ∨ month = 6 ∨ month = 9 ∨ month = 11 then 30
  else 31

def date : Reader Unit := do
  let year ← boundedNumber 4 0 9999
  word "-"
  let month ← boundedNumber 2 1 12
  word "-"
  let _ ← boundedNumber 2 1 (daysOfMonth year month)

/-- A time of the day; a minute may have a leap second. -/
def time : Reader Unit := do
  let _ ← boundedNumber 2 0 23
  word ":"
  let _ ← boundedNumber 2 0 59
  word ":"
  let _ ← boundedNumber 2 0 60
  let _ ← maybe do
    word "."
    let _ ← satisfy Char.isDigit
    takeWhile Char.isDigit

/-- A distance from universal time. -/
def zone : Reader Unit :=
  word "Z" <|> word "z" <|> do
    let _ ← satisfy fun c => c == '+' || c == '-'
    let _ ← boundedNumber 2 0 23
    word ":"
    let _ ← boundedNumber 2 0 59

/-- A date, a time or both, as they are written. -/
def datetime : Reader String :=
  literal <| (do
    date
    let _ ← maybe do
      let _ ← satisfy fun c => c == 'T' || c == 't' || c == ' '
      time
      maybe zone) <|> time

end DdlCatalog.Toml
