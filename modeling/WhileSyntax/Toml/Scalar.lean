import WhileSyntax.Toml.Value
import WhileSyntax.Toml.Text
namespace WhileSyntax.Toml

/-! # Values that stand without quotes

Booleans, integers, floats and dates are runs of characters without a delimiter. Each kind has
its own grammar, and no run belongs to two kinds.
-/

/-! ## Digits -/

/-- The digits of a run in which single underscores may stand between two digits. -/
def ungroup (isDigit : Char → Bool) : List Char → Option (List Char)
  | [] => none
  | [c] => if isDigit c then some [c] else none
  | c :: d :: cs =>
    if !isDigit c then none
    else if d = '_' then (ungroup isDigit cs).map (c :: ·)
    else (ungroup isDigit (d :: cs)).map (c :: ·)

/-- The number of a run of digits in the given base. -/
def natural? (base : Nat) (cs : List Char) : Option Nat :=
  (ungroup (isDigitOf base) cs).map (numberOf base)

/-- Whether the text has no zero in front of another digit. -/
def isCanonical (digits : List Char) : Bool :=
  digits.length = 1 || digits.head? ≠ some '0'

/-- The digits of a decimal number without zeros in front. -/
def wholeDigits? (cs : List Char) : Option (List Char) :=
  (ungroup Char.isDigit cs).filter isCanonical

/-- Whether a sign in front makes the number negative, and what stands behind the sign. -/
def splitSign : List Char → Bool × List Char
  | '-' :: cs => (true, cs)
  | '+' :: cs => (false, cs)
  | cs => (false, cs)

/-! ## Integers -/

/-- The integer that is written, of whatever size. -/
def unboundedInteger? : List Char → Option Int
  | '0' :: 'x' :: cs => (natural? 16 cs).map Int.ofNat
  | '0' :: 'o' :: cs => (natural? 8 cs).map Int.ofNat
  | '0' :: 'b' :: cs => (natural? 2 cs).map Int.ofNat
  | cs =>
    let (negative, rest) := splitSign cs
    (wholeDigits? rest).map fun digits =>
      let n := Int.ofNat (numberOf 10 digits)
      if negative then -n else n

/-- The integer that is written, if it has at most 128 bits. -/
def integer? (cs : List Char) : Option Int :=
  (unboundedInteger? cs).filter fun n => -Int.pow 2 127 ≤ n && n < Int.pow 2 128

/-! ## Floats -/

/-- The least number that is nearer to infinity than to a float of 64 bits. -/
def floatLimit : Nat :=
  Nat.pow 2 1024 - Nat.pow 2 970

/-- Whether `digits` with the exponent `e` of ten is below `floatLimit`. -/
def isFinite (digits : List Char) (e : Int) : Bool :=
  let significant := digits.dropWhile (· = '0')
  let m := numberOf 10 significant
  let top := Int.ofNat significant.length + e
  if m = 0 || top ≤ 308 then true
  else if 310 ≤ top then false
  else if 0 ≤ e then m * Nat.pow 10 e.toNat < floatLimit
  else m < floatLimit * Nat.pow 10 (-e).toNat

/-- Cuts a text at the first character that satisfies `stop`, which is dropped. -/
def cutAt (stop : Char → Bool) (cs : List Char) : List Char × Option (List Char) :=
  match cs.dropWhile fun c => !stop c with
  | [] => (cs, none)
  | _ :: rest => (cs.takeWhile fun c => !stop c, some rest)

/-- The exponent that is written behind an `e`. -/
def exponent? (cs : List Char) : Option Int :=
  let (negative, rest) := splitSign cs
  (natural? 10 rest).map fun n => if negative then -Int.ofNat n else Int.ofNat n

/-- Whether the text without its sign is a decimal fraction, has an exponent, or both. -/
def isDecimalFloat (cs : List Char) : Bool :=
  let (mantissa, exponent) := cutAt (fun c => c = 'e' || c = 'E') cs
  let (whole, fraction) := cutAt (· = '.') mantissa
  let read := do
    let w ← wholeDigits? whole
    let f ← match fraction with
      | none => some []
      | some f => ungroup Char.isDigit f
    let e ← match exponent with
      | none => some 0
      | some e => exponent? e
    some (isFinite (w ++ f) (e - f.length))
  (fraction.isSome || exponent.isSome) && read = some true

/-- Whether the text is a float; one that is written as a decimal must not be too large. -/
def isFloat (cs : List Char) : Bool :=
  let (_, rest) := splitSign cs
  rest = ['i', 'n', 'f'] || rest = ['n', 'a', 'n'] || isDecimalFloat rest

/-! ## Dates and times -/

/-- A number of exactly `width` digits at the front. -/
def fixedDigits? (width : Nat) (cs : List Char) : Option (Nat × List Char) :=
  let digits := cs.take width
  if digits.length = width && digits.all Char.isDigit then
    some (numberOf 10 digits, cs.drop width)
  else none

/-- What stands behind the given character. -/
def expect? (c : Char) : List Char → Option (List Char)
  | [] => none
  | d :: cs => if c = d then some cs else none

def isLeapYear (year : Nat) : Bool :=
  year % 4 = 0 && (year % 100 ≠ 0 || year % 400 = 0)

def daysInMonth (year month : Nat) : Nat :=
  if month = 2 then if isLeapYear year then 29 else 28
  else if month = 4 || month = 6 || month = 9 || month = 11 then 30
  else 31

/-- What stands behind a date. -/
def afterDate? (cs : List Char) : Option (List Char) := do
  let (year, cs) ← fixedDigits? 4 cs
  let cs ← expect? '-' cs
  let (month, cs) ← fixedDigits? 2 cs
  let cs ← expect? '-' cs
  let (day, cs) ← fixedDigits? 2 cs
  if 1 ≤ month && month ≤ 12 && 1 ≤ day && day ≤ daysInMonth year month then some cs else none

/-- What stands behind the fraction of a second, if there is one. -/
def afterFraction? : List Char → Option (List Char)
  | '.' :: cs => if (cs.takeWhile Char.isDigit).isEmpty then none else some (cs.dropWhile Char.isDigit)
  | cs => some cs

/-- What stands behind a time of day; its seconds may be left out. -/
def afterTime? (cs : List Char) : Option (List Char) := do
  let (hour, cs) ← fixedDigits? 2 cs
  let cs ← expect? ':' cs
  let (minute, cs) ← fixedDigits? 2 cs
  if 24 ≤ hour || 60 ≤ minute then none
  match cs with
  | ':' :: cs => do
    let (second, cs) ← fixedDigits? 2 cs
    if 60 < second then none
    afterFraction? cs
  | cs => some cs

/-- Whether the text is nothing or an offset from universal time. -/
def isOffset : List Char → Bool
  | [] | ['Z'] | ['z'] => true
  | sign :: cs =>
    let read := do
      let (hour, cs) ← fixedDigits? 2 cs
      let cs ← expect? ':' cs
      let (minute, cs) ← fixedDigits? 2 cs
      some (cs.isEmpty && hour < 24 && minute < 60)
    (sign = '+' || sign = '-') && read = some true

/-- Whether the text is a date, a time, or both, in that order, with or without an offset. -/
def isDatetime (cs : List Char) : Bool :=
  match afterDate? cs with
  | some [] => true
  | some (c :: rest) =>
    (c = 'T' || c = 't' || c = ' ') &&
      match afterTime? rest with
      | some offset => isOffset offset
      | none => false
  | none => afterTime? cs = some []

/-! ## All kinds -/

/-- The value that a run of characters stands for. -/
def scalar? (cs : List Char) : Option Value :=
  if cs = ['t', 'r', 'u', 'e'] then some (.boolean true)
  else if cs = ['f', 'a', 'l', 's', 'e'] then some (.boolean false)
  else
    match integer? cs with
    | some n => some (.integer n)
    | none =>
      if isFloat cs then some (.float (String.ofList cs))
      else if isDatetime cs then some (.datetime (String.ofList cs))
      else none

end WhileSyntax.Toml
