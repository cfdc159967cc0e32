import SqlLayout.Toml.Quoted
import SqlLayout.Toml.Value

/-!
# Plain TOML values

Truth values, numbers and dates: the values that are written without quotes or brackets.
-/

namespace SqlLayout.Toml

/-- Digits in groups that single underscores separate. -/
def digitGroups? (isDigit : Char → Bool) (text : String) : Option (List Char) :=
  let groups := (text.splitOn "_").map String.toList
  if groups.all fun group => !group.isEmpty && group.all isDigit then some groups.flatten else none

/-- The number that digits of a base write. -/
def numberOf (base : Nat) (digits : List Char) : Nat :=
  digits.foldl (fun value digit => value * base + hexValue digit) 0

def splitSign (text : String) : Option Char × String :=
  match text.toList with
  | '+' :: rest => (some '+', String.ofList rest)
  | '-' :: rest => (some '-', String.ofList rest)
  | _ => (none, text)

/-- Digits that write a decimal number: no zero leads but a lone one. -/
def decimalDigits? (text : String) : Option (List Char) :=
  match digitGroups? Text.isDigit text with
  | some digits => if digits.head? = some '0' && 1 < digits.length then none else some digits
  | none => none

/-- The integers that a document may hold. -/
def inIntegerRange (value : Int) : Bool :=
  -9223372036854775808 ≤ value && value < 18446744073709551616

/-- The value of an integer. A base other than ten is marked, and then there is no sign. -/
def integerValue? (text : String) : Option Int :=
  match text.toList with
  | '0' :: 'x' :: digits =>
      (digitGroups? Text.isHexDigit (String.ofList digits)).map fun digits =>
        (numberOf 16 digits : Int)
  | '0' :: 'o' :: digits =>
      (digitGroups? (fun c => '0' ≤ c && c ≤ '7') (String.ofList digits)).map fun digits =>
        (numberOf 8 digits : Int)
  | '0' :: 'b' :: digits =>
      (digitGroups? (fun c => c == '0' || c == '1') (String.ofList digits)).map fun digits =>
        (numberOf 2 digits : Int)
  | _ =>
      let (sign, unsigned) := splitSign text
      (decimalDigits? unsigned).map fun digits =>
        if sign = some '-' then -(numberOf 10 digits : Int) else (numberOf 10 digits : Int)

def isExponent (text : String) : Bool :=
  (digitGroups? Text.isDigit (splitSign text).2).isSome

def isFloat (text : String) : Bool :=
  let unsigned := (splitSign text).2
  if unsigned = "inf" || unsigned = "nan" then true
  else
    let chars := unsigned.toList
    let mantissa := chars.takeWhile fun c => c != 'e' && c != 'E'
    let exponent := chars.drop mantissa.length
    let whole := mantissa.takeWhile (· != '.')
    let fraction := mantissa.drop whole.length
    let wholeOk := (decimalDigits? (String.ofList whole)).isSome
    let fractionOk :=
      fraction.isEmpty || (digitGroups? Text.isDigit (String.ofList (fraction.drop 1))).isSome
    let exponentOk := exponent.isEmpty || isExponent (String.ofList (exponent.drop 1))
    wholeOk && fractionOk && exponentOk && !(fraction.isEmpty && exponent.isEmpty)

/-! ### Dates and times -/

/-- A number of exactly the given count of digits at the front of a text. -/
def takeDigits? (count : Nat) (text : List Char) : Option (Nat × List Char) :=
  let digits := text.take count
  if digits.length = count && digits.all Text.isDigit then
    some (numberOf 10 digits, text.drop count)
  else none

def daysInMonth (year month : Nat) : Nat :=
  if month = 2 then
    if (year % 4 = 0 && year % 100 != 0) || year % 400 = 0 then 29 else 28
  else if [4, 6, 9, 11].contains month then 30
  else 31

def dropDate? (text : List Char) : Option (List Char) :=
  match takeDigits? 4 text with
  | some (year, '-' :: text) =>
      match takeDigits? 2 text with
      | some (month, '-' :: text) =>
          match takeDigits? 2 text with
          | some (day, text) =>
              if 1 ≤ month && month ≤ 12 && 1 ≤ day && day ≤ daysInMonth year month then some text
              else none
          | none => none
      | _ => none
  | _ => none

def dropFraction? (text : List Char) : Option (List Char) :=
  match text with
  | '.' :: rest =>
      let digits := rest.takeWhile Text.isDigit
      if digits.isEmpty then none else some (rest.drop digits.length)
  | _ => some text

def dropSeconds? (text : List Char) : Option (List Char) :=
  match text with
  | ':' :: rest =>
      match takeDigits? 2 rest with
      | some (second, rest) => if second ≤ 60 then dropFraction? rest else none
      | none => none
  | _ => some text

def dropTime? (text : List Char) : Option (List Char) :=
  match takeDigits? 2 text with
  | some (hour, ':' :: text) =>
      match takeDigits? 2 text with
      | some (minute, text) => if hour ≤ 23 && minute ≤ 59 then dropSeconds? text else none
      | none => none
  | _ => none

/-- Whether a text is an offset from universal time, or empty. -/
def isOffset : List Char → Bool
  | [] => true
  | ['Z'] | ['z'] => true
  | sign :: rest =>
      (sign == '+' || sign == '-') &&
        match takeDigits? 2 rest with
        | some (hour, ':' :: rest) =>
            match takeDigits? 2 rest with
            | some (minute, []) => hour ≤ 23 && minute ≤ 59
            | _ => false
        | _ => false

def isMoment (text : String) : Bool :=
  match dropDate? text.toList with
  | some [] => true
  | some (mark :: rest) =>
      (mark == 'T' || mark == 't' || mark == ' ') &&
        match dropTime? rest with
        | some offset => isOffset offset
        | none => false
  | none => dropTime? text.toList == some []

/-! ### Plain values -/

def scalar? (text : String) : Option Value :=
  if text = "true" then some (.boolean true)
  else if text = "false" then some (.boolean false)
  else
    match integerValue? text with
    | some value => if inIntegerRange value then some (.integer value) else none
    | none =>
        if isFloat text then some (.float text)
        else if isMoment text then some (.moment text)
        else none

def isScalarChar (c : Char) : Bool :=
  Text.isDigit c || ('a' ≤ c && c ≤ 'z') || ('A' ≤ c && c ≤ 'Z') || "_+-.:".toList.contains c

/-- A plain value at the front of a text. One space may divide a date from a time. -/
def readScalar (text : List Char) : Option (Value × List Char) :=
  let first := text.takeWhile isScalarChar
  let rest := text.drop first.length
  let divided :=
    match dropDate? first, rest with
    | some [], ' ' :: next :: _ => Text.isDigit next
    | _, _ => false
  let (token, rest) :=
    if divided then
      let second := (rest.drop 1).takeWhile isScalarChar
      (first ++ ' ' :: second, rest.drop (1 + second.length))
    else (first, rest)
  (scalar? (String.ofList token)).map fun value => (value, rest)

end SqlLayout.Toml
