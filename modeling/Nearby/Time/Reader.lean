/-
Reading moments. The reader takes the written form and its relaxed relatives: blanks in front of
the parts, one digit where two are usual, any of `T`, `t` and a blank between day and time, a
fraction of any length, and an offset from universal time.
-/
import Nearby.Decimal.Numeral
import Nearby.Text.Blank
import Nearby.Time.Timestamp

namespace Nearby.Time

open Decimal (ofDigits spanDigits tenTo)
open Text (isBlank trimStart)

/-! ## Parts -/

/-- A number of one digit up to a given count; further digits are left. -/
def readNumber (most : Nat) : Text.Part Nat := fun cs =>
  let ds := (cs.takeWhile Char.isDigit).take most
  if ds.isEmpty then none else some (ofDigits ds, cs.drop ds.length)

/-- A number of any positive count of digits. -/
def readLongNumber : Text.Part Nat := fun cs =>
  let (ds, rest) := spanDigits cs
  if ds.isEmpty then none else some (ofDigits ds, rest)

/-- A number of one or two digits after any blanks. -/
def readPair : Text.Part Nat := fun cs => readNumber 2 (trimStart cs)

/-- A year after any blanks: up to four digits, or a sign and any count of digits. -/
def readYear : Text.Part Int := fun cs =>
  match trimStart cs with
  | '-' :: rest => (readLongNumber rest).map fun (n, rest) => (-(n : Int), rest)
  | '+' :: rest => (readLongNumber rest).map fun (n, rest) => ((n : Int), rest)
  | rest => (readNumber 4 rest).map fun (n, rest) => ((n : Int), rest)

/-- A mark after any blanks. -/
def skipMark (mark : Char) (cs : List Char) : Option (List Char) :=
  match trimStart cs with
  | c :: rest => if c = mark then some rest else none
  | [] => none

/-! ## Day, time and offset -/

/-- A day. -/
def readDate : Text.Part Date := fun cs => do
  let (year, cs) ← readYear cs
  let cs ← skipMark '-' cs
  let (month, cs) ← readPair cs
  let cs ← skipMark '-' cs
  let (day, cs) ← readPair cs
  return (← Date.ofNumbers year month day, cs)

/-- The character between day and time. -/
def skipSeparator : List Char → Option (List Char)
  | c :: rest => if c = 'T' ∨ c = 't' ∨ c = ' ' then some rest else none
  | [] => none

/-- A fraction of a second as nanoseconds, if there is one. Digits after the ninth do not
count. -/
def readFraction : Text.Part Nat
  | '.' :: cs =>
    let (ds, rest) := spanDigits cs
    let kept := ds.take 9
    if kept.isEmpty then none else some (ofDigits kept * tenTo (9 - kept.length), rest)
  | cs => some (0, cs)

/-- A number below a bound. -/
def below (bound n : Nat) : Option (Fin bound) := if h : n < bound then some ⟨n, h⟩ else none

/-- Two digits that follow each other at once. -/
def readTwoDigits : Text.Part Nat
  | c₁ :: c₂ :: rest =>
    if c₁.isDigit && c₂.isDigit then some (ofDigits [c₁, c₂], rest) else none
  | _ => none

/-- The offset of local time in minutes: a word for universal time, or a sign, two digits of
hours and two digits of minutes, with any colons and blanks between the two. -/
def readOffset : Text.Part Int := fun cs =>
  if (cs.take 3).map Char.toUpper = ['U', 'T', 'C'] then some (0, cs.drop 3)
  else match cs with
    | [] => none
    | mark :: rest =>
      if mark = 'Z' ∨ mark = 'z' then some (0, rest)
      else if mark = '+' ∨ mark = '-' ∨ mark = '\u2212' then do
        let (hours, rest) ← readTwoDigits rest
        let (minutes, rest) ← readTwoDigits (rest.dropWhile fun c => c = ':' || isBlank c)
        if hours < 24 ∧ minutes < 60 then
          let offset : Int := hours * 60 + minutes
          return (if mark = '+' then offset else -offset, rest)
        else none
      else none

/-! ## Moments -/

/-- A moment, with what follows it. -/
def readMoment : Text.Part Timestamp := fun cs => do
  let (date, cs) ← readDate cs
  let cs ← skipSeparator cs
  let (hour, cs) ← readPair cs
  let cs ← skipMark ':' cs
  let (minute, cs) ← readPair cs
  let cs ← skipMark ':' cs
  let (second, cs) ← readPair cs
  let (nano, cs) ← readFraction cs
  let (offset, cs) ← readOffset (trimStart cs)
  let reading : Timestamp :=
    ⟨date, ← below 24 hour, ← below 60 minute, ← below 61 second, ← below 1000000000 nano⟩
  return (← reading.takeOffset offset, cs)

/-- The moment that a text names. Only blanks may follow it. -/
def Timestamp.read (s : String) : Option Timestamp :=
  match readMoment s.toList with
  | some (moment, rest) => if rest.all isBlank then some moment else none
  | none => none

end Nearby.Time
