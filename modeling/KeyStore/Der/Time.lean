import KeyStore.Der.Element

/-!
# Times

The two forms of a time in a certificate, both in universal time with seconds: with two digits of
the year, which stand for 1950 to 2049, or with four. The time has to exist and to lie in 1970 or
later.
-/

namespace KeyStore.Der

def utcTimeTag : UInt8 := 0x17

def generalizedTimeTag : UInt8 := 0x18

def digit? (byte : UInt8) : Option Nat :=
  if 0x30 ≤ byte ∧ byte ≤ 0x39 then some (byte.toNat - 0x30) else none

def pairs? : Bytes → Option (List Nat)
  | [] => some []
  | [_] => none
  | tens :: ones :: rest => do
      let tens ← digit? tens
      let ones ← digit? ones
      let numbers ← pairs? rest
      return (tens * 10 + ones) :: numbers

def IsLeapYear (year : Nat) : Prop :=
  year % 4 = 0 ∧ (year % 100 ≠ 0 ∨ year % 400 = 0)

instance (year : Nat) : Decidable (IsLeapYear year) :=
  inferInstanceAs (Decidable (_ ∧ _))

/-- The number of days of a month, and zero for a month that does not exist. -/
def daysOfMonth (year month : Nat) : Nat :=
  if month = 2 then
    if IsLeapYear year then 29 else 28
  else if month = 4 ∨ month = 6 ∨ month = 9 ∨ month = 11 then 30
  else if 1 ≤ month ∧ month ≤ 12 then 31
  else 0

structure Time where
  year : Nat
  month : Nat
  day : Nat
  hour : Nat
  minute : Nat
  second : Nat
deriving DecidableEq, Repr

def Time.Valid (time : Time) : Prop :=
  1970 ≤ time.year ∧ 1 ≤ time.day ∧ time.day ≤ daysOfMonth time.year time.month ∧
    time.hour ≤ 23 ∧ time.minute ≤ 59 ∧ time.second ≤ 59

instance (time : Time) : Decidable time.Valid :=
  inferInstanceAs (Decidable (_ ∧ _))

def zone : UInt8 := 0x5a

/-- The century of the last two digits of a year. -/
def century (lastDigits : Nat) : Nat :=
  if 50 ≤ lastDigits then 1900 else 2000

def Element.writtenTime? (element : Element) : Option Time :=
  if element.content.getLast? = some zone then
    match pairs? element.content.dropLast with
    | some [year, month, day, hour, minute, second] =>
        if element.tag = utcTimeTag then
          some ⟨century year + year, month, day, hour, minute, second⟩
        else
          none
    | some [firstDigits, lastDigits, month, day, hour, minute, second] =>
        if element.tag = generalizedTimeTag then
          some ⟨firstDigits * 100 + lastDigits, month, day, hour, minute, second⟩
        else
          none
    | _ => none
  else
    none

def Element.time? (element : Element) : Option Time :=
  match element.writtenTime? with
  | some time => if time.Valid then some time else none
  | none => none

end KeyStore.Der
