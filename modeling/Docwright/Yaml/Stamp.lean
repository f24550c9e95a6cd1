import Docwright.Yaml.Token

/-!
# Time stamps

A time stamp is a day, written with dashes, and perhaps a time of day with an offset from universal
time. `Stamp.read?` takes one apart; `Stamp.fault?` says what is wrong with one that names no day or
no time of day, the first fault in the order offset, year, month, day, hour, minute, second.
-/

namespace Docwright.Yaml

/-- A time of day, with the offset from universal time in minutes where there is one. -/
structure TimeOfDay where
  hour : Nat
  minute : Nat
  second : Nat
  offset : Option Int

/-- A time stamp taken apart. -/
structure Stamp where
  year : Nat
  month : Nat
  day : Nat
  time : Option TimeOfDay

namespace Stamp

/-- Takes off between `least` and `most` digits, as many as there are. -/
def digits? (least most : Nat) (cs : List Char) : Option (Nat × List Char) :=
  let found := (cs.take most).takeWhile Char.isDigit
  if found.length < least then none
  else some (found.foldl (fun n c => 10 * n + (c.toNat - '0'.toNat)) 0, cs.drop found.length)

/-- Takes off the given mark. -/
def mark? (c : Char) (cs : List Char) : Option (List Char) :=
  if cs.head? == some c then some (cs.drop 1) else none

/-- The rest behind blanks, at least one of them, or behind the letter that stands for them. -/
def separator? (cs : List Char) : Option (List Char) :=
  match cs with
  | 'T' :: rest => some rest
  | 't' :: rest => some rest
  | c :: rest => if isBlank c then some (rest.dropWhile isBlank) else none
  | [] => none

/-- Reads what may stand behind the seconds: a fraction and an offset, and nothing else. -/
def offset? (cs : List Char) : Option (Option Int) := do
  let cs := match cs with
    | '.' :: rest => rest.dropWhile Char.isDigit
    | _ => cs
  match cs, cs.dropWhile isBlank with
  | [], _ => return none
  | _, ['Z'] => return some 0
  | _, sign :: rest => do
    if sign != '+' && sign != '-' then none
    let (hours, rest) ← digits? 1 2 rest
    let (minutes, rest) ← match rest with
      | ':' :: rest => digits? 2 2 rest
      | _ => some (0, rest)
    if !rest.isEmpty then none
    let size : Int := hours * 60 + minutes
    return some (if sign == '-' then -size else size)
  | _, [] => none

/-- Takes a time stamp apart. -/
def read? (cs : List Char) : Option Stamp := do
  let (year, rest) ← digits? 4 4 cs
  let (month, rest) ← digits? 1 2 (← mark? '-' rest)
  let (day, rest) ← digits? 1 2 (← mark? '-' rest)
  if rest.isEmpty then return ⟨year, month, day, none⟩
  let (hour, rest) ← digits? 1 2 (← separator? rest)
  let (minute, rest) ← digits? 2 2 (← mark? ':' rest)
  let (second, rest) ← digits? 2 2 (← mark? ':' rest)
  return ⟨year, month, day, some ⟨hour, minute, second, ← offset? rest⟩⟩

/-- Whether an untagged plain text is a time stamp. A day without a time has two digits for the
month and two for the day. -/
def isPlain (cs : List Char) : Bool :=
  match read? cs with
  | some stamp => stamp.time.isSome || cs.length == 10
  | none => false

/-- How many days a month has. -/
def daysIn (year month : Nat) : Nat :=
  if month == 2 then
    if year % 4 == 0 && (year % 100 != 0 || year % 400 == 0) then 29 else 28
  else if month == 4 || month == 6 || month == 9 || month == 11 then 30
  else 31

/-- What is wrong with a time stamp. -/
def fault? (s : Stamp) : Option StampFault :=
  let offset := (s.time.bind (·.offset)).getD 0
  let time := s.time.getD ⟨0, 0, 0, none⟩
  if offset.natAbs ≥ 24 * 60 then some (.offset offset)
  else if s.year == 0 then some (.year s.year)
  else if s.month == 0 || s.month > 12 then some .month
  else if s.day == 0 || s.day > daysIn s.year s.month then some .day
  else if time.hour > 23 then some .hour
  else if time.minute > 59 then some .minute
  else if time.second > 59 then some .second
  else none

end Stamp

end Docwright.Yaml
