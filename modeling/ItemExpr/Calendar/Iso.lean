import ItemExpr.Calendar

set_option autoImplicit false

namespace ItemExpr

def takeNumber? (width : Nat) (s : List Char) : Option (Nat × List Char) :=
  let ds := s.take width
  if ds.length = width && ds.all Char.isDigit then some (Number.ofDigits ds, s.drop width) else none

def firstMonday (year : Nat) : Int :=
  let fourth := (⟨year, 1, 4⟩ : Date).ordinal
  fourth - Int.fmod (fourth + 2) 7

def Date.ofWeek (year week day : Nat) : Date :=
  Date.ofOrdinal (firstMonday year + 7 * ((week : Int) - 1) + ((day : Int) - 1))

def takeWeekday (separated : Bool) (s : List Char) : Nat × List Char :=
  let given := match separated, s with
    | true, '-' :: s => s
    | true, _ => []
    | false, s => s
  match given with
  | c :: rest =>
      if c.isDigit && !(rest.head?.any Char.isDigit) then (Number.digitValue c, rest) else (1, s)
  | [] => (1, s)

def takeDate? (s : List Char) : Option (Date × List Char) := do
  let (year, s) ← takeNumber? 4 s
  let separated := s.head? = some '-'
  match if separated then s.drop 1 else s with
  | 'W' :: s =>
      let (week, s) ← takeNumber? 2 s
      let (day, s) := takeWeekday separated s
      return (Date.ofWeek year week day, s)
  | s =>
      let (month, s) ← takeNumber? 2 s
      if separated && s.head? ≠ some '-' then none
      else
        let (day, s) ← takeNumber? 2 (if separated then s.drop 1 else s)
        return (⟨year, month, day⟩, s)

def takeFraction (s : List Char) : Nat × List Char :=
  match s with
  | [] => (0, [])
  | c :: rest =>
      if c = '.' || c = ',' then
        let ds := (rest.takeWhile Char.isDigit).take 6
        (Number.ofDigits (ds ++ List.replicate (6 - ds.length) '0'), rest.dropWhile Char.isDigit)
      else (0, s)

def takePart (separated : Bool) (s : List Char) : Nat × List Char :=
  let found := match separated, s with
    | true, ':' :: s => takeNumber? 2 s
    | true, _ => none
    | false, s => takeNumber? 2 s
  found.getD (0, s)

def takeClock? (s : List Char) : Option (Nat × List Char) := do
  let (hour, s) ← takeNumber? 2 s
  let separated := s.head? = some ':'
  let (minute, s) := takePart separated s
  let (second, s) := takePart separated s
  let (microsecond, s) := takeFraction s
  return (((hour * 60 + minute) * 60 + second) * 1000000 + microsecond, s)

def offsetOf (negative : Bool) (total : Nat) : Int :=
  if total < 1000000 then 0 else if negative then -total else total

-- An offset, or nothing. One character may stand before the offset.
def readOffset? (s : List Char) : Option (Option Int) :=
  let signed (negative : Bool) (s : List Char) : Option (Option Int) := do
    let (total, []) ← takeClock? s | none
    return some (offsetOf negative total)
  match s with
  | [] => some none
  | ['Z'] => some (some 0)
  | '+' :: s => signed false s
  | '-' :: s => signed true s
  | [_, 'Z'] => some (some 0)
  | _ :: '+' :: s => signed false s
  | _ :: '-' :: s => signed true s
  | _ => none

def Date.ofIso? (s : String) : Option Date := do
  let (date, []) ← takeDate? s.toList | none
  return date

def DateTime.ofIso? (s : String) : Option DateTime := do
  let (date, s) ← takeDate? s.toList
  match s with
  | [] => return ⟨date, 0, 0, 0, 0, none⟩
  | _ :: s =>
      let (time, s) ← takeClock? s
      let offset ← readOffset? s
      let seconds := time / 1000000
      return ⟨date, seconds / 3600, seconds / 60 % 60, seconds % 60, time % 1000000, offset⟩

end ItemExpr
