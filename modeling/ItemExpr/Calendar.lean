import ItemExpr.Number.Notation

set_option autoImplicit false

namespace ItemExpr

structure Date where
  year : Nat
  month : Nat
  day : Nat
  deriving DecidableEq, Repr

structure DateTime where
  date : Date
  hour : Nat
  minute : Nat
  second : Nat
  microsecond : Nat
  offset : Option Int
  deriving DecidableEq, Repr

def zeroPadded (width n : Nat) : String :=
  let ds := Nat.toDigits 10 n
  String.ofList (List.replicate (width - ds.length) '0' ++ ds)

def fractionText (microsecond : Nat) : String :=
  if microsecond = 0 then "" else s!".{zeroPadded 6 microsecond}"

def Date.iso (d : Date) : String :=
  s!"{zeroPadded 4 d.year}-{zeroPadded 2 d.month}-{zeroPadded 2 d.day}"

-- Days since the first of March of the year zero.
def Date.ordinal (d : Date) : Int :=
  let year : Int := if d.month ≤ 2 then d.year - 1 else d.year
  let month : Int := (d.month + 9) % 12
  365 * year + Int.fdiv year 4 - Int.fdiv year 100 + Int.fdiv year 400
    + (153 * month + 2) / 5 + d.day - 1

def Date.ofOrdinal (days : Int) : Date :=
  let era := Int.fdiv days 146097
  let inEra := Int.fmod days 146097
  let year := (inEra - inEra / 1460 + inEra / 36524 - inEra / 146096) / 365
  let inYear := inEra - (365 * year + year / 4 - year / 100)
  let month := (5 * inYear + 2) / 153
  let day := inYear - (153 * month + 2) / 5 + 1
  let start := 400 * era + year
  if month < 10 then ⟨start.toNat, month.toNat + 3, day.toNat⟩
  else ⟨(start + 1).toNat, month.toNat - 9, day.toNat⟩

def offsetText (offset : Int) : String :=
  let total := offset.natAbs
  let seconds := total / 1000000
  let minutes := s!"{zeroPadded 2 (seconds / 3600)}:{zeroPadded 2 (seconds / 60 % 60)}"
  let rest :=
    if total % 60000000 = 0 then ""
    else s!":{zeroPadded 2 (seconds % 60)}" ++ fractionText (total % 1000000)
  (if offset < 0 then "-" else "+") ++ minutes ++ rest

namespace DateTime

def timeText (t : DateTime) : String :=
  s!"{zeroPadded 2 t.hour}:{zeroPadded 2 t.minute}:{zeroPadded 2 t.second}"
    ++ fractionText t.microsecond

def isoWith (separator : String) (t : DateTime) : String :=
  t.date.iso ++ separator ++ t.timeText ++ (t.offset.map offsetText).getD ""

def iso (t : DateTime) : String := t.isoWith "T"

def clock (t : DateTime) : Int :=
  (((t.date.ordinal * 24 + t.hour) * 60 + t.minute) * 60 + t.second) * 1000000 + t.microsecond

def sameInstant (t u : DateTime) : Bool :=
  match t.offset, u.offset with
  | some o, some o' => t.clock - o = u.clock - o'
  | none, none => t.clock = u.clock
  | _, _ => false

end DateTime

end ItemExpr
