import Teletype.Settings.Yaml.Cursor

/-!
# Points in time

A date is a year, a month and a day, divided by dashes. A time of day may follow it, behind a letter
or blanks: hours, minutes and seconds, then a fraction of a second and a time zone, both optional.
Whether there is such a day or hour is not asked.
-/

namespace Teletype.Settings.Yaml

/-- The text behind a run of `least` to `most` digits. -/
def dropDigits? (least most : Nat) (cs : List Char) : Option (List Char) :=
  let count := (cs.takeWhile Char.isDigit).length
  if least ≤ count && count ≤ most then some (cs.drop count) else none

def dropChar? (c : Char) (cs : List Char) : Option (List Char) :=
  if cs.head? = some c then some (cs.drop 1) else none

def dropTimeMark? : List Char → Option (List Char)
  | c :: rest =>
    if c = 'T' || c = 't' then some rest
    else if isBlank c then some (rest.dropWhile isBlank)
    else none
  | [] => none

/-- Whether a text is a time zone: a letter, or a sign with hours and perhaps minutes. -/
def isZone : List Char → Bool
  | [] => false
  | ['Z'] => true
  | sign :: rest =>
    (sign = '+' || sign = '-') &&
    match dropDigits? 1 2 rest with
    | some [] => true
    | some (':' :: rest) => dropDigits? 2 2 rest == some []
    | _ => false

/-- Whether a text may stand behind the seconds of a time. -/
def endsTime (cs : List Char) : Bool :=
  let zone := match cs with
    | '.' :: rest => rest.dropWhile Char.isDigit
    | cs => cs
  zone.isEmpty || isZone (zone.dropWhile isBlank)

/-- Whether a text is a time of day with its mark before it. -/
def isTime (cs : List Char) : Bool :=
  let seconds? : Option (List Char) := do
    let minutes ← dropChar? ':' (← dropDigits? 1 2 (← dropTimeMark? cs))
    let seconds ← dropChar? ':' (← dropDigits? 2 2 minutes)
    dropDigits? 2 2 seconds
  seconds?.any endsTime

/-- Whether a text is a date, or a date and a time of day. On its own, a date has two digits for the
month and two for the day. -/
def isInstant (cs : List Char) : Bool :=
  let behind? : Option (List Char) := do
    let month ← dropChar? '-' (← dropDigits? 4 4 cs)
    let day ← dropChar? '-' (← dropDigits? 1 2 month)
    dropDigits? 1 2 day
  behind?.any fun behind => if behind.isEmpty then cs.length = 10 else isTime behind

end Teletype.Settings.Yaml
