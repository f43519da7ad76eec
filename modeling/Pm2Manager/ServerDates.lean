import Pm2Manager.FixedWidth
import Pm2Manager.Retention

/-!
# Timestamps in the browser

The tables hold `datetime('now')`, which has no time zone; the client adds the
`Z` before it reads such a text.  What it then shows is the age of the entry.
-/

namespace Pm2Manager

open Calendar FixedWidth

/-- `YYYY-MM-DD HH:MM:SS`, up to the character before the time. -/
def dateTimeFormat (separator : Char) : Format :=
  [.digits 4, .separator '-', .digits 2, .separator '-', .digits 2,
    .separator separator,
    .digits 2, .separator ':', .digits 2, .separator ':', .digits 2]

/-- The fields of a text in the format, in its order. -/
structure DateTimeFields where
  date : Date
  hour : ℕ
  minute : ℕ
  second : ℕ
deriving DecidableEq, Repr

namespace DateTimeFields

def ofValues : List ℕ → Option DateTimeFields
  | [year, month, date, hour, minute, second] =>
      some { date := { year, month, date }, hour, minute, second }
  | _ => none

/-- The bounds which ECMAScript gives the fields of a date-time text; the day
24:00:00 is the end of the day. -/
def InBounds (fields : DateTimeFields) : Prop :=
  (1 ≤ fields.date.month ∧ fields.date.month ≤ 12) ∧
    (1 ≤ fields.date.date ∧ fields.date.date ≤ 31) ∧
    (fields.hour < 24 ∧ fields.minute < 60 ∧ fields.second < 60 ∨
      fields.hour = 24 ∧ fields.minute = 0 ∧ fields.second = 0)

instance (fields : DateTimeFields) : Decidable fields.InBounds :=
  inferInstanceAs (Decidable (_ ∧ _ ∧ _))

def seconds (fields : DateTimeFields) : ℤ :=
  dayOf fields.date * 86400 + (fields.hour * 3600 + fields.minute * 60 + fields.second)

end DateTimeFields

/-- `new Date(text)` for a text in UTC with seconds; other texts, and fields
out of bounds, are up to the browser. -/
def dateParse (other : List Char → Option ℤ) (text : List Char) : Option ℤ :=
  match (Format.scan (dateTimeFormat 'T' ++ [.separator 'Z']) text).bind
      DateTimeFields.ofValues with
  | some fields => if fields.InBounds then some (fields.seconds * 1000) else other text
  | none => other text

/-- `/^\d{4}-\d{2}-\d{2}[ T]\d{2}:\d{2}:\d{2}$/`. -/
def serverPattern (text : List Char) : Bool :=
  (Format.scan (dateTimeFormat ' ') text).isSome ||
    (Format.scan (dateTimeFormat 'T') text).isSome

/-- A timestamp as the API sends it: epoch milliseconds, or a text. -/
inductive ServerDate
  | number (ms : ℤ)
  | text (text : List Char)
deriving DecidableEq, Repr

/-- `parseServerDate`, as the time value of the date; `none` is an invalid one. -/
def parseServerDate (other : List Char → Option ℤ) : ServerDate → Option ℤ
  | .number ms => if ms.natAbs ≤ 8640000000000000 then some ms else none
  | .text text =>
      if serverPattern text then dateParse other (replaceFirst ' ' 'T' text ++ ['Z'])
      else dateParse other text

/-- The age of an instant at the clock of the browser. -/
def timeAgo (other : List Char → Option ℤ) (now : ℤ) (iso : ServerDate) : String :=
  match parseServerDate other iso with
  | none => ""
  | some t =>
      let s := (now - t) / 1000
      let m := s / 60
      let h := m / 60
      if s < 60 then s!"{s}s ago"
      else if m < 60 then s!"{m}m ago"
      else if h < 24 then s!"{h}h ago"
      else s!"{h / 24}d ago"

/-- The units of an age in milliseconds. -/
def ageUnits : List (ℤ × String) :=
  [(1000, "s ago"), (60000, "m ago"), (3600000, "h ago"), (86400000, "d ago")]

variable {other : List Char → Option ℤ} {text : List Char}

/-! ## Reading a timestamp -/

/-- The text has the fields of an instant of the calendar. -/
def CalendarText (text : List Char) : Prop :=
  ∃ fields : DateTimeFields,
    (Format.scan (dateTimeFormat ' ') text).bind DateTimeFields.ofValues = some fields ∧
      fields.date.Valid ∧ fields.hour < 24 ∧ fields.minute < 60 ∧ fields.second < 60

/-- What a server text, which is the print of some values, is read as. -/
theorem dateParse_print {values : List ℕ} {fields : DateTimeFields}
    (hfits : Format.Fits (dateTimeFormat ' ') values)
    (hfields : DateTimeFields.ofValues values = some fields) (hbounds : fields.InBounds) :
    parseServerDate other (.text (Format.print (dateTimeFormat ' ') values)) =
      some (fields.seconds * 1000) := by
  obtain ⟨year, month, date, hour, minute, second, rfl⟩ :
      ∃ year month date hour minute second,
        values = [year, month, date, hour, minute, second] := by
    unfold DateTimeFields.ofValues at hfields
    split at hfields
    · exact ⟨_, _, _, _, _, _, rfl⟩
    · simp at hfields
  have hpattern : serverPattern
      (Format.print (dateTimeFormat ' ') [year, month, date, hour, minute, second]) =
        true := by
    simp only [serverPattern, Format.scan_print hfits, Option.isSome_some, Bool.true_or]
  have hutc : Format.Fits (dateTimeFormat 'T' ++ [.separator 'Z'])
      [year, month, date, hour, minute, second] := by
    simpa [Format.Fits, dateTimeFormat] using hfits
  have hblank : ' ' ∉ pad 4 year ++ '-' :: (pad 2 month ++ '-' :: pad 2 date) := by
    simp only [Format.Fits, dateTimeFormat] at hfits
    obtain ⟨hyear, hmonth, hdate, _⟩ := hfits
    simp only [List.mem_append, List.mem_cons, not_or]
    exact ⟨not_mem_pad hyear (by decide), by decide, not_mem_pad hmonth (by decide),
      by decide, not_mem_pad hdate (by decide)⟩
  have hreplaced : replaceFirst ' ' 'T'
      (Format.print (dateTimeFormat ' ') [year, month, date, hour, minute, second]) ++
        ['Z'] =
      Format.print (dateTimeFormat 'T' ++ [.separator 'Z'])
        [year, month, date, hour, minute, second] := by
    have hsplit : Format.print (dateTimeFormat ' ')
        [year, month, date, hour, minute, second] =
        (pad 4 year ++ '-' :: (pad 2 month ++ '-' :: pad 2 date)) ++
          ' ' :: (pad 2 hour ++ ':' :: (pad 2 minute ++ ':' :: pad 2 second)) := by
      simp [Format.print, dateTimeFormat]
    rw [hsplit, replaceFirst_append hblank]
    simp [Format.print, dateTimeFormat]
  simp only [parseServerDate, hpattern, if_true, hreplaced, dateParse,
    Format.scan_print hutc, Option.bind_some, hfields, hbounds]

/-- The fields of a second. -/
def fieldsOf (second : ℤ) : DateTimeFields where
  date := dateOf (second / 86400)
  hour := (second % 86400).natAbs / 3600
  minute := (second % 86400).natAbs / 60 % 60
  second := (second % 86400).natAbs % 60

def DateTimeFields.values (fields : DateTimeFields) : List ℕ :=
  [fields.date.year.natAbs, fields.date.month.natAbs, fields.date.date.natAbs,
    fields.hour, fields.minute, fields.second]

theorem fieldsOf_seconds (second : ℤ) : (fieldsOf second).seconds = second := by
  simp only [DateTimeFields.seconds, fieldsOf, dayOf_dateOf]
  omega

theorem fieldsOf_inBounds (second : ℤ) : (fieldsOf second).InBounds := by
  obtain ⟨hmonth, hdate⟩ := dateOf_bounds (second / 86400)
  refine ⟨hmonth, hdate, .inl ⟨?_, ?_, ?_⟩⟩ <;> simp only [fieldsOf] <;> omega

/-- A day and a second of the day. -/
theorem seconds_split {fields : DateTimeFields} (hhour : fields.hour < 24)
    (hminute : fields.minute < 60) (hsecond : fields.second < 60) :
    fields.seconds / 86400 = dayOf fields.date ∧
      (fields.seconds % 86400).natAbs =
        fields.hour * 3600 + fields.minute * 60 + fields.second := by
  unfold DateTimeFields.seconds
  omega

/-- The fields of the calendar are those of their second. -/
theorem fieldsOf_of_calendar {fields : DateTimeFields} (hvalid : fields.date.Valid)
    (hhour : fields.hour < 24) (hminute : fields.minute < 60)
    (hsecond : fields.second < 60) : fieldsOf fields.seconds = fields := by
  obtain ⟨hday, hrest⟩ := seconds_split hhour hminute hsecond
  obtain ⟨date, hour, minute, second⟩ := fields
  dsimp only at hhour hminute hsecond hrest
  simp only [fieldsOf, hday, hrest, dateOf_dayOf hvalid, DateTimeFields.mk.injEq, true_and]
  omega

section FourDigits

variable {second : ℤ} (hyear : (dateOf (second / 86400)).FourDigits)

include hyear

theorem values_fit : Format.Fits (dateTimeFormat ' ') (fieldsOf second).values := by
  have hbounds := dateOf_bounds (second / 86400)
  obtain ⟨hlow, hhigh⟩ := hyear
  simp only [dateTimeFormat, DateTimeFields.values, fieldsOf, Format.Fits, and_true]
  omega

theorem print_values :
    Format.print (dateTimeFormat ' ') (fieldsOf second).values = datetimeText second := by
  rw [datetimeText, dateText_eq hyear, timeText]
  simp [dateTimeFormat, DateTimeFields.values, fieldsOf, Format.print]

theorem ofValues_values :
    DateTimeFields.ofValues (fieldsOf second).values = some (fieldsOf second) := by
  have hbounds := dateOf_bounds (second / 86400)
  obtain ⟨hlow, hhigh⟩ := hyear
  have hyears : ((dateOf (second / 86400)).year.natAbs : ℤ) =
      (dateOf (second / 86400)).year := by omega
  have hmonth : ((dateOf (second / 86400)).month.natAbs : ℤ) =
      (dateOf (second / 86400)).month := by omega
  have hdate : ((dateOf (second / 86400)).date.natAbs : ℤ) =
      (dateOf (second / 86400)).date := by omega
  simp only [DateTimeFields.ofValues, DateTimeFields.values, fieldsOf, hyears, hmonth,
    hdate]

/-- The client reads a timestamp of the server as the second it was written at. -/
theorem parse_datetimeText :
    parseServerDate other (.text (datetimeText second)) = some (second * 1000) := by
  rw [← print_values hyear, dateParse_print (values_fit hyear) (ofValues_values hyear)
    (fieldsOf_inBounds second), fieldsOf_seconds]

/-- What `timeAgo` says is true: the age lies between its number of units and the
next one, also where the browser's clock is behind and the number is negative. -/
theorem timeAgo_age (other : List Char → Option ℤ) (now : ℤ) :
    ∃ n unit suffix, (unit, suffix) ∈ ageUnits ∧
      timeAgo other now (.text (datetimeText second)) = toString n ++ suffix ∧
      n * unit ≤ now - second * 1000 ∧ now - second * 1000 < (n + 1) * unit := by
  rw [timeAgo, parse_datetimeText hyear]
  let age := (now - second * 1000) / 1000
  dsimp only
  split
  · exact ⟨age, 1000, "s ago", by simp [ageUnits], rfl, by omega, by omega⟩
  · split
    · exact ⟨age / 60, 60000, "m ago", by simp [ageUnits], rfl, by omega, by omega⟩
    · split
      · exact ⟨age / 60 / 60, 3600000, "h ago", by simp [ageUnits], rfl, by omega, by omega⟩
      · exact ⟨age / 60 / 60 / 24, 86400000, "d ago", by simp [ageUnits], rfl, by omega, by omega⟩

theorem calendarText_datetimeText : CalendarText (datetimeText second) := by
  have hscan := Format.scan_print (values_fit hyear)
  rw [print_values hyear] at hscan
  refine ⟨fieldsOf second, by rw [hscan, Option.bind_some, ofValues_values hyear],
    dateOf_valid (second / 86400), ?_, ?_, ?_⟩ <;> simp only [fieldsOf] <;> omega

end FourDigits

theorem values_of_ofValues {values : List ℕ} {fields : DateTimeFields}
    (hfields : DateTimeFields.ofValues values = some fields) : fields.values = values := by
  unfold DateTimeFields.ofValues at hfields
  split at hfields
  · obtain rfl := Option.some.inj hfields
    simp [DateTimeFields.values]
  · simp at hfields

/-- A text with the fields of the calendar is the text of an instant. -/
theorem datetimeText_of_calendar (hcalendar : CalendarText text) :
    ∃ second, (dateOf (second / 86400)).FourDigits ∧ text = datetimeText second := by
  obtain ⟨fields, hscan, hvalid, hhour, hminute, hsecond⟩ := hcalendar
  obtain ⟨values, hvalues, hfields⟩ := Option.bind_eq_some_iff.mp hscan
  obtain ⟨hfits, hprint⟩ := Format.print_of_scan hvalues
  have hsame := fieldsOf_of_calendar hvalid hhour hminute hsecond
  have hyear : (dateOf (fields.seconds / 86400)).FourDigits := by
    rw [(seconds_split hhour hminute hsecond).1, dateOf_dayOf hvalid]
    have hvaluesOf := values_of_ofValues hfields
    subst hvaluesOf
    have hwidth : fields.date.year.natAbs < 10 ^ 4 := hfits.1
    have hnonneg : 0 ≤ fields.date.year := by
      have hsame := Option.some.inj hfields
      rw [← hsame]
      exact Int.natCast_nonneg _
    exact ⟨hnonneg, by omega⟩
  refine ⟨fields.seconds, hyear, ?_⟩
  rw [← print_values hyear, hsame, values_of_ofValues hfields, hprint]

/-- The timestamps of the server are, one by one, the texts with the fields of
the calendar, and the client reads each as its instant. -/
theorem serverDate_roundTrip (other : List Char → Option ℤ) (text : List Char) (t : ℤ) :
    CalendarText text ∧ parseServerDate other (.text text) = some t ↔
      ∃ second, (dateOf (second / 86400)).FourDigits ∧ text = datetimeText second ∧
        t = second * 1000 := by
  constructor
  · rintro ⟨hcalendar, hparse⟩
    obtain ⟨second, hyear, rfl⟩ := datetimeText_of_calendar hcalendar
    rw [parse_datetimeText hyear] at hparse
    exact ⟨second, hyear, rfl, (Option.some.inj hparse).symm⟩
  · rintro ⟨second, hyear, rfl, rfl⟩
    exact ⟨calendarText_datetimeText hyear, parse_datetimeText hyear⟩

example : parseServerDate (fun _ => none) (.text "2024-02-29 12:34:56".toList) =
    some 1709210096000 := by decide +kernel

end Pm2Manager
