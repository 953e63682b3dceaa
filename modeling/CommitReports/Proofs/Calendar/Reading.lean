import CommitReports.Proofs.Calendar.Gregorian
import Mathlib.Data.List.Basic

/-!
# Written dates, read back

A written date has six fields with blanks between them: the name of the day, the name of the
month, the day, the time of day, the year and the offset. `Reading.read?` reads them, and
`Reading.seconds` is the instant that they say: the date as a day of the calendar, the time of
day, and the offset taken off again. It does not look at how the date of a day is found, but
at the rules of the calendar alone (`Date.number`).

Main results: `Reading.read?_text` — a date that is written field by field is read back — and
`text_denotes` — what is written for an instant within the range of dates says that instant,
whatever the offset, so two instants are never written alike.

The fields are read one by one. Numbers are written with digits only, however far they are
padded (`number?_padded`), so the sign of a year and the colons of a time stand out; and no
field has a blank in it (`isWord_of_mem_fields`), so the text is cut where it was put
together.
-/

namespace CommitReports.Calendar

/-! ## Reading the fields -/

/-- The number that digits stand for. -/
def number? (cs : List Char) : Option Nat :=
  if cs ≠ [] ∧ cs.all Char.isDigit then some (Nat.ofDigitChars 10 cs 0) else none

/-- A year, with a sign or without one. -/
def year? : List Char → Option Int
  | '-' :: cs => (number? cs).map fun n : Nat => -(n : Int)
  | '+' :: cs => (number? cs).map fun n : Nat => (n : Int)
  | cs => (number? cs).map fun n : Nat => (n : Int)

/-- The number of a month. -/
def month? (name : String) : Option Nat := (months.idxOf? name).map (· + 1)

/-- Hours, minutes and seconds. -/
def clock? : List Char → Option (Nat × Nat × Nat)
  | [a, b, ':', c, d, ':', e, f] => do
    let hour ← number? [a, b]
    let minute ← number? [c, d]
    let second ← number? [e, f]
    return (hour, minute, second)
  | _ => none

/-- An offset in minutes; no offset is written with a plus. -/
def offset? : List Char → Option Int
  | [sign, a, b, c, d] => do
    let hours ← number? [a, b]
    let minutes ← number? [c, d]
    let size : Int := hours * 60 + minutes
    if sign = '+' then some size else if sign = '-' ∧ size ≠ 0 then some (-size) else none
  | _ => none

/-- What a written date says. -/
structure Reading where
  /-- The name of the day of the week. -/
  weekday : String
  date : Date
  hour : Nat
  minute : Nat
  second : Nat
  /-- The offset from universal time in minutes. -/
  offset : Int
  deriving DecidableEq, Repr

namespace Reading

/-- Reads a written date. -/
def read? (text : String) : Option Reading :=
  match text.toList.splitOn ' ' with
  | [weekday, month, day, time, year, offset] => do
    let month ← month? (String.ofList month)
    let day ← number? day
    let (hour, minute, second) ← clock? time
    let year ← year? year
    let offset ← offset? offset
    return { weekday := String.ofList weekday, date := { year, month, day }, hour, minute, second,
             offset }
  | _ => none

/-- The instant that is said: date and time of day, less the offset. -/
def seconds (reading : Reading) : Int :=
  reading.date.number * 86400 + reading.hour * 3600 + reading.minute * 60 + reading.second -
    reading.offset * 60

/-- A date of the calendar with its day of the week, a time of day, and an offset of less than a
day. -/
structure IsReal (reading : Reading) : Prop where
  date : reading.date.IsReal
  weekday : reading.weekday = reading.date.dayName
  hour : reading.hour < 24
  minute : reading.minute < 60
  second : reading.second < 60
  offset : reading.offset.natAbs < 24 * 60

/-- The fields that say this. -/
def fields (reading : Reading) : List String :=
  [reading.weekday, months.getD (reading.date.month - 1) "", toString reading.date.day,
    padded 2 reading.hour ++ ":" ++ padded 2 reading.minute ++ ":" ++ padded 2 reading.second,
    yearText reading.date.year, offsetText (reading.offset * 60)]

/-- The text that says this. -/
def text (reading : Reading) : String := " ".intercalate reading.fields

end Reading

/-! ## Numbers -/

theorem toList_padded (width n : Nat) : (padded width n).toList =
    List.replicate (width - (Nat.toDigits 10 n).length) '0' ++ Nat.toDigits 10 n := by
  have hlength : n.repr.length = (Nat.toDigits 10 n).length := by
    rw [Nat.repr_eq_ofList_toDigits, String.length_ofList]
  simp [padded, String.toList_append, hlength]

theorem isDigit_of_mem_padded {width n : Nat} {c : Char} (h : c ∈ (padded width n).toList) :
    c.isDigit = true := by
  rw [toList_padded, List.mem_append] at h
  rcases h with h | h
  · rw [List.eq_of_mem_replicate h]
    rfl
  · exact Nat.isDigit_of_mem_toDigits (by decide) (by decide) h

theorem padded_ne_nil (width n : Nat) : (padded width n).toList ≠ [] := by
  rw [toList_padded]
  intro hnil
  exact Nat.toDigits_ne_nil (List.append_eq_nil_iff.mp hnil).2

/-- A number is read back, however far it was padded. -/
theorem number?_padded (width n : Nat) : number? (padded width n).toList = some n := by
  have hdigits : (padded width n).toList.all Char.isDigit = true :=
    List.all_eq_true.mpr fun c hc => isDigit_of_mem_padded hc
  unfold number?
  rw [if_pos ⟨padded_ne_nil width n, hdigits⟩, toList_padded, Nat.ofDigitChars_append,
    Nat.ofDigitChars_replicate_zero, Nat.mul_zero,
    Nat.ofDigitChars_toDigits (by decide) (by decide)]

/-- A number without padding is one that is padded to nothing. -/
theorem padded_zero (n : Nat) : padded 0 n = toString n := by
  refine String.toList_inj.mp ?_
  simp [padded]

/-- A number below a hundred is written with two digits. -/
theorem exists_two_digits {n : Nat} (h : n < 100) :
    ∃ a b, (padded 2 n).toList = [a, b] ∧ number? [a, b] = some n := by
  have hpos := Nat.length_toDigits_pos (b := 10) (n := n)
  have hle : (Nat.toDigits 10 n).length ≤ 2 :=
    (Nat.length_toDigits_le_iff (by decide) (by decide)).mpr (by omega)
  have hlength : (padded 2 n).toList.length = 2 := by
    rw [toList_padded, List.length_append, List.length_replicate]
    omega
  obtain ⟨a, b, hab⟩ := List.length_eq_two.mp hlength
  exact ⟨a, b, hab, hab ▸ number?_padded 2 n⟩

/-! ## Fields -/

/-- A year without a sign is read as a number. -/
theorem year?_padded (width n : Nat) : year? (padded width n).toList = some (n : Int) := by
  have hnumber := number?_padded width n
  cases hcs : (padded width n).toList with
  | nil => exact absurd hcs (padded_ne_nil width n)
  | cons c cs =>
    have hdigit : c.isDigit = true := isDigit_of_mem_padded (hcs ▸ List.mem_cons_self)
    have hminus : c ≠ '-' := fun heq => absurd (heq ▸ hdigit) (by decide)
    have hplus : c ≠ '+' := fun heq => absurd (heq ▸ hdigit) (by decide)
    rw [hcs] at hnumber
    simp [year?, hminus, hplus, hnumber]

theorem year?_yearText (year : Int) : year? (yearText year).toList = some year := by
  have hminus : "-".toList = ['-'] := rfl
  have hplus : "+".toList = ['+'] := rfl
  unfold yearText
  split_ifs with hneg hlong
  · have hvalue : -(year.natAbs : Int) = year := by omega
    rw [String.toList_append, hminus, List.singleton_append]
    simp only [year?, number?_padded, Option.map_some, hvalue]
  · have hvalue : (year.toNat : Int) = year := by omega
    rw [String.toList_append, hplus, List.singleton_append]
    simp only [year?, number?_padded, Option.map_some, hvalue]
  · rw [year?_padded, Option.some.injEq]
    omega

theorem month?_getD {month : Nat} (h : 1 ≤ month) (h' : month ≤ 12) :
    month? (months.getD (month - 1) "") = some month := by
  interval_cases month <;> decide

theorem clock?_padded {hour minute second : Nat} (hhour : hour < 100) (hminute : minute < 100)
    (hsecond : second < 100) :
    clock? (padded 2 hour ++ ":" ++ padded 2 minute ++ ":" ++ padded 2 second).toList =
      some (hour, minute, second) := by
  obtain ⟨a, b, hab, hhour⟩ := exists_two_digits hhour
  obtain ⟨c, d, hcd, hminute⟩ := exists_two_digits hminute
  obtain ⟨e, f, hef, hsecond⟩ := exists_two_digits hsecond
  have hcolon : ":".toList = [':'] := rfl
  simp only [String.toList_append, hab, hcd, hef, hcolon, List.cons_append, List.nil_append, clock?,
    hhour, hminute, hsecond]
  rfl

/-- An offset of less than a hundred hours is read back. -/
theorem offset?_offsetText {minutes : Int} (h : minutes.natAbs < 6000) :
    offset? (offsetText (minutes * 60)).toList = some minutes := by
  have hsize : (minutes * 60).natAbs / 60 = minutes.natAbs := by omega
  obtain ⟨a, b, hab, hhours⟩ := exists_two_digits (show minutes.natAbs / 60 < 100 by omega)
  obtain ⟨c, d, hcd, hrest⟩ := exists_two_digits (show minutes.natAbs % 60 < 100 by omega)
  have hread : ∀ sign, offset? [sign, a, b, c, d] =
      if sign = '+' then some (minutes.natAbs : Int)
      else if sign = '-' ∧ (minutes.natAbs : Int) ≠ 0 then some (-(minutes.natAbs : Int))
      else none := by
    intro sign
    have hwhole : ((minutes.natAbs / 60 : Nat) : Int) * 60 + (minutes.natAbs % 60 : Nat) =
        minutes.natAbs := by omega
    rw [← hwhole]
    simp only [offset?, hhours, hrest]
    rfl
  unfold offsetText
  dsimp only
  rw [hsize]
  by_cases hneg : minutes * 60 < 0
  · have hminus : "-".toList = ['-'] := rfl
    have hvalue : -(minutes.natAbs : Int) = minutes := by omega
    rw [if_pos hneg, String.toList_append, String.toList_append, hab, hcd, hminus]
    show offset? ['-', a, b, c, d] = _
    rw [hread, if_neg (by decide), if_pos ⟨rfl, by omega⟩, hvalue]
  · have hplus : "+".toList = ['+'] := rfl
    have hvalue : (minutes.natAbs : Int) = minutes := by omega
    rw [if_neg hneg, String.toList_append, String.toList_append, hab, hcd, hplus]
    show offset? ['+', a, b, c, d] = _
    rw [hread, if_pos rfl, hvalue]

/-! ## The characters of fields -/

/-- The characters that fields are made of. -/
def isFieldChar (c : Char) : Bool := c.isAlphanum || c == '+' || c == '-' || c == ':'

/-- A text that is made of these; so it has neither a blank in it nor the end of a line. -/
def IsWord (text : String) : Prop := text.toList.all isFieldChar = true

instance : DecidablePred IsWord := fun text =>
  inferInstanceAs (Decidable (text.toList.all isFieldChar = true))

theorem IsWord.not_mem {text : String} (h : IsWord text) {c : Char} (hc : isFieldChar c = false) :
    c ∉ text.toList := by
  intro hmem
  have hfield := List.all_eq_true.mp h c hmem
  rw [hc] at hfield
  cases hfield

theorem IsWord.append {text text' : String} (h : IsWord text) (h' : IsWord text') :
    IsWord (text ++ text') := by
  unfold IsWord at h h' ⊢
  rw [String.toList_append, List.all_append, h, h']
  rfl

theorem isWord_padded (width n : Nat) : IsWord (padded width n) := by
  refine List.all_eq_true.mpr fun c hc => ?_
  have hdigit := isDigit_of_mem_padded hc
  simp [isFieldChar, Char.isAlphanum, hdigit]

theorem isWord_getD {names : List String} (h : ∀ name ∈ names, IsWord name) (i : Nat) :
    IsWord (names.getD i "") := by
  rw [List.getD_eq_getElem?_getD]
  cases hname : names[i]? with
  | none => exact rfl
  | some name => exact h name (List.mem_of_getElem? hname)

theorem isWord_yearText (year : Int) : IsWord (yearText year) := by
  unfold yearText
  split_ifs
  · exact .append rfl (isWord_padded 4 _)
  · exact .append rfl (isWord_padded 4 _)
  · exact isWord_padded 4 _

theorem isWord_offsetText (offset : Int) : IsWord (offsetText offset) := by
  have hsign : IsWord (if offset < 0 then "-" else "+") := by
    split_ifs <;> rfl
  exact (hsign.append (isWord_padded 2 _)).append (isWord_padded 2 _)

theorem isWord_clock (hour minute second : Nat) :
    IsWord (padded 2 hour ++ ":" ++ padded 2 minute ++ ":" ++ padded 2 second) := by
  have hcolon : IsWord ":" := rfl
  exact ((((isWord_padded 2 hour).append hcolon).append (isWord_padded 2 minute)).append
    hcolon).append (isWord_padded 2 second)

theorem not_mem_intercalate {c : Char} {separator : String} (h : c ∉ separator.toList) :
    ∀ {fields : List String}, (∀ field ∈ fields, c ∉ field.toList) →
      c ∉ (separator.intercalate fields).toList
  | [], _ => by simp
  | [field], hfields => by
    rw [String.intercalate_singleton]
    exact hfields field List.mem_cons_self
  | field :: next :: others, hfields => by
    have hrest := not_mem_intercalate h fun other hother =>
      hfields other (List.mem_cons_of_mem _ hother)
    rw [String.intercalate_cons_cons, String.toList_append, String.toList_append, List.mem_append,
      List.mem_append, not_or, not_or]
    exact ⟨⟨hfields field List.mem_cons_self, h⟩, hrest⟩

namespace Reading

variable {reading : Reading}

theorem isWord_of_mem_fields (h : reading.weekday = reading.date.dayName) {field : String}
    (hfield : field ∈ reading.fields) : IsWord field := by
  simp only [fields, List.mem_cons, List.not_mem_nil, or_false] at hfield
  rcases hfield with rfl | rfl | rfl | rfl | rfl | rfl
  · rw [h]
    exact isWord_getD (by decide) _
  · exact isWord_getD (by decide) _
  · exact padded_zero reading.date.day ▸ isWord_padded 0 _
  · exact isWord_clock _ _ _
  · exact isWord_yearText _
  · exact isWord_offsetText _

/-- The text is cut into the fields that it was put together from. -/
theorem splitOn_text (h : reading.weekday = reading.date.dayName) :
    reading.text.toList.splitOn ' ' = reading.fields.map String.toList := by
  have hblank : " ".toList = [' '] := rfl
  rw [text, String.toList_intercalate, hblank]
  apply List.splitOn_intercalate
  · intro cs hcs
    obtain ⟨field, hfield, rfl⟩ := List.mem_map.mp hcs
    exact (isWord_of_mem_fields h hfield).not_mem rfl
  · simp [fields]

/-- A date is written on one line. -/
theorem lineFeed_not_mem_text (h : reading.weekday = reading.date.dayName) :
    '\n' ∉ reading.text.toList := by
  apply not_mem_intercalate (by decide)
  intro field hfield
  exact (isWord_of_mem_fields h hfield).not_mem rfl

/-- **What is written field by field is read back.** -/
theorem read?_text (h : reading.IsReal) : read? reading.text = some reading := by
  have hmonth := month?_getD h.date.month_pos h.date.month_le
  have hday := number?_padded 0 reading.date.day
  have hclock := clock?_padded (Nat.lt_trans h.hour (by decide)) (Nat.lt_trans h.minute (by decide))
    (Nat.lt_trans h.second (by decide))
  have hoffset := offset?_offsetText (Nat.lt_trans h.offset (by decide))
  rw [padded_zero] at hday
  unfold read?
  rw [splitOn_text h.weekday]
  simp only [fields, List.map_cons, List.map_nil, String.ofList_toList, hmonth, hday, hclock,
    year?_yearText, hoffset]
  rfl

/-! ## Instants -/

/-- What is to be said for an instant at an offset in minutes. -/
def ofInstant (seconds offset : Int) : Reading :=
  let localTime := seconds + offset * 60
  let date := Date.ofDays (localTime / 86400)
  let second := (localTime % 86400).toNat
  { weekday := date.dayName
    date
    hour := second / 3600
    minute := second / 60 % 60
    second := second % 60
    offset }

theorem isReal_ofInstant (seconds : Int) {offset : Int} (h : offset.natAbs < 24 * 60) :
    (ofInstant seconds offset).IsReal where
  date := (Date.ofDays_spec _).1
  weekday := rfl
  hour := by
    show ((seconds + offset * 60) % 86400).toNat / 3600 < 24
    omega
  minute := Nat.mod_lt _ (by decide)
  second := Nat.mod_lt _ (by decide)
  offset := h

/-- It says the instant. -/
theorem seconds_ofInstant (seconds offset : Int) : (ofInstant seconds offset).seconds = seconds := by
  have hnumber : (ofInstant seconds offset).date.number = (seconds + offset * 60) / 86400 :=
    (Date.ofDays_spec _).2
  unfold Reading.seconds
  rw [hnumber]
  dsimp only [ofInstant]
  omega

end Reading

/-- The offset that is used for a given one, in minutes. -/
def effectiveMinutes (minutes : Int) : Int := if minutes.natAbs < 24 * 60 then minutes else 0

theorem natAbs_effectiveMinutes (minutes : Int) : (effectiveMinutes minutes).natAbs < 24 * 60 := by
  unfold effectiveMinutes
  split_ifs <;> omega

theorem effectiveOffset_minutes (minutes : Int) :
    effectiveOffset (minutes * 60) = effectiveMinutes minutes * 60 := by
  unfold effectiveOffset effectiveMinutes secondsPerDay
  split_ifs <;> omega

/-- What is written for an instant whose date is in the range. -/
theorem text_of_covered {seconds : Int} (h : Covered seconds) (minutes : Int) :
    text seconds (minutes * 60) =
      (Reading.ofInstant seconds (effectiveMinutes minutes)).text := by
  unfold text
  rw [if_pos (inRange_iff.mpr h), effectiveOffset_minutes]
  dsimp only
  rw [weekday_eq_dayName]
  rfl

/-- An instant out of the range is written as a number. -/
theorem text_of_not_covered {seconds : Int} (h : ¬Covered seconds) (offset : Int) :
    text seconds offset = toString seconds := by
  unfold text
  rw [if_neg (mt inRange_iff.mp h)]

theorem lineFeed_not_mem_text (seconds minutes : Int) :
    '\n' ∉ (text seconds (minutes * 60)).toList := by
  by_cases h : Covered seconds
  · rw [text_of_covered h]
    exact Reading.lineFeed_not_mem_text rfl
  · have hdigits : ∀ n, '\n' ∉ Nat.toDigits 10 n := fun n hmem =>
      absurd (Nat.isDigit_of_mem_toDigits (by decide) (by decide) hmem) (by decide)
    rw [text_of_not_covered h]
    cases seconds <;> simp [Int.toString_eq_repr, Int.repr, hdigits]

/-- **A written date says its instant.** An instant within the range of dates, at any offset, is
written as a date that is read back as a date of the calendar with its day of the week, at the given
offset or at none where that is a day or longer, and that says the instant. Other instants are
written as the plain number of seconds. So two instants within the range are never written alike,
whatever their offsets. -/
theorem text_denotes (seconds minutes : Int) :
    (Covered seconds → ∃ reading, Reading.read? (text seconds (minutes * 60)) = some reading ∧
      reading.IsReal ∧ reading.seconds = seconds ∧
      reading.offset = if minutes.natAbs < 24 * 60 then minutes else 0) ∧
    (¬Covered seconds → text seconds (minutes * 60) = toString seconds) ∧
    (∀ seconds' minutes', Covered seconds → Covered seconds' →
      text seconds (minutes * 60) = text seconds' (minutes' * 60) → seconds = seconds') := by
  have hread : ∀ {instant : Int}, Covered instant → ∀ offset,
      Reading.read? (text instant (offset * 60)) =
        some (Reading.ofInstant instant (effectiveMinutes offset)) := by
    intro instant h offset
    rw [text_of_covered h]
    exact Reading.read?_text (Reading.isReal_ofInstant _ (natAbs_effectiveMinutes _))
  refine ⟨fun h => ⟨_, hread h minutes, ?_, ?_, rfl⟩, fun h => ?_, ?_⟩
  · exact Reading.isReal_ofInstant _ (natAbs_effectiveMinutes _)
  · exact Reading.seconds_ofInstant _ _
  · exact text_of_not_covered h _
  · intro seconds' minutes' h h' hsame
    have hreading := (hread h minutes).symm.trans ((congrArg _ hsame).trans (hread h' minutes'))
    rw [Option.some.injEq] at hreading
    rw [← Reading.seconds_ofInstant seconds (effectiveMinutes minutes), hreading,
      Reading.seconds_ofInstant]

/-- The last second of the year 0 is in the year 1 an hour to the east; the first instant behind the
range is written as a number. -/
theorem text_denotes_turn :
    let turn : Int := -62135596801
    Covered turn ∧ Covered (turn + 1) ∧ ¬Covered 8210266876800 ∧
    text turn 3600 = "Mon Jan 1 00:59:59 0001 +0100" ∧
    (∃ reading, Reading.read? (text turn (60 * 60)) = some reading ∧ reading.IsReal ∧
      reading.seconds = turn ∧ reading.offset = 60) ∧
    text 8210266876800 (0 * 60) = toString (8210266876800 : Int) ∧
    text turn (60 * 60) ≠ text (turn + 1) (-60 * 60) := by
  intro turn
  have hturn : Covered turn := by
    unfold Covered
    decide
  have hnext : Covered (turn + 1) := by
    unfold Covered
    decide
  have hbehind : ¬Covered 8210266876800 := by
    unfold Covered
    decide
  refine ⟨hturn, hnext, hbehind, by decide, (text_denotes turn 60).1 hturn,
    (text_denotes 8210266876800 0).2.1 hbehind, fun hsame => ?_⟩
  exact absurd ((text_denotes turn 60).2.2 _ _ hturn hnext hsame) (by decide)

end CommitReports.Calendar
