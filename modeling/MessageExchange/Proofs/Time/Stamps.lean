import MessageExchange.Proofs.Text.Trimming
import MessageExchange.Proofs.Time.Calendar
import MessageExchange.Proofs.Time.Rfc3339

/-!
# Date and time texts with an offset

A `Stamp` holds the numbers of a date and time text as they are written: each in
its fixed number of digits, so a month may be 13 and an hour 24.  There may be a
fraction of one to nine places, and the offset from universal time is a letter, or
a sign with hours and minutes.  `Stamp.text` is the text.

`InRange` says that the numbers exist: the day in the month of that year, the time
of day, and the offset.  `Shows` says which time the numbers are of, and
`LocalSecond` counts the seconds to that time by walking through the calendar from
day to day.

The fields of a stamp name a time exactly if the stamp is in range, and it is the
time that the stamp shows (`toZoned?_fields_eq_some_iff`).
-/

namespace MessageExchange.Time

open Decimal (places)
open Text (Blank Framed Solid Tight)

/-! ## Stamps -/

/-- A fraction of a second in decimal places. -/
structure Fraction where
  /-- How many places there are. -/
  width : Nat
  /-- The number that the places stand for. -/
  count : Nat
  /-- Places go down to the nanosecond. -/
  width_mem : 1 ≤ width ∧ width ≤ 9
  count_lt : count < 10 ^ width

/-- How a text sets its local time against universal time. -/
inductive Offset where
  /-- The letter for universal time. -/
  | universal (letter : Char) (letter_mem : letter ∈ ['Z', 'z'])
  /-- A plus sign, hours and minutes. -/
  | ahead (hour minute : Fin 100)
  /-- A minus sign of either kind, hours and minutes. -/
  | behind (sign : Char) (sign_mem : sign ∈ ['-', '−']) (hour minute : Fin 100)

/-- The numbers of a date and time text as they are written. -/
structure Stamp where
  year : Fin 10000
  month : Fin 100
  day : Fin 100
  /-- What stands between the date and the time of day. -/
  separator : Char
  separator_mem : separator ∈ ['T', 't', ' ']
  hour : Fin 100
  minute : Fin 100
  second : Fin 100
  fraction : Option Fraction
  offset : Offset

/-! ## Texts -/

/-- A point and the places of a fraction, or nothing. -/
def fractionText : Option Fraction → List Char
  | none => []
  | some fraction => '.' :: places fraction.width fraction.count

def Offset.text : Offset → List Char
  | universal letter _ => [letter]
  | ahead hour minute => '+' :: (places 2 hour ++ ':' :: places 2 minute)
  | behind sign _ hour minute => sign :: (places 2 hour ++ ':' :: places 2 minute)

namespace Stamp

/-- The date, the time of day, the fraction and the offset. -/
def text (s : Stamp) : List Char :=
  places 4 s.year ++ '-' :: (places 2 s.month ++ '-' :: (places 2 s.day ++ s.separator ::
    (places 2 s.hour ++ ':' :: (places 2 s.minute ++ ':' :: (places 2 s.second ++
      (fractionText s.fraction ++ s.offset.text))))))

/-- The text is that of the stamp, with white space around it. -/
def Spells (s : Stamp) (text : String) : Prop :=
  ∃ before after, Blank before ∧ Blank after ∧ text.toList = before ++ s.text ++ after

end Stamp

/-! ## Instants -/

/-- The nanoseconds of a fraction. -/
def fractionNanos : Option Fraction → Nat
  | none => 0
  | some fraction => fraction.count * 10 ^ (9 - fraction.width)

namespace Offset

/-- The seconds by which the local time is ahead of universal time. -/
def seconds : Offset → Int
  | universal _ _ => 0
  | ahead hour minute => hour.val * 3600 + minute.val * 60
  | behind _ _ hour minute => -(hour.val * 3600 + minute.val * 60)

/-- Offsets are shorter than a day. -/
def InRange : Offset → Prop
  | universal _ _ => True
  | ahead hour minute => hour.val ≤ 23 ∧ minute.val ≤ 59
  | behind _ _ hour minute => hour.val ≤ 23 ∧ minute.val ≤ 59

instance : (offset : Offset) → Decidable offset.InRange
  | universal _ _ => inferInstanceAs (Decidable True)
  | ahead hour minute => inferInstanceAs (Decidable (hour.val ≤ 23 ∧ minute.val ≤ 59))
  | behind _ _ hour minute => inferInstanceAs (Decidable (hour.val ≤ 23 ∧ minute.val ≤ 59))

end Offset

namespace Stamp

/-- The numbers of the stamp exist.  Second 60 exists in every minute. -/
structure InRange (s : Stamp) : Prop where
  month_mem : 1 ≤ s.month.val ∧ s.month.val ≤ 12
  day_mem : 1 ≤ s.day.val ∧ s.day.val ≤ monthLength (isLeapYear s.year.val) s.month.val
  hour_le : s.hour.val ≤ 23
  minute_le : s.minute.val ≤ 59
  second_le : s.second.val ≤ 60
  offset_mem : s.offset.InRange

instance (s : Stamp) : Decidable s.InRange :=
  decidable_of_iff
    ((1 ≤ s.month.val ∧ s.month.val ≤ 12) ∧
      (1 ≤ s.day.val ∧ s.day.val ≤ monthLength (isLeapYear s.year.val) s.month.val) ∧
      s.hour.val ≤ 23 ∧ s.minute.val ≤ 59 ∧ s.second.val ≤ 60 ∧ s.offset.InRange)
    ⟨fun ⟨hmonth, hday, hhour, hminute, hsecond, hoffset⟩ =>
        ⟨hmonth, hday, hhour, hminute, hsecond, hoffset⟩,
      fun h => ⟨h.month_mem, h.day_mem, h.hour_le, h.minute_le, h.second_le, h.offset_mem⟩⟩

/-- The seconds that a clock of the local time counts from its start of 1970.  Second 60 counts as
second 59. -/
inductive LocalSecond (s : Stamp) : Int → Prop where
  | count {date : Date} {day : Int} :
      date.year = s.year.val → date.month = s.month.val → date.day = s.day.val →
      Date.Away day date →
      LocalSecond s
        (day * 86400 + (s.hour.val * 3600 + s.minute.val * 60 + min s.second.val 59 : Nat))

/-- The nanoseconds of the fraction, with a thousand million more in second 60. -/
def nanos (s : Stamp) : Nat :=
  fractionNanos s.fraction + if s.second.val = 60 then 1_000_000_000 else 0

/-- The numbers of the stamp are those of the time. -/
structure Shows (s : Stamp) (z : Zoned) : Prop where
  year_eq : z.date.year = s.year.val
  month_eq : z.date.month = s.month.val
  day_eq : z.date.day = s.day.val
  secondOfDay_eq :
    z.secondOfDay = s.hour.val * 3600 + s.minute.val * 60 + min s.second.val 59
  nanos_eq : z.nanos = s.nanos
  offset_eq : z.offset = s.offset.seconds

end Stamp

/-! ## Reading the numbers -/

theorem fractionNanos_lt (fraction : Option Fraction) : fractionNanos fraction < 1_000_000_000 := by
  cases fraction with
  | none => decide
  | some fraction =>
      have hpos : 0 < 10 ^ (9 - fraction.width) := Nat.pow_pos (by decide)
      have hlt := Nat.mul_lt_mul_of_pos_right fraction.count_lt hpos
      rwa [← Nat.pow_add, Nat.add_sub_cancel' fraction.width_mem.2] at hlt

theorem solid_places (width n : Nat) : Solid (places width n) :=
  Text.solid_of_isDigit fun _ hc => Decimal.isDigit_of_mem_places hc

/-- What an offset starts with ends a fraction, and it is not white space. -/
theorem mark_of_mem {c : Char} (h : c ∈ ['Z', 'z', '+', '-', '−']) :
    c.isDigit = false ∧ c ≠ '.' ∧ Text.isWhiteSpace c = false := by
  simp only [List.mem_cons, List.not_mem_nil, or_false] at h
  rcases h with rfl | rfl | rfl | rfl | rfl <;> exact ⟨rfl, by decide, rfl⟩

theorem Offset.text_eq_cons (offset : Offset) :
    ∃ c rest, offset.text = c :: rest ∧ c ∈ ['Z', 'z', '+', '-', '−'] ∧ Solid rest := by
  have hclock (hour minute : Fin 100) : Solid (places 2 hour ++ ':' :: places 2 minute) :=
    .append (solid_places 2 hour) (.cons rfl (solid_places 2 minute))
  cases offset with
  | universal letter hletter =>
      exact ⟨_, _, rfl, List.mem_append_left ['+', '-', '−'] hletter, .nil⟩
  | ahead hour minute => exact ⟨_, _, rfl, by decide, hclock hour minute⟩
  | behind sign hsign hour minute =>
      exact ⟨_, _, rfl, List.mem_append_right ['Z', 'z', '+'] hsign, hclock hour minute⟩

theorem takeFraction?_text (fraction : Option Fraction) (offset : Offset) :
    takeFraction? (fractionText fraction ++ offset.text) =
      some (fractionNanos fraction, offset.text) := by
  obtain ⟨c, rest, htext, hmark, -⟩ := offset.text_eq_cons
  obtain ⟨hdigit, hpoint, -⟩ := mark_of_mem hmark
  rw [htext]
  cases fraction with
  | none =>
      rw [fractionText, List.nil_append, takeFraction?.eq_def]
      split
      · next heq => exact absurd (List.cons.inj heq).1 hpoint
      · rfl
  | some fraction => exact takeFraction?_places fraction.width_mem fraction.count_lt hdigit rest

/-- The sign, the hours and the minutes of an offset. -/
def Offset.parts : Offset → Bool × Nat × Nat
  | universal _ _ => (false, 0, 0)
  | ahead hour minute => (false, hour, minute)
  | behind _ _ hour minute => (true, hour, minute)

theorem takeOffset?_signed {sign : Char} (h : sign ∈ ['+', '-', '−']) (hour minute : Fin 100) :
    takeOffset? (sign :: (places 2 hour ++ ':' :: places 2 minute)) =
      some ((sign != '+', hour.val, minute.val), []) := by
  have hminute : takeDigits? 2 (places 2 minute) = some (minute.val, []) := by
    have htake : takeDigits? 2 (places 2 minute ++ []) = some (minute.val, []) :=
      takeDigits?_places (by decide) minute.isLt []
    rwa [List.append_nil] at htake
  have hletter : ¬(sign = 'Z' ∨ sign = 'z') := by
    rintro (rfl | rfl) <;> exact absurd h (by decide)
  refine Option.bind_eq_some_iff.2
    ⟨_, takeOneOf?_cons (List.mem_cons_of_mem _ (List.mem_cons_of_mem _ h)) _, ?_⟩
  refine (if_neg hletter).trans ?_
  refine Option.bind_eq_some_iff.2 ⟨_, takeDigits?_places (by decide) hour.isLt _, ?_⟩
  refine Option.bind_eq_some_iff.2 ⟨_, takeOneOf?_cons (by decide) _, ?_⟩
  exact Option.bind_eq_some_iff.2 ⟨_, hminute, rfl⟩

theorem takeOffset?_text (offset : Offset) :
    takeOffset? offset.text = some (offset.parts, []) := by
  cases offset with
  | universal letter hletter =>
      simp only [List.mem_cons, List.not_mem_nil, or_false] at hletter
      rcases hletter with rfl | rfl <;> rfl
  | ahead hour minute => exact takeOffset?_signed (by decide) hour minute
  | behind sign hsign hour minute =>
      have hsigned := takeOffset?_signed (List.mem_cons_of_mem _ hsign) hour minute
      have hminus : (sign != '+') = true := by
        rw [bne_iff_ne]
        rintro rfl
        exact absurd hsign (by decide)
      rwa [hminus] at hsigned

namespace Stamp

/-- The numbers as the fields that reading gives. -/
def fields (s : Stamp) : Fields where
  year := s.year
  month := s.month
  day := s.day
  hour := s.hour
  minute := s.minute
  second := s.second
  nanos := fractionNanos s.fraction
  offsetNegative := s.offset.parts.1
  offsetHour := s.offset.parts.2.1
  offsetMinute := s.offset.parts.2.2

/-- The date and the time of day to the second, and what follows them. -/
def lead (s : Stamp) (rest : List Char) : List Char :=
  places 4 s.year ++ '-' :: (places 2 s.month ++ '-' :: (places 2 s.day ++ s.separator ::
    (places 2 s.hour ++ ':' :: (places 2 s.minute ++ ':' :: (places 2 s.second ++ rest)))))

/-- Reading gives the numbers back, one step for each of them and for each character between two of
them, if it gives back those of the fraction and of the offset. -/
theorem read?_lead (s : Stamp) {rest text : List Char}
    (hfraction : takeFraction? rest = some (fractionNanos s.fraction, text))
    (hoffset : takeOffset? text = some (s.offset.parts, [])) :
    Fields.read? (s.lead rest) = some s.fields := by
  have htwo (n : Fin 100) (rest : List Char) :
      takeDigits? 2 (places 2 n ++ rest) = some (n.val, rest) :=
    takeDigits?_places (by decide) n.isLt rest
  refine Option.bind_eq_some_iff.2 ⟨_, takeDigits?_places (by decide) s.year.isLt _, ?_⟩
  refine Option.bind_eq_some_iff.2 ⟨_, takeOneOf?_cons (by decide) _, ?_⟩
  refine Option.bind_eq_some_iff.2 ⟨_, htwo s.month _, ?_⟩
  refine Option.bind_eq_some_iff.2 ⟨_, takeOneOf?_cons (by decide) _, ?_⟩
  refine Option.bind_eq_some_iff.2 ⟨_, htwo s.day _, ?_⟩
  refine Option.bind_eq_some_iff.2 ⟨_, takeOneOf?_cons s.separator_mem _, ?_⟩
  refine Option.bind_eq_some_iff.2 ⟨_, htwo s.hour _, ?_⟩
  refine Option.bind_eq_some_iff.2 ⟨_, takeOneOf?_cons (by decide) _, ?_⟩
  refine Option.bind_eq_some_iff.2 ⟨_, htwo s.minute _, ?_⟩
  refine Option.bind_eq_some_iff.2 ⟨_, takeOneOf?_cons (by decide) _, ?_⟩
  refine Option.bind_eq_some_iff.2 ⟨_, htwo s.second _, ?_⟩
  refine Option.bind_eq_some_iff.2 ⟨_, hfraction, ?_⟩
  exact Option.bind_eq_some_iff.2 ⟨_, hoffset, rfl⟩

end Stamp

/-! ## White space around a stamp -/

theorem Offset.solid_text (offset : Offset) : Solid offset.text := by
  obtain ⟨c, rest, htext, hmark, hrest⟩ := offset.text_eq_cons
  rw [htext]
  exact .cons (mark_of_mem hmark).2.2 hrest

namespace Stamp

/-- There may be a space within a stamp, but it starts with a digit and ends with an offset. -/
theorem tight_text (s : Stamp) : Tight s.text := by
  obtain ⟨c, rest, hoffset, -, -⟩ := s.offset.text_eq_cons
  have hne : s.offset.text ≠ [] := by
    rw [hoffset]
    exact List.cons_ne_nil c rest
  have htext : s.text = places 4 s.year ++ ('-' :: (places 2 s.month ++ '-' :: (places 2 s.day ++
      s.separator :: (places 2 s.hour ++ ':' :: (places 2 s.minute ++ ':' :: (places 2 s.second ++
        fractionText s.fraction)))))) ++ s.offset.text := by
    simp only [text, List.append_assoc, List.cons_append]
  rw [htext]
  exact Text.tight_append (solid_places 4 s.year) (Decimal.places_ne_nil (by decide) s.year)
    s.offset.solid_text hne _

end Stamp

/-! ## The time of a stamp -/

theorem Offset.seconds_mem {offset : Offset} (h : offset.InRange) :
    -86400 < offset.seconds ∧ offset.seconds < 86400 ∧ offset.seconds % 60 = 0 := by
  cases offset with
  | universal letter _ =>
      simp only [seconds]
      omega
  | ahead hour minute =>
      obtain ⟨hhour, hminute⟩ := h
      simp only [seconds]
      omega
  | behind sign _ hour minute =>
      obtain ⟨hhour, hminute⟩ := h
      simp only [seconds]
      omega

theorem Date.eq_of_ofParts? {year : Int} {month day : Nat} {date : Date}
    (h : ofParts? year month day = some date) :
    date.year = year ∧ date.month = month ∧ date.day = day := by
  rw [ofParts?] at h
  split at h
  · cases h
    exact ⟨rfl, rfl, rfl⟩
  · cases h

theorem Date.dayNumber_mem {date : Date} (h : 0 ≤ date.year ∧ date.year ≤ 9999) :
    -719528 ≤ date.dayNumber ∧ date.dayNumber < 2932897 := by
  have hbounds := date.dayNumber_bounds
  have hfirst : daysBeforeYear 0 ≤ daysBeforeYear date.year := daysBeforeYear_le h.1
  have hlast : daysBeforeYear (date.year + 1) ≤ daysBeforeYear 10000 :=
    daysBeforeYear_le (by omega)
  have hzero : daysBeforeYear 0 = -719528 := by decide
  have hten : daysBeforeYear 10000 = 2932897 := by decide
  omega

namespace Stamp

theorem offset_fields (s : Stamp) : s.fields.offset = s.offset.seconds := by
  rw [Fields.offset, fields]
  cases s.offset <;> simp [Offset.parts, Offset.seconds]

theorem clockInRange_fields (s : Stamp) :
    s.fields.clockInRange = true ↔
      s.hour.val ≤ 23 ∧ s.minute.val ≤ 59 ∧ s.second.val ≤ 60 ∧ s.offset.InRange := by
  have hoffset : s.offset.InRange ↔ s.offset.parts.2.2 ≤ 59 ∧ s.offset.parts.2.1 ≤ 23 := by
    cases s.offset with
    | universal letter _ => simp [Offset.InRange, Offset.parts]
    | ahead hour minute => exact And.comm
    | behind sign _ hour minute => exact And.comm
  rw [hoffset]
  simp only [Fields.clockInRange, Bool.and_eq_true, decide_eq_true_eq, and_assoc]
  exact Iff.rfl

theorem exists_localSecond {s : Stamp} (h : s.InRange) : ∃ second, s.LocalSecond second := by
  let date : Date := ⟨s.year.val, s.month.val, s.day.val, h.month_mem, h.day_mem⟩
  exact ⟨_, @LocalSecond.count s date _ rfl rfl rfl date.away_dayNumber⟩

/-- A stamp in range shows a time.  The years 0 to 9999 and a day more at either end lie far within
the range of instants. -/
theorem exists_shows {s : Stamp} (h : s.InRange) : ∃ z, s.Shows z := by
  let date : Date := ⟨s.year.val, s.month.val, s.day.val, h.month_mem, h.day_mem⟩
  have hlt := s.year.isLt
  have hyear : date.year = s.year.val := rfl
  have hday : -719528 ≤ date.dayNumber ∧ date.dayNumber < 2932897 :=
    Date.dayNumber_mem ⟨by omega, by omega⟩
  have hoffset := Offset.seconds_mem h.offset_mem
  have hfraction := fractionNanos_lt s.fraction
  have hhour := h.hour_le
  have hminute := h.minute_le
  let z : Zoned :=
    { date
      secondOfDay := s.hour.val * 3600 + s.minute.val * 60 + min s.second.val 59
      nanos := s.nanos
      offset := s.offset.seconds
      second_mem := by
        simp only [minSecond, maxSecond]
        omega
      nanos_lt := by
        rw [nanos]
        split <;> omega }
  exact ⟨z, rfl, rfl, rfl, rfl, rfl, rfl⟩

/-- The fields of a stamp name the time that it shows, if it is in range. -/
theorem toZoned?_fields_eq_some_iff {s : Stamp} {z : Zoned} :
    s.fields.toZoned? = some z ↔ s.InRange ∧ s.Shows z := by
  constructor
  · intro h
    obtain ⟨date, hdate, h⟩ := Option.bind_eq_some_iff.1 h
    obtain ⟨hyear, hmonth, hday⟩ := Date.eq_of_ofParts? hdate
    obtain ⟨hin, h⟩ := Option.dite_none_right_eq_some.1 h
    obtain ⟨hhour, hminute, hsecond, hoffset⟩ := s.clockInRange_fields.1 hin.1
    have hmonthmem := date.month_mem
    have hdaymem := date.day_mem
    rw [hyear, hmonth, hday] at hdaymem
    rw [hmonth] at hmonthmem
    cases h
    exact ⟨⟨hmonthmem, hdaymem, hhour, hminute, hsecond, hoffset⟩,
      ⟨hyear, hmonth, hday, rfl, rfl, s.offset_fields⟩⟩
  · rintro ⟨hin, hshows⟩
    have hdate : Date.ofParts? s.year.val s.month.val s.day.val = some z.date := by
      rw [← hshows.year_eq, ← hshows.month_eq, ← hshows.day_eq, Date.ofParts?_self]
    have hclock := s.clockInRange_fields.2
      ⟨hin.hour_le, hin.minute_le, hin.second_le, hin.offset_mem⟩
    have hsecond := z.second_mem
    have hnanos := z.nanos_lt
    rw [hshows.secondOfDay_eq, hshows.offset_eq, ← s.offset_fields] at hsecond
    rw [hshows.nanos_eq] at hnanos
    refine Option.bind_eq_some_iff.2 ⟨z.date, hdate, (dif_pos ⟨hclock, hsecond, hnanos⟩).trans ?_⟩
    exact congrArg some (Zoned.ext rfl hshows.secondOfDay_eq.symm hshows.nanos_eq.symm
      (s.offset_fields.trans hshows.offset_eq.symm))

/-- Being in range is a matter of the fields. -/
theorem inRange_iff_of_fields_eq {s s' : Stamp} (h : s.fields = s'.fields) :
    s.InRange ↔ s'.InRange := by
  have hiff (s : Stamp) : s.InRange ↔ ∃ z, s.fields.toZoned? = some z := by
    simp only [toZoned?_fields_eq_some_iff, exists_and_left]
    exact ⟨fun hin => ⟨hin, exists_shows hin⟩, And.left⟩
  rw [hiff, hiff, h]

/-- The local second of a stamp is that of the time that it shows. -/
theorem Shows.localSecond_eq {s : Stamp} {z : Zoned} (h : s.Shows z) {second : Int}
    (hsecond : s.LocalSecond second) {day : Int} (hday : Date.Away day z.date) :
    second = day * 86400 + z.secondOfDay := by
  obtain ⟨hyear, hmonth, hday', haway⟩ := hsecond
  rw [Date.ext (hyear.trans h.year_eq.symm) (hmonth.trans h.month_eq.symm)
    (hday'.trans h.day_eq.symm)] at haway
  rw [← Date.dayNumber_of_away haway, ← Date.dayNumber_of_away hday, h.secondOfDay_eq]

end Stamp

end MessageExchange.Time
