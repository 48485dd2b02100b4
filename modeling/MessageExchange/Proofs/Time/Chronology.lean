import MessageExchange.Proofs.Time.Grammar
import MessageExchange.Proofs.Time.Milliseconds
import MessageExchange.Time.Chronology

/-!
# What a chronology is relied on for

A chronology may be any library of dates and times of day.  The laws here are what
is relied on.

* `Writes`: a text shows the date and the time of day of a clock in universal time.
* `Reads`: a text is read as the time of the stamp that it is, and the instant of a
  time is that time less its offset.
* `CountsMillis`: milliseconds are counted from the start of 1970, rounded down.
* `Truncates`: decimal places of the second are cut off.

Days are counted by a walk through the calendar.  `Chronology.standard` obeys all
four laws.
-/

namespace MessageExchange.Time

open Decimal (places padded)

/-! ## Clocks in universal time -/

/-- A clock in universal time shows the date, the hour, the minute, the second and the nanoseconds
at the instant.  In a leap second it shows second 60. -/
inductive Clock (t : Instant) : Date → Nat → Nat → Nat → Nat → Prop where
  | ordinary {date : Date} {day : Int} {hour minute second : Nat} :
      Date.Away day date → hour < 24 → minute < 60 → second < 60 →
      t.second = day * 86400 + (hour * 3600 + minute * 60 + second : Nat) →
      t.nanos < 1_000_000_000 → Clock t date hour minute second t.nanos
  | leap {date : Date} {day : Int} {hour minute : Nat} :
      Date.Away day date → hour < 24 → minute < 60 →
      t.second = day * 86400 + (hour * 3600 + minute * 60 + 59 : Nat) →
      1_000_000_000 ≤ t.nanos → Clock t date hour minute 60 (t.nanos - 1_000_000_000)

/-- The decimal places of a second to a given precision, after a point. -/
def fractionDigits : Precision → Nat → List Char
  | .seconds, _ => []
  | .millis, nanos => '.' :: places 3 (nanos / 1_000_000)
  | .micros, nanos => '.' :: places 6 (nanos / 1_000)
  | .nanos, nanos => '.' :: places 9 nanos

/-- The four digits of a year, or a sign and at least four digits. -/
def yearDigits (year : Int) : List Char :=
  if 0 ≤ year ∧ year ≤ 9999 then places 4 year.toNat
  else (if year < 0 then '-' else '+') :: padded 4 year.natAbs

/-- A date and a time of day in universal time. -/
def dateTimeText (precision : Precision) (zulu : Bool) (date : Date)
    (hour minute second nanos : Nat) : List Char :=
  yearDigits date.year ++ '-' :: places 2 date.month ++ '-' :: places 2 date.day ++
    'T' :: places 2 hour ++ ':' :: places 2 minute ++ ':' :: places 2 second ++
    fractionDigits precision nanos ++ (if zulu then "Z" else "+00:00").toList

theorem Clock.lt {t : Instant} {date : Date} {hour minute second nanos : Nat}
    (h : Clock t date hour minute second nanos) :
    hour < 100 ∧ minute < 100 ∧ second < 100 ∧ nanos < 10 ^ 9 := by
  have hlt := t.nanos_lt
  cases h <;> omega

theorem date_eq_of_away {t : Instant} {date : Date} {day : Int} (h : Date.Away day date)
    (hday : t.second / 86400 = day) : t.date = date := by
  rw [Instant.date, hday, Date.away_iff.1 h]

/-- The fields of an instant are what a clock shows. -/
theorem Clock.fields_eq {t : Instant} {date : Date} {hour minute second nanos : Nat}
    (h : Clock t date hour minute second nanos) :
    t.date = date ∧ t.hour = hour ∧ t.minute = minute ∧ t.secondOfMinute = second ∧
      t.fraction = nanos := by
  have hlt := t.nanos_lt
  cases h with
  | ordinary haway hhour hminute hsecond hcount hnanos =>
      have hleap : ¬1_000_000_000 ≤ t.nanos := Nat.not_le.2 hnanos
      refine ⟨date_eq_of_away haway (by omega), ?_⟩
      simp only [Instant.hour, Instant.minute, Instant.secondOfMinute, Instant.isLeap,
        Instant.fraction, Instant.secondOfDay, hleap, decide_false, Bool.false_eq_true, if_false]
      omega
  | leap haway hhour hminute hcount hleap =>
      refine ⟨date_eq_of_away haway (by omega), ?_⟩
      simp only [Instant.hour, Instant.minute, Instant.secondOfMinute, Instant.isLeap,
        Instant.fraction, Instant.secondOfDay, hleap, decide_true, if_true]
      omega

namespace Chronology

/-! ## The laws -/

/-- An instant is written as what a clock in universal time shows. -/
def Writes (chronology : Chronology) : Prop :=
  ∀ (precision : Precision) (zulu : Bool) {t : Instant} {date : Date}
    {hour minute second nanos : Nat}, Clock t date hour minute second nanos →
    (chronology.text precision zulu t).toList =
      dateTimeText precision zulu date hour minute second nanos

/-- The texts that are read are those of the stamps in range, and each is read as the time that its
stamp shows. -/
structure Reads (chronology : Chronology) : Prop where
  read?_eq_some_iff : ∀ {text : String} {z : Zoned},
    chronology.read? text = some z ↔ ∃ s : Stamp, s.IsText text.toList ∧ s.InRange ∧ s.Shows z
  /-- The offset of a time is how far it is ahead of universal time. -/
  second_toUniversal : ∀ {z : Zoned} {day : Int}, Date.Away day z.date →
    (chronology.toUniversal z).second = day * 86400 + z.secondOfDay - z.offset
  nanos_toUniversal : ∀ {z : Zoned}, (chronology.toUniversal z).nanos = z.nanos

/-- Milliseconds are counted from the start of 1970, without leap seconds, and rounded down. -/
structure CountsMillis (chronology : Chronology) : Prop where
  ofMillis_eq_single_iff : ∀ {n : Int64} {t : Instant},
    chronology.ofMillis n = .single t ↔
      t.nanos < 1_000_000_000 ∧ t.second * 1_000_000_000 + t.nanos = n.toInt * 1_000_000
  millis_mem : ∀ (t : Instant),
    (chronology.millis t).toInt * 1_000_000 ≤ t.second * 1_000_000_000 + t.nanos ∧
      t.second * 1_000_000_000 + t.nanos < ((chronology.millis t).toInt + 1) * 1_000_000

/-- An instant is cut to decimal places of its second.  A leap second counts as one second with the
second before it. -/
structure Truncates (chronology : Chronology) : Prop where
  second_truncate : ∀ (count : Nat) (t : Instant), (chronology.truncate count t).second = t.second
  nanos_truncate : ∀ (count : Nat) (t : Instant), count ≤ 9 →
    (chronology.truncate count t).nanos % 10 ^ (9 - count) = 0 ∧
      (chronology.truncate count t).nanos ≤ t.nanos ∧
      t.nanos < (chronology.truncate count t).nanos + 10 ^ (9 - count)

/-! ## Texts -/

theorem yearText_eq_yearDigits (year : Int) : yearText year = yearDigits year := by
  rw [yearText, yearDigits]
  split
  · next hplain => exact Decimal.padded_eq_places (by decide) (by omega)
  · rfl

/-- The places of a fraction to a given precision. -/
theorem fraction_eq (precision : Precision) {nanos : Nat} (h : nanos < 10 ^ 9) :
    (if precision.places = 0 then []
      else '.' :: padded precision.places (nanos / Nat.pow 10 (9 - precision.places))) =
      fractionDigits precision nanos := by
  have hmillis : nanos / 1_000_000 < 10 ^ 3 := by omega
  have hmicros : nanos / 1_000 < 10 ^ 6 := by omega
  have hnanos : nanos / 1 < 10 ^ 9 := by omega
  cases precision with
  | seconds => rfl
  | millis => exact congrArg ('.' :: ·) (Decimal.padded_eq_places (by decide) hmillis)
  | micros => exact congrArg ('.' :: ·) (Decimal.padded_eq_places (by decide) hmicros)
  | nanos =>
      have hplaces := Decimal.padded_eq_places (by decide) hnanos
      rw [Nat.div_one] at hplaces
      exact congrArg ('.' :: ·) ((congrArg (padded 9) (Nat.div_one nanos)).trans hplaces)

theorem writes_standard : standard.Writes := by
  intro precision zulu t date hour minute second nanos h
  obtain ⟨hhour, hminute, hsecond, hnanos⟩ := h.lt
  obtain ⟨rfl, rfl, rfl, rfl, rfl⟩ := h.fields_eq
  have htwo {n : Nat} (hn : n < 100) : padded 2 n = places 2 n :=
    Decimal.padded_eq_places (by decide) hn
  show (String.ofList (t.textWithPlaces precision.places zulu)).toList = _
  rw [String.toList_ofList, Instant.textWithPlaces, fraction_eq precision hnanos, Date.text,
    Instant.clockText, yearText_eq_yearDigits, htwo t.date.month_lt, htwo t.date.day_lt,
    htwo hhour, htwo hminute, htwo hsecond, dateTimeText]
  cases zulu <;> simp [Instant.zoneText]

theorem reads_standard : standard.Reads where
  read?_eq_some_iff {text z} := by
    show (Fields.read? text.toList).bind Fields.toZoned? = some z ↔ _
    simp only [Option.bind_eq_some_iff, read?_eq_some_iff]
    constructor
    · rintro ⟨_, ⟨s, htext, rfl⟩, hz⟩
      exact ⟨s, htext, Stamp.toZoned?_fields_eq_some_iff.1 hz⟩
    · rintro ⟨s, htext, hz⟩
      exact ⟨_, ⟨s, htext, rfl⟩, Stamp.toZoned?_fields_eq_some_iff.2 hz⟩
  second_toUniversal {z day} h := by
    rw [← Date.dayNumber_of_away h]
    rfl
  nanos_toUniversal := rfl

/-! ## Milliseconds -/

theorem CountsMillis.ofMillis_eq_single {chronology : Chronology} (h : chronology.CountsMillis)
    {n : Int64} {t : Instant} : chronology.ofMillis n = .single t ↔ t.AtMillis n.toInt :=
  h.ofMillis_eq_single_iff.trans Instant.atMillis_iff.symm

/-- The milliseconds of an instant are counted exactly, in a word. -/
theorem CountsMillis.toInt_millis {chronology : Chronology} (h : chronology.CountsMillis)
    (t : Instant) :
    (chronology.millis t).toInt = t.second * 1000 + (t.nanos / 1_000_000 : Nat) := by
  have hmem := h.millis_mem t
  omega

/-- An instant that was read from milliseconds has these milliseconds. -/
theorem CountsMillis.millis_of_atMillis {chronology : Chronology} (h : chronology.CountsMillis)
    {t : Instant} {n : Int64} (hat : t.AtMillis n.toInt) : chronology.millis t = n := by
  have hmillis := h.toInt_millis t
  have hcount := Instant.atMillis_iff.1 hat
  exact Int64.toInt_inj.1 (by omega)

theorem Truncates.nanos_truncate_three {chronology : Chronology} (h : chronology.Truncates)
    (t : Instant) : (chronology.truncate 3 t).nanos = t.nanos / 1_000_000 * 1_000_000 := by
  have hnanos := h.nanos_truncate 3 t (by decide)
  have hpow : 10 ^ (9 - 3) = 1_000_000 := rfl
  rw [hpow] at hnanos
  omega

/-- Whole milliseconds are left as they are. -/
theorem Truncates.truncate_eq_self {chronology : Chronology} (h : chronology.Truncates)
    {t : Instant} (hwhole : t.nanos % 1_000_000 = 0) : chronology.truncate 3 t = t := by
  have hnanos := h.nanos_truncate_three t
  exact Instant.ext (h.second_truncate 3 t) (by omega)

/-- The words do not overflow. -/
theorem toInt_millis_standard (t : Instant) :
    (standard.millis t).toInt = t.second * 1000 + (t.nanos / 1_000_000 : Nat) := by
  have hmem := t.second_mem
  have hlt := t.nanos_lt
  simp only [minSecond, maxSecond] at hmem
  have hwords :
      standard.millis t = Int64.ofInt (t.second * 1000 + (t.nanos / 1_000_000 : Nat)) := by
    rw [Int64.ofInt_add, Int64.ofInt_mul]
    rfl
  rw [hwords]
  exact Int64.toInt_ofInt_of_le (by omega) (by omega)

theorem countsMillis_standard : standard.CountsMillis where
  ofMillis_eq_single_iff {n t} := by
    rw [← Instant.atMillis_iff, ← Instant.ofMillis?_eq_some_iff]
    simp only [standard]
    split
    · next t' ht => rw [ht, LocalResult.single.injEq, Option.some_inj]
    · next hnone => simp [hnone]
  millis_mem t := by
    rw [toInt_millis_standard]
    omega

theorem truncates_standard : standard.Truncates where
  second_truncate _ _ := rfl
  nanos_truncate count t _ := by
    show (t.nanos - t.nanos % 10 ^ (9 - count)) % 10 ^ (9 - count) = 0 ∧
      t.nanos - t.nanos % 10 ^ (9 - count) ≤ t.nanos ∧
      t.nanos < t.nanos - t.nanos % 10 ^ (9 - count) + 10 ^ (9 - count)
    have hpos : 0 < 10 ^ (9 - count) := Nat.pow_pos (by decide)
    have hlt := Nat.mod_lt t.nanos hpos
    have hle := Nat.mod_le t.nanos (10 ^ (9 - count))
    exact ⟨Nat.sub_mod_eq_zero_of_mod_eq (by rw [Nat.mod_mod]), Nat.sub_le _ _, by omega⟩

end Chronology

end MessageExchange.Time
