import MessageExchange.Exchange.Basic
import MessageExchange.Proofs.Time.Reading

/-!
# Instants as texts and back

The text of an instant is the timestamp of the day that lies as many days from
the first of January 1970 as its seconds hold whole days, and of the time of day
that is left (`toList_text`).  A leap second is written as second 60.

A text with a year of four digits is that of a stamp in universal time
(`Clock.stamp`), so it is read back, to the millisecond (`Clock.names`).  Any other
year has a sign, and its text names no instant (`not_names_of_sign`).
-/

namespace MessageExchange.Time

open Decimal (places padded)

/-- A date and a time of day in universal time. -/
def timestamp (year : List Char) (month day hour minute second millis : Nat) : List Char :=
  year ++ '-' :: places 2 month ++ '-' :: places 2 day ++ 'T' :: places 2 hour ++
    ':' :: places 2 minute ++ ':' :: places 2 second ++ '.' :: places 3 millis ++ ['Z']

theorem tight_timestamp {c : Char} (h : Text.isWhiteSpace c = false) (year : List Char)
    (month day hour minute second millis : Nat) :
    Text.Tight (timestamp (c :: year) month day hour minute second millis) := by
  have hfront : Text.Solid [c] := .cons h .nil
  have hback : Text.Solid ['Z'] := .cons rfl .nil
  exact Text.tight_append hfront (List.cons_ne_nil _ _) hback (List.cons_ne_nil _ _) _

/-! ## Stamps of clocks -/

namespace Clock

variable {t : Instant} {date : Date} {hour minute second nanos : Nat}

/-- What a clock shows to the millisecond as a stamp in universal time. -/
def stamp (h : Clock t date hour minute second nanos) (hyear : 0 ≤ date.year ∧ date.year ≤ 9999) :
    Stamp where
  year := ⟨date.year.toNat, by omega⟩
  month := ⟨date.month, date.month_lt⟩
  day := ⟨date.day, date.day_lt⟩
  separator := 'T'
  separator_mem := by decide
  hour := ⟨hour, h.lt.1⟩
  minute := ⟨minute, h.lt.2.1⟩
  second := ⟨second, h.lt.2.2.1⟩
  fraction := some ⟨3, nanos / 1_000_000, by decide, by
    have hlt := h.lt.2.2.2
    omega⟩
  offset := .universal 'Z' (by decide)

variable (h : Clock t date hour minute second nanos) (hyear : 0 ≤ date.year ∧ date.year ≤ 9999)
include h

theorem text_stamp :
    (h.stamp hyear).text = timestamp (yearDigits date.year) date.month date.day hour minute second
      (nanos / 1_000_000) := by
  rw [yearDigits, if_pos hyear]
  simp only [timestamp, Stamp.text, stamp, fractionText, Offset.text, List.append_assoc,
    List.cons_append]

theorem year_stamp : date.year = (h.stamp hyear).year.val := (Int.toNat_of_nonneg hyear.1).symm

theorem inRange_stamp : (h.stamp hyear).InRange where
  month_mem := date.month_mem
  day_mem := by
    rw [← h.year_stamp hyear]
    exact date.day_mem
  hour_le := by
    show hour ≤ 23
    cases h <;> omega
  minute_le := by
    show minute ≤ 59
    cases h <;> omega
  second_le := by
    show second ≤ 60
    cases h <;> omega
  offset_mem := trivial

/-- Second 60 counts as second 59. -/
theorem exists_away : ∃ day, Date.Away day date ∧
    t.second = day * 86400 + (hour * 3600 + minute * 60 + min second 59 : Nat) := by
  cases h with
  | ordinary haway _ _ _ hcount _ => exact ⟨_, haway, by omega⟩
  | leap haway _ _ hcount _ => exact ⟨_, haway, hcount⟩

theorem localSecond_stamp : (h.stamp hyear).LocalSecond t.second := by
  obtain ⟨day, haway, hcount⟩ := h.exists_away
  rw [hcount]
  exact .count (h.year_stamp hyear) rfl rfl haway

/-- The thousand million nanoseconds of a leap second are whole milliseconds. -/
theorem nanos_stamp : (h.stamp hyear).nanos = t.nanos / 1_000_000 * 1_000_000 := by
  have hshown : (h.stamp hyear).nanos =
      nanos / 1_000_000 * 1_000_000 + if second = 60 then 1_000_000_000 else 0 := rfl
  rw [hshown]
  cases h with
  | ordinary _ _ _ hsecond _ _ =>
      rw [if_neg (Nat.ne_of_lt hsecond), Nat.add_zero]
  | leap _ _ _ _ hleap =>
      rw [if_pos rfl]
      omega

include hyear in
/-- A year of four digits names the instant to the millisecond. -/
theorem names {text : String} (htext : text.toList = timestamp (yearDigits date.year) date.month
      date.day hour minute second (nanos / 1_000_000))
    {read : Instant} (hsecond : read.second = t.second)
    (hnanos : read.nanos = t.nanos / 1_000_000 * 1_000_000) : Names text read := by
  have hspells : (h.stamp hyear).Spells text :=
    ⟨[], [], .nil, .nil, by rw [htext, h.text_stamp hyear, List.nil_append, List.append_nil]⟩
  refine .stamp hspells.written (h.inRange_stamp hyear) (h.localSecond_stamp hyear) ?_ ?_
  · rw [hsecond]
    exact (Int.sub_zero _).symm
  · rw [hnanos, h.nanos_stamp hyear]

end Clock

/-- A year with a sign names nothing. -/
theorem not_names_of_sign {text : String} {year : Int} {month day hour minute second millis : Nat}
    (htext : text.toList = timestamp (yearDigits year) month day hour minute second millis)
    (hyear : ¬(0 ≤ year ∧ year ≤ 9999)) (t : Instant) : ¬Names text t := by
  rintro ⟨hwritten, -, -, -, -⟩
  obtain ⟨c, hc, hspace, hdigit⟩ : ∃ c, (if year < 0 then '-' else '+') = c ∧
      Text.isWhiteSpace c = false ∧ c.isDigit = false := by
    split
    · exact ⟨'-', rfl, rfl, rfl⟩
    · exact ⟨'+', rfl, rfl, rfl⟩
  rw [yearDigits, if_neg hyear, hc] at htext
  have hread := (Stamp.written_iff.1 hwritten).read?
  rw [htext, Text.trim_eq_self (tight_timestamp hspace _ _ _ _ _ _ _)] at hread
  cases (read?_sign hdigit _).symm.trans hread

/-! ## The text of an instant -/

/-- The day and the time of day of an instant are what a clock shows. -/
theorem clock_of_instant (t : Instant) (hleap : 1_000_000_000 ≤ t.nanos → t.second % 60 = 59) :
    let second := (t.second % 86400).toNat
    let leap := 1_000_000_000 ≤ t.nanos
    Clock t (Date.ofDayNumber (t.second / 86400)) (second / 3600) (second / 60 % 60)
      (if leap then 60 else second % 60) (if leap then t.nanos - 1_000_000_000 else t.nanos) := by
  intro second leap
  have haway := Date.away_ofDayNumber (t.second / 86400)
  by_cases h : 1_000_000_000 ≤ t.nanos
  · have hsecond := hleap h
    rw [if_pos h, if_pos h]
    exact .leap haway (by omega) (by omega) (by omega) h
  · rw [if_neg h, if_neg h]
    exact .ordinary haway (by omega) (by omega) (by omega) (by omega) (by omega)

section
variable {chronology : Chronology} (hwrites : chronology.Writes)
include hwrites

theorem toList_text {t : Instant} {date : Date} {hour minute second nanos : Nat}
    (h : Clock t date hour minute second nanos) :
    (chronology.text .millis true t).toList = timestamp (yearDigits date.year) date.month date.day
      hour minute second (nanos / 1_000_000) :=
  hwrites .millis true h

/-- The text shows nothing below the millisecond. -/
theorem text_of_same_millis {t t' : Instant}
    (hleap : 1_000_000_000 ≤ t.nanos → t.second % 60 = 59) (hsecond : t'.second = t.second)
    (hnanos : t'.nanos = t.nanos / 1_000_000 * 1_000_000) :
    chronology.text .millis true t' = chronology.text .millis true t := by
  have hsame : 1_000_000_000 ≤ t'.nanos ↔ 1_000_000_000 ≤ t.nanos := by omega
  have hleap' : 1_000_000_000 ≤ t'.nanos → t'.second % 60 = 59 := by
    rw [hsame, hsecond]
    exact hleap
  have hmillis : (if 1_000_000_000 ≤ t.nanos then t'.nanos - 1_000_000_000 else t'.nanos) /
      1_000_000 = (if 1_000_000_000 ≤ t.nanos then t.nanos - 1_000_000_000 else t.nanos) /
      1_000_000 := by
    split <;> omega
  rw [← String.toList_inj, toList_text hwrites (clock_of_instant t' hleap'),
    toList_text hwrites (clock_of_instant t hleap)]
  simp only [hsame, hsecond, hmillis]

end

/-! ## Every instant -/

/-- An instant is written as the date that lies as many days from the first of January 1970 as its
seconds hold whole days, and as the time of day that is left, rounded down to the millisecond.  A
year of four digits is read back as the same second with the nanoseconds rounded down, so a time of
creation is read back as it is.  A year with a sign is refused.  A leap second comes at the end of a
minute. -/
theorem text_of_instant {chronology : Chronology} (hwrites : chronology.Writes)
    (hreads : chronology.Reads) (htruncates : chronology.Truncates) (t : Instant)
    (hleap : 1_000_000_000 ≤ t.nanos → t.second % 60 = 59) :
    let day := t.second / 86400
    let second := (t.second % 86400).toNat
    let leap := 1_000_000_000 ≤ t.nanos
    ∃ date text,
      (∀ other, Date.Away day other ↔ other = date) ∧
        (Value.instant t).asText chronology = .ok text ∧
        text.toList = timestamp
          (if 0 ≤ date.year ∧ date.year ≤ 9999 then places 4 date.year.toNat
            else (if date.year < 0 then '-' else '+') :: padded 4 date.year.natAbs)
          date.month date.day (second / 3600) (second / 60 % 60)
          (if leap then 60 else second % 60)
          ((if leap then t.nanos - 1_000_000_000 else t.nanos) / 1_000_000) ∧
        if 0 ≤ date.year ∧ date.year ≤ 9999 then
          (∃ read, (Value.text text).asInstant chronology = .ok read ∧ read.second = t.second ∧
            read.nanos = t.nanos / 1_000_000 * 1_000_000) ∧
          ∀ x : Exchange, let created := (x.setCreated t chronology).created
            (Value.instant created).asText chronology = .ok text ∧
              (Value.text text).asInstant chronology = .ok created
        else (Value.text text).asInstant chronology =
          .error (.noTypeConversion "String" "DateTime<Utc>") := by
  intro day second leap
  have hclock := clock_of_instant t hleap
  have htext := toList_text hwrites hclock
  refine ⟨Date.ofDayNumber day, chronology.text .millis true t, fun other => Date.away_iff, rfl,
    htext, ?_⟩
  have hsecond := htruncates.second_truncate 3 t
  have hnanos := htruncates.nanos_truncate_three t
  split
  · next hyear =>
    have hread := asInstant_of_names hreads (hclock.names hyear htext hsecond hnanos)
    refine ⟨⟨_, hread, hsecond, hnanos⟩, fun x => ⟨?_, hread⟩⟩
    exact congrArg Except.ok (text_of_same_millis hwrites hleap hsecond hnanos)
  · next hyear =>
    exact asInstant_of_not_names hreads (not_names_of_sign htext hyear)

/-- The last leap second of 2016, half of it over, and a day in the year 10000. -/
theorem text_of_instant_in_leap_second :
    let t : Instant := ⟨1_483_228_799, 1_500_000_000, by decide, by decide⟩
    (1_000_000_000 ≤ t.nanos → t.second % 60 = 59) ∧
      (Value.instant t).asText = .ok "2016-12-31T23:59:60.500Z" ∧
      ∃ read, (Value.text "2016-12-31T23:59:60.500Z").asInstant = .ok read ∧
        read.second = t.second ∧ read.nanos = t.nanos := by
  intro t
  have hleap : 1_000_000_000 ≤ t.nanos → t.second % 60 = 59 := fun _ => by decide
  obtain ⟨date, text, hdate, htext, -, hread⟩ := text_of_instant Chronology.writes_standard
    Chronology.reads_standard Chronology.truncates_standard t hleap
  have hwritten : (Value.instant t).asText = .ok "2016-12-31T23:59:60.500Z" := by decide +kernel
  cases Except.ok.inj (hwritten.symm.trans htext)
  have hyear : 0 ≤ date.year ∧ date.year ≤ 9999 := by
    rw [← (hdate _).1 (Date.away_ofDayNumber _)]
    decide
  rw [if_pos hyear] at hread
  obtain ⟨⟨read, hok, hsecond, hnanos⟩, -⟩ := hread
  exact ⟨hleap, hwritten, read, hok, hsecond, hnanos.trans (by decide)⟩

end MessageExchange.Time
