import MessageExchange.Proofs.Conversion.Long
import MessageExchange.Proofs.Exchange.Date
import MessageExchange.Proofs.Time.Reading

/-!
# Dates of files

The date of a file is kept in a header of its own.  `FileDate` says what date a
converter makes of the header.  A positive number of milliseconds counts first, if
its instant exists, and then an instant does.  There is a date or the failure that
names the command (`dateOfFile_of_header`).

The standard converter counts a value as a whole number (`Value.Counts`) or takes
it for an instant (`Value.Shows`), never both.  A numeral has no colon, and there
is one in every date and time text.  So it does not matter which of the two is
tried first.
-/

namespace MessageExchange

open MessageExchange.Time (Chronology Instant Stamp)

/-! ## What values stand for -/

namespace Value

/-- The value is a whole number, a double that denotes one, or a text that spells one. -/
inductive Counts : Value → Int → Prop where
  | int (n : Int64) : Counts (.int n) n.toInt
  | double {x : Binary64} {n : Int} : x.Denotes n → Counts (.double x) n
  | text {s : String} {n : Int} : Spells s n → Counts (.text s) n

/-- The value is an instant, or a text that names one. -/
inductive Shows : Value → Instant → Prop where
  | instant (t : Instant) : Shows (.instant t) t
  | text {s : String} {t : Instant} : Time.Names s t → Shows (.text s) t

theorem long?_eq_some_iff {v : Value} {word : Int64} :
    v.long? = some word ↔ v.Counts word.toInt := by
  constructor
  · intro h
    cases v with
    | int n =>
        cases h
        exact .int word
    | double x => exact .double (long?_double_eq_some_iff.1 h)
    | text s => exact .text (long?_text_eq_some_iff.1 h)
    | null | bool _ | bytes _ | instant _ | failure _ => cases h
  · intro h
    generalize hn : word.toInt = n at h
    cases h with
    | int n => exact congrArg some (Int64.toInt_inj.1 hn).symm
    | double hdenotes => exact long?_double_eq_some_iff.2 (hn ▸ hdenotes)
    | text hspells => exact long?_text_eq_some_iff.2 (hn ▸ hspells)

theorem instant?_eq_some_iff {v : Value} {t : Instant} : v.instant? = some t ↔ v.Shows t := by
  constructor
  · intro h
    cases v with
    | instant t' =>
        cases h
        exact .instant t
    | text s => exact .text ((Time.instant?_text_eq_some_iff Chronology.reads_standard).1 h)
    | null | bool _ | int _ | double _ | bytes _ | failure _ => cases h
  · intro h
    cases h with
    | instant t => rfl
    | text hnames => exact (Time.instant?_text_eq_some_iff Chronology.reads_standard).2 hnames

end Value

theorem TypeConverter.toInstant_standard (v : Value) : standard.toInstant v = v.instant? := by
  show v.asInstant.toOption = v.instant?
  rw [Value.asInstant]
  cases v.instant? <;> rfl

/-! ## Numerals and date texts -/

theorem Time.Stamp.colon_mem_lead (s : Stamp) (rest : List Char) : ':' ∈ s.lead rest := by
  simp [Stamp.lead]

/-- No value both counts and shows. -/
theorem Value.not_shows_of_counts {v : Value} {n : Int} {t : Instant} (h : v.Counts n) :
    ¬v.Shows t := by
  intro hshows
  cases h with
  | int _ => cases hshows
  | double _ => cases hshows
  | text hspells =>
      cases hshows with
      | text hnames =>
        obtain ⟨core, hframed, hnumeral⟩ := hspells
        obtain ⟨⟨-, hframed'⟩, -, -, -, -⟩ := hnames
        -- A text has one core, and it cannot be both of them.
        have hcore := (Text.framed_iff.1 hframed).symm.trans (Text.framed_iff.1 hframed')
        have hcolon : ':' ∉ core :=
          Decimal.notMem_of_numeral hnumeral (by decide) (by decide) (by decide)
        exact hcolon (hcore ▸ Stamp.colon_mem_lead _ _)

/-! ## The two attempts -/

/-- The date that a converter makes of the header. -/
inductive FileDate (converter : TypeConverter) : Option Value → Instant → Prop where
  /-- A positive number of milliseconds since the start of 1970. -/
  | millis {v : Value} {n : Int64} {t : Instant} :
      converter.toLong v = some n → 0 < n.toInt → t.AtMillis n.toInt →
      FileDate converter (some v) t
  /-- An instant, where no such number is within the range of instants. -/
  | instant {v : Value} {t : Instant} :
      (∀ n, converter.toLong v = some n → n.toInt ≤ 0 ∨ 8210266876799999 < n.toInt) →
      converter.toInstant v = some t → FileDate converter (some v) t

namespace Exchange

theorem positiveMillis?_eq_some_iff {n : Int64} {t : Instant} :
    positiveMillis? .standard n = some t ↔ 0 < n.toInt ∧ t.AtMillis n.toInt := by
  rw [positiveMillis?, Option.ite_none_right_eq_some,
    fromMillis_eq_some_iff Chronology.countsMillis_standard]

theorem positiveMillis?_eq_none_iff {n : Int64} :
    positiveMillis? .standard n = none ↔ n.toInt ≤ 0 ∨ 8210266876799999 < n.toInt := by
  rw [Option.eq_none_iff_forall_ne_some, ← not_exists]
  simp only [positiveMillis?_eq_some_iff, exists_and_left, Instant.exists_atMillis_iff]
  omega

theorem attempts_eq_some_iff {converter : TypeConverter} {header : Option Value} {t : Instant} :
    ((header.bind converter.toLong).bind positiveMillis?).or (header.bind converter.toInstant) =
      some t ↔ FileDate converter header t := by
  rw [Option.or_eq_some_iff]
  constructor
  · intro h
    cases header with
    | none => simp at h
    | some v =>
        rcases h with hmillis | ⟨hnone, hinstant⟩
        · obtain ⟨n, hlong, hdate⟩ := Option.bind_eq_some_iff.1 hmillis
          obtain ⟨hpos, hat⟩ := positiveMillis?_eq_some_iff.1 hdate
          exact .millis hlong hpos hat
        · refine .instant (fun n hlong => ?_) hinstant
          exact positiveMillis?_eq_none_iff.1 (Option.bind_eq_none_iff.1 hnone n hlong)
  · intro h
    cases h with
    | millis hlong hpos hat =>
        exact .inl (Option.bind_eq_some_iff.2
          ⟨_, hlong, positiveMillis?_eq_some_iff.2 ⟨hpos, hat⟩⟩)
    | instant hnone hinstant =>
        refine .inr ⟨Option.bind_eq_none_iff.2 fun n hlong => ?_, hinstant⟩
        exact positiveMillis?_eq_none_iff.2 (hnone n hlong)

theorem dateOfFile_eq_ok_iff {converter : TypeConverter} {x : Exchange} {command : String}
    {t : Instant} :
    x.dateOfFile converter command = .ok t ↔
      FileDate converter (x.header? fileLastModifiedKey) t := by
  rw [← attempts_eq_some_iff, dateOfFile]
  split
  · next heq => rw [heq, Except.ok.injEq, Option.some.injEq]
  · next heq => rw [heq]; simp

theorem dateOfFile_eq_error {converter : TypeConverter} {x : Exchange} {command : String}
    (h : ∀ t, ¬FileDate converter (x.header? fileLastModifiedKey) t) :
    x.dateOfFile converter command = .error (.illegalArgument
      ("Cannot find " ++ fileLastModifiedKey ++ " header at command: " ++ command)) := by
  rw [dateOfFile]
  split
  · next t heq => exact absurd (attempts_eq_some_iff.1 heq) (h t)
  · rfl

end Exchange

/-! ## The standard converter -/

/-- With the standard converter a date is found in one of two ways, in no order, since no value
takes both. -/
theorem fileDate_standard_iff {header : Option Value} {t : Instant} :
    FileDate .standard header t ↔
      ∃ v, header = some v ∧ ((∃ n, v.Counts n ∧ 0 < n ∧ t.AtMillis n) ∨ v.Shows t) := by
  constructor
  · intro h
    cases h with
    | @millis v n _ hlong hpos hat =>
        rw [Value.toLong_standard, Value.long?_eq_some_iff] at hlong
        exact ⟨v, rfl, .inl ⟨_, hlong, hpos, hat⟩⟩
    | @instant v _ _ hinstant =>
        rw [TypeConverter.toInstant_standard, Value.instant?_eq_some_iff] at hinstant
        exact ⟨v, rfl, .inr hinstant⟩
  · rintro ⟨v, rfl, ⟨n, hcounts, hpos, hat⟩ | hshows⟩
    · have hrange := Instant.exists_atMillis_iff.1 ⟨t, hat⟩
      obtain ⟨word, -, rfl⟩ := Decimal.exists_toInt64? (n := n) (by omega) (by omega)
      refine .millis ?_ hpos hat
      rw [Value.toLong_standard, Value.long?_eq_some_iff]
      exact hcounts
    · refine .instant (fun n hlong => ?_) ?_
      · rw [Value.toLong_standard, Value.long?_eq_some_iff] at hlong
        exact absurd hshows (Value.not_shows_of_counts hlong)
      · rw [TypeConverter.toInstant_standard, Value.instant?_eq_some_iff]
        exact hshows

/-- There is a date for a positive number within the range of instants, for any instant, and for the
text of any stamp in range. -/
theorem exists_fileDate_standard_iff {header : Option Value} :
    (∃ t, FileDate .standard header t) ↔
      ∃ v, header = some v ∧
        ((∃ n, v.Counts n ∧ 0 < n ∧ n ≤ 8210266876799999) ∨ (∃ t, v = .instant t) ∨
          ∃ (text : String) (s : Stamp), v = .text text ∧ s.Written text ∧ s.InRange) := by
  simp only [fileDate_standard_iff]
  constructor
  · rintro ⟨t, v, rfl, ⟨n, hcounts, hpos, hat⟩ | hshows⟩
    · have hrange := Instant.exists_atMillis_iff.1 ⟨t, hat⟩
      exact ⟨v, rfl, .inl ⟨n, hcounts, hpos, hrange.2⟩⟩
    · cases hshows with
      | instant t => exact ⟨_, rfl, .inr (.inl ⟨t, rfl⟩)⟩
      | @text text _ hnames =>
          obtain ⟨hwritten, hin, -, -, -⟩ := hnames
          exact ⟨_, rfl, .inr (.inr ⟨text, _, rfl, hwritten, hin⟩)⟩
  · rintro ⟨v, rfl, ⟨n, hcounts, hpos, hle⟩ | ⟨t, rfl⟩ | ⟨text, s, rfl, hwritten, hin⟩⟩
    · obtain ⟨t, hat⟩ := Instant.exists_atMillis_iff.2 ⟨by omega, hle⟩
      exact ⟨t, v, rfl, .inl ⟨n, hcounts, hpos, hat⟩⟩
    · exact ⟨t, _, rfl, .inr (.instant t)⟩
    · obtain ⟨t, hnames⟩ := hwritten.exists_names hin
      exact ⟨t, _, rfl, .inr (.text hnames)⟩

/-- Either attempt may be made first. -/
theorem attempts_comm (v : Value) :
    let long := (TypeConverter.standard.toLong v).bind Exchange.positiveMillis?
    let instant := TypeConverter.standard.toInstant v
    long.or instant = instant.or long := by
  intro long instant
  cases hlong : long with
  | none => rw [Option.none_or, Option.or_none]
  | some t =>
      have hnone : instant = none := by
        rw [Option.eq_none_iff_forall_ne_some]
        intro t' hinstant
        obtain ⟨n, hread, -⟩ := Option.bind_eq_some_iff.1 hlong
        rw [Value.toLong_standard, Value.long?_eq_some_iff] at hread
        have hshows := (TypeConverter.toInstant_standard v).symm.trans hinstant
        exact Value.not_shows_of_counts hread (Value.instant?_eq_some_iff.1 hshows)
      rw [hnone, Option.or_none, Option.none_or]

/-- An instant and a positive whole number are the date of a file if they are dates themselves. -/
theorem fileDate_standard_iff_directDate {v : Value} {t : Instant}
    (h : (∃ t, v = .instant t) ∨ ∃ n, v = .int n ∧ 0 < n.toInt) :
    FileDate .standard (some v) t ↔ DirectDate (some v) t := by
  rw [fileDate_standard_iff]
  constructor
  · rintro ⟨v', heq, hdate⟩
    obtain rfl := Option.some.inj heq
    rcases h with ⟨t', rfl⟩ | ⟨n, rfl, -⟩
    · rcases hdate with ⟨n, hcounts, -⟩ | hshows
      · cases hcounts
      · cases hshows
        exact .instant t
    · rcases hdate with ⟨n', hcounts, -, hat⟩ | hshows
      · cases hcounts
        exact .millis hat.second_eq hat.nanos_eq
      · cases hshows
  · intro hdirect
    refine ⟨v, rfl, ?_⟩
    cases hdirect with
    | instant t => exact .inr (.instant t)
    | @millis n _ hsecond hnanos =>
        rcases h with ⟨t', heq⟩ | ⟨n', heq, hpos⟩
        · cases heq
        · cases heq
          exact .inl ⟨_, .int n, hpos, ⟨hsecond, hnanos⟩⟩

/-! ## Every header -/

/-- There is a date exactly if the converter makes one of the header.  Otherwise there is a failure,
and the command only says which.  The standard converter reads a positive number of milliseconds
from a value that counts, and an instant from a value that shows one.  No value does both, so either
may be tried first.  An instant and a positive whole number are the date that a command for the
header gives. -/
theorem dateOfFile_of_header (x : Exchange) (command : String) :
    let header := x.header? fileLastModifiedKey
    (∀ converter : TypeConverter,
        (∀ t, x.dateOfFile converter command = .ok t ↔ FileDate converter header t) ∧
        ((∀ t, ¬FileDate converter header t) →
          x.dateOfFile converter command = .error (.illegalArgument
            ("Cannot find " ++ fileLastModifiedKey ++ " header at command: " ++ command))) ∧
        ∀ other t, x.dateOfFile converter command = .ok t →
          x.dateOfFile converter other = .ok t) ∧
      (∀ t, x.dateOfFile .standard command = .ok t ↔
        ∃ v, header = some v ∧ ((∃ n, v.Counts n ∧ 0 < n ∧ t.AtMillis n) ∨ v.Shows t)) ∧
      ((∃ t, x.dateOfFile .standard command = .ok t) ↔
        ∃ v, header = some v ∧
          ((∃ n, v.Counts n ∧ 0 < n ∧ n ≤ 8210266876799999) ∨ (∃ t, v = .instant t) ∨
            ∃ (text : String) (s : Stamp), v = .text text ∧ s.Written text ∧ s.InRange)) ∧
      (∀ (v : Value) (n : Int) (t : Instant), v.Counts n → ¬v.Shows t) ∧
      (∀ v : Value,
        let long := (TypeConverter.standard.toLong v).bind Exchange.positiveMillis?
        let instant := TypeConverter.standard.toInstant v
        long.or instant = instant.or long) ∧
      ∀ (other : String) (v : Value), LastPart other fileLastModifiedKey → header = some v →
        ((∃ t, v = .instant t) ∨ ∃ n, v = .int n ∧ 0 < n.toInt) →
        ∀ t, x.dateOfFile .standard command = .ok t ↔
          Id.run (x.dateOfHeader other none) = some t := by
  intro header
  refine ⟨fun converter => ⟨fun t => Exchange.dateOfFile_eq_ok_iff, Exchange.dateOfFile_eq_error,
      fun other t h => ?_⟩, fun t => ?_, ?_, fun v n t => Value.not_shows_of_counts,
    attempts_comm, ?_⟩
  · rw [Exchange.dateOfFile_eq_ok_iff] at h ⊢
    exact h
  · rw [Exchange.dateOfFile_eq_ok_iff, fileDate_standard_iff]
  · simp only [Exchange.dateOfFile_eq_ok_iff, exists_fileDate_standard_iff, header]
  · intro other v hother (hheader : x.header? fileLastModifiedKey = some v) hv t
    have hpresent : present? (some v) = some v := by
      rcases hv with ⟨t, rfl⟩ | ⟨n, rfl, -⟩ <;> rfl
    rw [Exchange.dateOfFile_eq_ok_iff, hheader, fileDate_standard_iff_directDate hv, ← hpresent,
      ← resolveDate_none_eq_some_iff, Exchange.dateOfHeader, commandKey_eq_iff.2 hother,
      hheader]

/-- The first millisecond after the start of 1970 is the date of a file, and it is the date under the
key of a command.  The first millisecond past the range of instants is none. -/
theorem dateOfFile_of_header_at_limits :
    let first := (Exchange.new ⟨0⟩ .epoch).setHeader fileLastModifiedKey (.int 1)
    let past := (Exchange.new ⟨0⟩ .epoch).setHeader fileLastModifiedKey (.int 8210266876800000)
    let t : Instant := ⟨0, 1_000_000, by decide, by decide⟩
    (first.dateOfFile .standard "file:modified" = .ok t ∧
        first.dateOfFile .standard "" = .ok t) ∧
      ((Value.int 1).Counts 1 ∧ ¬(Value.int 1).Shows t) ∧
      (LastPart "header.RelayFileLastModified" fileLastModifiedKey ∧
        first.header? fileLastModifiedKey = some (.int 1) ∧ 0 < (1 : Int64).toInt ∧
        Id.run (first.dateOfHeader "header.RelayFileLastModified" none) = some t) ∧
      (∀ t, ¬FileDate .standard (past.header? fileLastModifiedKey) t) ∧
        past.dateOfFile .standard "file:modified" = .error (.illegalArgument ("Cannot find " ++
          fileLastModifiedKey ++ " header at command: " ++ "file:modified")) := by
  intro first past t
  obtain ⟨hfirst, -, -, hdisjoint, -, hagree⟩ := dateOfFile_of_header first "file:modified"
  obtain ⟨hpast, -⟩ := dateOfFile_of_header past "file:modified"
  have hcounts : (Value.int 1).Counts 1 := .int 1
  have hdate : first.dateOfFile .standard "file:modified" = .ok t := rfl
  have hlast : LastPart "header.RelayFileLastModified" fileLastModifiedKey :=
    @LastPart.dotted "header" fileLastModifiedKey (by decide)
  have hheader : first.header? fileLastModifiedKey = some (.int 1) := rfl
  have hnone (t : Instant) : ¬FileDate .standard (past.header? fileLastModifiedKey) t := by
    intro h
    obtain ⟨v, hv, ⟨n, hcounts, -, hle⟩ | ⟨t, rfl⟩ | ⟨text, s, rfl, -⟩⟩ :=
      exists_fileDate_standard_iff.1 ⟨t, h⟩
    · cases hv
      cases hcounts
      exact absurd hle (by decide)
    · cases hv
    · cases hv
  exact ⟨⟨hdate, (hfirst .standard).2.2 "" t hdate⟩, ⟨hcounts, hdisjoint _ _ t hcounts⟩,
    ⟨hlast, hheader, by decide,
      (hagree _ _ hlast hheader (.inr ⟨1, rfl, by decide⟩) t).1 hdate⟩,
    hnone, (hpast .standard).2.1 hnone⟩

end MessageExchange
