import MessageExchange.Exchange.Date
import MessageExchange.Proofs.Text.AfterLast
import MessageExchange.Proofs.Time.Chronology

/-!
# Dates and their fallbacks

A date is looked up under the key of a command, which is its last part
(`commandKey_eq_iff`), among the headers or among the properties (`DateSource`).
`DirectDate` says which values are dates themselves: an instant, and a whole number
of milliseconds whose instant exists.

With a fallback a value that is a date is the date, and the fallback is not
called.  Any other value but a whole number goes to the fallback, once, and the
answer of the call is the answer (`date_with_fallback`).  A whole number beyond
the range of instants is no date, and it does not go to the fallback either
(`not_fallback_of_absence`).

The fallback runs in any monad.  So an equation with the fallback's own run says
that it is called once, with what and to what effect.
-/

namespace MessageExchange

open MessageExchange.Time (Chronology Instant)

/-! ## Commands and their keys -/

/-- The key is the part of the command after its last dot, or the whole command if it has no dot. -/
inductive LastPart : String → String → Prop where
  | whole {key : String} : '.' ∉ key.toList → LastPart key key
  | dotted {before key : String} : '.' ∉ key.toList → LastPart (before ++ "." ++ key) key

theorem toList_commandKey (command : String) :
    (commandKey command).toList = Text.afterLast '.' command.toList :=
  String.toList_ofList

theorem commandKey_of_lastPart {command key : String} (h : LastPart command key) :
    commandKey command = key := by
  rw [← String.toList_inj, toList_commandKey]
  cases h with
  | whole hkey => exact Text.afterLast_of_notMem hkey
  | @dotted before _ hkey =>
      rw [String.toList_append, String.toList_append, List.append_assoc]
      exact Text.afterLast_append_cons before.toList hkey

theorem exists_lastPart (command : String) : ∃ key, LastPart command key := by
  obtain ⟨hkey, hcommand⟩ := Text.eq_afterLast_or '.' command.toList
  rw [← toList_commandKey] at hkey hcommand
  rcases hcommand with hwhole | ⟨before, hlast⟩
  · rw [← String.toList_inj.1 hwhole] at hkey
    exact ⟨command, .whole hkey⟩
  · have hdotted : command = String.ofList before ++ "." ++ commandKey command := by
      rw [← String.toList_inj, hlast]
      simp
    rw [hdotted]
    exact ⟨_, .dotted hkey⟩

/-- Every command has one key. -/
theorem commandKey_eq_iff {command key : String} :
    commandKey command = key ↔ LastPart command key := by
  constructor
  · rintro rfl
    obtain ⟨key, h⟩ := exists_lastPart command
    rwa [commandKey_of_lastPart h]
  · exact commandKey_of_lastPart

/-! ## Where dates are looked up -/

/-- Where a date is looked up. -/
inductive DateSource where
  | header
  | property

namespace DateSource

/-- The value under the key of a command. -/
def value? : DateSource → Exchange → String → Option Value
  | header, x, command => x.header? (commandKey command)
  | property, x, command => x.property? (commandKey command)

/-- The value under the key of a command, with null as nothing. -/
def raw? (source : DateSource) (x : Exchange) (command : String) : Option Value :=
  match source.value? x command with
  | some .null => none
  | value => value

/-- The date under the key of a command. -/
def date {m : Type → Type} [Monad m] (source : DateSource) (x : Exchange) (command : String)
    (fallback : Option (DateFallback m)) (chronology : Chronology := .standard) :
    m (Option Instant) :=
  match source with
  | header => x.dateOfHeader command fallback chronology
  | property => x.dateOfProperty command fallback chronology

theorem present?_value? (source : DateSource) (x : Exchange) (command : String) :
    present? (source.value? x command) = source.raw? x command := by
  rw [raw?]
  cases source.value? x command with
  | none => rfl
  | some value => cases value <;> rfl

theorem date_eq {m : Type → Type} [Monad m] (source : DateSource) (x : Exchange) (command : String)
    (fallback : Option (DateFallback m)) {chronology : Chronology} :
    source.date x command fallback chronology =
      resolveDate x (source.value? x command) fallback chronology := by
  cases source <;> rfl

end DateSource

/-! ## Values that are dates -/

theorem fromMillis_eq_some_iff {chronology : Chronology} (h : chronology.CountsMillis) {n : Int64}
    {t : Instant} : fromMillis chronology n = some t ↔ t.AtMillis n.toInt := by
  rw [fromMillis, ← h.ofMillis_eq_single]
  cases chronology.ofMillis n with
  | none => simp [Time.LocalResult.single?]
  | single t' => simp [Time.LocalResult.single?]
  | ambiguous earliest latest => simp [Time.LocalResult.single?]

/-- A value that is a date. -/
inductive DirectDate : Option Value → Instant → Prop where
  | instant (t : Instant) : DirectDate (some (.instant t)) t
  /-- A number of milliseconds since the start of 1970. -/
  | millis {n : Int64} {t : Instant} :
      t.second = n.toInt / 1000 → t.nanos = (n.toInt % 1000).toNat * 1_000_000 →
      DirectDate (some (.int n)) t

variable {m : Type → Type} [Monad m]

theorem resolveDate_of_directDate {x : Exchange} {value : Option Value} {t : Instant}
    (h : DirectDate (present? value) t) (fallback : Option (DateFallback m)) :
    resolveDate x value fallback = pure (some t) := by
  rw [resolveDate]
  generalize present? value = raw at h
  cases h with
  | instant t => rfl
  | millis hsecond hnanos =>
      have hread := (fromMillis_eq_some_iff Chronology.countsMillis_standard).2 ⟨hsecond, hnanos⟩
      exact congrArg pure hread

/-- A whole number that is no date gives none, with a fallback and without. -/
theorem resolveDate_of_int {x : Exchange} {value : Option Value} {n : Int64}
    (hint : present? value = some (.int n)) (h : ∀ t, ¬DirectDate (present? value) t)
    (fallback : Option (DateFallback m)) : resolveDate x value fallback = pure none := by
  have hnone : fromMillis .standard n = none := by
    rw [Option.eq_none_iff_forall_ne_some]
    intro t ht
    obtain ⟨hsecond, hnanos⟩ := (fromMillis_eq_some_iff Chronology.countsMillis_standard).1 ht
    exact h t (hint ▸ .millis hsecond hnanos)
  rw [resolveDate, hint]
  exact congrArg pure hnone

/-- Any other value is for the fallback. -/
theorem resolveDate_of_other {x : Exchange} {value : Option Value}
    (hint : ∀ n, present? value ≠ some (.int n)) (h : ∀ t, ¬DirectDate (present? value) t)
    (fallback : Option (DateFallback m)) :
    resolveDate x value fallback =
      match fallback with
      | some f => f x (present? value)
      | none => pure none := by
  rw [resolveDate]
  split
  · next t heq => exact absurd (heq ▸ DirectDate.instant t) (h t)
  · next n heq => exact absurd heq (hint n)
  · rfl

/-- Without a fallback a date is given for the values that are dates. -/
theorem resolveDate_none_eq_some_iff {x : Exchange} {value : Option Value} {t : Instant} :
    Id.run (resolveDate x value none) = some t ↔ DirectDate (present? value) t := by
  constructor
  · intro h
    by_cases hdate : ∃ t, DirectDate (present? value) t
    · obtain ⟨t', ht'⟩ := hdate
      have hsome : Id.run (resolveDate x value none) = some t' := resolveDate_of_directDate ht' none
      rw [hsome] at h
      exact Option.some.inj h ▸ ht'
    · have hnone : Id.run (resolveDate x value none) = none := by
        have hno : ∀ t, ¬DirectDate (present? value) t := fun t ht => hdate ⟨t, ht⟩
        by_cases hint : ∃ n, present? value = some (.int n)
        · obtain ⟨n, hn⟩ := hint
          exact resolveDate_of_int hn hno none
        · exact resolveDate_of_other (fun n hn => hint ⟨n, hn⟩) hno none
      rw [hnone] at h
      cases h
  · intro h
    exact resolveDate_of_directDate h none

/-! ## Every look-up -/

/-- Without a fallback a command gives the date that the value under its key is.  With a fallback it
gives the same date and calls nobody.  If the value is no date it calls the fallback, once, with the
exchange and the value, and gives its answer.  A whole number that is no date is the exception: it
gives no date, and the fallback is not called. -/
theorem date_with_fallback (source : DateSource) (x : Exchange) (command : String)
    (f : DateFallback m) :
    let raw := source.raw? x command
    let direct := Id.run (source.date x command none)
    (∀ t, direct = some t ↔ DirectDate raw t) ∧
      (∀ t, direct = some t → source.date x command (some f) = pure (some t)) ∧
      (direct = none → (∀ n, raw ≠ some (.int n)) → source.date x command (some f) = f x raw) ∧
      (direct = none → (∃ n, raw = some (.int n)) →
        source.date x command (some f) = pure none) := by
  intro raw direct
  have hraw : present? (source.value? x command) = raw := source.present?_value? x command
  have hdirect (t : Instant) : direct = some t ↔ DirectDate raw t := by
    rw [← hraw, ← resolveDate_none_eq_some_iff, ← source.date_eq]
  have hno (h : direct = none) (t : Instant) : ¬DirectDate raw t := by
    intro ht
    rw [(hdirect t).2 ht] at h
    cases h
  rw [source.date_eq x command (some f)]
  refine ⟨hdirect, ?_, ?_, ?_⟩
  · intro t h
    exact resolveDate_of_directDate (hraw ▸ (hdirect t).1 h) (some f)
  · intro h hint
    rw [resolveDate_of_other (hraw ▸ hint) (hraw ▸ hno h) (some f), hraw]
  · rintro h ⟨n, hn⟩
    exact resolveDate_of_int (hraw.trans hn) (hraw ▸ hno h) (some f)

/-- A text is no date, so the time of creation is the answer.  The start of 1970 is one. -/
theorem date_with_fallback_of_created :
    let x :=
      ((Exchange.new ⟨0⟩ .epoch).setProperty "date" (.text "today")).setHeader "date" (.int 0)
    let f : DateFallback Id := fun x _ => some x.created
    (Id.run (DateSource.property.date x "exchangeProperty.date" none) = none ∧
        (∀ n, DateSource.property.raw? x "exchangeProperty.date" ≠ some (.int n)) ∧
        DateSource.property.date x "exchangeProperty.date" (some f) =
          f x (DateSource.property.raw? x "exchangeProperty.date")) ∧
      Id.run (DateSource.header.date x "header.date" none) = some .epoch ∧
        DateSource.header.date x "header.date" (some f) = pure (some .epoch) := by
  intro x f
  have hraw : DateSource.property.raw? x "exchangeProperty.date" = some (.text "today") := rfl
  have hnone : Id.run (DateSource.property.date x "exchangeProperty.date" none) = none := rfl
  have hint (n : Int64) : DateSource.property.raw? x "exchangeProperty.date" ≠ some (.int n) := by
    rw [hraw]
    simp
  have hsome : Id.run (DateSource.header.date x "header.date" none) = some .epoch := rfl
  obtain ⟨-, -, hcalled, -⟩ := date_with_fallback .property x "exchangeProperty.date" f
  obtain ⟨-, hdate, -, -⟩ := date_with_fallback .header x "header.date" f
  exact ⟨⟨hnone, hint, hcalled hnone hint⟩, hsome, hdate .epoch hsome⟩

/-- The first millisecond past the range of instants is no date, and a fallback that would give the
time of creation is not called. -/
theorem not_fallback_of_absence :
    ¬∀ (source : DateSource) (x : Exchange) (command : String) (f : DateFallback Id),
      Id.run (source.date x command none) = none →
        source.date x command (some f) = f x (source.raw? x command) := by
  intro h
  let x := (Exchange.new ⟨0⟩ .epoch).setProperty "date" (.int 8210266876800000)
  let f : DateFallback Id := fun x _ => some x.created
  have hcalled := congrArg Id.run (h .property x "exchangeProperty.date" f (by decide))
  exact absurd hcalled (by decide)

end MessageExchange
