import MessageExchange.Proofs.Time.Calendar
import MessageExchange.Time.Instant

/-!
# Milliseconds of instants

`AtMillis` says that an instant is a number of milliseconds after the start of 1970.
The seconds of the number are rounded down, before 1970 as after it.  A number has
such an instant exactly within the range of instants (`exists_atMillis_iff`), which
is that of whole years (`minSecond_eq`, `maxSecond_eq`).

The other way round `millis` leaves out what is below the millisecond.  The
milliseconds of a leap second go on into the next second, so they are the instant
again only outside a leap second (`atMillis_iff`).
-/

namespace MessageExchange.Time

/-- The first second is that of the year -262143. -/
theorem minSecond_eq : minSecond = daysBeforeYear (-262143) * 86400 := by decide

/-- The last second is the one before the year 262143. -/
theorem maxSecond_eq : maxSecond + 1 = daysBeforeYear 262143 * 86400 := by decide

namespace Instant

/-- The instant is a number of milliseconds after the start of 1970. -/
structure AtMillis (t : Instant) (n : Int) : Prop where
  second_eq : t.second = n / 1000
  nanos_eq : t.nanos = (n % 1000).toNat * 1_000_000

/-- An instant that counts whole milliseconds is outside a leap second. -/
theorem atMillis_iff {t : Instant} {n : Int} :
    t.AtMillis n ↔
      t.nanos < 1_000_000_000 ∧ t.second * 1_000_000_000 + t.nanos = n * 1_000_000 := by
  constructor
  · rintro ⟨hsecond, hnanos⟩
    omega
  · rintro ⟨hlt, hcount⟩
    refine ⟨?_, ?_⟩ <;> omega

theorem ofMillis?_eq_some_iff {n : Int} {t : Instant} :
    ofMillis? n = some t ↔ t.AtMillis n := by
  rw [ofMillis?, ofParts?]
  constructor
  · intro h
    split at h
    · cases h
      exact ⟨rfl, rfl⟩
    · cases h
  · rintro ⟨hsecond, hnanos⟩
    have hmem := t.second_mem
    have hlt := t.nanos_lt
    rw [hsecond] at hmem
    rw [hnanos] at hlt
    exact (dif_pos ⟨hmem, hlt⟩).trans (congrArg some (Instant.ext hsecond.symm hnanos.symm))

/-- Milliseconds are an instant within the range of instants. -/
theorem exists_atMillis_iff {n : Int} :
    (∃ t : Instant, t.AtMillis n) ↔ -8334601228800000 ≤ n ∧ n ≤ 8210266876799999 := by
  constructor
  · rintro ⟨t, ht⟩
    have hsecond := ht.second_eq
    have hmem := t.second_mem
    simp only [minSecond, maxSecond] at hmem
    omega
  · rintro ⟨hlow, hhigh⟩
    have hmem : minSecond ≤ n / 1000 ∧ n / 1000 ≤ maxSecond := by
      simp only [minSecond, maxSecond]
      omega
    exact ⟨⟨_, _, hmem, by omega⟩, rfl, rfl⟩

end Instant

end MessageExchange.Time
