import MessageExchange.Proofs.Exchange.Date

/-!
# Milliseconds and times of creation

A whole number under a key is a date in milliseconds, among the headers and among
the properties alike, and no fallback changes that (`DateSource.date_of_int`).  A
time of creation is cut to the millisecond, so cutting it again changes nothing
(`Exchange.setCreated_setCreated`).

The two fit together (`date_of_milliseconds`).  An exchange that is created at
such a date counts the milliseconds that it was read from.  Its milliseconds
under a key are its time of creation again, unless that is in a leap second.
-/

namespace MessageExchange

open MessageExchange.Time (Chronology Instant)

variable {chronology : Chronology}

/-- Milliseconds are a date or none, whatever the fallback is. -/
theorem DateSource.date_of_int {m : Type → Type} [Monad m] {source : DateSource} {x : Exchange}
    {command : String} {n : Int64} (h : source.value? x command = some (.int n))
    (fallback : Option (DateFallback m)) :
    source.date x command fallback chronology = pure (fromMillis chronology n) := by
  rw [date_eq, h]
  rfl

/-! ## Cutting to the millisecond -/

namespace Exchange

section
variable (htruncates : chronology.Truncates)
include htruncates

theorem created_setCreated_eq (x : Exchange) (t : Instant) :
    (x.setCreated t chronology).created.second = t.second ∧
      (x.setCreated t chronology).created.nanos = t.nanos / 1_000_000 * 1_000_000 :=
  ⟨htruncates.second_truncate 3 t, htruncates.nanos_truncate_three t⟩

theorem isLeap_setCreated (x : Exchange) (t : Instant) :
    (x.setCreated t chronology).created.isLeap = t.isLeap := by
  have hnanos := (created_setCreated_eq htruncates x t).2
  rw [Instant.isLeap, Instant.isLeap, decide_eq_decide]
  omega

theorem setCreated_setCreated (x : Exchange) (t : Instant) :
    (x.setCreated t chronology).setCreated (x.setCreated t chronology).created chronology =
      x.setCreated t chronology := by
  have hnanos := (created_setCreated_eq htruncates x t).2
  have hself := htruncates.truncate_eq_self (t := (x.setCreated t chronology).created) (by omega)
  rw [setCreated, hself]

end

end Exchange

/-! ## Dates and times of creation -/

/-- A whole number of 64 bits under a key is a date exactly within the range of instants, with its
seconds rounded down, and an exchange created at the date counts the same milliseconds.  A time of
creation is an instant cut to the millisecond, in its own second and in its own leap second, and to
cut it again changes nothing.  Its milliseconds are counted exactly, and under a key they are read
as the time of creation, unless it is in a leap second.  No word overflows: each of these words is
the number that it stands for. -/
theorem date_of_milliseconds (hcounts : chronology.CountsMillis)
    (htruncates : chronology.Truncates) :
    (∀ (source : DateSource) (x : Exchange) (command : String) (n : Int64),
      source.value? x command = some (.int n) →
      ∃ date : Option Instant,
        (∀ (m : Type → Type) [Monad m] (fallback : Option (DateFallback m)),
          source.date x command fallback chronology = pure date) ∧
        ((∃ t, date = some t) ↔ -8334601228800000 ≤ n.toInt ∧ n.toInt ≤ 8210266876799999) ∧
        ∀ t, date = some t →
          t.second = n.toInt / 1000 ∧ t.nanos = (n.toInt % 1000).toNat * 1_000_000 ∧
            ∀ y : Exchange, (y.setCreated t chronology).dateOfCreation = t ∧
              (y.setCreated t chronology).createdMillis chronology = n) ∧
      ∀ (y : Exchange) (t : Instant),
        let z := y.setCreated t chronology
        z.created.second = t.second ∧ z.created.nanos = t.nanos / 1_000_000 * 1_000_000 ∧
          z.created.isLeap = t.isLeap ∧ z.setCreated z.created chronology = z ∧
          (z.createdMillis chronology).toInt = t.second * 1000 + (t.nanos / 1_000_000 : Nat) ∧
          (t.isLeap = false → ∀ (source : DateSource) (x : Exchange) (command : String),
            source.value? x command = some (.int (z.createdMillis chronology)) →
            ∀ (m : Type → Type) [Monad m] (fallback : Option (DateFallback m)),
              source.date x command fallback chronology = pure (some z.created)) := by
  refine ⟨fun source x command n h => ?_, fun y t => ?_⟩
  · refine ⟨fromMillis chronology n, fun m _ fallback => DateSource.date_of_int h fallback, ?_,
      fun t ht => ?_⟩
    · simp only [fromMillis_eq_some_iff hcounts, Instant.exists_atMillis_iff]
    · have hat := (fromMillis_eq_some_iff hcounts).1 ht
      have hnanos := hat.nanos_eq
      have hself := htruncates.truncate_eq_self (t := t) (by omega)
      refine ⟨hat.second_eq, hnanos, fun y => ⟨hself, ?_⟩⟩
      rw [Exchange.createdMillis, Exchange.setCreated, hself, hcounts.millis_of_atMillis hat]
  · intro z
    obtain ⟨hsecond, hnanos⟩ := Exchange.created_setCreated_eq htruncates y t
    have hleap := Exchange.isLeap_setCreated htruncates y t
    have hmillis : (z.createdMillis chronology).toInt =
        t.second * 1000 + (t.nanos / 1_000_000 : Nat) := by
      rw [Exchange.createdMillis, hcounts.toInt_millis, hsecond, hnanos,
        Nat.mul_div_cancel _ (by decide)]
    refine ⟨hsecond, hnanos, hleap, Exchange.setCreated_setCreated htruncates y t, hmillis,
      fun hordinary source x command h m _ fallback => ?_⟩
    have hdate : fromMillis chronology (z.createdMillis chronology) = some z.created := by
      rw [Instant.isLeap, decide_eq_false_iff_not] at hordinary
      rw [fromMillis_eq_some_iff hcounts, Instant.atMillis_iff, hmillis, hsecond, hnanos]
      omega
    rw [DateSource.date_of_int h, hdate]

/-- The last nanosecond before 1970 is cut to the millisecond before 1970, which is read back. -/
theorem date_of_milliseconds_before_1970 :
    let t : Instant := ⟨-1, 999_999_999, by decide, by decide⟩
    let x := (Exchange.new ⟨0⟩ t).setHeader "date" (.int (-1))
    t.isLeap = false ∧ DateSource.header.value? x "header.date" = some (.int (-1)) ∧
      (x.setCreated t).createdMillis = -1 ∧
      Id.run (DateSource.header.date x "header.date" none) = some (x.setCreated t).created ∧
      (x.setCreated t).created.nanos = 999_000_000 := by
  intro t x
  have hleap : t.isLeap = false := by decide
  have hvalue : DateSource.header.value? x "header.date" = some (.int (-1)) := rfl
  obtain ⟨-, hnanos, -, -, hmillis, hdate⟩ := (date_of_milliseconds
    Chronology.countsMillis_standard Chronology.truncates_standard).2 x t
  have hminus : (x.setCreated t).createdMillis = -1 := Int64.toInt_inj.1 (hmillis.trans (by decide))
  exact ⟨hleap, hvalue, hminus, hdate hleap _ _ _ (hminus ▸ hvalue) Id none,
    hnanos.trans (by decide)⟩

end MessageExchange
