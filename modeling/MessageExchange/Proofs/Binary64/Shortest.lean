import MessageExchange.Binary64.Text
import MessageExchange.Proofs.Binary64.Denotation
import MessageExchange.Proofs.Decimal.Positional

/-!
# The shortest decimal of a whole number

A number whose last bit counts at most one is `mantissa / 2 ^ places`.  Its interval
ends half a unit of the last bit away, so no whole number is in it but the number
itself (`eq_of_holds`).  The search for the shortest decimal therefore stops on a
grid of whole numbers exactly if the number is whole, and then at the number
(`positional_shortest_of_whole`).  If the number has a fraction, so has the decimal
(`exponent_shortest_neg`).
-/

namespace MessageExchange.Binary64

open MessageExchange.Decimal (Scaled)

/-! ## The search -/

namespace Span

variable {s : Span} {power grid : Int} {steps n : Nat}

/-- The search ends at a hit or on the grid that is taken for exact. -/
theorem pointOn?_firstHit (s : Span) (steps : Nat) (power : Int) :
    s.pointOn? (s.firstHit steps power).exponent = some (s.firstHit steps power).coefficient ∨
      (s.firstHit steps power).exponent = power - steps := by
  induction steps generalizing power with
  | zero => exact .inr (Int.sub_zero power).symm
  | succ steps ih =>
      rw [firstHit]
      cases hpoint : s.pointOn? power with
      | some n => exact .inl hpoint
      | none =>
          refine (ih (power - 1)).imp id fun hlast => hlast.trans ?_
          omega

/-- The search does not pass a grid that has a hit. -/
theorem le_exponent_firstHit (hhit : s.pointOn? grid = some n) (hle : grid ≤ power)
    (hlt : power - steps < grid) : grid ≤ (s.firstHit steps power).exponent := by
  induction steps generalizing power with
  | zero => omega
  | succ steps ih =>
      rw [firstHit]
      cases hpoint : s.pointOn? power with
      | some n => exact hle
      | none =>
          have hne : grid ≠ power := by
            rintro rfl
            rw [hpoint] at hhit
            cases hhit
          exact ih (by omega) (by omega)

/-- The points that are hit read back to the number. -/
theorem holds_of_pointOn? (h : s.pointOn? power = some n) : s.holds power n = true := by
  rw [pointOn?] at h
  split at h
  · next hfloor hnext =>
    rw [Option.some_inj] at h
    split at h
    · exact h ▸ hnext
    · exact h ▸ hfloor
  · next hfloor _ => exact Option.some.inj h ▸ hfloor
  · next _ hnext => exact Option.some.inj h ▸ hnext
  · cases h

theorem exists_pointOn? (h : s.holds power (s.floor power) = true) :
    ∃ n, s.pointOn? power = some n := by
  rw [pointOn?, h]
  cases s.holds power (s.floor power + 1) with
  | true => exact ⟨_, rfl⟩
  | false => exact ⟨_, rfl⟩

theorem floor_eq (s : Span) (power : Int) :
    s.floor power = s.value * (s.scales power).2 / (s.scales power).1 := rfl

/-- Which points read back to the number. -/
theorem holds_iff : s.holds power n = true ↔
    if s.closed then
      s.low * (s.scales power).2 ≤ n * (s.scales power).1 ∧
        n * (s.scales power).1 ≤ s.high * (s.scales power).2
    else
      s.low * (s.scales power).2 < n * (s.scales power).1 ∧
        n * (s.scales power).1 < s.high * (s.scales power).2 := by
  cases hclosed : s.closed <;> simp [holds, hclosed]

end Span

/-! ## Numbers with so many binary places -/

variable {mantissa places : Nat}

theorem denominator_span (mantissa places : Nat) :
    (span mantissa (-places)).denominator = 4 * 2 ^ places := by
  have hplaces : (2 - -(places : Int)).toNat = 2 + places := by omega
  show 1 <<< (2 - -(places : Int)).toNat = 4 * 2 ^ places
  rw [hplaces, Nat.shiftLeft_eq, Nat.one_mul, Nat.pow_add]

theorem scales_span (mantissa places : Nat) {power : Int} (hpower : 0 ≤ power) :
    (span mantissa (-places)).scales power = (4 * 2 ^ places * 10 ^ power.toNat, 1) := by
  have hscale : (-power).toNat = 0 := by omega
  rw [Span.scales, denominator_span, hscale]
  rfl

/-- The ends are half a unit of the last bit away, or a quarter of it below. -/
theorem ends_span (mantissa places : Nat) :
    (span mantissa (-places)).value = 4 * mantissa ∧
      (span mantissa (-places)).high = 4 * mantissa + 2 ∧
      ((span mantissa (-places)).low = 4 * mantissa - 1 ∨
        (span mantissa (-places)).low = 4 * mantissa - 2) := by
  have hscale : (1 : Nat) <<< (-(places : Int) - 2).toNat = 1 := by
    have hzero : (-(places : Int) - 2).toNat = 0 := by omega
    rw [hzero]
    rfl
  simp only [span, hscale, Nat.mul_one]
  refine ⟨trivial, trivial, ?_⟩
  split
  · exact .inl rfl
  · exact .inr rfl

/-- On a grid of whole numbers nothing reads back to a number but the number itself. -/
theorem eq_of_holds {power : Int} (hpower : 0 ≤ power) {n : Nat}
    (h : (span mantissa (-places)).holds power n = true) :
    n * 10 ^ power.toNat * 2 ^ places = mantissa := by
  obtain ⟨-, hhigh, hlow⟩ := ends_span mantissa places
  have hpoint : n * (4 * 2 ^ places * 10 ^ power.toNat) =
      4 * (n * 10 ^ power.toNat * 2 ^ places) := by ring
  -- The point and the number are multiples of four, and the ends are no further than two.
  rw [Span.holds_iff, scales_span mantissa places hpower, hhigh, hpoint] at h
  split at h <;> omega

/-- A whole number is on the grid of the whole numbers. -/
theorem exists_pointOn?_zero (hmod : mantissa % 2 ^ places = 0) (hpos : mantissa ≠ 0) :
    ∃ n, (span mantissa (-places)).pointOn? 0 = some n := by
  obtain ⟨hvalue, hhigh, hlow⟩ := ends_span mantissa places
  have hscales : (span mantissa (-places)).scales 0 = (4 * 2 ^ places, 1) := by
    rw [scales_span mantissa places (Int.le_refl 0), Int.toNat_zero, Nat.pow_zero, Nat.mul_one]
  have hfloor : (span mantissa (-places)).floor 0 = mantissa / 2 ^ places := by
    rw [Span.floor_eq, hscales, hvalue, Nat.mul_one, Nat.mul_div_mul_left _ _ (by decide)]
  have hpoint : mantissa / 2 ^ places * (4 * 2 ^ places) = 4 * mantissa := by
    rw [Nat.mul_left_comm, Nat.div_mul_cancel (Nat.dvd_of_mod_eq_zero hmod)]
  apply Span.exists_pointOn?
  rw [hfloor, Span.holds_iff, hscales, hpoint, hhigh]
  split <;> omega

/-! ## The decimal that is found -/

/-- The search starts on a grid of whole numbers and ends on one of fractions. -/
theorem exists_firstHit (hpos : mantissa ≠ 0) (places : Nat) :
    ∃ start steps : Nat, start < steps ∧
      shortest mantissa (-places) = (span mantissa (-places)).firstHit steps start := by
  have hlog : 0 < (span mantissa (-places)).denominator.log2 := by
    have hpow := Nat.two_pow_pos places
    rw [denominator_span]
    exact (Nat.le_log2 (by omega)).2 (by omega)
  exact ⟨_, _, Nat.lt_add_of_pos_right hlog, if_neg hpos⟩

/-- The shortest decimal of a whole number is the number, and has no fraction. -/
theorem shortest_of_whole (hpos : mantissa ≠ 0) (hmod : mantissa % 2 ^ places = 0) :
    let decimal := shortest mantissa (-places)
    0 ≤ decimal.exponent ∧
      decimal.coefficient * 10 ^ decimal.exponent.toNat * 2 ^ places = mantissa := by
  obtain ⟨start, steps, hlt, hshortest⟩ := exists_firstHit hpos places
  obtain ⟨n, hn⟩ := exists_pointOn?_zero hmod hpos
  rw [hshortest]
  have hexponent : 0 ≤ ((span mantissa (-places)).firstHit steps start).exponent :=
    Span.le_exponent_firstHit hn (by omega) (by omega)
  refine ⟨hexponent, eq_of_holds hexponent (Span.holds_of_pointOn? ?_)⟩
  rcases Span.pointOn?_firstHit (span mantissa (-places)) steps start with hhit | hlast
  · exact hhit
  · omega

/-- A whole number is written with its digits. -/
theorem positional_shortest_of_whole (hmod : mantissa % 2 ^ places = 0) :
    (shortest mantissa (-places)).positional = Decimal.ofNat (mantissa / 2 ^ places) := by
  by_cases hpos : mantissa = 0
  · have hzero : shortest 0 (-places) = ⟨0, 0⟩ := if_pos rfl
    rw [hpos, Nat.zero_div, hzero]
    rfl
  · obtain ⟨hexponent, hmul⟩ := shortest_of_whole hpos hmod
    have hcoefficient : (shortest mantissa (-places)).coefficient ≠ 0 := by
      intro hzero
      rw [hzero, Nat.zero_mul, Nat.zero_mul] at hmul
      exact hpos hmul.symm
    rw [Scaled.positional_of_nonneg hexponent (.inl hcoefficient),
      ← Nat.mul_div_cancel (_ * _) (Nat.two_pow_pos places), hmul]

/-- The shortest decimal of a number with a fraction has a fraction. -/
theorem exponent_shortest_neg (hmod : mantissa % 2 ^ places ≠ 0) :
    (shortest mantissa (-places)).exponent < 0 := by
  have hpos : mantissa ≠ 0 := by
    rintro rfl
    exact hmod (Nat.zero_mod _)
  obtain ⟨start, steps, hlt, hshortest⟩ := exists_firstHit hpos places
  rw [hshortest]
  rcases Span.pointOn?_firstHit (span mantissa (-places)) steps start with hhit | hlast
  · by_contra hexponent
    have heq := eq_of_holds (Int.not_lt.1 hexponent) (Span.holds_of_pointOn? hhit)
    exact hmod (heq ▸ Nat.mul_mod_left _ _)
  · omega

end MessageExchange.Binary64
