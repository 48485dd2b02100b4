import MessageExchange.Proofs.Failure.StackTrace

/-!
# Wrapped errors

Every error is a cause wrapped a number of times (`wrap_depth_leaf`), in exactly
one way (`depth_wrap`, `leaf_wrap`).  All that is done with errors follows this
shape.
Wrapping as a runtime error wraps a cause and leaves anything else alone, the text
counts the wrappings, and the errors below an error are the same cause wrapped less
and less often (`unwraps_iff`).  A failure that captures the error shows them one by
one in its stack trace (`traceText_ofError`).
-/

namespace MessageExchange.ExchangeError

/-- An error that wraps no other. -/
def IsCause (error : ExchangeError) : Prop := ∀ inner, error ≠ runtime inner

/-- The errors that come one after the other if the error below is taken as long as there is one. -/
inductive Unwraps : ExchangeError → List ExchangeError → Prop where
  | cause {error : ExchangeError} : error.source? = none → Unwraps error []
  | next {error inner : ExchangeError} {rest : List ExchangeError} :
      error.source? = some inner → Unwraps inner rest → Unwraps error (inner :: rest)

/-! ## The shape of an error -/

theorem isCause_leaf : ∀ error : ExchangeError, error.leaf.IsCause
  | invalidConfiguration _ => nofun
  | illegalArgument _ => nofun
  | noTypeConversion _ _ => nofun
  | runtime inner => isCause_leaf inner

/-- A cause is neither wrapped nor does it wrap. -/
theorem IsCause.plain {error : ExchangeError} (h : error.IsCause) :
    error.depth = 0 ∧ error.leaf = error ∧ error.source? = none ∧ error.sources = [] ∧
      error.intoRuntime = runtime error := by
  cases error with
  | runtime inner => exact absurd rfl (h inner)
  | _ => exact ⟨rfl, rfl, rfl, rfl, rfl⟩

variable {cause : ExchangeError}

theorem depth_wrap (h : cause.IsCause) (n : Nat) : (wrap n cause).depth = n := by
  induction n with
  | zero => exact h.plain.1
  | succ n ih => rw [wrap, depth, ih]

theorem leaf_wrap (h : cause.IsCause) (n : Nat) : (wrap n cause).leaf = cause := by
  induction n with
  | zero => exact h.plain.2.1
  | succ n ih => rw [wrap, leaf, ih]

theorem eq_iff_depth_leaf {error other : ExchangeError} :
    error = other ↔ error.depth = other.depth ∧ error.leaf = other.leaf := by
  constructor
  · rintro rfl
    exact ⟨rfl, rfl⟩
  · rintro ⟨hdepth, hleaf⟩
    rw [← wrap_depth_leaf error, hdepth, hleaf, wrap_depth_leaf other]

/-! ## Wrapping and texts -/

/-- Only a cause is wrapped. -/
theorem intoRuntime_wrap (h : cause.IsCause) (n : Nat) :
    (wrap n cause).intoRuntime = wrap (max n 1) cause := by
  cases n with
  | zero =>
      obtain ⟨-, -, -, -, hinto⟩ := h.plain
      exact hinto
  | succ n => rw [Nat.max_eq_left (Nat.succ_pos n), wrap, intoRuntime]

theorem message_wrap (n : Nat) (error : ExchangeError) :
    (wrap n error).message =
      String.join (List.replicate n "Runtime error: ") ++ error.message := by
  induction n with
  | zero => exact String.empty_append.symm
  | succ n ih =>
      have hnext : (wrap (n + 1) error).message = "Runtime error: " ++ (wrap n error).message := rfl
      rw [hnext, ih, List.replicate_succ, String.join_cons, String.append_assoc]

theorem append_ne_empty {s : String} (h : s ≠ "") (t : String) : s ++ t ≠ "" := fun hempty =>
  h (String.append_eq_empty_iff.1 hempty).1

/-- Every text starts with words of its own. -/
theorem message_ne_empty : ∀ error : ExchangeError, error.message ≠ ""
  | invalidConfiguration text => append_ne_empty (by decide) text
  | illegalArgument text => append_ne_empty (by decide) text
  | noTypeConversion source target =>
      append_ne_empty (append_ne_empty (append_ne_empty (by decide) source) " to ") target
  | runtime inner => append_ne_empty (by decide) inner.message

/-! ## The errors below an error -/

/-- The errors below a cause that is wrapped `n` times. -/
def lessWrapped (n : Nat) (cause : ExchangeError) : List ExchangeError :=
  (List.range n).reverse.map fun k => wrap k cause

theorem lessWrapped_succ (n : Nat) (cause : ExchangeError) :
    lessWrapped (n + 1) cause = wrap n cause :: lessWrapped n cause := by
  rw [lessWrapped, List.range_succ, List.reverse_append]
  rfl

theorem unwraps_iff (h : cause.IsCause) {n : Nat} {errors : List ExchangeError} :
    Unwraps (wrap n cause) errors ↔ errors = lessWrapped n cause := by
  induction n generalizing errors with
  | zero =>
      obtain ⟨-, -, hnone, -⟩ := h.plain
      constructor
      · intro hunwraps
        cases hunwraps with
        | cause _ => rfl
        | next hsource _ => cases hnone.symm.trans hsource
      · rintro rfl
        exact .cause hnone
  | succ n ih =>
      rw [lessWrapped_succ]
      constructor
      · intro hunwraps
        cases hunwraps with
        | cause hsource => cases hsource
        | next hsource hrest =>
            cases hsource
            rw [ih.1 hrest]
      · rintro rfl
        exact .next rfl (ih.2 rfl)

theorem sources_wrap (h : cause.IsCause) (n : Nat) :
    (wrap n cause).sources = lessWrapped n cause := by
  induction n with
  | zero =>
      obtain ⟨-, -, -, hsources, -⟩ := h.plain
      exact hsources
  | succ n ih => rw [lessWrapped_succ, wrap, sources, ih]

/-- The last error below is the cause itself. -/
theorem getLast?_lessWrapped (n : Nat) (cause : ExchangeError) :
    (wrap n cause :: lessWrapped n cause).getLast? = some cause := by
  induction n with
  | zero => rfl
  | succ n ih => rw [lessWrapped_succ, List.getLast?_cons_cons, ih]

/-! ## Stack traces -/

theorem traceText_ofError (identity : Nat) (error : ExchangeError) :
    (Failure.ofError identity error).traceText =
      "internals::errors::RelayError: " ++ error.message ++ "\n" ++
        String.join (error.sources.map fun inner => "Caused by: " ++ inner.message ++ "\n") := by
  have hne : (Failure.ofError identity error).text ≠ "" := error.message_ne_empty
  have htitle : "internals::errors::RelayError" ++ ": " = "internals::errors::RelayError: " := by
    decide
  rw [Failure.traceText, if_neg hne, Failure.framesText_of_none rfl, String.append_empty, ← htitle]
  simp only [Failure.ofError, List.map_map, Function.comp_def, String.append_assoc]

/-! ## Every error -/

/-- Every error is a cause that is wrapped a number of times, and two errors are equal exactly if
the number and the cause are.  Making it a runtime error wraps it once if it is a cause and does
nothing otherwise.  Its text names each wrapping before the text of the cause.  The errors below it
are the cause wrapped less and less often, down to the cause itself, and so are the causes in the
stack trace of a failure that captures it. -/
theorem error_of_wrappings (error : ExchangeError) :
    let n := error.depth
    let cause := error.leaf
    let text (k : Nat) := String.join (List.replicate k "Runtime error: ") ++ cause.message
    (∀ inner, cause ≠ .runtime inner) ∧ error = wrap n cause ∧
      (∀ other : ExchangeError,
        (error == other) = true ↔ n = other.depth ∧ cause = other.leaf) ∧
      error.intoRuntime = wrap (max n 1) cause ∧
      error.intoRuntime.intoRuntime = error.intoRuntime ∧
      (error.intoRuntime = error ↔ 1 ≤ n) ∧
      error.message = text n ∧
      (∀ errors, Unwraps error errors ↔
        errors = (List.range n).reverse.map fun k => wrap k cause) ∧
      (error :: (List.range n).reverse.map fun k => wrap k cause).getLast? = some cause ∧
      ∀ identity, (Failure.ofError identity error).stackTrace =
        "internals::errors::RelayError: " ++ text n ++ "\n" ++
          String.join ((List.range n).reverse.map fun k => "Caused by: " ++ text k ++ "\n") := by
  intro n cause text
  have hcause : cause.IsCause := isCause_leaf error
  have herror : error = wrap n cause := (wrap_depth_leaf error).symm
  have hinto : error.intoRuntime = wrap (max n 1) cause := by
    rw [herror, intoRuntime_wrap hcause]
  have htext (k : Nat) : (wrap k cause).message = text k := message_wrap k cause
  refine ⟨hcause, herror, fun other => ?_, hinto, ?_, ?_, ?_, fun errors => ?_, ?_,
    fun identity => ?_⟩
  · rw [beq_iff_eq]
    exact eq_iff_depth_leaf
  · rw [hinto, intoRuntime_wrap hcause, Nat.max_eq_left (Nat.le_max_right n 1)]
  · rw [hinto, eq_iff_depth_leaf, depth_wrap hcause, leaf_wrap hcause]
    show max n 1 = n ∧ cause = cause ↔ 1 ≤ n
    rw [and_iff_left rfl]
    omega
  · rw [herror, htext]
  · rw [herror]
    exact unwraps_iff hcause
  · rw [herror]
    exact getLast?_lessWrapped n cause
  · rw [Failure.stackTrace_eq, traceText_ofError, herror, sources_wrap hcause, htext,
      lessWrapped, List.map_map]
    simp only [Function.comp_def, htext]

end MessageExchange.ExchangeError
