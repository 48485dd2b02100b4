import MessageExchange.Exchange.Caught
import MessageExchange.Proofs.Text.Lines

/-!
# Stack traces and what they are written to

A stack trace is written in pieces (`tracePieces`).  A cause cuts its own text into
pieces as it likes, and joined they are the same text in any case
(`join_tracePieces`).  Between the failure's own line and its causes stand the lines of
the backtrace (`frames_of_backtrace`), if one was captured.

`Delivers` says what comes of writing pieces to a sink one after the other.  A piece
is written to what the pieces before it have left.  The first one that is refused is
the last one that is tried, and its error is the outcome.  This is how every sink is
written to (`writeTrace_iff_delivers`).

So a sink with a limit takes the whole trace exactly if the trace fits.  Otherwise it
holds the pieces before the first one that does not fit (`Delivers.bounded`).
-/

namespace MessageExchange

/-! ## Pieces -/

namespace Failure

/-- The pieces of a stack trace, where `causes` are those of the causes. -/
def tracePieces (f : Failure) (causes : List (List String)) : List String :=
  f.typeName :: (if f.text = "" then [] else [": ", f.text]) ++ "\n" ::
    ((f.frames.flatMap fun line => ["    ", line, "\n"]) ++
      causes.flatMap fun pieces => "Caused by: " :: pieces ++ ["\n"])

/-- The lines of the backtrace as a stack trace shows them. -/
def framesText (f : Failure) : String :=
  String.join (f.frames.map fun line => "    " ++ line ++ "\n")

/-- The text of a stack trace. -/
def traceText (f : Failure) : String :=
  f.typeName ++ (if f.text = "" then "" else ": " ++ f.text) ++ "\n" ++ f.framesText ++
    String.join (f.causes.map fun cause => "Caused by: " ++ cause ++ "\n")

/-- Without a backtrace there are no lines between the failure's own and its causes. -/
theorem framesText_of_none {f : Failure} (h : f.backtrace = none) : f.framesText = "" := by
  rw [framesText, frames, h]
  rfl

/-- The lines of a captured backtrace are the lines of its text. -/
theorem frames_of_backtrace {f : Failure} {backtrace : String} {lines : List String}
    (h : f.backtrace = some backtrace) :
    Text.Lines backtrace.toList (lines.map String.toList) ↔ f.frames = lines := by
  have hframes : f.frames = (Text.lines backtrace.toList).map String.ofList := by
    rw [frames, h]
  rw [Text.lines_iff, hframes]
  constructor
  · intro hlines
    simp [hlines, Function.comp_def]
  · rintro rfl
    simp [Function.comp_def]

theorem join_framePieces (f : Failure) :
    String.join (f.frames.flatMap fun line => ["    ", line, "\n"]) = f.framesText := by
  rw [framesText]
  induction f.frames with
  | nil => rfl
  | cons line rest ih =>
      simp only [List.flatMap_cons, List.map_cons, List.cons_append, List.nil_append,
        String.join_cons, String.append_assoc, ih]

theorem join_causePieces (causes : List (List String)) :
    String.join (causes.flatMap fun pieces => "Caused by: " :: pieces ++ ["\n"]) =
      String.join ((causes.map String.join).map fun cause => "Caused by: " ++ cause ++ "\n") := by
  induction causes with
  | nil => rfl
  | cons pieces rest ih =>
      simp only [List.flatMap_cons, List.map_cons, List.cons_append, String.join_append,
        String.join_cons, String.join_nil, String.append_empty, String.append_assoc] at ih ⊢
      rw [ih]

/-- However the causes cut their texts, the pieces are those of one text. -/
theorem join_tracePieces {f : Failure} {causes : List (List String)}
    (h : causes.map String.join = f.causes) : String.join (f.tracePieces causes) = f.traceText := by
  rw [tracePieces, traceText, String.join_append, String.join_cons, String.join_cons,
    String.join_append, join_framePieces, join_causePieces, h]
  split <;> simp [String.append_assoc]

section

variable {m : Type → Type} [Monad m] [LawfulMonad m] (write : String → m Unit) (f : Failure)

theorem writeDisplay_eq_forM :
    f.writeDisplay write =
      (f.typeName :: if f.text = "" then [] else [": ", f.text]).forM write := by
  rw [writeDisplay, message?]
  split
  · next message hmessage =>
    split at hmessage
    · cases hmessage
    · next hne =>
      cases hmessage
      simp [hne]
  · next hmessage =>
    split at hmessage
    · next hempty => simp [hempty]
    · cases hmessage

/-- The lines of a stack trace are its pieces, one after the other. -/
theorem writeTrace_eq_forM (causes : List (List String)) :
    f.writeTrace write causes = (f.tracePieces causes).forM write := by
  have hframes : (f.frames.forM fun line => do
        write "    "
        write line
        write "\n") =
      (f.frames.flatMap fun line => ["    ", line, "\n"]).forM write := by
    induction f.frames with
    | nil => rfl
    | cons line rest ih =>
        simp only [List.forM_eq_forM, List.forM_cons, List.flatMap_cons, List.cons_append,
          List.nil_append, bind_assoc] at ih ⊢
        rw [ih]
  have hcauses : (causes.forM fun pieces => do
        write "Caused by: "
        pieces.forM write
        write "\n") =
      (causes.flatMap fun pieces => "Caused by: " :: pieces ++ ["\n"]).forM write := by
    induction causes with
    | nil => rfl
    | cons pieces rest ih =>
        simp only [List.forM_eq_forM, List.forM_cons, List.flatMap_cons, List.forM_append,
          List.forM_nil, List.cons_append, bind_assoc, pure_bind] at ih ⊢
        rw [ih]
  rw [writeTrace, writeDisplay_eq_forM, hframes, hcauses, tracePieces]
  simp only [List.forM_eq_forM, List.forM_cons, List.forM_append, List.cons_append, bind_assoc]

end

end Failure

/-! ## Sinks -/

/-- What comes of writing pieces to a sink in a state: the outcome, and the state after it. -/
inductive Delivers {ε σ : Type} (write : String → ExceptT ε (StateM σ) Unit) :
    List String → σ → Except ε Unit → σ → Prop where
  | done (s : σ) : Delivers write [] s (.ok ()) s
  | next {piece : String} {rest : List String} {s s' s'' : σ} {outcome : Except ε Unit} :
      (write piece).run.run s = (.ok (), s') → Delivers write rest s' outcome s'' →
      Delivers write (piece :: rest) s outcome s''
  /-- The sink refuses a piece, and nothing is written after it. -/
  | stop {piece : String} {rest : List String} {s s' : σ} {error : ε} :
      (write piece).run.run s = (.error error, s') →
      Delivers write (piece :: rest) s (.error error) s'

section

variable {ε σ : Type} {write : String → ExceptT ε (StateM σ) Unit}

theorem run_forM_cons_of_ok {piece : String} {s s' : σ}
    (h : (write piece).run.run s = (.ok (), s')) (rest : List String) :
    ((piece :: rest).forM write).run.run s = (rest.forM write).run.run s' := by
  rw [List.forM_eq_forM, List.forM_cons, ExceptT.run_bind, StateT.run_bind, h]
  rfl

theorem run_forM_cons_of_error {piece : String} {s s' : σ} {error : ε}
    (h : (write piece).run.run s = (.error error, s')) (rest : List String) :
    ((piece :: rest).forM write).run.run s = (.error error, s') := by
  rw [List.forM_eq_forM, List.forM_cons, ExceptT.run_bind, StateT.run_bind, h]
  rfl

theorem run_forM_iff_delivers {pieces : List String} {s s' : σ} {outcome : Except ε Unit} :
    (pieces.forM write).run.run s = (outcome, s') ↔ Delivers write pieces s outcome s' := by
  constructor
  · induction pieces generalizing s with
    | nil =>
        intro h
        cases h
        exact .done _
    | cons piece rest ih =>
        intro h
        cases hpiece : (write piece).run.run s with
        | mk result next =>
            cases result with
            | ok _ =>
                rw [run_forM_cons_of_ok hpiece] at h
                exact .next hpiece (ih h)
            | error error =>
                rw [run_forM_cons_of_error hpiece] at h
                cases h
                exact .stop hpiece
  · intro h
    induction h with
    | done s => rfl
    | next hpiece _ ih => rw [run_forM_cons_of_ok hpiece, ih]
    | stop hpiece => exact run_forM_cons_of_error hpiece _

/-- Writing a stack trace to any sink writes its pieces up to the first one that is refused. -/
theorem Failure.writeTrace_iff_delivers (f : Failure) (causes : List (List String)) {s s' : σ}
    {outcome : Except ε Unit} :
    (f.writeTrace write causes).run.run s = (outcome, s') ↔
      Delivers write (f.tracePieces causes) s outcome s' := by
  rw [writeTrace_eq_forM]
  exact run_forM_iff_delivers

end

/-! ## A sink that takes everything -/

theorem run_modify_append (pieces : List String) (written : String) :
    (pieces.forM fun piece => (modify (· ++ piece) : StateM String Unit)).run written =
      ((), written ++ String.join pieces) := by
  induction pieces generalizing written with
  | nil => simp; rfl
  | cons piece rest ih =>
      rw [String.join_cons, ← String.append_assoc, ← ih]
      rfl

namespace Failure

theorem run_writeTrace_append {f : Failure} {causes : List (List String)}
    (h : causes.map String.join = f.causes) (written : String) :
    (f.writeTrace (fun piece => (modify (· ++ piece) : StateM String Unit)) causes).run written =
      ((), written ++ f.traceText) := by
  rw [writeTrace_eq_forM, run_modify_append, join_tracePieces h]

theorem join_causes_singleton (f : Failure) :
    (f.causes.map fun cause => [cause]).map String.join = f.causes := by
  simp [Function.comp_def]

theorem stackTrace_eq (f : Failure) : f.stackTrace = f.traceText := by
  rw [stackTrace, writeStackTrace, run_writeTrace_append f.join_causes_singleton,
    String.empty_append]

/-- The lines of the backtrace, if one was captured. -/
inductive Frames (f : Failure) : List String → Prop where
  | none : f.backtrace = none → Frames f []
  | captured {backtrace : String} {lines : List String} :
      f.backtrace = some backtrace → Text.Lines backtrace.toList (lines.map String.toList) →
      Frames f lines

/-- What the stack trace of a failure says. -/
inductive Trace (f : Failure) : String → Prop where
  | of {lines : List String} :
      f.Frames lines →
      Trace f (f.typeName ++ (if f.text = "" then "" else ": " ++ f.text) ++ "\n" ++
        String.join (lines.map fun line => "    " ++ line ++ "\n") ++
        String.join (f.causes.map fun cause => "Caused by: " ++ cause ++ "\n"))

theorem frames_iff {f : Failure} {lines : List String} : f.Frames lines ↔ f.frames = lines := by
  constructor
  · intro h
    cases h with
    | none hnone => rw [frames, hnone]
    | captured hsome hlines => exact (frames_of_backtrace hsome).1 hlines
  · rintro rfl
    cases hbacktrace : f.backtrace with
    | none =>
        rw [frames, hbacktrace]
        exact .none hbacktrace
    | some backtrace =>
        exact .captured hbacktrace ((frames_of_backtrace hbacktrace).2 rfl)

/-- A failure has one stack trace. -/
theorem trace_iff {f : Failure} {trace : String} : f.Trace trace ↔ f.stackTrace = trace := by
  rw [stackTrace_eq]
  constructor
  · rintro ⟨h⟩
    rw [traceText, framesText, frames_iff.1 h]
  · rintro rfl
    exact .of (frames_iff.2 rfl)

end Failure

/-- A sink that may refuse, but refuses nothing, gets every piece. -/
theorem Delivers.append {pieces : List String} {written held : String}
    {outcome : Except WriteError Unit} (h : Delivers Bounded.append pieces written outcome held) :
    outcome = .ok () ∧ held = written ++ String.join pieces := by
  induction h with
  | done s => exact ⟨rfl, by simp⟩
  | next hpiece _ ih =>
      cases hpiece
      obtain ⟨hok, hheld⟩ := ih
      exact ⟨hok, by rw [hheld, String.join_cons, String.append_assoc]⟩
  | stop hpiece => cases hpiece

namespace Failure

theorem run_writeTrace_bounded_append {f : Failure} {causes : List (List String)}
    (h : causes.map String.join = f.causes) (written : String) :
    (f.writeTrace Bounded.append causes).run.run written = (.ok (), written ++ f.traceText) := by
  have hdelivers : Delivers Bounded.append (f.tracePieces causes) written
      ((f.writeTrace Bounded.append causes).run.run written).1
      ((f.writeTrace Bounded.append causes).run.run written).2 :=
    (f.writeTrace_iff_delivers causes).1 rfl
  obtain ⟨hok, hheld⟩ := hdelivers.append
  rw [← join_tracePieces h]
  exact Prod.ext hok hheld

end Failure

/-- Writing a stack trace into a text never fails. -/
theorem Exchange.failureStackTrace?_eq (converter : TypeConverter) (x : Exchange) :
    x.failureStackTrace? converter = (x.failure? converter).map Failure.stackTrace := by
  rw [failureStackTrace?]
  cases x.failure? converter with
  | none => rfl
  | some f =>
      have hrun : (f.writeStackTrace Bounded.append).run.run "" = (.ok (), f.stackTrace) := by
        rw [Failure.writeStackTrace, Failure.run_writeTrace_bounded_append f.join_causes_singleton,
          String.empty_append, f.stackTrace_eq]
      simp only [Option.bind_eq_bind, Option.bind_some, hrun, Option.map_some]

/-! ## A sink with a limit -/

theorem Bounded.run_write (limit : Nat) (piece written : String) :
    (Bounded.write limit piece).run.run written =
      if (written ++ piece).utf8ByteSize ≤ limit then (.ok (), written ++ piece)
      else (.error .full, written) := by
  rw [String.utf8ByteSize_append]
  show (StateT.run (ExceptT.run (if written.utf8ByteSize + piece.utf8ByteSize ≤ limit then
    set (written ++ piece) else throw WriteError.full : Bounded Unit)) written) = _
  split <;> rfl

/-- Either all pieces fit and are written, or they are written up to the first one that does not
fit. -/
theorem Delivers.bounded {limit : Nat} {pieces : List String} {written held : String}
    {outcome : Except WriteError Unit}
    (h : Delivers (Bounded.write limit) pieces written outcome held)
    (hwritten : written.utf8ByteSize ≤ limit) :
    (outcome = .ok () ∧ held = written ++ String.join pieces ∧ held.utf8ByteSize ≤ limit) ∨
      (outcome = .error .full ∧ ∃ before piece after, pieces = before ++ piece :: after ∧
        held = written ++ String.join before ∧ limit < (held ++ piece).utf8ByteSize) := by
  induction h with
  | done s => exact .inl ⟨rfl, by simp, hwritten⟩
  | @next piece rest s s' s'' outcome hpiece _ ih =>
      rw [Bounded.run_write] at hpiece
      split at hpiece
      · next hfits =>
        cases hpiece
        rcases ih hfits with ⟨hok, hheld, hle⟩ | ⟨herror, before, last, after, hrest, hheld, hlt⟩
        · exact .inl ⟨hok, by rw [hheld, String.join_cons, String.append_assoc], hle⟩
        · refine .inr ⟨herror, piece :: before, last, after, by rw [hrest]; rfl, ?_, hlt⟩
          rw [hheld, String.join_cons, String.append_assoc]
      · cases hpiece
  | @stop piece rest s s' error hpiece =>
      rw [Bounded.run_write] at hpiece
      split at hpiece
      · cases hpiece
      · next hfull =>
        cases hpiece
        exact .inr ⟨rfl, [], piece, rest, rfl, by simp, Nat.lt_of_not_le hfull⟩

namespace Failure

variable {f : Failure} {causes : List (List String)} {limit : Nat}

theorem writeTrace_bounded (h : causes.map String.join = f.causes) (limit : Nat) :
    let run := (f.writeTrace (Bounded.write limit) causes).run.run ""
    (run = (.ok (), f.traceText) ∧ f.traceText.utf8ByteSize ≤ limit) ∨
      (run.1 = .error .full ∧ ∃ before piece after,
        f.tracePieces causes = before ++ piece :: after ∧ run.2 = String.join before ∧
          limit < (run.2 ++ piece).utf8ByteSize) := by
  intro run
  have hdelivers : Delivers (Bounded.write limit) (f.tracePieces causes) "" run.1 run.2 :=
    (f.writeTrace_iff_delivers causes).1 rfl
  rcases hdelivers.bounded (Nat.zero_le limit) with
    ⟨hok, hheld, hle⟩ | ⟨herror, before, piece, after, hpieces, hheld, hlt⟩
  · rw [String.empty_append, join_tracePieces h] at hheld
    exact .inl ⟨Prod.ext hok hheld, hheld ▸ hle⟩
  · rw [String.empty_append] at hheld
    exact .inr ⟨herror, before, piece, after, hpieces, hheld, hlt⟩

/-- What is written before a piece that does not fit is the start of a text that does not fit. -/
theorem start_of_tracePieces (h : causes.map String.join = f.causes) {before after : List String}
    {piece : String} (hpieces : f.tracePieces causes = before ++ piece :: after)
    (hlt : limit < (String.join before ++ piece).utf8ByteSize) :
    (String.join before).toList <+: f.traceText.toList ∧ limit < f.traceText.utf8ByteSize := by
  have htrace : f.traceText = String.join before ++ piece ++ String.join after := by
    rw [← join_tracePieces h, hpieces, String.join_append, String.join_cons, String.append_assoc]
  constructor
  · simp only [htrace, String.toList_append, List.append_assoc]
    exact List.prefix_append _ _
  · rw [htrace, String.utf8ByteSize_append]
    omega

end Failure

/-! ## Every sink -/

/-- However the causes cut their texts into pieces, a stack trace is one text: the type name, a
colon and the text of the error unless that is empty, the lines of the backtrace if one was
captured, and a line for each cause in order.  A sink that takes everything gets this text, and any
sink gets the pieces up to the first that it refuses, whose error is the outcome.  A sink with a
limit takes the text exactly if it fits, and otherwise holds its start, up to the first piece that
does not fit.  The stack trace of an exchange is that of its own failure, or if it has none, that of
the failure in the reserved property. -/
theorem stackTrace_through_sink :
    (∀ (f : Failure) (causes : List (List String)), causes.map String.join = f.causes →
      let frames := String.join (f.frames.map fun line => "    " ++ line ++ "\n")
      let trace := f.typeName ++ (if f.text = "" then "" else ": " ++ f.text) ++ "\n" ++ frames ++
        String.join (f.causes.map fun cause => "Caused by: " ++ cause ++ "\n")
      let pieces := f.tracePieces causes
      (f.backtrace = none → frames = "") ∧
        (∀ backtrace lines, f.backtrace = some backtrace →
          (Text.Lines backtrace.toList (lines.map String.toList) ↔ f.frames = lines)) ∧
        f.stackTrace = trace ∧ String.join pieces = trace ∧
        (∀ written, (f.writeTrace (fun piece => (modify (· ++ piece) : StateM String Unit))
          causes).run written = ((), written ++ trace)) ∧
        (∀ written,
          (f.writeTrace Bounded.append causes).run.run written = (.ok (), written ++ trace)) ∧
        (∀ (ε σ : Type) (write : String → ExceptT ε (StateM σ) Unit) (s s' : σ)
          (outcome : Except ε Unit), (f.writeTrace write causes).run.run s = (outcome, s') ↔
            Delivers write pieces s outcome s') ∧
        ∀ limit : Nat,
          let run := (f.writeTrace (Bounded.write limit) causes).run.run ""
          (run.1 = .ok () ↔ trace.utf8ByteSize ≤ limit) ∧
            (run.1 = .ok () → run.2 = trace) ∧
            (run.1 ≠ .ok () → run.1 = .error .full ∧ run.2.toList <+: trace.toList ∧
              ∃ before piece after, pieces = before ++ piece :: after ∧
                run.2 = String.join before ∧ limit < (run.2 ++ piece).utf8ByteSize)) ∧
      ∀ (converter : TypeConverter) (x : Exchange),
        ((x.failureStackTrace? converter).isSome ↔ (x.failure? converter).isSome) ∧
          (∀ own, x.exception = some own →
            x.failureStackTrace? converter = some own.stackTrace) ∧
          (x.exception = none → x.failureStackTrace? converter =
            ((x.property? "RelayExceptionCaught").bind converter.toFailure).map
              Failure.stackTrace) := by
  refine ⟨fun f causes h => ?_, fun converter x => ⟨?_, ?_, ?_⟩⟩
  · refine ⟨Failure.framesText_of_none, fun backtrace lines => Failure.frames_of_backtrace,
      f.stackTrace_eq, Failure.join_tracePieces h, Failure.run_writeTrace_append h,
      Failure.run_writeTrace_bounded_append h,
      fun ε σ write s s' outcome => f.writeTrace_iff_delivers causes, fun limit => ?_⟩
    intro run
    rcases Failure.writeTrace_bounded h limit with
      ⟨hrun, hle⟩ | ⟨herror, before, piece, after, hpieces, hheld, hlt⟩
    · have hok : run.1 = .ok () := congrArg Prod.fst hrun
      exact ⟨iff_of_true hok hle, fun _ => congrArg Prod.snd hrun, fun hno => absurd hok hno⟩
    · obtain ⟨hstart, hlong⟩ := Failure.start_of_tracePieces h hpieces (hheld ▸ hlt)
      have hno : run.1 ≠ .ok () := by
        intro hok
        cases hok.symm.trans herror
      exact ⟨iff_of_false hno (Nat.not_le_of_lt hlong), fun hok => absurd hok hno,
        fun _ => ⟨herror, hheld ▸ hstart, before, piece, after, hpieces, hheld, hlt⟩⟩
  · simp [Exchange.failureStackTrace?_eq]
  · intro own hown
    simp [Exchange.failureStackTrace?_eq, Exchange.failure?, hown]
  · intro hnone
    simp [Exchange.failureStackTrace?_eq, Exchange.failure?, hnone, exceptionCaughtKey]

/-- A sink that has no room for the text of the second cause, whose end of line would still fit. -/
theorem stackTrace_through_sink_of_full :
    let f : Failure := { identity := 0, typeName := "Broken", text := "é", causes := ["", "a\nb"] }
    let causes := f.causes.map fun cause => [cause]
    causes.map String.join = f.causes ∧
      f.stackTrace = "Broken: é\nCaused by: \nCaused by: a\nb\n" ∧
      (f.stackTraceWithin 36).1 = .error .full ∧
      (f.stackTraceWithin 36).2.toList <+: f.stackTrace.toList := by
  intro f causes
  have hjoin : causes.map String.join = f.causes := by decide
  obtain ⟨-, -, htrace, -, -, -, -, hlimit⟩ := stackTrace_through_sink.1 f causes hjoin
  obtain ⟨hok, -, hfull⟩ := hlimit 36
  have hno : (f.stackTraceWithin 36).1 ≠ .ok () := fun h => absurd (hok.1 h) (by decide)
  obtain ⟨herror, hstart, -⟩ := hfull hno
  exact ⟨hjoin, htrace.trans (by decide), herror, htrace ▸ hstart⟩

end MessageExchange
