import MessageExchange.Proofs.Text.Quotes
import Mathlib.Algebra.Group.Nat.Even
import Mathlib.Data.List.DropRight

/-!
# Escaped texts as a reader takes them

A reader of a quoted text goes from left to right.  A backslash opens an escape and
consumes the character after it, so backslashes pair up and only what follows the
last one of an odd number is escaped.  `roles` says what the reader takes every
character for.

Whether the reader takes a quote as it is hangs on the run of backslashes directly
before it.  It does if the length of the run is even (`Quote.unescaped_iff`).
Escaping gives a run of one backslash to the quotes that have none and leaves the
other runs alone (`Quote.run_escaped`).  So the quotes that still end the quoted text
are those after a run of even length that was there before.
-/

namespace MessageExchange.Text

/-! ## The reader -/

/-- What a reader of a quoted text takes a character for. -/
inductive Role where
  /-- A character that stands for itself. -/
  | plain
  /-- A backslash that opens an escape. -/
  | opening
  /-- A character that the backslash before it has consumed. -/
  | consumed
deriving Repr, DecidableEq

/-- The roles of the characters of a text, from left to right. -/
def roles : List Char → List Role
  | [] => []
  | '\\' :: _ :: rest => .opening :: .consumed :: roles rest
  | ['\\'] => [.opening]
  | _ :: rest => .plain :: roles rest

/-- A text as the reader takes it: over, an escape, a backslash that ends it, or a character that
stands for itself. -/
@[elab_as_elim]
theorem roles_induction {motive : List Char → Prop} (nil : motive [])
    (escape : ∀ c rest, motive rest → motive ('\\' :: c :: rest)) (lone : motive ['\\'])
    (plain : ∀ c rest, c ≠ '\\' → motive rest → motive (c :: rest)) (text : List Char) :
    motive text := by
  induction text using roles.induct with
  | case1 => exact nil
  | case2 c rest ih => exact escape c rest ih
  | case3 => exact lone
  | case4 c rest hpair hlone ih =>
      refine plain c rest ?_ ih
      rintro rfl
      cases rest with
      | nil => exact hlone rfl rfl
      | cons d rest => exact hpair d rest rfl rfl

theorem backslash_ne_quote : '\\' ≠ '"' := by decide

theorem roles_escape (c : Char) (rest : List Char) :
    roles ('\\' :: c :: rest) = .opening :: .consumed :: roles rest := rfl

theorem roles_plain {c : Char} (h : c ≠ '\\') (rest : List Char) :
    roles (c :: rest) = .plain :: roles rest := by
  rw [roles]
  · exact fun _ _ hc _ => h hc
  · exact fun hc _ => h hc

@[simp] theorem length_roles (text : List Char) : (roles text).length = text.length := by
  induction text using roles_induction with
  | nil => rfl
  | escape c rest ih => simp only [roles_escape, List.length_cons, ih]
  | lone => rfl
  | plain c rest hc ih => simp only [roles_plain hc, List.length_cons, ih]

/-- What comes last in a text comes last in a longer text as well. -/
theorem getLast?_ne_of_cons {c d : Char} {rest : List Char} (h : (c :: rest).getLast? ≠ some d) :
    rest.getLast? ≠ some d := by
  intro hrest
  rw [List.getLast?_cons, hrest] at h
  exact h rfl

/-- A backslash consumes one character only, so a text that does not end in one is read apart from
what follows it. -/
theorem roles_append {front : List Char} (h : front.getLast? ≠ some '\\') (rest : List Char) :
    roles (front ++ rest) = roles front ++ roles rest := by
  induction front using roles_induction with
  | nil => rfl
  | escape c front ih =>
      have hfront := getLast?_ne_of_cons (getLast?_ne_of_cons h)
      simp only [List.cons_append, roles_escape, ih hfront]
  | lone => exact absurd rfl h
  | plain c front hc ih =>
      simp only [List.cons_append, roles_plain hc, ih (getLast?_ne_of_cons h)]

/-- Backslashes pair up, so the character after a run of them is consumed if the run is odd. -/
theorem getElem?_roles_replicate (n : Nat) {c : Char} (hc : c ≠ '\\') (rest : List Char) :
    (roles (List.replicate n '\\' ++ c :: rest))[n]? =
      some (if Even n then .plain else .consumed) := by
  induction n using Nat.twoStepInduction with
  | zero =>
      rw [if_pos Even.zero]
      show (roles (c :: rest))[0]? = some .plain
      rw [roles_plain hc, List.getElem?_cons_zero]
  | one => rfl
  | more n ih _ =>
      have heven : Even (n + 1 + 1) ↔ Even n := by
        rw [Nat.even_add_one, Nat.even_add_one, Classical.not_not]
      simp only [heven, List.replicate_succ, List.cons_append, roles_escape,
        List.getElem?_cons_succ, ih]

/-! ## Runs of backslashes -/

/-- The length of the longest run of backslashes that a text ends in. -/
def runLength (text : List Char) : Nat := (text.rtakeWhile (· == '\\')).length

theorem runLength_eq_zero_iff {text : List Char} :
    runLength text = 0 ↔ text.getLast? ≠ some '\\' := by
  rw [runLength, List.length_eq_zero_iff, List.rtakeWhile_eq_nil_iff]
  by_cases hnil : text = []
  · simp [hnil]
  · simp [hnil, List.getLast?_eq_some_getLast]

theorem runLength_concat (text : List Char) : runLength (text ++ ['\\']) = runLength text + 1 := by
  rw [runLength, List.rtakeWhile_concat_pos _ _ _ rfl, List.length_append, List.length_singleton,
    runLength]

theorem runLength_append_replicate {front : List Char} (h : front.getLast? ≠ some '\\') (n : Nat) :
    runLength (front ++ List.replicate n '\\') = n := by
  induction n with
  | zero => rw [List.replicate_zero, List.append_nil, runLength_eq_zero_iff.2 h]
  | succ n ih => rw [List.replicate_succ', ← List.append_assoc, runLength_concat, ih]

/-- A text is its run of backslashes after a text that does not end in one. -/
theorem exists_append_run (text : List Char) :
    ∃ front, front.getLast? ≠ some '\\' ∧
      text = front ++ List.replicate (runLength text) '\\' := by
  refine ⟨text.rdropWhile (· == '\\'), fun hlast => ?_, ?_⟩
  · obtain ⟨front, hfront⟩ := List.getLast?_eq_some_iff.1 hlast
    have hne : text.rdropWhile (· == '\\') ≠ [] := by simp [hfront]
    refine List.rdropWhile_last_not _ text hne ?_
    rw [List.getLast_of_getLast?_eq_some hlast]
    rfl
  · have hrun : text.rtakeWhile (· == '\\') = List.replicate (runLength text) '\\' :=
      List.eq_replicate_of_mem fun c hc => by simpa using List.mem_rtakeWhile_imp hc
    rw [← hrun, List.rdropWhile_append_rtakeWhile]

namespace Quote

variable {text : List Char}

/-- The length of the longest run of backslashes directly before the quote. -/
def run (q : Quote text) : Nat := runLength q.before

/-- How many quotes come before the quote. -/
def number (q : Quote text) : Nat := q.before.count '"'

/-- The reader takes the quote as it is. -/
def Unescaped (q : Quote text) : Prop := (roles text)[q.before.length]? = some .plain

theorem run_eq_zero_iff {q : Quote text} : q.run = 0 ↔ ¬q.Guarded := runLength_eq_zero_iff

theorem unescaped_iff {q : Quote text} : q.Unescaped ↔ Even q.run := by
  obtain ⟨front, hfront, hbefore⟩ := exists_append_run q.before
  have hlength : q.before.length = front.length + q.run := by
    rw [congrArg List.length hbefore, List.length_append, List.length_replicate, run]
  have htext : text = front ++ (List.replicate q.run '\\' ++ '"' :: q.after) := by
    rw [← List.append_assoc, run, ← hbefore]
    exact q.text_eq
  rw [Unescaped, congrArg roles htext, roles_append hfront, hlength,
    List.getElem?_append_right (by simp), length_roles, Nat.add_sub_cancel_left,
    getElem?_roles_replicate _ backslash_ne_quote.symm]
  split <;> simp [*]

/-! ## Quotes by number -/

theorem before_eq_of_count {before before' after after' : List Char}
    (htext : before ++ '"' :: after = before' ++ '"' :: after')
    (hcount : before.count '"' = before'.count '"') : before = before' := by
  induction before generalizing before' with
  | nil =>
      cases before' with
      | nil => rfl
      | cons d before' =>
          obtain ⟨rfl, -⟩ := List.cons.inj htext
          rw [List.count_nil, List.count_cons_self] at hcount
          omega
  | cons c before ih =>
      cases before' with
      | nil =>
          obtain ⟨rfl, -⟩ := List.cons.inj htext
          rw [List.count_nil, List.count_cons_self] at hcount
          omega
      | cons d before' =>
          obtain ⟨rfl, hrest⟩ := List.cons.inj htext
          rw [List.count_cons, List.count_cons, Nat.add_right_cancel_iff] at hcount
          rw [ih hrest hcount]

theorem eq_of_number {q q' : Quote text} (h : q.number = q'.number) : q = q' := by
  obtain ⟨before, after, htext⟩ := q
  obtain ⟨before', after', htext'⟩ := q'
  have hboth : before ++ '"' :: after = before' ++ '"' :: after' := htext.symm.trans htext'
  obtain rfl : before = before' := before_eq_of_count hboth h
  obtain rfl : after = after' := (List.cons.inj (List.append_cancel_left hboth)).2
  rfl

theorem number_lt (q : Quote text) : q.number < text.count '"' := by
  rw [congrArg (List.count '"') q.text_eq, List.count_append, List.count_cons_self, number]
  omega

theorem exists_number {n : Nat} (h : n < text.count '"') : ∃ q : Quote text, q.number = n := by
  induction text generalizing n with
  | nil => exact absurd h (Nat.not_lt_zero n)
  | cons c rest ih =>
      by_cases hc : c = '"'
      · subst hc
        cases n with
        | zero => exact ⟨⟨[], rest, rfl⟩, rfl⟩
        | succ n =>
            rw [List.count_cons_self] at h
            obtain ⟨q, rfl⟩ := ih (Nat.lt_of_succ_lt_succ h)
            exact ⟨⟨'"' :: q.before, q.after, congrArg ('"' :: ·) q.text_eq⟩,
              List.count_cons_self⟩
      · rw [List.count_cons_of_ne hc] at h
        obtain ⟨q, rfl⟩ := ih h
        exact ⟨⟨c :: q.before, q.after, congrArg (c :: ·) q.text_eq⟩, List.count_cons_of_ne hc⟩

end Quote

/-! ## Runs and numbers after escaping -/

theorem count_escapeQuotesAfter (previous : Option Char) (text : List Char) :
    (escapeQuotesAfter previous text).count '"' = text.count '"' := by
  induction text generalizing previous with
  | nil => rfl
  | cons c rest ih =>
      rcases escaped_or_copied previous c with ⟨rfl, hprevious⟩ | hcopied
      · rw [escapeQuotesAfter_quote hprevious, List.count_cons_of_ne backslash_ne_quote,
          List.count_cons_self, List.count_cons_self, ih]
      · rw [escapeQuotesAfter_cons hcopied, List.count_cons, List.count_cons, ih]

/-- Escaping puts nothing at the end of a text. -/
theorem getLast?_escapeQuotesAfter (previous : Option Char) (text : List Char) :
    (escapeQuotesAfter previous text).getLast? = text.getLast? := by
  induction text generalizing previous with
  | nil => rfl
  | cons c rest ih =>
      rcases escaped_or_copied previous c with ⟨rfl, hprevious⟩ | hcopied
      · rw [escapeQuotesAfter_quote hprevious, List.getLast?_cons_cons, List.getLast?_cons,
          List.getLast?_cons, ih]
      · rw [escapeQuotesAfter_cons hcopied, List.getLast?_cons, List.getLast?_cons, ih]

theorem escapeQuotesAfter_replicate (previous : Option Char) (n : Nat) :
    escapeQuotesAfter previous (List.replicate n '\\') = List.replicate n '\\' := by
  induction n generalizing previous with
  | zero => rfl
  | succ n ih =>
      rw [List.replicate_succ,
        escapeQuotesAfter_cons fun hquote => absurd hquote backslash_ne_quote, ih]

theorem runLength_escapeQuotesAfter (previous : Option Char) (text : List Char) :
    runLength (escapeQuotesAfter previous text) = runLength text := by
  obtain ⟨front, hfront, htext⟩ := exists_append_run text
  have hescaped : (escapeQuotesAfter previous front).getLast? ≠ some '\\' := by
    rwa [getLast?_escapeQuotesAfter]
  rw [congrArg (escapeQuotesAfter previous) htext, escapeQuotesAfter_append,
    escapeQuotesAfter_replicate, runLength_append_replicate hescaped]

namespace Quote

variable {text : List Char}

theorem escapeQuotesAfter_eq (q : Quote text) :
    escapeQuotesAfter none text =
      escapeQuotesAfter none q.before ++ (if q.run = 0 then ['\\'] else []) ++
        '"' :: escapeQuotesAfter (some '"') q.after := by
  rw [congrArg (escapeQuotesAfter none) q.text_eq, escapeQuotesAfter_append, Option.or_none,
    List.append_assoc]
  by_cases hrun : q.run = 0
  · rw [if_pos hrun, escapeQuotesAfter_quote (run_eq_zero_iff.1 hrun)]
    rfl
  · have hguarded : q.Guarded := Classical.not_not.1 (mt run_eq_zero_iff.2 hrun)
    rw [if_neg hrun, escapeQuotesAfter_cons fun _ => hguarded]
    rfl

/-- The quote as it stands in the text after escaping. -/
def escaped (q : Quote text) : Quote (escapeQuotesAfter none text) where
  before := escapeQuotesAfter none q.before ++ if q.run = 0 then ['\\'] else []
  after := escapeQuotesAfter (some '"') q.after
  text_eq := q.escapeQuotesAfter_eq

theorem before_escaped (q : Quote text) :
    q.escaped.before =
      escapeQuotesAfter none q.before ++ if q.run = 0 then ['\\'] else [] := rfl

theorem number_escaped (q : Quote text) : q.escaped.number = q.number := by
  rw [number, before_escaped, List.count_append, count_escapeQuotesAfter]
  split <;> rfl

/-- Escaping gives a run of one backslash to the quotes that have none. -/
theorem run_escaped (q : Quote text) : q.escaped.run = max q.run 1 := by
  have hrun : runLength (escapeQuotesAfter none q.before) = q.run :=
    runLength_escapeQuotesAfter none q.before
  by_cases hzero : q.run = 0
  · rw [run, before_escaped, if_pos hzero, runLength_concat, hrun, hzero]
    rfl
  · rw [run, before_escaped, if_neg hzero, List.append_nil, hrun]
    omega

theorem unescaped_escaped_iff {q : Quote text} :
    q.escaped.Unescaped ↔ Even q.run ∧ 2 ≤ q.run := by
  rw [unescaped_iff, run_escaped]
  by_cases hzero : q.run = 0
  · simp [hzero]
  · rw [Nat.max_eq_left (by omega)]
    refine ⟨fun heven => ⟨heven, ?_⟩, And.left⟩
    obtain ⟨half, hhalf⟩ := heven
    omega

theorem exists_escaped (q' : Quote (escapeQuotesAfter none text)) :
    ∃ q : Quote text, q' = q.escaped := by
  have hlt : q'.number < text.count '"' := count_escapeQuotesAfter none text ▸ q'.number_lt
  obtain ⟨q, hq⟩ := exists_number hlt
  exact ⟨q, eq_of_number (by rw [number_escaped, hq])⟩

end Quote

/-! ## Every text -/

/-- Escaping keeps the quotes of a text, each under its number.  The reader takes a quote of the
escaped text as it is exactly if the run of backslashes before it in the text has an even length
other than zero.  So a quote that was escaped stays escaped, and so does one without a backslash
before it, and the reader meets no quote as it is exactly if there is no such run. -/
theorem unescaped_escapeQuotes_iff (text : String) :
    ((∀ q' : Quote (escapeQuotes text).toList, ¬q'.Unescaped) ↔
        ∀ q : Quote text.toList, ¬(Even q.run ∧ 2 ≤ q.run)) ∧
      (∀ q : Quote text.toList,
        ∃! q' : Quote (escapeQuotes text).toList, q'.number = q.number) ∧
      (∀ q' : Quote (escapeQuotes text).toList,
        ∃! q : Quote text.toList, q'.number = q.number) ∧
      ∀ (q : Quote text.toList) (q' : Quote (escapeQuotes text).toList),
        q'.number = q.number →
          (q'.Unescaped ↔ Even q.run ∧ 2 ≤ q.run) ∧
            (¬q.Unescaped → ¬q'.Unescaped) ∧ (¬q.Guarded → ¬q'.Unescaped) := by
  rw [toList_escapeQuotes]
  refine ⟨⟨fun h q hrun => ?_, fun h q' hplain => ?_⟩, fun q => ?_, fun q' => ?_,
    fun q q' hnumber => ?_⟩
  · exact h q.escaped (Quote.unescaped_escaped_iff.2 hrun)
  · obtain ⟨q, rfl⟩ := q'.exists_escaped
    exact h q (Quote.unescaped_escaped_iff.1 hplain)
  · refine ⟨q.escaped, q.number_escaped, fun q' hnumber => ?_⟩
    exact Quote.eq_of_number (hnumber.trans q.number_escaped.symm)
  · obtain ⟨q, rfl⟩ := q'.exists_escaped
    refine ⟨q, q.number_escaped, fun p hnumber => ?_⟩
    exact Quote.eq_of_number (hnumber.symm.trans q.number_escaped)
  · obtain rfl : q' = q.escaped := Quote.eq_of_number (hnumber.trans q.number_escaped.symm)
    rw [Quote.unescaped_escaped_iff, Quote.unescaped_iff, ← Quote.run_eq_zero_iff]
    refine ⟨Iff.rfl, fun hodd h => hodd h.1, fun hzero h => ?_⟩
    omega

/-- A quote without a backslash, one after a backslash, and one after two. -/
theorem unescaped_escapeQuotes_iff_of_runs :
    let text := "\"\\\"\\\\\""
    ∃ (first second third : Quote text.toList)
      (first' second' third' : Quote (escapeQuotes text).toList),
      (first'.number = first.number ∧ ¬first.Guarded ∧ ¬first'.Unescaped) ∧
        (second'.number = second.number ∧ ¬second.Unescaped ∧ ¬second'.Unescaped) ∧
        third'.number = third.number ∧ third.run = 2 ∧ third'.Unescaped := by
  intro text
  obtain ⟨-, -, -, hquotes⟩ := unescaped_escapeQuotes_iff text
  have hbare : ¬(none : Option Char) = some '\\' := nofun
  have hescaped : ¬(roles text.toList)[2]? = some .plain := by decide
  let first : Quote text.toList := ⟨[], "\\\"\\\\\"".toList, by decide⟩
  let second : Quote text.toList := ⟨"\"\\".toList, "\\\\\"".toList, by decide⟩
  let third : Quote text.toList := ⟨"\"\\\"\\\\".toList, [], by decide⟩
  let first' : Quote (escapeQuotes text).toList := ⟨"\\".toList, "\\\"\\\\\"".toList, by decide⟩
  let second' : Quote (escapeQuotes text).toList :=
    ⟨"\\\"\\".toList, "\\\\\"".toList, by decide⟩
  let third' : Quote (escapeQuotes text).toList := ⟨"\\\"\\\"\\\\".toList, [], by decide⟩
  refine ⟨first, second, third, first', second', third', ⟨rfl, hbare, ?_⟩, ⟨rfl, hescaped, ?_⟩,
    rfl, rfl, ?_⟩
  · exact (hquotes first first' rfl).2.2 hbare
  · exact (hquotes second second' rfl).2.1 hescaped
  · exact (hquotes third third' rfl).1.2 ⟨⟨1, rfl⟩, Nat.le_refl 2⟩

end MessageExchange.Text
