import MessageExchange.Options.Integer
import MessageExchange.Proofs.Decimal.Numerals
import MessageExchange.Proofs.Text.Trimming

/-!
# The language of integer options

`Resolves options env text value` says that `value` is the text that an integer
option written as `text` is read from.  There is a rule for each of the three
ways to write it: the name of a variable or of an option in a placeholder, or
anything that is no placeholder.  White space around the text and around the name
counts nothing.  The braces of a placeholder do not overlap, so two opening braces
with one closing brace are a text like any other.

`StandsFor options env text n` adds that `value` is a numeral for `n` with white
space around it, and that `n` fits 32 bits.

`parseInteger` gives a number exactly if the text stands for it, and every other
text is an error in the configuration.  A placeholder that leads to a placeholder
stands for nothing, whatever the options are.
-/

namespace MessageExchange.Options

open Decimal (Numeral)
open NumberSource (braced? ofName ofText)
open Text (Framed)

/-- A text between two opening and two closing braces. -/
def placeholder (inner : List Char) : List Char := '\x7b' :: '\x7b' :: (inner ++ ['\x7d', '\x7d'])

/-- The text that an integer option is read from. -/
inductive Resolves (options : Options) (env : Environment) : String → String → Prop where
  /-- The variable that a placeholder names. -/
  | environment {text value : String} {inner name : List Char} :
      Framed (placeholder inner) text.toList → Framed ("env:".toList ++ name) inner →
      env.lookup? (String.ofList name) = some value → Resolves options env text value
  /-- The option that a placeholder names. -/
  | option {text value : String} {inner key : List Char} :
      Framed (placeholder inner) text.toList → Framed key inner → ¬"env:".toList <+: key →
      options.find? (String.ofList key) = some value → Resolves options env text value
  /-- A text that is no placeholder. -/
  | literal {text : String} {core : List Char} :
      Framed core text.toList → (∀ inner, core ≠ placeholder inner) →
      Resolves options env text (String.ofList core)

/-- The whole number of 32 bits that the text of an integer option stands for. -/
def StandsFor (options : Options) (env : Environment) (text : String) (n : Int) : Prop :=
  -2147483648 ≤ n ∧ n ≤ 2147483647 ∧
    ∃ value core, Resolves options env text value ∧ Framed core value.toList ∧ Numeral core n

variable {options : Options} {env : Environment} {text value : String}

/-! ## Sources -/

theorem braced?_eq_some_iff {text inner : List Char} :
    braced? text = some inner ↔ text = placeholder inner := by
  constructor
  · intro h
    unfold braced? at h
    split at h
    case h_1 rest =>
      split at h
      case h_1 backwards hrest =>
        rw [← Option.some.inj h, placeholder, List.reverse_eq_iff.1 hrest]
        simp
      case h_2 => cases h
    case h_2 => cases h
  · rintro rfl
    simp [braced?, placeholder]

theorem ofName_environment (name : List Char) :
    ofName ("env:".toList ++ name) = .environment (String.ofList name) := rfl

theorem ofName_option {key : List Char} (h : ¬"env:".toList <+: key) :
    ofName key = .option (String.ofList key) := by
  unfold ofName
  split
  · exact absurd (List.prefix_append _ _) h
  · rfl

theorem ofText_placeholder (inner : List Char) :
    ofText (placeholder inner) = ofName (Text.trim inner) := by
  rw [ofText, braced?_eq_some_iff.2 rfl]

theorem ofText_of_ne_placeholder {core : List Char} (h : ∀ inner, core ≠ placeholder inner) :
    ofText core = .literal (String.ofList core) := by
  have hnone : braced? core = none :=
    Option.eq_none_iff_forall_ne_some.2 fun inner hinner => h inner (braced?_eq_some_iff.1 hinner)
  rw [ofText, hnone]

theorem resolve?_of_resolves (h : Resolves options env text value) :
    (ofText (Text.trim text.toList)).resolve? options env = some value := by
  cases h with
  | environment htext hinner hvalue =>
      rw [Text.framed_iff.1 htext, ofText_placeholder, Text.framed_iff.1 hinner, ofName_environment]
      exact hvalue
  | option htext hinner hkey hvalue =>
      rw [Text.framed_iff.1 htext, ofText_placeholder, Text.framed_iff.1 hinner,
        ofName_option hkey]
      exact hvalue
  | literal htext hcore =>
      rw [Text.framed_iff.1 htext, ofText_of_ne_placeholder hcore]
      rfl

theorem resolves_of_resolve?
    (h : (ofText (Text.trim text.toList)).resolve? options env = some value) :
    Resolves options env text value := by
  have htext := Text.framed_trim text.toList
  by_cases hcore : ∃ inner, Text.trim text.toList = placeholder inner
  · obtain ⟨inner, hcore⟩ := hcore
    have hinner := Text.framed_trim inner
    rw [hcore] at htext h
    rw [ofText_placeholder] at h
    by_cases hkey : "env:".toList <+: Text.trim inner
    · obtain ⟨name, hname⟩ := hkey
      rw [← hname] at h hinner
      exact .environment htext hinner h
    · rw [ofName_option hkey] at h
      exact .option htext hinner hkey h
  · have hne : ∀ inner, Text.trim text.toList ≠ placeholder inner := fun inner heq =>
      hcore ⟨inner, heq⟩
    rw [ofText_of_ne_placeholder hne] at h
    exact Option.some.inj h ▸ .literal htext hne

/-- A text is read from at most one text, which is what its source gives. -/
theorem resolves_iff : Resolves options env text value ↔
    (ofText (Text.trim text.toList)).resolve? options env = some value :=
  ⟨resolve?_of_resolves, resolves_of_resolve?⟩

/-! ## Numbers -/

theorem int32?_eq_some_iff {word : Int32} :
    int32? value = some word ↔ ∃ core, Framed core value.toList ∧ Numeral core word.toInt := by
  rw [int32?, Option.bind_eq_some_iff]
  constructor
  · rintro ⟨n, hread, hword⟩
    rw [Decimal.toInt32?_eq_some_iff.1 hword]
    exact ⟨_, Text.framed_trim _, Decimal.readInt?_eq_some_iff.1 hread⟩
  · rintro ⟨core, hframed, hnumeral⟩
    rw [Text.framed_iff.1 hframed]
    exact ⟨_, Decimal.readInt?_eq_some_iff.2 hnumeral, Decimal.toInt32?_eq_some_iff.2 rfl⟩

/-! ## Reading the option -/

/-- Reading a number fails because of the configuration only. -/
theorem readInteger_error {error : ExchangeError}
    (h : options.readInteger env text = .error error) :
    ∃ message, error = .invalidConfiguration message := by
  simp only [readInteger] at h
  split at h
  · cases h
    exact ⟨_, rfl⟩
  · split at h
    · cases h
    · cases h
      exact ⟨_, rfl⟩

theorem readInteger_eq_ok_iff {word : Int32} :
    options.readInteger env text = .ok word ↔
      ∃ value, Resolves options env text value ∧ int32? value = some word := by
  constructor
  · intro h
    simp only [readInteger] at h
    split at h
    case h_1 => cases h
    case h_2 value hvalue =>
      split at h
      case h_1 word' hword =>
        cases h
        exact ⟨value, resolves_of_resolve? hvalue, hword⟩
      case h_2 => cases h
  · rintro ⟨value, hvalue, hword⟩
    simp only [readInteger, resolve?_of_resolves hvalue, hword]

theorem parseInteger_eq_ok_iff {word : Int32} :
    options.parseInteger env (some text) = .ok (some word) ↔
      options.readInteger env text = .ok word := by
  rw [parseInteger]
  cases options.readInteger env text <;> simp [Except.map]

theorem standsFor_toInt_iff {word : Int32} :
    StandsFor options env text word.toInt ↔
      options.parseInteger env (some text) = .ok (some word) := by
  have hlow := word.le_toInt
  have hhigh := word.toInt_lt
  rw [parseInteger_eq_ok_iff, readInteger_eq_ok_iff]
  constructor
  · rintro ⟨-, -, value, core, hvalue, hcore, hnumeral⟩
    exact ⟨value, hvalue, int32?_eq_some_iff.2 ⟨core, hcore, hnumeral⟩⟩
  · rintro ⟨value, hvalue, hword⟩
    obtain ⟨core, hcore, hnumeral⟩ := int32?_eq_some_iff.1 hword
    exact ⟨by omega, by omega, value, core, hvalue, hcore, hnumeral⟩

/-- What stands for no number is refused, and the configuration is to blame. -/
theorem parseInteger_eq_error (h : ∀ n, ¬StandsFor options env text n) :
    ∃ message,
      options.parseInteger env (some text) = .error (.invalidConfiguration message) := by
  cases hread : options.readInteger env text with
  | ok word => exact absurd (standsFor_toInt_iff.2 (parseInteger_eq_ok_iff.2 hread)) (h word.toInt)
  | error error =>
      obtain ⟨message, rfl⟩ := readInteger_error hread
      refine ⟨message, ?_⟩
      rw [parseInteger, hread]
      rfl

/-- A placeholder starts with a brace, which is neither a sign nor a digit. -/
theorem not_numeral_placeholder (inner : List Char) (n : Int) :
    ¬Numeral (placeholder inner) n := by
  rw [placeholder]
  intro h
  cases h with
  | bare hdigits => exact absurd (hdigits.isDigit _ List.mem_cons_self) (by decide)

theorem not_standsFor_of_placeholder {inner : List Char} (h : Resolves options env text value)
    (hvalue : Framed (placeholder inner) value.toList) (n : Int) :
    ¬StandsFor options env text n := by
  rintro ⟨-, -, other, core, hother, hcore, hnumeral⟩
  have hsame : other = value :=
    Option.some.inj ((resolves_iff.1 hother).symm.trans (resolves_iff.1 h))
  have hplaceholder : core = placeholder inner := by
    rw [← Text.framed_iff.1 hcore, hsame, Text.framed_iff.1 hvalue]
  rw [hplaceholder] at hnumeral
  exact not_numeral_placeholder inner n hnumeral

/-- An integer option is accepted with exactly the number of 32 bits that it stands for.  Every
other text is an error in the configuration, and so is one that is read from a placeholder. -/
theorem parseInteger_language (options : Options) (env : Environment) (text : String) :
    (∀ n : Int, StandsFor options env text n ↔
      ∃ word : Int32, word.toInt = n ∧
        options.parseInteger env (some text) = .ok (some word)) ∧
    ((∀ n : Int, ¬StandsFor options env text n) →
      ∃ message, options.parseInteger env (some text) = .error (.invalidConfiguration message)) ∧
    ∀ value inner, Resolves options env text value → Framed (placeholder inner) value.toList →
      ∃ message,
        options.parseInteger env (some text) = .error (.invalidConfiguration message) := by
  refine ⟨fun n => ⟨fun h => ?_, ?_⟩, parseInteger_eq_error, fun value inner hvalue hframed => ?_⟩
  · -- The bounds are those of a word, so the number is that of one.
    have hlow := h.1
    have hhigh := h.2.1
    have hword : (Int32.ofInt n).toInt = n := Int32.toInt_ofInt_of_le (by omega) (by omega)
    exact ⟨Int32.ofInt n, hword, standsFor_toInt_iff.1 (hword.symm ▸ h)⟩
  · rintro ⟨word, rfl, hparse⟩
    exact standsFor_toInt_iff.2 hparse
  · exact parseInteger_eq_error (not_standsFor_of_placeholder hvalue hframed)

/-- Two options that name each other, and a number with a sign and zeros before it. -/
theorem parseInteger_language_of_cycle :
    let options : MessageExchange.Options :=
      KeyMap.ofList [("a", " \x7b\x7bb\x7d\x7d"), ("b", "\x7b\x7ba\x7d\x7d")]
    let cyclic := "\x7b\x7b a \x7d\x7d"
    ((Resolves options .empty cyclic " \x7b\x7bb\x7d\x7d" ∧
          Framed (placeholder ['b']) " \x7b\x7bb\x7d\x7d".toList) ∧
        ∃ message,
          options.parseInteger .empty (some cyclic) = .error (.invalidConfiguration message)) ∧
      StandsFor options .empty " +007 " 7 ∧
        ∃ word : Int32, word.toInt = 7 ∧
          options.parseInteger .empty (some " +007 ") = .ok (some word) := by
  intro options cyclic
  have hcyclic : Resolves options .empty cyclic " \x7b\x7bb\x7d\x7d" :=
    resolves_iff.2 (by decide)
  have hplaceholder : Framed (placeholder ['b']) " \x7b\x7bb\x7d\x7d".toList :=
    Text.framed_iff.2 rfl
  have hseven : StandsFor options .empty " +007 " 7 :=
    ⟨by decide, by decide, "+007", "+007".toList, resolves_iff.2 rfl, Text.framed_iff.2 rfl,
      Decimal.readInt?_eq_some_iff.1 rfl⟩
  exact ⟨⟨⟨hcyclic, hplaceholder⟩,
      (parseInteger_language options .empty cyclic).2.2 _ _ hcyclic hplaceholder⟩,
    hseven, ((parseInteger_language options .empty " +007 ").1 7).1 hseven⟩

end MessageExchange.Options
