import MessageExchange.KeyMap
import MessageExchange.Text.Case
import MessageExchange.Value

/-!
# Headers

The headers of a message are named without regard to case: two names mean the
same header if their lower case is equal.  The lower case is the *key*.  The
headers are kept in the order of the keys, and each keeps the spelling of the
name that first created it, however often it is set again under others.

The type holds that every key is the lower case of its spelling, so a list of
headers shows all there is to know.
-/

namespace MessageExchange

/-- The headers of a message. -/
structure Headers where
  /-- For each key the spelling of the name and the value. -/
  entries : KeyMap (String × Value)
  /-- A key is the lower case of the spelling. -/
  keyed : ∀ entry ∈ entries.toList, Text.toLower entry.2.1 = entry.1

namespace Headers

/-- The key of a header name. -/
def key (name : String) : String := Text.toLower name

/-- No headers. -/
def empty : Headers := ⟨.empty, fun _ h => nomatch h⟩

instance : Inhabited Headers := ⟨empty⟩

/-- Headers are equal if their spellings and values are, position by position. -/
instance : BEq Headers := ⟨fun h k => h.entries == k.entries⟩

/-! ## Reading -/

/-- The value of a header. -/
def find? (headers : Headers) (name : String) : Option Value :=
  (headers.entries.find? (key name)).map Prod.snd

/-- The spelling that a header is kept under. -/
def spelling? (headers : Headers) (name : String) : Option String :=
  (headers.entries.find? (key name)).map Prod.fst

/-- Is there a header with the name? -/
def contains (headers : Headers) (name : String) : Bool := headers.entries.contains (key name)

/-- The headers in the order of the keys, each with its spelling. -/
def toList (headers : Headers) : List (String × Value) := headers.entries.toList.map Prod.snd

/-- The number of headers. -/
def size (headers : Headers) : Nat := headers.entries.size

/-- Are there no headers? -/
def isEmpty (headers : Headers) : Bool := headers.entries.isEmpty

/-! ## Writing -/

theorem key_spelling {headers : Headers} {name : String} {entry : String × Value}
    (h : headers.entries.find? (key name) = some entry) : Text.toLower entry.1 = key name :=
  headers.keyed (key name, entry) (KeyMap.mem_toList_iff.2 h)

/-- Sets the value of a header.  A header that is there keeps its spelling. -/
def insert (headers : Headers) (name : String) (value : Value) : Headers :=
  { entries := headers.entries.insert (key name) ((headers.spelling? name).getD name, value)
    keyed := by
      intro entry h
      rcases KeyMap.mem_toList_insert h with rfl | h
      · cases hf : headers.entries.find? (key name) with
        | none =>
            simp only [spelling?, hf, Option.map_none, Option.getD_none]
            rfl
        | some found => simpa [spelling?, hf] using key_spelling hf
      · exact headers.keyed entry h }

/-- Removes a header. -/
def erase (headers : Headers) (name : String) : Headers :=
  { entries := headers.entries.erase (key name)
    keyed := fun entry h => headers.keyed entry (KeyMap.mem_toList_of_mem_erase h) }

/-- Sets a header and gives the value that it replaced. -/
def getThenInsert (headers : Headers) (name : String) (value : Value) : Option Value × Headers :=
  (headers.find? name, headers.insert name value)

/-- Removes a header and gives the value that it had. -/
def getThenErase (headers : Headers) (name : String) : Option Value × Headers :=
  (headers.find? name, headers.erase name)

/-- The headers that a list of names and values sets in order. -/
def ofList (headers : List (String × Value)) : Headers :=
  headers.foldl (fun result header => result.insert header.1 header.2) empty

/-! ## The view -/

@[simp] theorem find?_empty (name : String) : empty.find? name = none := rfl

@[simp] theorem find?_insert (headers : Headers) (name other : String) (value : Value) :
    (headers.insert name value).find? other =
      if key name = key other then some value else headers.find? other := by
  by_cases h : key name = key other <;> simp [find?, insert, h]

@[simp] theorem find?_erase (headers : Headers) (name other : String) :
    (headers.erase name).find? other =
      if key name = key other then none else headers.find? other := by
  by_cases h : key name = key other <;> simp [find?, erase, h]

@[simp] theorem spelling?_empty (name : String) : empty.spelling? name = none := rfl

@[simp] theorem spelling?_insert (headers : Headers) (name other : String) (value : Value) :
    (headers.insert name value).spelling? other =
      if key name = key other then some ((headers.spelling? name).getD name)
      else headers.spelling? other := by
  by_cases h : key name = key other <;> simp [spelling?, insert, h]

@[simp] theorem spelling?_erase (headers : Headers) (name other : String) :
    (headers.erase name).spelling? other =
      if key name = key other then none else headers.spelling? other := by
  by_cases h : key name = key other <;> simp [spelling?, erase, h]

end Headers

end MessageExchange
