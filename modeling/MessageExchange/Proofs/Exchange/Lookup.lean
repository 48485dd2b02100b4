import MessageExchange.Proofs.CaseVariants
import MessageExchange.Proofs.Exchange.Date
import MessageExchange.Proofs.Exchange.Updates

/-!
# Where a date is read

The key of a command is the longest end of it without a dot, and it is cut off
between two characters (`bytes_commandKey`).  A date hangs on the exchange through
the value under the key only, if the fallback does (`date_updateAll`).  That value
stays as it is under every update that does not set or remove the looked-up header
or property (`DateSource.Touches`).
-/

namespace MessageExchange

/-! ## The last part of a command -/

/-- The key of a command is what stands after the last dot among its bytes. -/
theorem bytes_commandKey (command : String) :
    (commandKey command).toByteArray.data.toList =
      Text.afterLast 0x2E command.toByteArray.data.toList := by
  rw [← Text.utf8_toList, ← Text.utf8_toList, toList_commandKey,
    Text.afterLast_utf8 (c := '.') (by decide) rfl]

/-- What stands before the key stands before another key too. -/
theorem LastPart.exists_front {command key : String} (h : LastPart command key) :
    ∃ front, command = front ++ key ∧
      ∀ other, '.' ∉ other.toList → LastPart (front ++ other) other := by
  cases h with
  | whole _ =>
      refine ⟨"", String.empty_append.symm, fun other hother => ?_⟩
      rw [String.empty_append]
      exact .whole hother
  | @dotted before _ _ => exact ⟨before ++ ".", rfl, fun other => .dotted⟩

/-- A text in another case of ASCII has the same dots. -/
theorem dot_mem_iff_of_ascii {s t : String}
    (h : s.toList.map Char.toLower = t.toList.map Char.toLower) :
    '.' ∈ t.toList ↔ '.' ∈ s.toList := by
  have hdot : ∀ c : Char, c.toLower = '.' ↔ c = '.' := Text.toLower_eq_iff (by decide)
  have hmem (s : String) : '.' ∈ s.toList.map Char.toLower ↔ '.' ∈ s.toList := by
    simp [hdot]
  rw [← hmem, ← h, hmem]

/-! ## Updates that do not matter -/

/-- A fallback that reads nothing but the value it is given. -/
def DateFallback.ReadsValue {m : Type → Type} (f : DateFallback m) : Prop :=
  ∀ x y value, f x value = f y value

namespace DateSource

/-- An update sets or removes what a date is looked up in. -/
inductive Touches (key : String) : DateSource → ExchangeUpdate → Prop where
  | header {call : HeaderCall} :
      Headers.key call.name = Headers.key key → Touches key header (.header call)
  | setProperty (value : Value) : Touches key property (.setProperty key value)
  | removeProperty : Touches key property (.removeProperty key)

theorem header?_update {x : Exchange} {key : String} {update : ExchangeUpdate}
    (h : ¬Touches key header update) : (x.update update).header? key = x.header? key := by
  cases update with
  | header call =>
      have hkey : Headers.key call.name ≠ Headers.key key := fun heq => h (.header heq)
      cases call with
      | insert name value =>
          exact (Headers.find?_insert x.message.headers name key value).trans (if_neg hkey)
      | erase name => exact (Headers.find?_erase x.message.headers name key).trans (if_neg hkey)
  | _ => rfl

theorem property?_update {x : Exchange} {key : String} {update : ExchangeUpdate}
    (h : ¬Touches key property update) : (x.update update).property? key = x.property? key := by
  cases update with
  | header call => cases call <;> rfl
  | setProperty other value =>
      have hkey : other ≠ key := fun heq => h (heq ▸ .setProperty value)
      exact (Dictionary.find?_insert x.properties other key value).trans (if_neg hkey)
  | removeProperty other =>
      have hkey : other ≠ key := fun heq => h (heq ▸ .removeProperty)
      exact (Dictionary.find?_erase x.properties other key).trans (if_neg hkey)
  | _ => rfl

theorem value?_update {source : DateSource} {x : Exchange} {command : String}
    {update : ExchangeUpdate} (h : ¬source.Touches (commandKey command) update) :
    source.value? (x.update update) command = source.value? x command := by
  cases source with
  | header => exact header?_update h
  | property => exact property?_update h

theorem value?_updateAll {source : DateSource} {command : String} {updates : List ExchangeUpdate}
    (h : ∀ update ∈ updates, ¬source.Touches (commandKey command) update) (x : Exchange) :
    source.value? (x.updateAll updates) command = source.value? x command := by
  induction updates generalizing x with
  | nil => rfl
  | cons first rest ih =>
      obtain ⟨hfirst, hrest⟩ := List.forall_mem_cons.1 h
      exact (ih hrest (x.update first)).trans (value?_update hfirst)

end DateSource

variable {m : Type → Type} [Monad m]

theorem resolveDate_congr {fallback : Option (DateFallback m)}
    (h : ∀ f ∈ fallback, f.ReadsValue) (x y : Exchange) (value : Option Value) :
    resolveDate x value fallback = resolveDate y value fallback := by
  rw [resolveDate, resolveDate]
  split
  · rfl
  · rfl
  · cases fallback with
    | none => rfl
    | some f => exact h f rfl x y _

theorem date_updateAll {source : DateSource} {command : String} {updates : List ExchangeUpdate}
    (h : ∀ update ∈ updates, ¬source.Touches (commandKey command) update)
    {fallback : Option (DateFallback m)} (hfallback : ∀ f ∈ fallback, f.ReadsValue)
    (x : Exchange) :
    source.date (x.updateAll updates) command fallback = source.date x command fallback := by
  rw [DateSource.date_eq, DateSource.date_eq, DateSource.value?_updateAll h]
  exact resolveDate_congr hfallback _ x _

/-! ## Every look-up -/

theorem date_congr {command other : String} (h : commandKey command = commandKey other)
    (source : DateSource) (x : Exchange) (fallback : Option (DateFallback m)) :
    source.date x command fallback = source.date x other fallback := by
  cases source with
  | header => rw [DateSource.date, DateSource.date, Exchange.dateOfHeader, Exchange.dateOfHeader, h]
  | property =>
      rw [DateSource.date, DateSource.date, Exchange.dateOfProperty, Exchange.dateOfProperty, h]

theorem dateOfHeader_variant {command other : String}
    (h : CaseVariant (commandKey command) (commandKey other)) (x : Exchange)
    (fallback : Option (DateFallback m)) :
    x.dateOfHeader other fallback = x.dateOfHeader command fallback := by
  have hvalue : x.header? (commandKey other) = x.header? (commandKey command) :=
    Headers.find?_variant h x.message.headers
  rw [Exchange.dateOfHeader, Exchange.dateOfHeader, hvalue]

/-- A date is looked up under the last part of a command. -/
theorem LastPart.date_eq {command key : String} (h : LastPart command key) (x : Exchange)
    (fallback : Option (DateFallback m)) :
    x.dateOfHeader command fallback = resolveDate x (x.header? key) fallback ∧
      x.dateOfProperty command fallback = resolveDate x (x.property? key) fallback := by
  rw [Exchange.dateOfHeader, Exchange.dateOfProperty, commandKey_of_lastPart h]
  exact ⟨rfl, rfl⟩

theorem resolveDate_of_value {x : Exchange} {value : Option Value} {t : Time.Instant}
    (h : DirectDate value t) (fallback : Option (DateFallback m)) :
    resolveDate x value fallback = pure (some t) := by
  have hpresent : present? value = value := by cases h <;> rfl
  exact resolveDate_of_directDate (hpresent.symm ▸ h) fallback

/-- What the look-ups read of a command and of an exchange.  The key is the longest end of the
command without a dot, in characters and in bytes, and what stands before the key does not count.
The header or the property under the key is read, be the key empty, and its value is the date if it
is one.  Among the headers another case of ASCII finds the same date.  With the same value under the
key, the header and the property give the same date by the same calls of the fallback.  Updates that
leave what is looked up alone leave the date alone, unless the fallback reads more than the
value. -/
theorem date_of_last_part (command : String) :
    ((commandKey command).toList <:+ command.toList ∧ '.' ∉ (commandKey command).toList ∧
      ∀ part, part <:+ command.toList → '.' ∉ part → part <:+ (commandKey command).toList) ∧
    ((commandKey command).toByteArray.data.toList =
      Text.afterLast 0x2E command.toByteArray.data.toList) ∧
    (∀ before key : String, '.' ∉ key.toList →
      commandKey (before ++ "." ++ key) = key ∧
      ∀ (source : DateSource) (x : Exchange) (fallback : Option (DateFallback m)),
        source.date x (before ++ "." ++ key) fallback = source.date x key fallback) ∧
    (∀ key : String, LastPart command key →
      ∀ (x : Exchange) (fallback : Option (DateFallback m)),
        x.dateOfHeader command fallback = resolveDate x (x.header? key) fallback ∧
        x.dateOfProperty command fallback = resolveDate x (x.property? key) fallback ∧
        ∀ t, (DirectDate (x.header? key) t → x.dateOfHeader command fallback = pure (some t)) ∧
          (DirectDate (x.property? key) t →
            x.dateOfProperty command fallback = pure (some t))) ∧
    (∀ before : String, commandKey (before ++ ".") = "" ∧
      ∀ (x : Exchange) (fallback : Option (DateFallback m)),
        x.dateOfHeader (before ++ ".") fallback = resolveDate x (x.header? "") fallback ∧
        x.dateOfProperty (before ++ ".") fallback = resolveDate x (x.property? "") fallback) ∧
    (∃ front, command = front ++ commandKey command ∧
      ∀ other : String,
        (commandKey command).toList.map Char.toLower = other.toList.map Char.toLower →
          commandKey (front ++ other) = other ∧
          ∀ (x : Exchange) (fallback : Option (DateFallback m)),
            x.dateOfHeader (front ++ other) fallback = x.dateOfHeader command fallback) ∧
    (∀ (x : Exchange) (fallback : Option (DateFallback m)),
      x.header? (commandKey command) = x.property? (commandKey command) →
        x.dateOfHeader command fallback = x.dateOfProperty command fallback) ∧
    ∀ (source : DateSource) (x : Exchange) (updates : List ExchangeUpdate),
      (∀ update ∈ updates, ¬source.Touches (commandKey command) update) →
      ∀ fallback : Option (DateFallback m), (∀ f ∈ fallback, f.ReadsValue) →
        source.date (x.updateAll updates) command fallback = source.date x command fallback := by
  have hlast : LastPart command (commandKey command) := commandKey_eq_iff.1 rfl
  have hnone : '.' ∉ (commandKey command).toList := by
    rw [toList_commandKey]
    exact (Text.eq_afterLast_or '.' command.toList).1
  refine ⟨⟨?_, hnone, ?_⟩, bytes_commandKey command, ?_, ?_, ?_, ?_, ?_, ?_⟩
  · rw [toList_commandKey]
    exact Text.afterLast_suffix '.' command.toList
  · intro part hpart hdot
    rw [toList_commandKey]
    exact Text.suffix_afterLast hpart hdot
  · intro before key hkey
    have hdotted : commandKey (before ++ "." ++ key) = key := commandKey_of_lastPart (.dotted hkey)
    refine ⟨hdotted, fun source x fallback => date_congr ?_ source x fallback⟩
    rw [hdotted, commandKey_of_lastPart (.whole hkey)]
  · intro key hkey x fallback
    obtain ⟨hheader, hproperty⟩ := hkey.date_eq x fallback
    refine ⟨hheader, hproperty, fun t => ⟨fun hdate => ?_, fun hdate => ?_⟩⟩
    · rw [hheader, resolveDate_of_value hdate]
    · rw [hproperty, resolveDate_of_value hdate]
  · intro before
    have hempty : LastPart (before ++ "." ++ "") "" := .dotted (by simp)
    rw [String.append_empty] at hempty
    exact ⟨commandKey_of_lastPart hempty, hempty.date_eq⟩
  · obtain ⟨front, hcommand, hother⟩ := hlast.exists_front
    refine ⟨front, hcommand, fun other hcase => ?_⟩
    have hkey : commandKey (front ++ other) = other :=
      commandKey_of_lastPart (hother other fun h => hnone ((dot_mem_iff_of_ascii hcase).1 h))
    refine ⟨hkey, dateOfHeader_variant ?_⟩
    rw [hkey]
    exact .ascii hcase
  · intro x fallback hvalue
    rw [Exchange.dateOfHeader, Exchange.dateOfProperty, hvalue]
  · intro source x updates htouches fallback hfallback
    exact date_updateAll htouches hfallback x

/-- The header of the key is found in another case and is as good as the property.  Setting it does
not change the date of the property. -/
theorem date_of_last_part_of_accents :
    let x := ((Exchange.new ⟨0⟩ .epoch).setHeader "Heute é" (.text "1970")).setProperty "heutE é"
      (.text "1970")
    let f : DateFallback Id := fun _ value => value.map fun _ => .epoch
    let updates := [ExchangeUpdate.header (.insert "heutE é" .null), .setBody .null]
    ('.' ∉ "heutE é".toList ∧
        DateSource.header.date x ("ü.日." ++ "." ++ "heutE é") (some f) =
          DateSource.header.date x "heutE é" (some f)) ∧
      (x.header? (commandKey "heutE é") = x.property? (commandKey "heutE é") ∧
        x.dateOfHeader "heutE é" (some f) = x.dateOfProperty "heutE é" (some f)) ∧
      (∀ update ∈ updates, ¬DateSource.property.Touches (commandKey "heutE é") update) ∧
        (∀ g ∈ some f, g.ReadsValue) ∧
        DateSource.property.date (x.updateAll updates) "heutE é" (some f) =
          DateSource.property.date x "heutE é" (some f) := by
  intro x f updates
  obtain ⟨-, -, hbefore, -, -, -, hsame, hframe⟩ := date_of_last_part (m := Id) "heutE é"
  have hdot : '.' ∉ "heutE é".toList := by decide
  have hkey : Headers.key "Heute é" = Headers.key (commandKey "heutE é") := by decide +kernel
  have hvalue : x.header? (commandKey "heutE é") = x.property? (commandKey "heutE é") :=
    (Headers.find?_insert .empty _ _ _).trans (if_pos hkey)
  have htouches :
      ∀ update ∈ updates, ¬DateSource.property.Touches (commandKey "heutE é") update := by
    intro update hmem htouches
    cases htouches <;> simp [updates] at hmem
  have hreads : ∀ g ∈ some f, g.ReadsValue := by
    intro g hg x y value
    cases Option.some.inj hg
    rfl
  exact ⟨⟨hdot, (hbefore "ü.日." "heutE é" hdot).2 .header x (some f)⟩,
    ⟨hvalue, hsame x (some f) hvalue⟩, htouches, hreads,
    hframe .property x updates htouches (some f) hreads⟩

end MessageExchange
