import MessageExchange.Proofs.Dump.Sections
import MessageExchange.Proofs.Dump.Shown
import MessageExchange.Proofs.Exchange.Updates

/-!
# Dumps and the order of updates

A dump shows what the updates of an exchange come to and nothing of the way there
(`dump_eq_of_outcome`).  The properties are in no order, and updates in another order
may leave them listed in another way.  A dump sorts them, so it reads them through
the values of their keys alone (`dump_eq_of_property?_eq`).

A dump lists the properties in the order of their keys and the headers in the order
of their lower case, each with the value and the spelling that the history settles
(`propertyListing_of_updates`, `headerListing_of_updates`).
-/

namespace MessageExchange

open MessageExchange.Time (Instant)
open ExchangeUpdate

/-! ## Listings -/

/-- The properties that updates leave, in the order of their keys. -/
structure PropertyListing (updates : List ExchangeUpdate) (entries : List (String × Value)) :
    Prop where
  /-- A key is listed once. -/
  increasing : (entries.map Prod.fst).Pairwise (· < ·)
  mem_iff : ∀ key value, (key, value) ∈ entries ↔ settledProperty? key updates = some value

/-- The headers that updates leave, in the order of the lower case of their names. -/
structure HeaderListing (updates : List ExchangeUpdate) (entries : List (String × Value)) :
    Prop where
  /-- A name is listed once, in any case. -/
  increasing : (entries.map fun entry => Headers.key entry.1).Pairwise (· < ·)
  mem_iff : ∀ spelling value, (spelling, value) ∈ entries ↔
    Headers.settled? spelling (headerCalls updates) = some (spelling, value)

theorem propertyListing_of_updates {id : ExchangeId} {created : Instant}
    {updates : List ExchangeUpdate} {entries : List (String × Value)}
    (h : ((Exchange.new id created).updateAll updates).properties.Sorted entries) :
    PropertyListing updates entries where
  increasing := h.increasing
  mem_iff key value := by
    rw [h.mem_iff, ← Exchange.property?_updateAll id created updates]
    rfl

theorem Headers.mem_toList_iff {headers : Headers} {spelling : String} {value : Value} :
    (spelling, value) ∈ headers.toList ↔
      headers.entries.find? (key spelling) = some (spelling, value) := by
  rw [← Option.mem_toList, ← filter_toList, List.mem_filter]
  simp

theorem headerListing_of_updates (id : ExchangeId) (created : Instant)
    (updates : List ExchangeUpdate) :
    HeaderListing updates
      ((Exchange.new id created).updateAll updates).message.headers.toList where
  increasing := Headers.sorted_keys _
  mem_iff spelling value := by
    rw [Headers.mem_toList_iff, Exchange.headers_updateAll, Headers.entry_history]

/-! ## Outcomes -/

namespace DumpSettings

/-- A dump reads the properties through the values of their keys, and not the time of creation. -/
theorem dump_eq_of_property?_eq (settings : DumpSettings) (converter : TypeConverter)
    {x y : Exchange} (hid : x.id = y.id) (hmessage : x.message = y.message)
    (hproperty : ∀ key, x.property? key = y.property? key)
    (hexception : x.exception = y.exception) :
    settings.dump converter x = settings.dump converter y := by
  apply dump_congr
  intro shown hshows
  refine content?_eq_of_alike ?_ hshows
  exact
    { id_eq := fun _ => hid
      headers_eq := fun _ => by rw [hmessage]
      property_eq := fun _ => hproperty
      typeName_eq := fun _ => by rw [hmessage]
      body_readsAs := fun _ => by
        rw [hmessage]
        exact ⟨rfl, rfl, fun _ => rfl⟩
      failure_eq := fun _ => Exchange.failure?_congr hexception fun _ => hproperty _ }

/-- Histories of the same outcome are dumped alike. -/
theorem dump_eq_of_outcome (settings : DumpSettings) (converter : TypeConverter)
    {updates others : List ExchangeUpdate} (h : SameOutcome updates others) (id : ExchangeId)
    (created created' : Instant) :
    settings.dump converter ((Exchange.new id created).updateAll updates) =
      settings.dump converter ((Exchange.new id created').updateAll others) := by
  obtain ⟨hid, hmessage, hproperty, hexception⟩ :=
    Exchange.updateAll_of_outcome h id created created'
  exact settings.dump_eq_of_property?_eq converter hid hmessage hproperty hexception

/-- However the properties are listed before they are sorted, the dump is the same. -/
theorem dump_eq_of_perm (settings : DumpSettings) (converter : TypeConverter) (x : Exchange)
    {properties : Dictionary Value} (h : properties.toList.Perm x.properties.toList) :
    settings.dump converter { x with properties } = settings.dump converter x :=
  settings.dump_eq_of_property?_eq converter rfl rfl (Dictionary.find?_congr_of_perm h) rfl

end DumpSettings

/-! ## Every history -/

/-- A dump shows nothing of the order of updates.  Histories that leave the same body, failure and
properties, and every header with the same spelling and value, are dumped alike, and so are
properties that are the same but listed in another way.  Where the properties or the headers are
shown, they are listed in the order of their keys, as the updates leave them.  Headers with
different keys, and properties with different keys, may be set in any order. -/
theorem dump_of_updates (settings : DumpSettings) (converter : TypeConverter) (id : ExchangeId)
    (created : Instant) (updates : List ExchangeUpdate) :
    let x := (Exchange.new id created).updateAll updates
    let layout := settings.layout
    (∀ created' others, SameOutcome updates others →
        settings.dump converter x =
          settings.dump converter ((Exchange.new id created').updateAll others)) ∧
      (∀ properties : Dictionary Value, properties.toList.Perm x.properties.toList →
        settings.dump converter { x with properties } = settings.dump converter x) ∧
      (∃ (listed : List DumpSection) (text : DumpSection → String),
        listed.Sublist
            [.id, .headers, .properties, .bodyType, .body, .exception, .stackTrace] ∧
          (∀ shown ∈ listed, layout.SectionText converter x shown (text shown)) ∧
          settings.dump converter x = layout.join (listed.map text) ∧
          (settings.showProperties = true → .properties ∈ listed ∧
            ∃ entries listing, PropertyListing updates entries ∧
              Listing converter entries listing ∧
              text .properties = layout.label "Properties" ++ listing) ∧
          (settings.showHeaders = true → .headers ∈ listed ∧
            ∃ entries listing, HeaderListing updates entries ∧
              Listing converter entries listing ∧
              text .headers = layout.label "Headers" ++ listing)) ∧
      (∀ headers others : List (String × Value), headers.Perm others →
        (headers.map fun header => Headers.key header.1).Nodup →
        x.updateAll (headers.map fun header => .header (.insert header.1 header.2)) =
          x.updateAll (others.map fun header => .header (.insert header.1 header.2))) ∧
      ∀ properties others : List (String × Value), properties.Perm others →
        (properties.map Prod.fst).Nodup →
        let y := x.updateAll (properties.map fun property => .setProperty property.1 property.2)
        let z := x.updateAll (others.map fun property => .setProperty property.1 property.2)
        y = { z with properties := y.properties } ∧
          (∀ key, y.property? key = z.property? key) ∧
          settings.dump converter y = settings.dump converter z := by
  intro x layout
  refine ⟨?_, ?_, ?_, ?_, ?_⟩
  · intro created' others h
    exact settings.dump_eq_of_outcome converter h id created created'
  · intro properties hperm
    exact settings.dump_eq_of_perm converter x hperm
  · refine ⟨settings.listed converter x, settings.text converter x, List.filter_sublist,
      fun shown h => (DumpSettings.sectionText_iff_of_mem h _).2 rfl,
      settings.dump_eq_join converter x, fun hshown => ?_, fun hshown => ?_⟩
    · have hmem : .properties ∈ settings.listed converter x :=
        DumpSettings.mem_listed.2 ⟨hshown, rfl⟩
      obtain ⟨content, hsaid, htext⟩ := DumpSettings.exists_says_of_mem hmem
      cases hsaid with
      | properties hsorted hlisting =>
          exact ⟨hmem, _, content, propertyListing_of_updates hsorted, hlisting, htext⟩
    · have hmem : .headers ∈ settings.listed converter x :=
        DumpSettings.mem_listed.2 ⟨hshown, rfl⟩
      obtain ⟨content, hsaid, htext⟩ := DumpSettings.exists_says_of_mem hmem
      cases hsaid with
      | headers hlisting =>
          exact ⟨hmem, _, content, headerListing_of_updates id created updates, hlisting, htext⟩
  · intro headers others hperm hnodup
    exact x.updateAll_headers_perm hperm hnodup
  · intro properties others hperm hnodup y z
    obtain ⟨hsame, hproperty⟩ := x.updateAll_properties_perm hperm hnodup
    have hid := congrArg Exchange.id hsame
    have hmessage := congrArg Exchange.message hsame
    have hexception := congrArg Exchange.exception hsame
    exact ⟨hsame, hproperty,
      settings.dump_eq_of_property?_eq converter hid hmessage hproperty hexception⟩

/-- Headers and properties that are set in another order, and at first to other values.  The
properties are listed in another way until they are sorted. -/
theorem dump_of_updates_of_overwritten :
    let settings : DumpSettings := { showHeaders := true, showProperties := true }
    let updates : List ExchangeUpdate :=
      [.setProperty "z" (.int 1), .setProperty "a" .null, .header (.insert "K" .null),
        .header (.insert "b" .null)]
    let others : List ExchangeUpdate :=
      [.header (.insert "b" .null), .header (.insert "K" (.int 1)), .setProperty "z" .null,
        .header (.insert "k" .null), .setProperty "a" .null, .setProperty "z" (.int 1)]
    let x := (Exchange.new ⟨0⟩ .epoch).updateAll updates
    let y := (Exchange.new ⟨0⟩ .epoch).updateAll others
    (SameOutcome updates others ∧ x.properties.toList.map Prod.fst = ["a", "z"] ∧
        y.properties.toList.map Prod.fst = ["z", "a"]) ∧
      settings.dump .standard x = settings.dump .standard y := by
  intro settings updates others x y
  have hsame : Headers.key "k" = Headers.key "K" := by decide
  have hother : Headers.key "b" ≠ Headers.key "K" := by decide
  have h : SameOutcome updates others :=
    { body_eq := rfl
      exception_eq := rfl
      property_eq := by
        intro key
        by_cases hz : "z" = key
        · subst hz
          rfl
        · by_cases ha : "a" = key <;>
            simp [updates, others, settledProperty?, property?, List.filterMap_cons, hz, ha]
      header_eq := by
        intro name
        by_cases hK : Headers.key "K" = Headers.key name <;>
          by_cases hb : Headers.key "b" = Headers.key name <;>
            simp_all [updates, others, headerCalls, headerCall?, Headers.settled?, Headers.settings,
              List.rtakeWhile, HeaderCall.erases, HeaderCall.sets?, List.filterMap_cons] }
  refine ⟨⟨h, by decide, by decide⟩, ?_⟩
  exact (dump_of_updates settings .standard ⟨0⟩ .epoch updates).1 .epoch others h

end MessageExchange
