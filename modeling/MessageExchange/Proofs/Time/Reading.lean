import MessageExchange.Conversion
import MessageExchange.Proofs.Time.Chronology

/-!
# Texts that are read as instants

A stamp is `Written` in a text that is the stamp's own, with white space around it
and any number of digits after the ninth place of its fraction.  A text `Names` the
instant that a stamp in range shows.  With a chronology that reads stamps these are
all the texts that convert, and each converts to the instant that it names
(`instant?_text_eq_some_iff`).

So a stamp in range is read as its local time less its offset, and any other stamp is
refused (`asInstant_of_stamp`).  An offset may move the instant to another day, month
or year, also to the years -1 and 10000.
-/

namespace MessageExchange.Time

open Text (Framed)

/-! ## What a text names -/

/-- The text is that of the stamp, with digits in excess and white space around it. -/
inductive Stamp.Written (s : Stamp) (text : String) : Prop where
  | around {excess : List Char} :
      Excess s.fraction excess →
      Framed (s.lead (fractionText s.fraction ++ (excess ++ s.offset.text))) text.toList →
      Written s text

/-- The text is that of a stamp in range, and the stamp shows the instant. -/
inductive Names (text : String) (t : Instant) : Prop where
  | stamp {s : Stamp} {second : Int} :
      s.Written text → s.InRange → s.LocalSecond second →
      t.second = second - s.offset.seconds → t.nanos = s.nanos → Names text t

namespace Stamp

variable {s : Stamp} {text : String}

theorem written_iff : s.Written text ↔ s.IsText (Text.trim text.toList) := by
  constructor
  · rintro ⟨hexcess, hframed⟩
    exact ⟨_, hexcess, Text.framed_iff.1 hframed⟩
  · rintro ⟨excess, hexcess, htrim⟩
    exact .around hexcess (Text.framed_iff.2 htrim)

theorem Spells.written (h : s.Spells text) : s.Written text := by
  obtain ⟨before, after, hbefore, hafter, htext⟩ := h
  rw [written_iff, htext, Text.trim_of_framed (.around hbefore s.tight_text hafter)]
  exact s.isText_text

/-- The fields that are read off a text are those of every stamp that is written in it, so the
stamps are in range together. -/
theorem Written.inRange_iff {s' : Stamp} (h : s.Written text) (h' : s'.Written text) :
    s.InRange ↔ s'.InRange := by
  have hfields := (written_iff.1 h).read?
  rw [(written_iff.1 h').read?] at hfields
  exact inRange_iff_of_fields_eq (Option.some.inj hfields).symm

/-- A stamp in range shows an instant. -/
theorem exists_instant (hin : s.InRange) {second : Int} (hsecond : s.LocalSecond second) :
    ∃ t : Instant, t.second = second - s.offset.seconds ∧ t.nanos = s.nanos := by
  obtain ⟨z, hz⟩ := exists_shows hin
  refine ⟨z.toInstant, ?_, hz.nanos_eq⟩
  rw [hz.localSecond_eq hsecond z.date.away_dayNumber, ← hz.offset_eq]
  rfl

theorem Written.exists_names (h : s.Written text) (hin : s.InRange) : ∃ t, Names text t := by
  obtain ⟨second, hsecond⟩ := exists_localSecond hin
  obtain ⟨t, htsecond, htnanos⟩ := exists_instant hin hsecond
  exact ⟨t, .stamp h hin hsecond htsecond htnanos⟩

end Stamp

/-! ## What is read -/

section
variable {chronology : Chronology} (hreads : chronology.Reads) {text : String}
include hreads

/-- The instant of a time is that of every stamp that shows the time. -/
theorem toUniversal_of_shows {s : Stamp} {z : Zoned} (h : s.Shows z) {second : Int}
    (hsecond : s.LocalSecond second) :
    (chronology.toUniversal z).second = second - s.offset.seconds ∧
      (chronology.toUniversal z).nanos = s.nanos := by
  have hday := z.date.away_dayNumber
  rw [hreads.second_toUniversal hday, ← h.localSecond_eq hsecond hday, h.offset_eq]
  exact ⟨rfl, hreads.nanos_toUniversal.trans h.nanos_eq⟩

/-- The texts that are read are those that name an instant, and they are read as that instant. -/
theorem instant?_text_eq_some_iff {t : Instant} :
    (Value.text text).instant? chronology = some t ↔ Names text t := by
  rw [Value.instant?, Option.map_eq_some_iff]
  simp only [hreads.read?_eq_some_iff, String.toList_ofList, ← Stamp.written_iff]
  constructor
  · rintro ⟨z, ⟨s, hwritten, hin, hshows⟩, rfl⟩
    obtain ⟨second, hsecond⟩ := Stamp.exists_localSecond hin
    obtain ⟨htsecond, htnanos⟩ := toUniversal_of_shows hreads hshows hsecond
    exact .stamp hwritten hin hsecond htsecond htnanos
  · rintro ⟨hwritten, hin, hsecond, htsecond, htnanos⟩
    obtain ⟨z, hshows⟩ := Stamp.exists_shows hin
    obtain ⟨hzsecond, hznanos⟩ := toUniversal_of_shows hreads hshows hsecond
    exact ⟨z, ⟨_, hwritten, hin, hshows⟩,
      Instant.ext (hzsecond.trans htsecond.symm) (hznanos.trans htnanos.symm)⟩

theorem asInstant_of_names {t : Instant} (h : Names text t) :
    (Value.text text).asInstant chronology = .ok t := by
  rw [Value.asInstant, (instant?_text_eq_some_iff hreads).2 h]

theorem asInstant_of_not_names (h : ∀ t, ¬Names text t) :
    (Value.text text).asInstant chronology =
      .error (.noTypeConversion "String" "DateTime<Utc>") := by
  have hnone : (Value.text text).instant? chronology = none :=
    Option.eq_none_iff_forall_ne_some.2 fun t ht =>
      h t ((instant?_text_eq_some_iff hreads).1 ht)
  rw [Value.asInstant, hnone]
  rfl

/-! ## Every stamp -/

/-- The text of a stamp in range, with any white space around it, converts to the local time less
the offset, with the fraction as nanoseconds.  The text of any other stamp is refused.  Two texts
that show the same instant at two offsets convert to the same instant. -/
theorem asInstant_of_stamp (s : Stamp) (text : String) (h : s.Spells text) :
    (s.InRange → ∃ second t, s.LocalSecond second ∧
        (Value.text text).asInstant chronology = .ok t ∧
        t.second = second - s.offset.seconds ∧ t.nanos = s.nanos) ∧
      (¬s.InRange → (Value.text text).asInstant chronology =
        .error (.noTypeConversion "String" "DateTime<Utc>")) ∧
      ∀ (other : Stamp) (otherText : String) (second otherSecond : Int), other.Spells otherText →
        s.InRange → other.InRange → s.LocalSecond second → other.LocalSecond otherSecond →
        second - s.offset.seconds = otherSecond - other.offset.seconds → s.nanos = other.nanos →
        (Value.text text).asInstant chronology = (Value.text otherText).asInstant chronology := by
  refine ⟨fun hin => ?_, fun hout => asInstant_of_not_names hreads ?_, ?_⟩
  · obtain ⟨second, hsecond⟩ := Stamp.exists_localSecond hin
    obtain ⟨t, htsecond, htnanos⟩ := Stamp.exists_instant hin hsecond
    have hread :=
      asInstant_of_names hreads (.stamp h.written hin hsecond htsecond htnanos)
    exact ⟨second, t, hsecond, hread, htsecond, htnanos⟩
  · rintro t ⟨hwritten, hin, -, -, -⟩
    exact hout ((h.written.inRange_iff hwritten).2 hin)
  · intro other otherText second otherSecond hother hin hin' hsecond hsecond' heq hnanos
    obtain ⟨t, htsecond, htnanos⟩ := Stamp.exists_instant hin hsecond
    rw [asInstant_of_names hreads (.stamp h.written hin hsecond htsecond htnanos),
      asInstant_of_names hreads (.stamp hother.written hin' hsecond' (htsecond.trans heq)
        (htnanos.trans hnanos))]

end

/-- Half an hour into March ahead of universal time, and the leap second of the leap day that it is
there.  The year 1900 has no such day. -/
theorem asInstant_of_stamp_on_leap_day :
    let ahead : Stamp :=
      { year := 2024, month := 3, day := 1, separator := 'T', separator_mem := by decide
        hour := 0, minute := 30, second := 60
        fraction := some ⟨1, 5, by decide, by decide⟩
        offset := .ahead 1 0 }
    let universal : Stamp :=
      { year := 2024, month := 2, day := 29, separator := 'T', separator_mem := by decide
        hour := 23, minute := 30, second := 60
        fraction := some ⟨3, 500, by decide, by decide⟩
        offset := .universal 'Z' (by decide) }
    let absent : Stamp :=
      { year := 1900, month := 2, day := 29, separator := 'T', separator_mem := by decide
        hour := 0, minute := 0, second := 0
        fraction := none
        offset := .universal 'Z' (by decide) }
    (ahead.Spells " 2024-03-01T00:30:60.5+01:00" ∧ universal.Spells "2024-02-29T23:30:60.500Z\n" ∧
        ahead.InRange ∧ universal.InRange ∧
        (Value.text " 2024-03-01T00:30:60.5+01:00").asInstant =
          (Value.text "2024-02-29T23:30:60.500Z\n").asInstant) ∧
      absent.Spells "1900-02-29T00:00:00Z" ∧ ¬absent.InRange ∧
        (Value.text "1900-02-29T00:00:00Z").asInstant =
          .error (.noTypeConversion "String" "DateTime<Utc>") := by
  intro ahead universal absent
  have hahead : ahead.Spells " 2024-03-01T00:30:60.5+01:00" :=
    ⟨[' '], [], .cons rfl .nil, .nil, by decide⟩
  have huniversal : universal.Spells "2024-02-29T23:30:60.500Z\n" :=
    ⟨[], ['\n'], .nil, .cons rfl .nil, by decide⟩
  have habsent : absent.Spells "1900-02-29T00:00:00Z" := ⟨[], [], .nil, .nil, by decide⟩
  have hin : ahead.InRange := by decide
  have hin' : universal.InRange := by decide
  have hout : ¬absent.InRange := by decide
  let march : Date := ⟨2024, 3, 1, by decide, by decide⟩
  let february : Date := ⟨2024, 2, 29, by decide, by decide⟩
  have hsecond := @Stamp.LocalSecond.count ahead march _ rfl rfl rfl march.away_dayNumber
  have hsecond' := @Stamp.LocalSecond.count universal february _ rfl rfl rfl february.away_dayNumber
  have hreads := Chronology.reads_standard
  exact ⟨⟨hahead, huniversal, hin, hin', (asInstant_of_stamp hreads ahead _ hahead).2.2 universal
      _ _ _ huniversal hin hin' hsecond hsecond' (by decide) (by decide)⟩,
    habsent, hout, (asInstant_of_stamp hreads absent _ habsent).2.1 hout⟩

end MessageExchange.Time
