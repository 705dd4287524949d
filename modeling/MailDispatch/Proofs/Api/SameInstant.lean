import MailDispatch.Proofs.Api.Repetition
import MailDispatch.Proofs.Mailing.Moments

/-! # Requests for one instant

Whether an entry is a duplicate depends on the instant of its time. A request to create an entry
may spell that instant in any way, with any offset and any digits that say nothing: it is the same
request, and the second of two such requests is refused.
-/
namespace MailDispatch.Api
open Text Octets Json Http Mailing Service Time Reader

/-- Two texts spell local times of known years that denote one instant. -/
def SameInstant (s s' : String) : Prop :=
  ∃ (x x' : LocalTime) (second : Int) (nano : Nat),
    (SpellsTime x s.toList ∧ x.Known ∧ x.Denotes second nano) ∧
      SpellsTime x' s'.toList ∧ x'.Known ∧ x'.Denotes second nano

theorem SameInstant.read_eq {s s' : String} (h : SameInstant s s') :
    Reader.read s.toList = Reader.read s'.toList := by
  obtain ⟨x, x', second, nano, ⟨hs, hknown, hx⟩, hs', hknown', hx'⟩ := h
  exact read_eq_of_denotes hs hknown hx hs' hknown' hx'

theorem sameInstant_of_read {s s' : String} {t : Timestamp} (h : Reader.read s.toList = .ok t)
    (h' : Reader.read s'.toList = .ok t) : SameInstant s s' := by
  obtain ⟨x, hs⟩ := read_eq_ok_iff.mp h
  obtain ⟨x', hs'⟩ := read_eq_ok_iff.mp h'
  exact ⟨x, x', t.second, t.nano, hs, hs'⟩

/-- The instant of its time counts in a request to create an entry, and not the spelling. Bodies
that differ only in the spelling of one instant are read as the same draft, and of two requests with
such bodies the later one repeats the earlier one. The time of a draft is the local time that its
text spells, less the offset; an instant that the timestamps do not reach is refused. -/
theorem instant_counts_not_its_spelling (emailer : Service.Emailer) (threshold : Time.Span) :
    (∀ frame s s' v v' d, SameInstant s s' → Frame.Spells s frame v → Frame.Spells s' frame v' →
      createRecord.read v = .ok d → createRecord.read v' = .ok d) ∧
    (∀ frame s s' r r' d, SameInstant s s' → Frame.Spells s frame r.body →
      Frame.Spells s' frame r'.body → Creates r → Creates r' → createRecord.read r.body = .ok d →
      d.check = .ok () → Traffic.Repeats emailer threshold d r r' ∧
        Traffic.Repeats emailer threshold d r' r) ∧
    (∀ v d, createRecord.read v = .ok d → ∃ frame, ∃ s : String, ∃ x, Frame.Spells s frame v ∧
      SpellsTime x s.toList ∧ x.Denotes d.insertTime.second d.insertTime.nano) ∧
    (∀ frame s v d x, Frame.Spells s frame v → createRecord.read v = .ok d →
      SpellsTime x s.toList → x.Denotes d.insertTime.second d.insertTime.nano) ∧
    (∀ (s : String) x second nano, SpellsTime x s.toList → x.Known → x.Denotes second nano →
      firstSecond ≤ second → second ≤ lastSecond →
      ∃ t, Reader.read s.toList = .ok t ∧ t.second = second ∧ t.nano = nano) ∧
    (∀ (s : String) x second nano, SpellsTime x s.toList → x.Denotes second nano →
      second < firstSecond ∨ lastSecond < second →
      (∃ p, Reader.read s.toList = .error p) ∧
        ∀ frame v d, Frame.Spells s frame v → createRecord.read v ≠ .ok d) := by
  refine ⟨?_, ?_, ?_, ?_, ?_, ?_⟩
  · intro frame s s' v v' d hsame hv hv' hread
    exact read_of_read_eq hv hv' hsame.read_eq hread
  · intro frame s s' r r' d hsame hr hr' hcreates hcreates' hread hcheck
    have hread' := read_of_read_eq hr hr' hsame.read_eq hread
    constructor
    · exact Traffic.repeats emailer threshold hcheck hcreates hread hcreates' hread'
    · exact Traffic.repeats emailer threshold hcheck hcreates' hread' hcreates hread
  · intro v d hread
    obtain ⟨frame, s, hv⟩ := exists_frame_of_read hread
    obtain ⟨x, hs, -, hx⟩ := read_eq_ok_iff.mp (time_of_read hv hread)
    exact ⟨frame, s, x, hv, hs, hx⟩
  · intro frame s v d x hv hread hs
    exact (denotes_of_read hs (time_of_read hv hread)).2
  · intro s x second nano hs hknown hx hfirst hlast
    exact read_of_denotes hs hknown hx hfirst hlast
  · intro s x second nano hs hx houtside
    obtain ⟨p, hrefused⟩ := exists_error_of_outside hs hx houtside
    refine ⟨⟨p, hrefused⟩, fun frame v d hv hread => ?_⟩
    have htime := time_of_read hv hread
    rw [hrefused] at htime
    cases htime

/-! ## Spellings around a leap day -/

def greetingAt (t : Timestamp) : Draft := ⟨⟨7⟩, "anna@example.com", "Hello", "World", t⟩

theorem check_greetingAt (t : Timestamp) : (greetingAt t).check = .ok () := by
  have hproblems : (greetingAt .earliest).problems = [] := by decide +kernel
  have hsame : (greetingAt t).problems = [] := hproblems
  rw [Draft.check, hsame]

/-- A request to create an entry, with any text for the time of its draft. -/
def creationOf (d : Draft) (s : String) : Request :=
  { posted "/api/messages" "" with body := d.writtenWith s }

theorem route_creationOf (d : Draft) (s : String) :
    route messageRoutes (creationOf d s) = .found .create [] := by
  have hpath : (Target.parse "/api/messages").path = "/api/messages" := by decide +kernel
  exact route_create rfl hpath

theorem creates_creationOf {d : Draft} {s : String} (h : (d.writtenWith s).length ≤ bodyLimit) :
    Creates (creationOf d s) where
  routed := ⟨[], route_creationOf d s⟩
  document := rfl
  fits := h

/-- In the evening of a leap day, where clocks are behind and the next month has begun in
coordinated time. -/
def leapEvening : LocalTime where
  date := ⟨2024, 2, 29⟩
  clock := ⟨22, 45, 0, 500000000⟩
  ahead := -270
  real := by decide
  timely := by decide
  near := by decide

def leapEvening.moment : Timestamp :=
  ⟨1709262900, 500000000, by decide, by decide, by decide, by decide⟩

/-- The first minute that timestamps know of, where clocks are a minute ahead. -/
def earliestMinute : LocalTime where
  date := ⟨-262143, 1, 1⟩
  clock := ⟨0, 0, 0, 0⟩
  ahead := 1
  real := by decide
  timely := by decide
  near := by decide

theorem spellsTime_leapEvening :
    SpellsTime leapEvening "2024-02-29 22:45:00.500000000999-0430".toList := by
  have hdate : date "2024-02-29 22:45:00.500000000999-0430".toList =
      .ok (leapEvening.date, ' ' :: "22:45:00.500000000999-0430".toList) := rfl
  have hclock : clock "22:45:00.500000000999-0430".toList =
      .ok (leapEvening.clock, "-0430".toList) := rfl
  have hoffset : offset "-0430".toList = .ok (leapEvening.ahead * 60, []) := rfl
  exact spellsTime_of_parts hdate (by decide) hclock hoffset Gap.nil

theorem spellsTime_earliestMinute :
    SpellsTime earliestMinute "-262143-01-01t00:00:00 +00:01".toList := by
  have hdate : date "-262143-01-01t00:00:00 +00:01".toList =
      .ok (earliestMinute.date, 't' :: "00:00:00 +00:01".toList) := rfl
  have hclock : clock "00:00:00 +00:01".toList =
      .ok (earliestMinute.clock, " +00:01".toList) := rfl
  have hoffset : offset " +00:01".toList = .ok (earliestMinute.ahead * 60, []) := rfl
  exact spellsTime_of_parts hdate (by decide) hclock hoffset Gap.nil

theorem leap_evening_counts_in_every_spelling :
    let d := greetingAt leapEvening.moment
    let s := "2024-03-01T03:15:00.5Z"
    let s' := "2024-02-29 22:45:00.500000000999-0430"
    createRecord.read (d.writtenWith s') = .ok d ∧
      Traffic.Repeats carrier (.ofSeconds 60) d (creationOf d s) (creationOf d s') ∧
      Traffic.Repeats carrier (.ofSeconds 60) d (creationOf d s') (creationOf d s) ∧
      (∃ frame, ∃ s : String, ∃ x, Frame.Spells s frame (d.writtenWith s') ∧
        SpellsTime x s.toList ∧ x.Denotes d.insertTime.second d.insertTime.nano) ∧
      leapEvening.Denotes 1709262900 500000000 ∧
      (∃ t, Reader.read s'.toList = .ok t ∧ t.second = 1709262900 ∧ t.nano = 500000000) ∧
      ∃ p, Reader.read "-262143-01-01t00:00:00 +00:01".toList = .error p := by
  have hs : Reader.read "2024-03-01T03:15:00.5Z".toList = .ok leapEvening.moment := rfl
  have hs' : Reader.read "2024-02-29 22:45:00.500000000999-0430".toList =
      .ok leapEvening.moment := rfl
  intro d s s'
  obtain ⟨hequal, hrepeats, hframe, htime, hreached, houtside⟩ :=
    instant_counts_not_its_spelling carrier (.ofSeconds 60)
  have hsame : SameInstant s s' := sameInstant_of_read hs hs'
  have hread : createRecord.read (d.writtenWith s) = .ok d := d.read_writtenWith (by decide) hs
  have hread' := hequal _ s s' _ _ d hsame (d.spells_writtenWith s) (d.spells_writtenWith s') hread
  have hbefore : earliestMinute.Denotes (firstSecond - 60) 0 :=
    ⟨firstSecond / 86400, Calendar.falls_iff.mpr (by decide), by decide, rfl⟩
  have hdenotes := htime _ s' _ d _ (d.spells_writtenWith s') hread'
    spellsTime_leapEvening
  obtain ⟨hforth, hback⟩ := hrepeats _ s s' (creationOf d s) (creationOf d s') d hsame
    (d.spells_writtenWith s) (d.spells_writtenWith s') (creates_creationOf (by decide +kernel))
    (creates_creationOf (by decide +kernel)) hread (check_greetingAt _)
  refine ⟨hread', hforth, hback, hframe _ d hread', hdenotes, ?_, ?_⟩
  · exact hreached s' leapEvening _ _ spellsTime_leapEvening ⟨by decide, by decide⟩ hdenotes
      (by decide) (by decide)
  · exact (houtside _ earliestMinute _ _ spellsTime_earliestMinute hbefore (by decide)).1

/-! ## Spellings that make a difference -/

theorem near_of_no_offset : -1440 < (0 : Int) ∧ (0 : Int) < 1440 := by decide

def springMorning : LocalTime where
  date := ⟨2990, 5, 1⟩
  clock := ⟨10, 0, 0, 0⟩
  ahead := 0
  real := by decide
  timely := by decide
  near := near_of_no_offset

def springMorning.moment : Timestamp :=
  ⟨32198551200, 0, Timestamp.earliest.nano_lt, by decide, by decide, by decide⟩

/-- A spelling with so many zeros in its fraction, and one more. -/
def zeroFraction (k : Nat) : List Char :=
  "2990-05-01".toList ++ 'T' :: ("10:00:00.0".toList ++ List.replicate k '0' ++ ['Z'])

theorem lt_length_zeroFraction (k : Nat) : k < (zeroFraction k).length := by
  unfold zeroFraction
  generalize "2990-05-01".toList = d
  generalize "10:00:00.0".toList = c
  simp only [List.length_append, List.length_cons, List.length_replicate]
  omega

theorem spellsTime_zeroFraction (k : Nat) : SpellsTime springMorning (zeroFraction k) := by
  have hdate : SpellsDate springMorning.date _ :=
    .date (spellsYear_written 2990) (.alone '-') (spellsPart_padded (n := 5) (by decide))
      (.alone '-') (spellsPart_padded (n := 1) (by decide))
  have hfraction : SpellsFraction 0 ('.' :: (['0'] ++ List.replicate k '0')) :=
    (SpellsFraction.digits (Numeral.isNumeral_padded 1 0)).append_zeros k
  have hclock : SpellsClock springMorning.clock _ :=
    .clock (spellsPart_padded (n := 10) (by decide)) (.alone ':')
      (spellsPart_padded (n := 0) (by decide)) (.alone ':') (spellsPart_padded (n := 0) (by decide))
      hfraction
  exact .time hdate (.inl rfl) hclock (.zulu Gap.nil (.inl rfl)) Gap.nil

theorem read_zeroFraction (k : Nat) : Reader.read (zeroFraction k) = .ok springMorning.moment :=
  read_eq_ok_iff.mpr ⟨springMorning, spellsTime_zeroFraction k, ⟨by decide, by decide⟩, 372668,
    Calendar.falls_iff.mpr (by decide), by decide, rfl⟩

/-- In the first hour of a year that timestamps do not know, where clocks are an hour ahead. -/
def yearAfter : LocalTime where
  date := ⟨262143, 1, 1⟩
  clock := ⟨0, 59, 59, 999999999⟩
  ahead := 60
  real := by decide
  timely := by decide
  near := by decide

theorem spellsTime_yearAfter :
    SpellsTime yearAfter "+262143-01-01T00:59:59.999999999+01:00".toList := by
  have hdate : date "+262143-01-01T00:59:59.999999999+01:00".toList =
      .ok (yearAfter.date, 'T' :: "00:59:59.999999999+01:00".toList) := rfl
  have hclock : clock "00:59:59.999999999+01:00".toList =
      .ok (yearAfter.clock, "+01:00".toList) := rfl
  have hoffset : offset "+01:00".toList = .ok (yearAfter.ahead * 60, []) := rfl
  exact spellsTime_of_parts hdate (by decide) hclock hoffset Gap.nil

/-- A tab between the date and the time of day is refused, although blanks are taken elsewhere. So
is a date of a year that timestamps do not know, although its instant is known. A body that is too
long is not read, whatever it spells. -/
theorem spelling_counts_beyond_the_limits :
    let d := greetingAt springMorning.moment
    let e := greetingAt .latest
    let s := String.ofList (zeroFraction bodyLimit)
    (createRecord.read (d.writtenWith "2990-05-01T10:00:00Z") = .ok d ∧
      ∀ d', createRecord.read (d.writtenWith "2990-05-01\t10:00:00Z") ≠ .ok d') ∧
    (createRecord.read (e.writtenWith "+262142-12-31T23:59:59.999999999Z") = .ok e ∧
      SpellsTime yearAfter "+262143-01-01T00:59:59.999999999+01:00".toList ∧
      yearAfter.Denotes e.insertTime.second e.insertTime.nano ∧
      ∀ d', createRecord.read (e.writtenWith "+262143-01-01T00:59:59.999999999+01:00") ≠ .ok d') ∧
    SameInstant "2990-05-01T10:00:00Z" s ∧ createRecord.read (d.writtenWith s) = .ok d ∧
      ¬ Traffic.Repeats carrier (.ofSeconds 60) d (creationOf d "2990-05-01T10:00:00Z")
        (creationOf d s) := by
  have hmorning : Reader.read "2990-05-01T10:00:00Z".toList = .ok springMorning.moment := rfl
  intro d e s
  have hzeros : Reader.read s.toList = .ok springMorning.moment := by
    rw [String.toList_ofList]
    exact read_zeroFraction bodyLimit
  refine ⟨⟨?_, ?_⟩, ⟨?_, spellsTime_yearAfter, ?_, ?_⟩, ?_, ?_, ?_⟩
  · exact Draft.read_writtenWith (by decide) hmorning
  · intro d'
    apply Draft.read_writtenWith_ne (p := .invalid)
    rfl
  · apply Draft.read_writtenWith (by decide)
    rfl
  · exact ⟨lastSecond / 86400 + 1, Calendar.falls_iff.mpr (by decide), by decide, rfl⟩
  · intro d'
    apply Draft.read_writtenWith_ne (p := .outOfRange)
    rfl
  · exact sameInstant_of_read hmorning hzeros
  · exact Draft.read_writtenWith (by decide) hzeros
  · have hlength := d.length_le_writtenWith s
    rw [String.toList_ofList] at hlength
    have hlong : bodyLimit < (d.writtenWith s).length :=
      Nat.lt_of_lt_of_le (lt_length_zeroFraction bodyLimit) hlength
    have hbody : readBody createRecord (creationOf d s) =
        .error (.malformed "Failed to buffer the request body: length limit exceeded") := by
      rw [readBody, if_neg (by decide)]
      exact if_pos hlong
    exact Traffic.not_repeats carrier (.ofSeconds 60) d _ (route_creationOf d s) hbody

end MailDispatch.Api
