import GameSheet.Proofs.Journal.Reading
import GameSheet.Proofs.Journal.Rotation

/-!
# What the tail of a journal shows

Reading looks at the last bytes of a file only. Of the events that were written, those lie within the tail whose whole
lines do (`withinTail`). A tail that starts inside a line shows exactly them. One that starts right at a line
(`StartsAtLine`) misses the event of that line: the first line is dropped as if it were cut
(`Journal.tailLines_of_cut`).

**`Shelf.read_tail`** says what a query without conditions gives in both cases.
-/

namespace GameSheet

/-! ## Records with floats -/

namespace Data

theorem Keyed.map_entries {entries : List (String × Data)} (hnodup : (entries.map Prod.fst).Nodup) {f : Data → Data}
    (h : ∀ e ∈ entries, (f e.2).Keyed) : Keyed (Data.mapping (entries.map fun e => (e.1, f e.2))) := by
  refine .mapping ?_ fun e he => ?_
  · rw [List.map_map]
    exact hnodup
  · obtain ⟨e', he', rfl⟩ := List.mem_map.1 he
    exact h e' he'

theorem Keyed.finite {d : Data} (h : d.Keyed) : (finiteData d).Keyed := by
  induction h with
  | null => exact .null
  | bool b => exact .bool b
  | int n => exact .int n
  | float x =>
    rw [finiteData]
    split
    · exact .float x
    · exact .null
  | text s => exact .text s
  | list hkeyed ih =>
    rw [finiteData, finiteItems_eq]
    refine .list fun d' hd' => ?_
    obtain ⟨d, hd, rfl⟩ := List.mem_map.1 hd'
    exact ih d hd
  | mapping hnodup hkeyed ih =>
    rw [finiteData, finiteEntries_eq]
    exact .map_entries hnodup ih

theorem Keyed.sorted {d : Data} (h : d.Keyed) : d.sortKeys.Keyed := by
  induction h with
  | null => exact .null
  | bool b => exact .bool b
  | int n => exact .int n
  | float x => exact .float x
  | text s => exact .text s
  | list hkeyed ih =>
    rw [sortKeys, sortItems_eq]
    refine .list fun d' hd' => ?_
    obtain ⟨d, hd, rfl⟩ := List.mem_map.1 hd'
    exact ih d hd
  | @mapping entries hnodup hkeyed ih =>
    have hperm := List.mergeSort_perm (sortEntries entries) fun a b => a.1 ≤ b.1
    rw [sortKeys]
    rw [sortEntries_eq] at hperm ⊢
    cases Keyed.map_entries hnodup ih with
    | mapping hnodup' hkeyed' =>
      exact .mapping ((hperm.map Prod.fst).nodup_iff.2 hnodup') fun e he => hkeyed' e (hperm.mem_iff.1 he)

end Data

namespace Event

/-- The record of an event as it is read from its line: with sorted keys, and floats as their texts denote them. -/
def recorded (time : String) (e : Event) : Data :=
  (e.record time).sortKeys.reread

theorem record_keyed {e : Event} (h : (Data.mapping e.context).Keyed) (time : String) :
    (e.record time).sortKeys.Keyed := by
  have hcode : (textOrNull e.errorCode).Keyed := by
    cases e.errorCode with
    | none => exact .null
    | some code => exact .text code
  refine Data.Keyed.sorted (.mapping (by simp) ?_)
  simp only [List.forall_mem_cons]
  exact ⟨.int _, .text _, .text _, .text _, .text _, h.finite, hcode, List.forall_mem_nil _⟩

end Event

/-! ## Lines from some byte on -/

namespace Journal

/-- The characters of some lines, each with its end. -/
def lineChars (lines : List (List Char)) : List Char :=
  lines.flatMap fun line => line ++ ['\n']

theorem lineChars_append (lines more : List (List Char)) :
    lineChars (lines ++ more) = lineChars lines ++ lineChars more :=
  List.flatMap_append

theorem ascii_lineChars {lines : List (List Char)} (h : ∀ line ∈ lines, ∀ c ∈ line, Data.Printable c) :
    ∀ c ∈ lineChars lines, c.toNat < 0x80 := by
  intro c hc
  obtain ⟨line, hline, hc⟩ := List.mem_flatMap.1 hc
  rcases List.mem_append.1 hc with hc | hc
  · exact Nat.lt_trans (h line hline c hc).2 (by decide)
  · rw [List.mem_singleton.1 hc]
    decide

/-- Lines are read off their characters. -/
theorem lines_lineChars {lines : List (List Char)} (h : ∀ line ∈ lines, ∀ c ∈ line, Data.Printable c) :
    Text.lines (lineChars lines) = lines :=
  Text.lines_flatMap fun line hline c hc => isLineEnd_of_printable (h line hline c hc)

/-- **What reading sees of a file that it starts inside**: the lines after the one it starts in; and if it starts right
at a line, the lines after that. -/
theorem tailLines_of_cut {before after : List (List Char)} {line : List Char}
    (hprintable : ∀ l ∈ before ++ line :: after, ∀ c ∈ l, Data.Printable c) {j : Journal}
    (hcontent : j.content = Text.utf8 (String.ofList (lineChars (before ++ line :: after)))) {upkeep : Upkeep}
    {cut : Nat} (hstart : j.tailStart upkeep = (lineChars before).length + cut) (hpos : 0 < cut)
    (hcut : cut ≤ line.length + 1) :
    j.tailLines upkeep = if cut = line.length + 1 then after.drop 1 else after := by
  obtain ⟨-, hrest⟩ := List.forall_mem_append.1 hprintable
  obtain ⟨hline, hafter⟩ := List.forall_mem_cons.1 hrest
  have hascii := ascii_lineChars hprintable
  have hchars : Text.ofUtf8 (j.content.drop (j.tailStart upkeep)) = (lineChars (line :: after)).drop cut := by
    rw [hcontent, hstart, Text.drop_utf8 hascii, Text.ofUtf8_utf8, String.toList_ofList, lineChars_append,
      List.drop_append, List.drop_of_length_le (Nat.le_add_right _ _), Nat.add_sub_cancel_left, List.nil_append]
    rw [String.toList_ofList]
    exact fun c hc => hascii c (List.mem_of_mem_drop hc)
  have htail : (lineChars (line :: after)).drop cut = (line ++ ['\n']).drop cut ++ lineChars after :=
    List.drop_append_of_le_length (by simpa using hcut)
  rw [tailLines, hchars, htail, if_pos (by omega)]
  split
  · next heq =>
    have hnil : (line ++ ['\n']).drop cut = [] := List.drop_of_length_le (by simp [heq])
    rw [hnil, List.nil_append, lines_lineChars hafter]
  · next hne =>
    have hcutLine : (line ++ ['\n']).drop cut ++ lineChars after = lineChars (line.drop cut :: after) := by
      rw [List.drop_append_of_le_length (by omega)]
      rfl
    have hlines : ∀ l ∈ line.drop cut :: after, ∀ c ∈ l, Data.Printable c :=
      List.forall_mem_cons.2 ⟨fun c hc => hline c (List.mem_of_mem_drop hc), hafter⟩
    rw [hcutLine, lines_lineChars hlines, List.drop_one, List.tail_cons]

end Journal

/-! ## Events within the tail -/

/-- The events whose lines lie within the last bytes of what is written for all of them. -/
def withinTail (tailBytes : Int) : List (String × Event) → List (String × Event)
  | [] => []
  | r :: rest => if (writtenBytes (r :: rest)).length ≤ tailBytes then r :: rest else withinTail tailBytes rest

/-- The last bytes start right at the line of an event, and other lines stand in front of them. -/
def StartsAtLine (tailBytes : Int) (events : List (String × Event)) : Prop :=
  tailBytes < (writtenBytes events).length ∧ (writtenBytes (withinTail tailBytes events)).length = tailBytes

instance (tailBytes : Int) (events : List (String × Event)) : Decidable (StartsAtLine tailBytes events) :=
  inferInstanceAs (Decidable (_ ∧ _))

theorem withinTail_of_le {tailBytes : Int} {events : List (String × Event)}
    (h : (writtenBytes events).length ≤ tailBytes) : withinTail tailBytes events = events := by
  cases events with
  | nil => rfl
  | cons r rest => rw [withinTail, if_pos h]

theorem length_withinTail_le (tailBytes : Int) (events : List (String × Event)) :
    (withinTail tailBytes events).length ≤ events.length := by
  induction events with
  | nil => exact Nat.le_refl _
  | cons r rest ih =>
    rw [withinTail]
    split
    · exact Nat.le_refl _
    · exact Nat.le_succ_of_le ih

/-- A tail that does not cover the events starts inside the line of one of them or at its end. -/
theorem exists_cut {tailBytes : Int} (hnonneg : 0 ≤ tailBytes) {events : List (String × Event)}
    (h : tailBytes < (writtenBytes events).length) :
    ∃ before r after, events = before ++ r :: after ∧ withinTail tailBytes events = after ∧
      (writtenBytes after).length ≤ tailBytes ∧ tailBytes < (writtenBytes (r :: after)).length := by
  induction events with
  | nil => exact absurd h (by simpa [writtenBytes] using hnonneg)
  | cons r rest ih =>
    rw [withinTail, if_neg (by omega)]
    by_cases hrest : (writtenBytes rest).length ≤ tailBytes
    · exact ⟨[], r, rest, rfl, withinTail_of_le hrest, hrest, h⟩
    · obtain ⟨before, r', after, hevents, hwithin, hle, hlt⟩ := ih (by omega)
      exact ⟨r :: before, r', after, by rw [hevents]; rfl, hwithin, hle, hlt⟩

/-! ## Events and their lines -/

/-- The lines of some events. -/
def eventLines (events : List (String × Event)) : List (List Char) :=
  events.map fun r => (r.2.line r.1).toList

theorem writtenBytes_eq (events : List (String × Event)) :
    writtenBytes events = Text.utf8 (String.ofList (Journal.lineChars (eventLines events))) := by
  rw [writtenBytes, Journal.flatMap_lineBytes (fun r : String × Event => r.2.line r.1), Journal.lineChars, eventLines,
    List.flatMap_map]

section Keyed

variable {events : List (String × Event)} (hkeyed : ∀ r ∈ events, (Data.mapping r.2.context).Keyed)

include hkeyed

theorem printable_eventLines : ∀ line ∈ eventLines events, ∀ c ∈ line, Data.Printable c := by
  intro line hline
  obtain ⟨r, hr, rfl⟩ := List.mem_map.1 hline
  exact Data.printable_json (Event.record_keyed (hkeyed r hr) r.1)

theorem length_writtenBytes : (writtenBytes events).length = (Journal.lineChars (eventLines events)).length := by
  rw [writtenBytes_eq, Text.length_utf8 (Journal.ascii_lineChars (printable_eventLines hkeyed))]

/-- The lines of events hold their records. -/
theorem filterMap_eventLines :
    (eventLines events).filterMap (Journal.lineData? ·) = events.map fun r => r.2.recorded r.1 := by
  rw [eventLines, List.filterMap_map, List.filterMap_eq_map_iff_forall_eq_some]
  exact fun r hr =>
    Journal.lineData?_keyed (Event.record_keyed (hkeyed r hr) r.1) (Journal.bears_free Data.replacement _)

/-- Reading sees all events of a file that the tail covers. -/
theorem Journal.tail_covered {j : Journal} (hcontent : j.content = writtenBytes events) {upkeep : Upkeep}
    (hcovers : (j.size : Int) ≤ upkeep.tailBytes) :
    j.tail upkeep = .ok (events.map fun r => r.2.recorded r.1) := by
  have hbytes : j.content = Text.utf8 (String.ofList (lineChars (eventLines events))) := by
    rw [hcontent, writtenBytes_eq]
  rw [tail_eq, tailLines_of_lines (printable_eventLines hkeyed) hbytes hcovers, filterMap_eventLines hkeyed]

/-- **What reading sees of the events of a file**: those within the tail, without the first of them if the tail starts
right at its line. -/
theorem Journal.tail_written {j : Journal} (hcontent : j.content = writtenBytes events) {upkeep : Upkeep}
    (hnonneg : 0 ≤ upkeep.tailBytes) :
    j.tail upkeep = .ok ((if StartsAtLine upkeep.tailBytes events then (withinTail upkeep.tailBytes events).drop 1
      else withinTail upkeep.tailBytes events).map fun r => r.2.recorded r.1) := by
  have hprintable := printable_eventLines hkeyed
  have hbytes : j.content = Text.utf8 (String.ofList (lineChars (eventLines events))) := by
    rw [hcontent, writtenBytes_eq]
  by_cases hcovers : (writtenBytes events).length ≤ upkeep.tailBytes
  · have hstarts : ¬StartsAtLine upkeep.tailBytes events := fun h => by
      have hlt := h.1
      omega
    rw [if_neg hstarts, withinTail_of_le hcovers]
    exact tail_covered hkeyed hcontent (by rwa [size, hcontent])
  · obtain ⟨before, r, after, rfl, hwithin, hle, hlt⟩ := exists_cut hnonneg (Int.not_le.1 hcovers)
    obtain ⟨hbefore, hrest⟩ := List.forall_mem_append.1 hkeyed
    obtain ⟨-, hafter⟩ := List.forall_mem_cons.1 hrest
    have hsize : j.size = (writtenBytes before).length + (writtenBytes (r :: after)).length := by
      rw [size, hcontent, writtenBytes_append, List.length_append]
    have hline : (writtenBytes (r :: after)).length =
        (r.2.line r.1).toList.length + 1 + (writtenBytes after).length := by
      rw [length_writtenBytes hrest, length_writtenBytes hafter, eventLines, List.map_cons, lineChars,
        List.flatMap_cons, List.length_append, List.length_append, List.length_singleton]
      rfl
    have hstart : j.tailStart upkeep = (lineChars (eventLines before)).length +
        ((writtenBytes (r :: after)).length - upkeep.tailBytes.toNat) := by
      rw [tailStart, hsize, ← length_writtenBytes hbefore]
      omega
    have hlines : eventLines (before ++ r :: after) =
        eventLines before ++ (r.2.line r.1).toList :: eventLines after := by
      rw [eventLines, List.map_append, List.map_cons]
      rfl
    rw [hlines] at hprintable hbytes
    have hstarts : StartsAtLine upkeep.tailBytes (before ++ r :: after) ↔
        (writtenBytes (r :: after)).length - upkeep.tailBytes.toNat = (r.2.line r.1).toList.length + 1 := by
      rw [StartsAtLine, hwithin]
      omega
    rw [hwithin, tail_eq, tailLines_of_cut hprintable hbytes hstart (by omega) (by omega), if_congr hstarts rfl rfl]
    refine congrArg Except.ok ?_
    split
    · rw [eventLines, ← List.map_drop]
      exact filterMap_eventLines fun r hr => hafter r (List.mem_of_mem_drop hr)
    · exact filterMap_eventLines hafter

end Keyed

/-! ## Queries without conditions -/

/-- A query without conditions selects every record. -/
theorem Query.selects_all (limit : Int) (record : Data) : Query.selects { limit := limit } record = .ok true := rfl

theorem Query.collect_all (limit : Int) {records : List Data} {room : Nat} (hroom : records.length ≤ room + 1) :
    Query.collect { limit := limit } room records = .ok records := by
  have hpicks : ∀ r ∈ records, Query.picks { limit := limit } r = true := fun r _ => picks_eq (selects_all limit r)
  rw [collect_eq _ fun r _ => ⟨true, selects_all limit r⟩, List.filter_eq_self.2 hpicks, List.take_of_length_le hroom]

namespace Shelf

variable {sink : Sink} {shelf : Shelf} {events : List (String × Event)} {limit : Int}

/-- A query without conditions, with room for all events, gives those that reading sees, newest first. -/
theorem read_written {j : Journal} (hj : shelf.journal? sink.directory = some j)
    (hcontent : j.content = writtenBytes events) (hnonneg : 0 ≤ sink.upkeep.tailBytes)
    (hkeyed : ∀ r ∈ events, (Data.mapping r.2.context).Keyed)
    (hlimit : (events.length : Int) ≤ min limit Query.greatestLimit) :
    shelf.read sink { limit := limit } =
      .ok ((if StartsAtLine sink.upkeep.tailBytes events then (withinTail sink.upkeep.tailBytes events).drop 1
        else withinTail sink.upkeep.tailBytes events).map fun r => r.2.recorded r.1).reverse := by
  have hlength := length_withinTail_le sink.upkeep.tailBytes events
  have hroom : events.length ≤ (min limit Query.greatestLimit - 1).toNat + 1 := by omega
  rw [read, hj, Option.getD_some, Journal.read_of_tail (Journal.tail_written hkeyed hcontent hnonneg)]
  refine Query.collect_all limit ?_
  rw [List.length_reverse, List.length_map]
  split
  · rw [List.length_drop]
    exact (Nat.sub_le _ _).trans (hlength.trans hroom)
  · exact hlength.trans hroom

/-- Events that are written to a fresh journal without a bound are the lines of its file. -/
theorem exists_written (hplain : sink.upkeep.maxBytes = none) (hfresh : shelf.journal? sink.directory = some {})
    (events : List (String × Event)) :
    ∃ after j, shelf.writeAll sink events = .ok after ∧ after.journal? sink.directory = some j ∧
      j.content = writtenBytes events := by
  obtain ⟨after, hafter, hj⟩ := writeAll_journal? events hfresh
  exact ⟨after, _, hafter, hj, Journal.content_writeAll hplain events {}⟩

/-- **What the tail of a journal shows.** Where events are written to a fresh journal whose file is not set aside, a
query without conditions, with room for all of them, gives the events whose whole lines lie within the tail, newest
first. The oldest of these is missing if the tail starts right at its line. -/
theorem read_tail (hplain : sink.upkeep.maxBytes = none) (hnonneg : 0 ≤ sink.upkeep.tailBytes)
    (hfresh : shelf.journal? sink.directory = some {}) (hkeyed : ∀ r ∈ events, (Data.mapping r.2.context).Keyed)
    (hlimit : (events.length : Int) ≤ min limit Query.greatestLimit) :
    ∃ after, shelf.writeAll sink events = .ok after ∧
      after.read sink { limit := limit } =
        .ok ((if StartsAtLine sink.upkeep.tailBytes events then (withinTail sink.upkeep.tailBytes events).drop 1
          else withinTail sink.upkeep.tailBytes events).map fun r => r.2.recorded r.1).reverse := by
  obtain ⟨after, j, hafter, hj, hcontent⟩ := exists_written hplain hfresh events
  exact ⟨after, hafter, read_written hj hcontent hnonneg hkeyed hlimit⟩

end Shelf

/-! ## Two notes -/

/-- Two notes. -/
def twoNotes : List (String × Event) :=
  [("one", passNote), ("two", passNote)]

/-- A sink whose file is not set aside, by how much of it is read. -/
def tailSink (tailBytes : Int) : Sink :=
  { directory := "logs", upkeep := { tailBytes := tailBytes } }

theorem keyed_twoNotes : ∀ r ∈ twoNotes, (Data.mapping r.2.context).Keyed := by
  have hempty : (Data.mapping []).Keyed := .mapping List.nodup_nil (List.forall_mem_nil _)
  exact List.forall_mem_cons.2 ⟨hempty, List.forall_mem_singleton.2 hempty⟩

theorem sortKeys_passNote (time : String) : (passNote.record time).sortKeys = .mapping
    [("context", .mapping []), ("error_code", .null), ("event_type", .text "sheet_computed"), ("level", .text "info"),
      ("message", .text ""), ("schema_version", .int 1), ("ts", .text time)] := by
  simp only [Event.record, passNote, Data.sortKeys, Data.sortEntries, finiteEntries, Event.textOrNull, Severity.word,
    Topic.word]
  simp [List.mergeSort]

theorem length_passNotes : (Journal.lineBytes (passNote.line "one")).length = 134 ∧
    (Journal.lineBytes (passNote.line "two")).length = 134 := by
  rw [Event.line, Event.line, sortKeys_passNote, sortKeys_passNote]
  decide +kernel

theorem length_twoNotes : (writtenBytes twoNotes).length = 268 := by
  rw [twoNotes, writtenBytes_cons, writtenBytes_singleton, List.length_append, length_passNotes.1, length_passNotes.2]

theorem withinTail_twoNotes {tailBytes : Int} (hlow : 134 ≤ tailBytes) (hhigh : tailBytes < 268) :
    withinTail tailBytes twoNotes = [("two", passNote)] := by
  have hall := length_twoNotes
  have hlast : (writtenBytes [("two", passNote)]).length = 134 := by
    rw [writtenBytes_singleton, length_passNotes.2]
  rw [twoNotes] at hall ⊢
  rw [withinTail, if_neg (by omega), withinTail_of_le (by omega)]

theorem startsAtLine_twoNotes {tailBytes : Int} (hlow : 134 ≤ tailBytes) (hhigh : tailBytes < 268) :
    StartsAtLine tailBytes twoNotes ↔ tailBytes = 134 := by
  rw [StartsAtLine, withinTail_twoNotes hlow hhigh, length_twoNotes, writtenBytes_singleton, length_passNotes.2]
  omega

/-- A tail that starts one byte before the line of the second note shows it. -/
theorem read_tail_notes : ∃ after, (({} : Shelf).makeDirectory "logs").writeAll (tailSink 135) twoNotes = .ok after ∧
    after.read (tailSink 135) {} = .ok [passNote.recorded "two"] := by
  obtain ⟨after, hafter, hread⟩ :=
    @Shelf.read_tail (tailSink 135) (({} : Shelf).makeDirectory "logs") twoNotes 200 rfl (by decide) rfl keyed_twoNotes
      (by decide)
  have hstarts : ¬StartsAtLine 135 twoNotes := by
    rw [startsAtLine_twoNotes (by omega) (by omega)]
    decide
  have hwithin : withinTail 135 twoNotes = [("two", passNote)] := withinTail_twoNotes (by omega) (by omega)
  rw [tailSink, if_neg hstarts, hwithin] at hread
  exact ⟨after, hafter, hread⟩

/-- A tail that starts right at the line of the second note misses it. -/
theorem read_tail_misses : withinTail 134 twoNotes = [("two", passNote)] ∧
    ∃ after, (({} : Shelf).makeDirectory "logs").writeAll (tailSink 134) twoNotes = .ok after ∧
      after.read (tailSink 134) {} = .ok [] := by
  have hwithin : withinTail 134 twoNotes = [("two", passNote)] := withinTail_twoNotes (by omega) (by omega)
  have hstarts : StartsAtLine 134 twoNotes := (startsAtLine_twoNotes (by omega) (by omega)).2 rfl
  obtain ⟨after, j, hafter, hj, hcontent⟩ :=
    @Shelf.exists_written (tailSink 134) (({} : Shelf).makeDirectory "logs") rfl rfl twoNotes
  have hread :=
    @Shelf.read_written (tailSink 134) after twoNotes 200 j hj hcontent (by decide) keyed_twoNotes (by decide)
  rw [tailSink, if_pos hstarts, hwithin] at hread
  exact ⟨hwithin, after, hafter, hread⟩

end GameSheet
