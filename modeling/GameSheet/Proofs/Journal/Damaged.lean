import GameSheet.Proofs.Journal.Queries
import GameSheet.Proofs.Text.LineFeed

/-!
# Damaged journals

Whatever bytes a file has, its lines (`Journal.linesOf`) hold some data (`Journal.recordsOf`): those that hold none are
dropped. The line of an event that is whole (`Journal.HasLine`) is among them, no matter what stands in front of it or
behind it (`Journal.exists_linesOf`), so its record is among the data (`Journal.exists_recordsOf`).

A query looks into what a line holds as into a record with entries. It can be asked about a number or a list only if it
has no conditions (`Query.CanAsk`). So reading gives an answer exactly if the reader bears all the lines, and the query
can be asked about all that it looks at, from the newest line on, before it has found as much as it may give
(`Query.CanRead`). Then the answer is what one who knows the records would pick (`Query.wants`), and the events of whole
lines have their places in it.

**`Shelf.read_damaged`** is all of this.
-/

namespace GameSheet

/-! ## What lines hold -/

namespace Journal

/-- The lines of a file, oldest first. -/
def linesOf (bytes : List UInt8) : List (List Char) :=
  Text.lines (Text.ofUtf8 bytes)

/-- What the lines of a file hold, oldest first. -/
def recordsOf (bytes : List UInt8) (r : Data.Reader := {}) : List Data :=
  (linesOf bytes).filterMap (lineData? · r)

/-- Some bytes are a line of a file: they are at its start or behind a line feed, and a line feed and what is written
later stand behind them, or nothing does. -/
def HasLine (content line later : List UInt8) : Prop :=
  ∃ earlier, (earlier = [] ∨ ∃ front, earlier = front ++ [10]) ∧
    (content = earlier ++ (line ++ 10 :: later) ∨ content = earlier ++ line ∧ later = [])

theorem tailLines_eq_linesOf {upkeep : Upkeep} {j : Journal} (hcovers : (j.size : Int) ≤ upkeep.tailBytes) :
    j.tailLines upkeep = linesOf j.content := by
  have hstart : j.tailStart upkeep = 0 := by
    rw [tailStart]
    omega
  rw [tailLines, hstart, List.drop_zero]
  rfl

theorem linesOf_lineFeed (front rest : List UInt8) :
    linesOf (front ++ 10 :: rest) = linesOf (front ++ [10]) ++ linesOf rest := by
  have hnil : Text.ofUtf8 [] = [] := rfl
  rw [linesOf, linesOf, linesOf, Text.ofUtf8_lineFeed front [], Text.ofUtf8_lineFeed, Text.lines_lineFeed, hnil]

section Keyed

variable {d : Data} (h : d.Keyed)

include h

theorem ofUtf8_json : Text.ofUtf8 (Text.utf8 d.json) = d.json.toList :=
  Text.ofUtf8_utf8 fun c hc => Nat.lt_trans (Data.printable_json h c hc).2 (by decide)

theorem not_isLineEnd_json : ∀ c ∈ d.json.toList, Text.isLineEnd c = false :=
  fun c hc => isLineEnd_of_printable (Data.printable_json h c hc)

theorem linesOf_line : linesOf (Text.utf8 d.json ++ [10]) = [d.json.toList] := by
  have hnil : Text.ofUtf8 [] = [] := rfl
  have hline := Text.lines_flatMap (List.forall_mem_singleton.2 (not_isLineEnd_json h))
  rw [List.flatMap_singleton] at hline
  rw [linesOf, Text.ofUtf8_lineFeed, ofUtf8_json h, hnil, hline]

/-- A file may end without a line end. -/
theorem linesOf_open : linesOf (Text.utf8 d.json) = [d.json.toList] := by
  have hne : d.json.toList ≠ [] := by
    obtain ⟨c, cs, hcs, -⟩ := Data.json_head h
    rw [hcs]
    exact List.cons_ne_nil c cs
  rw [linesOf, ofUtf8_json h, Text.lines_open (not_isLineEnd_json h) hne]

/-- **A whole line is one of the lines**, and what was written later comes after it. -/
theorem exists_linesOf {content later : List UInt8} (hline : HasLine content (Text.utf8 d.json) later) :
    ∃ before, linesOf content = before ++ d.json.toList :: linesOf later := by
  have hbehind : ∀ rest, linesOf (Text.utf8 d.json ++ 10 :: rest) = d.json.toList :: linesOf rest := fun rest => by
    rw [linesOf_lineFeed, linesOf_line h, List.singleton_append]
  have hfront : ∀ earlier rest, (earlier = [] ∨ ∃ front, earlier = front ++ [10]) →
      linesOf (earlier ++ rest) = linesOf earlier ++ linesOf rest := by
    rintro earlier rest (rfl | ⟨front, rfl⟩)
    · rfl
    · rw [List.append_assoc, List.singleton_append, linesOf_lineFeed]
  obtain ⟨earlier, hearlier, rfl | ⟨rfl, rfl⟩⟩ := hline
  · exact ⟨linesOf earlier, by rw [hfront earlier _ hearlier, hbehind]⟩
  · exact ⟨linesOf earlier, by rw [hfront earlier _ hearlier, linesOf_open h]; rfl⟩

/-- So its data is read, if the reader bears the lines, and what was written later is read after it. -/
theorem exists_recordsOf {content later : List UInt8} (hline : HasLine content (Text.utf8 d.json) later)
    {r : Data.Reader} (hbears : ∀ line ∈ linesOf content, Bears r line) :
    ∃ before, recordsOf content r = before ++ d.reread :: recordsOf later r := by
  obtain ⟨before, hbefore⟩ := exists_linesOf h hline
  have hdata : lineData? d.json.toList r = some d.reread :=
    lineData?_keyed h (hbears _ (by rw [hbefore]; exact List.mem_append_right _ List.mem_cons_self))
  refine ⟨before.filterMap (lineData? · r), ?_⟩
  rw [recordsOf, recordsOf, hbefore, List.filterMap_append]
  exact congrArg _ (List.filterMap_cons_some hdata)

end Keyed

end Journal

/-! ## What is asked for -/

namespace Query

variable {q : Query} {record : Data}

/-- Data has a text under a key. -/
def holds (word key : String) (d : Data) : Bool :=
  isText word ((d.get? key).getD .null)

/-- The context of a record. -/
def contextOf (record : Data) : Data :=
  (record.get? "context").getD .null

/-- A record is asked for: it has the severity and the topic that are asked for, if any are, and its context names the
sheet. -/
def wants (q : Query) (record : Data) : Bool :=
  (q.severity.isEmpty || holds q.severity "level" record) && (q.topic.isEmpty || holds q.topic "event_type" record) &&
    q.sheet.all fun sheet => ["sheet", "sheet_id"].any fun key => holds sheet key (contextOf record)

/-- The query can be asked about a record: it has no conditions, or the record has entries; and if it gets to ask for a
sheet, the context has entries too or stands for nothing given. -/
def CanAsk (q : Query) (record : Data) : Prop :=
  (q.severity = "" ∧ q.topic = "" ∧ q.sheet = none ∨ ∃ entries, record = .mapping entries) ∧
    (q.sheet ≠ none → { q with sheet := none }.wants record = true →
      (contextOf record).isVoid = true ∨ ∃ entries, contextOf record = .mapping entries)

/-- The query can be asked about all records that are looked at until `count` of those asked for are found. -/
def CanRead (q : Query) (count : Nat) (records : List Data) : Prop :=
  ∀ front record rest, records = front ++ record :: rest → front.countP q.wants < count → q.CanAsk record

/-! ### Answers about one record -/

theorem get?_of_isVoid {d : Data} (h : d.isVoid = true) (key : String) : d.get? key = none := by
  cases d with
  | mapping entries =>
    rw [Data.isVoid, List.isEmpty_iff] at h
    rw [h]
    rfl
  | _ => rfl

theorem entry_error {d : Data} (h : ∀ entries, d ≠ .mapping entries) (key : String) :
    entry d key = .error (.noEntries d.sort) := by
  cases d with
  | mapping entries => exact absurd rfl (h entries)
  | _ => rfl

theorem agrees_mapping (word key : String) (entries : List (String × Data)) :
    agrees word key (.mapping entries) = .ok (word.isEmpty || holds word key (.mapping entries)) := by
  rw [agrees]
  cases word.isEmpty <;> rfl

theorem agrees_error {word : String} (hword : word ≠ "") {d : Data} (h : ∀ entries, d ≠ .mapping entries)
    (key : String) : agrees word key d = .error (.noEntries d.sort) := by
  rw [agrees, if_neg (by rwa [String.isEmpty_iff]), entry_error h]
  rfl

theorem namesSheet_mapping {entries : List (String × Data)}
    (h : (contextOf (.mapping entries)).isVoid = true ∨ ∃ more, contextOf (.mapping entries) = .mapping more)
    (sheet : String) : namesSheet sheet (.mapping entries) =
      .ok (["sheet", "sheet_id"].any fun key => holds sheet key (contextOf (.mapping entries))) := by
  have hentry : entry (.mapping entries) "context" = .ok (contextOf (.mapping entries)) := rfl
  simp only [namesSheet, hentry, bind, Except.bind]
  split
  · next hvoid =>
    simp [holds, get?_of_isVoid hvoid, isText]
  · next hvoid =>
    obtain ⟨more, hmore⟩ := h.resolve_left hvoid
    rw [hmore, List.any_cons, List.any_cons, List.any_nil, Bool.or_false]
    rfl

theorem namesSheet_error {record : Data} (h : ¬((contextOf record).isVoid = true ∨
    ∃ more, contextOf record = .mapping more)) (sheet : String) : ∃ fault, namesSheet sheet record = .error fault := by
  obtain ⟨hvoid, hmapping⟩ := not_or.1 h
  cases record with
  | mapping entries =>
    have hentry : entry (.mapping entries) "context" = .ok (contextOf (.mapping entries)) := rfl
    have hsheet := entry_error (not_exists.1 hmapping) "sheet"
    refine ⟨.noEntries (contextOf (.mapping entries)).sort, ?_⟩
    simp only [namesSheet, hentry, bind, Except.bind, if_neg hvoid, hsheet]
  | _ => exact absurd rfl hvoid

/-- **The answer about a record**, if the query can be asked about it. -/
theorem selects_of_canAsk (h : q.CanAsk record) : q.selects record = .ok (q.wants record) := by
  obtain ⟨⟨hseverity, htopic, hsheet⟩ | ⟨entries, rfl⟩, hcontext⟩ := h
  · simp [selects, agrees, wants, hseverity, htopic, hsheet, bind, Except.bind]
  · simp only [selects, agrees_mapping, wants, bind, Except.bind]
    cases hseverity : q.severity.isEmpty || holds q.severity "level" (.mapping entries) with
    | false => rfl
    | true =>
      cases htopic : q.topic.isEmpty || holds q.topic "event_type" (.mapping entries) with
      | false => rfl
      | true =>
        cases hsheet : q.sheet with
        | none => rfl
        | some sheet =>
          have hasked : { q with sheet := none }.wants (.mapping entries) = true := by
            simp [wants, hseverity, htopic]
          exact namesSheet_mapping (hcontext (by simp [hsheet]) hasked) sheet

/-- Else there is none. -/
theorem selects_of_not_canAsk (h : ¬q.CanAsk record) : ∃ fault, q.selects record = .error fault := by
  by_cases hentries : ∃ entries, record = .mapping entries
  · -- the query gets to ask for a sheet, and the context does not answer
    obtain ⟨hsheet, hasked, hcontext⟩ : q.sheet ≠ none ∧ { q with sheet := none }.wants record = true ∧
        ¬((contextOf record).isVoid = true ∨ ∃ more, contextOf record = .mapping more) := by
      simpa only [CanAsk, hentries, or_true, true_and, Classical.not_imp] using h
    obtain ⟨sheet, hsheet⟩ := Option.ne_none_iff_exists'.1 hsheet
    obtain ⟨entries, rfl⟩ := hentries
    obtain ⟨fault, hfault⟩ := namesSheet_error hcontext sheet
    rw [wants, Bool.and_eq_true, Bool.and_eq_true] at hasked
    obtain ⟨⟨hseverity, htopic⟩, -⟩ := hasked
    refine ⟨fault, ?_⟩
    simp only [selects, agrees_mapping, hseverity, htopic, hsheet, bind, Except.bind]
    exact hfault
  · -- the query has a condition, and the first one fails
    have hne : ∀ entries, record ≠ .mapping entries := not_exists.1 hentries
    by_cases hseverity : q.severity = ""
    · by_cases htopic : q.topic = ""
      · cases hsheet : q.sheet with
        | none => exact absurd ⟨.inl ⟨hseverity, htopic, hsheet⟩, fun hsome => absurd hsheet hsome⟩ h
        | some sheet =>
          refine ⟨.noEntries record.sort, ?_⟩
          simp [selects, agrees, hseverity, htopic, hsheet, namesSheet, entry_error hne, bind, Except.bind]
      · refine ⟨.noEntries record.sort, ?_⟩
        simp [selects, agrees, hseverity, htopic, entry_error hne, bind, Except.bind, Except.map]
    · refine ⟨.noEntries record.sort, ?_⟩
      simp [selects, agrees_error hseverity hne, bind, Except.bind]

/-! ### Answers about records -/

variable {records : List Data} {count : Nat}

theorem canRead_nil (q : Query) (count : Nat) : q.CanRead count [] := fun front record rest h _ =>
  absurd h.symm (by simp)

/-- The first record is looked at if any are to be found, and the others for what is still to be found then. -/
theorem canRead_cons : q.CanRead (count + 1) (record :: records) ↔
    q.CanAsk record ∧ q.CanRead (if q.wants record then count else count + 1) records := by
  have hcount : ∀ front : List Data, (record :: front).countP q.wants < count + 1 ↔
      front.countP q.wants < if q.wants record then count else count + 1 := fun front => by
    rw [List.countP_cons]
    split <;> omega
  constructor
  · intro h
    refine ⟨h [] record records rfl (Nat.succ_pos _), fun front r rest heq hlt => ?_⟩
    exact h (record :: front) r rest (congrArg _ heq) ((hcount front).2 hlt)
  · rintro ⟨hfirst, hothers⟩ front r rest heq hlt
    cases front with
    | nil => rwa [← (List.cons.inj heq).1]
    | cons f front =>
      obtain ⟨rfl, hrecords⟩ := List.cons.inj heq
      exact hothers front r rest hrecords ((hcount front).1 hlt)

section Collect

variable {room : Nat}

theorem collect_error {fault : ReadFault} (h : q.selects record = .error fault) :
    q.collect room (record :: records) = .error fault := by
  rw [collect.eq_def]
  simp only [h, bind, Except.bind]

theorem collect_skip (h : q.selects record = .ok false) :
    q.collect room (record :: records) = q.collect room records := by
  rw [collect.eq_def]
  simp only [h, bind, Except.bind]
  rfl

theorem collect_last (h : q.selects record = .ok true) : q.collect 0 (record :: records) = .ok [record] := by
  rw [collect.eq_def]
  simp only [h, bind, Except.bind]
  rfl

theorem collect_more (h : q.selects record = .ok true) :
    q.collect (room + 1) (record :: records) = (q.collect room records).map (record :: ·) := by
  rw [collect.eq_def]
  simp only [h, bind, Except.bind]
  rfl

/-- **The records that are asked for are collected**, if the query can be asked about all that are looked at, -/
theorem collect_of_canRead (h : q.CanRead (room + 1) records) :
    q.collect room records = .ok ((records.filter q.wants).take (room + 1)) := by
  induction records generalizing room with
  | nil => rfl
  | cons record records ih =>
    obtain ⟨hask, hrest⟩ := canRead_cons.1 h
    have hselects := selects_of_canAsk hask
    cases hwants : q.wants record with
    | false =>
      rw [hwants] at hselects hrest
      rw [collect_skip hselects, ih hrest, List.filter_cons_of_neg (by simp [hwants])]
    | true =>
      rw [hwants] at hselects hrest
      rw [List.filter_cons_of_pos hwants]
      cases room with
      | zero => rw [collect_last hselects, List.take_succ_cons, List.take_zero]
      | succ room =>
        rw [collect_more hselects, ih hrest, List.take_succ_cons]
        rfl

/-- and else there is no answer. -/
theorem collect_of_not_canRead (h : ¬q.CanRead (room + 1) records) :
    ∃ fault, q.collect room records = .error fault := by
  induction records generalizing room with
  | nil => exact absurd (canRead_nil q _) h
  | cons record records ih =>
    by_cases hask : q.CanAsk record
    · have hrest : ¬q.CanRead (if q.wants record then room else room + 1) records :=
        fun hrest => h (canRead_cons.2 ⟨hask, hrest⟩)
      have hselects := selects_of_canAsk hask
      cases hwants : q.wants record with
      | false =>
        rw [hwants] at hselects hrest
        rw [collect_skip hselects]
        exact ih hrest
      | true =>
        rw [hwants] at hselects hrest
        cases room with
        | zero => exact absurd (fun _ _ _ _ hlt => absurd hlt (Nat.not_lt_zero _)) hrest
        | succ room =>
          obtain ⟨fault, hfault⟩ := ih hrest
          exact ⟨fault, by rw [collect_more hselects, hfault]; rfl⟩
    · obtain ⟨fault, hfault⟩ := selects_of_not_canAsk hask
      exact ⟨fault, collect_error hfault⟩

end Collect

/-- The record of an event that meets a query is asked for. -/
theorem wants_recorded {e : Event} (hnodup : (e.context.map Prod.fst).Nodup) (q : Query) (time : String) :
    q.wants (e.recorded time) = e.meets q := by
  have hselects : q.selects (e.recorded time) = .ok (e.meets q) := selects_recorded hnodup q
  by_cases hask : q.CanAsk (e.recorded time)
  · rw [selects_of_canAsk hask] at hselects
    exact Except.ok.inj hselects
  · obtain ⟨fault, hfault⟩ := selects_of_not_canAsk hask
    rw [hfault] at hselects
    cases hselects

end Query

namespace Shelf

variable {sink : Sink} {shelf : Shelf} {j : Journal}

/-- At least one record is given, if any is asked for. -/
theorem room_add_one (limit : Int) :
    (min limit Query.greatestLimit - 1).toNat + 1 = (max 1 (min limit Query.greatestLimit)).toNat := by
  omega

section Covered

variable (hj : shelf.journal? sink.directory = some j) (hcovers : (j.size : Int) ≤ sink.upkeep.tailBytes)
  {r : Data.Reader}

include hj hcovers

/-- If the tail covers the file and the reader bears its lines, reading looks at what they hold, -/
theorem read_covered (hbears : ∀ line ∈ Journal.linesOf j.content, Journal.Bears r line) (q : Query) :
    shelf.read sink q r =
      q.collect (min q.limit Query.greatestLimit - 1).toNat (Journal.recordsOf j.content r).reverse := by
  rw [← Journal.tailLines_eq_linesOf hcovers] at hbears
  rw [read, hj, Option.getD_some, Journal.read_of_tail (Journal.tail_of_bears hbears),
    Journal.tailLines_eq_linesOf hcovers]
  rfl

/-- and if there is a line that the reader does not bear, no query has an answer. -/
theorem read_overload (hbears : ¬∀ line ∈ Journal.linesOf j.content, Journal.Bears r line) (q : Query) :
    ∃ o, shelf.read sink q r = .error (.overload o) := by
  rw [← Journal.tailLines_eq_linesOf hcovers] at hbears
  obtain ⟨o, ho⟩ := Journal.tail_of_not_bears hbears
  exact ⟨o, by rw [read, hj, Option.getD_some, Journal.read_of_overload ho]⟩

/-- **What is read from a damaged journal**, whatever bytes its file within the tail has and whatever limits the reader
of its lines has. If the reader bears the lines and the query can be asked about all records that are looked at, the
newest of those that are asked for are given, as many as the limits allow, and one at least; else there is no answer. An
event that meets the query and whose line is whole is among those that are asked for, behind the later ones. -/
theorem read_damaged (q : Query) (r : Data.Reader) :
    let count := (max 1 (min q.limit Query.greatestLimit)).toNat
    let borne := ∀ line ∈ Journal.linesOf j.content, Journal.Bears r line
    let records := (Journal.recordsOf j.content r).reverse
    (borne ∧ q.CanRead count records → shelf.read sink q r = .ok ((records.filter q.wants).take count)) ∧
      (¬(borne ∧ q.CanRead count records) → ∃ fault, shelf.read sink q r = .error fault) ∧
      (borne → ∀ (time : String) (e : Event) (later : List UInt8), (Data.mapping e.context).Keyed → e.meets q = true →
        Journal.HasLine j.content (Text.utf8 (e.line time)) later →
        (records.filter q.wants)[(Journal.recordsOf later r).countP q.wants]? = some (e.recorded time)) := by
  intro count borne records
  have hroom : (min q.limit Query.greatestLimit - 1).toNat + 1 = count := room_add_one q.limit
  refine ⟨fun ⟨hbears, hcan⟩ => ?_, fun hnot => ?_, fun hbears time e later hkeyed hmeets hline => ?_⟩
  · rw [read_covered hj hcovers hbears, ← hroom]
    exact Query.collect_of_canRead (hroom ▸ hcan)
  · by_cases hbears : borne
    · rw [read_covered hj hcovers hbears]
      exact Query.collect_of_not_canRead fun hcan => hnot ⟨hbears, hroom ▸ hcan⟩
    · obtain ⟨o, ho⟩ := read_overload hj hcovers hbears q
      exact ⟨_, ho⟩
  · obtain ⟨before, hbefore⟩ := Journal.exists_recordsOf (Event.record_keyed hkeyed time) hline hbears
    have hwants : q.wants (e.recorded time) = true := by
      rw [Query.wants_recorded (match hkeyed with | .mapping hnodup _ => hnodup), hmeets]
    have hrecords : records = (Journal.recordsOf later r).reverse ++ e.recorded time :: before.reverse := by
      dsimp only [records]
      rw [hbefore, List.reverse_append, List.reverse_cons, List.append_assoc]
      rfl
    have hlater : ((Journal.recordsOf later r).reverse.filter q.wants).length =
        (Journal.recordsOf later r).countP q.wants := by
      rw [← List.countP_eq_length_filter, List.countP_reverse]
    rw [hrecords, List.filter_append, List.filter_cons_of_pos hwants, List.getElem?_append_right hlater.le, hlater,
      Nat.sub_self]
    rfl

/-- **A line of an integer that has too many digits leaves every query without an answer.** -/
theorem read_exceeded {negative : Bool} {n : Decimal.Numeral} (hn : n.Tidy) {limit : Nat}
    (hexceeded : r.exceeded? n = some limit) (hline : Data.minus negative ++ n.chars ∈ Journal.linesOf j.content)
    (q : Query) : ∃ o, shelf.read sink q r = .error (.overload o) :=
  read_overload hj hcovers (fun h => Journal.not_bears_of_exceeded negative hn hexceeded (h _ hline)) q

end Covered

end Shelf

/-! ## A note in a damaged file -/

/-- A shelf with a file of the line of a note and some bytes behind it. -/
def noteShelf (behind : String) : Shelf :=
  { journals := [(["logs"], { current := some (Journal.lineBytes (passNote.line "one") ++ Text.utf8 behind) })] }

/-- A sink over that file. -/
def noteSink : Sink :=
  { directory := "logs" }

theorem keyed_passNote : (Data.mapping passNote.context).Keyed :=
  .mapping List.nodup_nil (List.forall_mem_nil _)

theorem linesOf_note (behind : String) :
    Journal.linesOf (Journal.lineBytes (passNote.line "one") ++ Text.utf8 behind) =
      (passNote.line "one").toList :: Journal.linesOf (Text.utf8 behind) := by
  rw [Journal.lineBytes, Text.utf8_lineFeed, List.append_assoc, List.singleton_append, Journal.linesOf_lineFeed,
    Event.line, Journal.linesOf_line (Event.record_keyed keyed_passNote "one")]
  rfl

theorem bears_note : Journal.Bears .standard (passNote.line "one").toList := by
  rw [Event.line, sortKeys_passNote]
  decide +kernel

/-- What stands behind the line of the note decides whether the lines are borne. -/
theorem bears_lines {behind : String} (h : ∀ line ∈ Journal.linesOf (Text.utf8 behind), Journal.Bears .standard line) :
    ∀ line ∈ Journal.linesOf (Journal.lineBytes (passNote.line "one") ++ Text.utf8 behind),
      Journal.Bears .standard line := by
  rw [linesOf_note, List.forall_mem_cons]
  exact ⟨bears_note, h⟩

theorem recordsOf_note (behind : String) :
    Journal.recordsOf (Journal.lineBytes (passNote.line "one") ++ Text.utf8 behind) .standard =
      passNote.recorded "one" :: Journal.recordsOf (Text.utf8 behind) .standard := by
  rw [Journal.recordsOf, linesOf_note]
  exact List.filterMap_cons_some (Journal.lineData?_keyed (Event.record_keyed keyed_passNote "one") bears_note)

theorem size_note {behind : String} (h : (Text.utf8 behind).length ≤ 1000) :
    (Journal.lineBytes (passNote.line "one") ++ Text.utf8 behind).length ≤ 2097152 := by
  rw [List.length_append, length_passNotes.1]
  omega

/-- A line without data, and a last line that is cut off. -/
def damage : String :=
  "\x7bnot json\n\x7b\"context\": "

/-- They do no harm. -/
theorem read_damaged_note :
    (noteShelf damage).read noteSink { severity := "info" } .standard = .ok [passNote.recorded "one"] := by
  have hbehind : Journal.recordsOf (Text.utf8 damage) .standard = [] := List.isEmpty_iff.1 (by decide +kernel)
  have hrecords := recordsOf_note damage
  rw [hbehind] at hrecords
  have hbears := @bears_lines damage (by decide +kernel)
  have hwants : Query.wants { severity := "info" } (passNote.recorded "one") = true := by
    rw [@Query.wants_recorded passNote List.nodup_nil]
    decide +kernel
  have hask : Query.CanAsk { severity := "info" } (passNote.recorded "one") :=
    ⟨.inr ⟨_, rfl⟩, fun h => absurd rfl h⟩
  obtain ⟨hread, -⟩ := @Shelf.read_damaged noteSink (noteShelf damage) _ rfl
    (Int.ofNat_le.2 (size_note (by decide +kernel))) { severity := "info" } .standard
  rw [Journal.content, Option.getD_some, hrecords, List.reverse_singleton] at hread
  rw [hread ⟨hbears, Query.canRead_cons.2 ⟨hask, Query.canRead_nil _ _⟩⟩, List.filter_cons_of_pos hwants]
  rfl

/-- A line that holds a number does: a query about severities has no answer, though the line of the note is whole. -/
theorem read_damaged_number : passNote.meets { severity := "info" } = true ∧
    (∃ j, (noteShelf "5\n").journal? noteSink.directory = some j ∧ (j.size : Int) ≤ noteSink.upkeep.tailBytes ∧
      Journal.HasLine j.content (Text.utf8 (passNote.line "one")) (Text.utf8 "5\n")) ∧
    (noteShelf "5\n").read noteSink { severity := "info" } .standard = .error (.noEntries "int") := by
  have hcovers := Int.ofNat_le.2 (@size_note "5\n" (by decide +kernel))
  have hbehind : Journal.recordsOf (Text.utf8 "5\n") .standard = [.int 5] := rfl
  have hline : Journal.HasLine (Journal.lineBytes (passNote.line "one") ++ Text.utf8 "5\n")
      (Text.utf8 (passNote.line "one")) (Text.utf8 "5\n") := by
    refine ⟨[], .inl rfl, .inl ?_⟩
    rw [Journal.lineBytes, Text.utf8_lineFeed, List.append_assoc]
    rfl
  have hbears := @bears_lines "5\n" (by decide +kernel)
  refine ⟨by decide +kernel, ⟨_, rfl, hcovers, hline⟩, ?_⟩
  rw [@Shelf.read_covered noteSink (noteShelf "5\n") _ rfl hcovers .standard hbears, Journal.content,
    Option.getD_some, recordsOf_note, hbehind]
  rfl

end GameSheet
