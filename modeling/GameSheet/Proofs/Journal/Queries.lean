import GameSheet.Proofs.Journal.Tails

/-!
# What a query gives

An event meets a query (`Event.meets`) if it has the severity and the topic that are asked for, and its context names
the sheet. That is what a query looks for in the record that is read (`Query.selects_recorded`). So a query of a journal
whose events lie within the tail gives the newest of the events that meet it (`Query.newest`).

**`Shelf.read_newest`** says how many: as many as the limit and the greatest limit allow, but one at least if there is
one. For a limit of zero or less this is one too many.
-/

namespace GameSheet

/-! ## Entries of records -/

namespace Data

theorem get?_reread (d : Data) (key : String) : d.reread.get? key = (d.get? key).map reread := by
  cases d with
  | mapping entries =>
    rw [reread, get?, get?, rereadEntries_eq]
    exact lookup_map_snd reread entries key
  | _ => rfl

/-- The entries of a mapping are read under their keys. -/
theorem get?_recorded {entries : List (String × Data)} (hnodup : (entries.map Prod.fst).Nodup) (key : String) :
    (mapping entries).sortKeys.reread.get? key = (entries.lookup key).map fun d => d.sortKeys.reread := by
  rw [get?_reread, get?_sortKeys hnodup, Option.map_map]
  rfl

theorem isVoid_recorded (entries : List (String × Data)) :
    (mapping entries).sortKeys.reread.isVoid = entries.isEmpty := by
  have hlength : (rereadEntries ((sortEntries entries).mergeSort fun a b => a.1 ≤ b.1)).length = entries.length := by
    rw [rereadEntries_eq, List.length_map, List.length_mergeSort, sortEntries_eq, List.length_map]
  rw [sortKeys, reread, isVoid, Bool.eq_iff_iff, List.isEmpty_iff_length_eq_zero, List.isEmpty_iff_length_eq_zero,
    hlength]

/-- Texts are read as they are, and nothing else is read as a text. -/
theorem isText_recorded (word : String) (d : Data) :
    Query.isText word (finiteData d).sortKeys.reread = Query.isText word d := by
  cases d with
  | float x =>
    rw [finiteData]
    split <;> rfl
  | _ => rfl

end Data

/-! ## Events that meet a query -/

namespace Event

/-- The context of the event names the sheet. -/
def names (sheet : String) (e : Event) : Bool :=
  ["sheet", "sheet_id"].any fun key => Query.isText sheet ((e.context.lookup key).getD .null)

/-- The event has the severity and the topic that are asked for, if any are, and names the sheet. -/
def meets (q : Query) (e : Event) : Bool :=
  (q.severity.isEmpty || e.severity.word == q.severity) && (q.topic.isEmpty || e.topic.word == q.topic) &&
    q.sheet.all fun sheet => e.names sheet

theorem entry_recorded (e : Event) (time key : String) : Query.entry (e.recorded time) key =
    .ok (((e.recorded time).get? key).getD .null) :=
  rfl

end Event

namespace Query

variable {e : Event} {time : String}

theorem agrees_recorded {word key text : String} (h : (e.recorded time).get? key = some (.text text)) :
    agrees word key (e.recorded time) = .ok (word.isEmpty || text == word) := by
  rw [agrees, Event.entry_recorded, h]
  split
  · next hempty => rw [hempty, Bool.true_or]
  · next hempty =>
    rw [Bool.not_eq_true] at hempty
    rw [hempty, Bool.false_or]
    rfl

theorem namesSheet_recorded (hnodup : (e.context.map Prod.fst).Nodup) (sheet : String) :
    namesSheet sheet (e.recorded time) = .ok (e.names sheet) := by
  have hcontext : (e.recorded time).get? "context" = some (Data.mapping (finiteEntries e.context)).sortKeys.reread :=
    Data.get?_recorded (by simp) "context"
  have hentries : finiteEntries e.context = e.context.map fun entry => (entry.1, finiteData entry.2) :=
    Data.finiteEntries_eq e.context
  have hkeys : ((finiteEntries e.context).map Prod.fst).Nodup := by
    rw [hentries, List.map_map]
    exact hnodup
  have hentry : ∀ key, entry (Data.mapping (finiteEntries e.context)).sortKeys.reread key =
      .ok (((Data.mapping (finiteEntries e.context)).sortKeys.reread.get? key).getD .null) := fun _ => rfl
  have htext : ∀ key, isText sheet (((Data.mapping (finiteEntries e.context)).sortKeys.reread.get? key).getD .null) =
      isText sheet ((e.context.lookup key).getD .null) := by
    intro key
    rw [Data.get?_recorded hkeys, hentries, lookup_map_snd]
    cases e.context.lookup key with
    | none => rfl
    | some d => exact Data.isText_recorded sheet d
  simp only [namesSheet, Event.entry_recorded, hcontext, Option.getD_some, bind, Except.bind, Data.isVoid_recorded,
    hentry, htext]
  split
  · next hempty =>
    have hnil : e.context = [] := by simpa [hentries] using hempty
    rw [Event.names, hnil]
    rfl
  · rw [Event.names, List.any_cons, List.any_cons, List.any_nil, Bool.or_false]

/-- **A query selects the records of the events that meet it.** -/
theorem selects_recorded (hnodup : (e.context.map Prod.fst).Nodup) (q : Query) :
    q.selects (e.recorded time) = .ok (e.meets q) := by
  have hlevel : (e.recorded time).get? "level" = some (.text e.severity.word) := Data.get?_recorded (by simp) "level"
  have htopic : (e.recorded time).get? "event_type" = some (.text e.topic.word) :=
    Data.get?_recorded (by simp) "event_type"
  simp only [selects, agrees_recorded hlevel, agrees_recorded htopic, Event.meets, bind, Except.bind]
  cases hseverity : q.severity.isEmpty || e.severity.word == q.severity with
  | false => rfl
  | true =>
    cases htopics : q.topic.isEmpty || e.topic.word == q.topic with
    | false => rfl
    | true =>
      cases q.sheet with
      | none => rfl
      | some sheet => exact namesSheet_recorded hnodup sheet

/-- The newest of the events that meet the query, as they are read. -/
def newest (q : Query) (count : Int) (events : List (String × Event)) : List Data :=
  ((events.reverse.filter fun r => r.2.meets q).take count.toNat).map fun r => r.2.recorded r.1

theorem newest_zero (q : Query) (events : List (String × Event)) : q.newest 0 events = [] :=
  rfl

/-- A bound makes no difference to being at least one exactly if it is, or there is nothing to give. -/
theorem newest_eq_iff {q : Query} {bound : Int} {events : List (String × Event)} :
    q.newest (max 1 bound) events = q.newest (max 0 bound) events ↔
      0 < bound ∨ ∀ r ∈ events, r.2.meets q = false := by
  by_cases hbound : 0 < bound
  · rw [Int.max_eq_right (by omega : 1 ≤ bound), Int.max_eq_right (by omega : 0 ≤ bound)]
    exact iff_of_true rfl (.inl hbound)
  · -- one list is empty then, and the other has one event if any meets the query
    rw [Int.max_eq_left (by omega : bound ≤ 1), Int.max_eq_left (by omega : bound ≤ 0), newest_zero, newest,
      List.map_eq_nil_iff, List.take_eq_nil_iff, List.filter_eq_nil_iff]
    simp [hbound]

end Query

namespace Shelf

variable {sink : Sink} {shelf : Shelf} {events : List (String × Event)} {j : Journal}

/-- A query of a journal whose events lie within the tail gives the newest of those that meet it, and one at least. -/
theorem read_eq_newest (hj : shelf.journal? sink.directory = some j) (hcontent : j.content = writtenBytes events)
    (hcovers : (j.size : Int) ≤ sink.upkeep.tailBytes) (hkeyed : ∀ r ∈ events, (Data.mapping r.2.context).Keyed)
    (q : Query) : shelf.read sink q = .ok (q.newest (max 1 (min q.limit Query.greatestLimit)) events) := by
  have hselects : ∀ r ∈ events, q.selects (r.2.recorded r.1) = .ok (r.2.meets q) := fun r hr =>
    Query.selects_recorded (match hkeyed r hr with | .mapping hnodup _ => hnodup) q
  have hrecords : ∀ d ∈ (events.map fun r => r.2.recorded r.1).reverse, ∃ b, q.selects d = .ok b := by
    intro d hd
    obtain ⟨r, hr, rfl⟩ := List.mem_map.1 (List.mem_reverse.1 hd)
    exact ⟨_, hselects r hr⟩
  have hfilter : (events.map fun r => r.2.recorded r.1).reverse.filter q.picks =
      (events.reverse.filter fun r => r.2.meets q).map fun r => r.2.recorded r.1 := by
    rw [← List.map_reverse, List.filter_map]
    exact congrArg _ (List.filter_congr fun r hr => Query.picks_eq (hselects r (List.mem_reverse.1 hr)))
  have hroom : (min q.limit Query.greatestLimit - 1).toNat + 1 = (max 1 (min q.limit Query.greatestLimit)).toNat := by
    omega
  rw [read, hj, Option.getD_some, Journal.read_of_tail (Journal.tail_covered hkeyed hcontent hcovers),
    Query.collect_eq q hrecords, hfilter, hroom, ← List.map_take]
  rfl

/-- **What a query gives of a journal whose events lie within the tail**: the newest of the events that meet it, as many
as the limit and the greatest limit allow, and one at least. These are as many as the limits allow exactly if the limit
is positive or no event meets the query. -/
theorem read_newest (hj : shelf.journal? sink.directory = some j) (hcontent : j.content = writtenBytes events)
    (hcovers : (j.size : Int) ≤ sink.upkeep.tailBytes) (hkeyed : ∀ r ∈ events, (Data.mapping r.2.context).Keyed)
    (q : Query) : shelf.read sink q = .ok (q.newest (max 1 (min q.limit Query.greatestLimit)) events) ∧
      (shelf.read sink q = .ok (q.newest (max 0 (min q.limit Query.greatestLimit)) events) ↔
        0 < q.limit ∨ ∀ r ∈ events, r.2.meets q = false) := by
  have hread := read_eq_newest hj hcontent hcovers hkeyed q
  have hlimit : 0 < min q.limit Query.greatestLimit ↔ 0 < q.limit := by
    rw [Query.greatestLimit]
    omega
  refine ⟨hread, ?_⟩
  rw [hread, Except.ok.injEq, Query.newest_eq_iff, hlimit]

end Shelf

theorem covers_twoNotes {j : Journal} (hcontent : j.content = writtenBytes twoNotes) :
    (j.size : Int) ≤ (tailSink 268).upkeep.tailBytes := by
  rw [Journal.size, hcontent, length_twoNotes]
  exact Int.le_refl _

/-- A query for one note gives the newer one. -/
theorem read_newest_notes : ∃ after, (({} : Shelf).makeDirectory "logs").writeAll (tailSink 268) twoNotes = .ok after ∧
    after.read (tailSink 268) { severity := "info", limit := 1 } = .ok [passNote.recorded "two"] := by
  obtain ⟨after, j, hafter, hj, hcontent⟩ :=
    @Shelf.exists_written (tailSink 268) (({} : Shelf).makeDirectory "logs") rfl rfl twoNotes
  exact ⟨after, hafter,
    (Shelf.read_newest hj hcontent (covers_twoNotes hcontent) keyed_twoNotes { severity := "info", limit := 1 }).1⟩

/-- So does a query for none. -/
theorem read_newest_none : ∃ after, (({} : Shelf).makeDirectory "logs").writeAll (tailSink 268) twoNotes = .ok after ∧
    after.read (tailSink 268) { limit := 0 } = .ok [passNote.recorded "two"] ∧
      ({ limit := 0 } : Query).newest (max 0 (min 0 Query.greatestLimit)) twoNotes = [] := by
  obtain ⟨after, j, hafter, hj, hcontent⟩ :=
    @Shelf.exists_written (tailSink 268) (({} : Shelf).makeDirectory "logs") rfl rfl twoNotes
  exact ⟨after, hafter, Shelf.read_eq_newest hj hcontent (covers_twoNotes hcontent) keyed_twoNotes { limit := 0 }, rfl⟩

end GameSheet
