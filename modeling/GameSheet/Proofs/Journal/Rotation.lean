import GameSheet.Proofs.Journal.Writing

/-!
# What rotation keeps

Events are written one after the other to the journal of a sink, each at its own time (`Shelf.writeAll`). The file
that is written to and the one set aside hold the lines of two parts of what has been written (`Journal.Holds`). A write
keeps that and bounds what stands in front of the new line (`Journal.holds_write`).

**`Shelf.writeAll_rotated`**: after each write the file set aside and the current one hold the lines of the last events
in order, the current one ends with the line of the newest, and what stands in front of that line is within the bound.
-/

namespace GameSheet

/-- The bytes that are written for some events, each at its own time. -/
def writtenBytes (events : List (String × Event)) : List UInt8 :=
  events.flatMap fun r => Journal.lineBytes (r.2.line r.1)

theorem writtenBytes_append (events more : List (String × Event)) :
    writtenBytes (events ++ more) = writtenBytes events ++ writtenBytes more :=
  List.flatMap_append

theorem writtenBytes_cons (r : String × Event) (rest : List (String × Event)) :
    writtenBytes (r :: rest) = Journal.lineBytes (r.2.line r.1) ++ writtenBytes rest :=
  rfl

theorem writtenBytes_singleton (time : String) (e : Event) :
    writtenBytes [(time, e)] = Journal.lineBytes (e.line time) :=
  List.append_nil _

/-! ## Runs of writes -/

/-- The journal with some more events. -/
def Journal.writeAll (upkeep : Upkeep) (j : Journal) (events : List (String × Event)) : Journal :=
  events.foldl (fun j r => j.write upkeep r.1 r.2) j

theorem Journal.writeAll_concat (upkeep : Upkeep) (j : Journal) (events : List (String × Event)) (time : String)
    (e : Event) : j.writeAll upkeep (events ++ [(time, e)]) = (j.writeAll upkeep events).write upkeep time e := by
  rw [writeAll, List.foldl_append]
  rfl

/-- A file that is never set aside holds all that is written. -/
theorem Journal.content_writeAll {upkeep : Upkeep} (hplain : upkeep.maxBytes = none)
    (events : List (String × Event)) (j : Journal) :
    (j.writeAll upkeep events).content = j.content ++ writtenBytes events := by
  induction events generalizing j with
  | nil => exact (List.append_nil _).symm
  | cons r rest ih =>
    have hkeeps : upkeep.Keeps j.size := fun bound hbound => by
      rw [hplain] at hbound
      cases hbound
    have hwrite : (j.write upkeep r.1 r.2).content = j.content ++ lineBytes (r.2.line r.1) := by
      rw [write, rotate_eq hkeeps]
      rfl
    rw [writeAll, List.foldl_cons, writtenBytes_cons, ← List.append_assoc, ← hwrite]
    exact ih (j.write upkeep r.1 r.2)

/-- The shelf with some events written to a journal. -/
def Shelf.writeAll (shelf : Shelf) (sink : Sink) (events : List (String × Event)) : Except FileFault Shelf :=
  events.foldlM (fun s r => s.write sink r.1 r.2) shelf

/-- **Events can be written where the directory is there**, and go to its journal. -/
theorem Shelf.writeAll_journal? {sink : Sink} (events : List (String × Event)) {shelf : Shelf} {j : Journal}
    (hj : shelf.journal? sink.directory = some j) :
    ∃ after, shelf.writeAll sink events = .ok after ∧
      after.journal? sink.directory = some (j.writeAll sink.upkeep events) := by
  induction events generalizing shelf j with
  | nil => exact ⟨shelf, rfl, hj⟩
  | cons r rest ih =>
    have hwrite : shelf.write sink r.1 r.2 = .ok (shelf.put sink.directory (j.write sink.upkeep r.1 r.2)) := by
      rw [write, hj]
    obtain ⟨after, hafter, hafterj⟩ := ih (journal?_put shelf sink.directory (j.write sink.upkeep r.1 r.2))
    refine ⟨after, ?_, hafterj⟩
    rw [writeAll, List.foldlM_cons, hwrite]
    exact hafter

/-! ## The two files -/

/-- The file set aside and the current one hold the lines of these events. -/
structure Journal.Holds (j : Journal) (aside current : List (String × Event)) : Prop where
  rotated : j.rotated.getD [] = writtenBytes aside
  content : j.content = writtenBytes current

namespace Journal

variable {upkeep : Upkeep} {bound : Int} {j : Journal} {aside current : List (String × Event)}

/-- A file that is set aside takes the place of the one set aside before; then the current one is within the bound. -/
theorem holds_rotate (hbound : upkeep.maxBytes = some bound) (hnonneg : 0 ≤ bound) (h : j.Holds aside current) :
    ∃ aside' current', (j.rotate upkeep).Holds aside' current' ∧ aside' ++ current' <:+ aside ++ current ∧
      ((writtenBytes current').length : Int) ≤ bound := by
  obtain ⟨hrotated, hcontent⟩ := h
  rw [rotate, hbound]
  cases hcurrent : j.current with
  | none =>
    have hempty : writtenBytes current = [] := by rw [← hcontent, Journal.content, hcurrent, Option.getD_none]
    exact ⟨aside, current, ⟨hrotated, hcontent⟩, List.suffix_rfl, by rw [hempty]; exact hnonneg⟩
  | some bytes =>
    have hbytes : bytes = writtenBytes current := by rw [← hcontent, Journal.content, hcurrent, Option.getD_some]
    dsimp only
    split
    · refine ⟨current, [], ⟨hbytes, rfl⟩, ?_, hnonneg⟩
      rw [List.append_nil]
      exact List.suffix_append aside current
    · next hsize =>
      refine ⟨aside, current, ⟨hrotated, hcontent⟩, List.suffix_rfl, ?_⟩
      rw [← hbytes]
      omega

/-- **A write keeps the last events**, and what stands in front of the new line is within the bound. -/
theorem holds_write (hbound : upkeep.maxBytes = some bound) (hnonneg : 0 ≤ bound) (h : j.Holds aside current)
    (time : String) (e : Event) :
    ∃ aside' held, (j.write upkeep time e).Holds aside' (held ++ [(time, e)]) ∧
      aside' ++ (held ++ [(time, e)]) <:+ aside ++ (current ++ [(time, e)]) ∧
      ((writtenBytes held).length : Int) ≤ bound := by
  obtain ⟨aside', held, ⟨hrotated, hcontent⟩, hlast, hsize⟩ := holds_rotate hbound hnonneg h
  refine ⟨aside', held, ⟨hrotated, ?_⟩, ?_, hsize⟩
  · rw [writtenBytes_append, writtenBytes_singleton, ← hcontent]
    rfl
  · rw [← List.append_assoc, ← List.append_assoc, List.suffix_append_self_iff]
    exact hlast

/-- A run of writes keeps the last events of those that were there and those that are written. -/
theorem holds_writeAll (hbound : upkeep.maxBytes = some bound) (hnonneg : 0 ≤ bound)
    (events : List (String × Event)) (h : j.Holds aside current) :
    ∃ aside' current', (j.writeAll upkeep events).Holds aside' current' ∧
      aside' ++ current' <:+ aside ++ (current ++ events) := by
  induction events generalizing j aside current with
  | nil =>
    rw [List.append_nil]
    exact ⟨aside, current, h, List.suffix_rfl⟩
  | cons r rest ih =>
    obtain ⟨time, e⟩ := r
    obtain ⟨aside₁, held, h₁, hlast₁, -⟩ := holds_write hbound hnonneg h time e
    obtain ⟨aside₂, current₂, h₂, hlast₂⟩ := ih h₁
    refine ⟨aside₂, current₂, h₂, hlast₂.trans ?_⟩
    have hrest : aside₁ ++ (held ++ [(time, e)]) ++ rest <:+ aside ++ (current ++ [(time, e)]) ++ rest :=
      List.suffix_append_self_iff.2 hlast₁
    simpa only [List.append_assoc, List.singleton_append] using hrest

end Journal

namespace Shelf

/-- **Rotation keeps the newest events.** Where events are written to a fresh journal whose files are bounded, each
write leaves the lines of the last events, in order, in the file set aside and the current one; the current one ends
with the line of the newest event, and what stands in front of that line is within the bound. -/
theorem writeAll_rotated {sink : Sink} {bound : Int} (hbound : sink.upkeep.maxBytes = some bound)
    (hnonneg : 0 ≤ bound) {shelf : Shelf} (hfresh : shelf.journal? sink.directory = some {})
    (events : List (String × Event)) (time : String) (e : Event) :
    ∃ after j aside held, shelf.writeAll sink (events ++ [(time, e)]) = .ok after ∧
      after.journal? sink.directory = some j ∧
      j.rotated.getD [] ++ j.content = writtenBytes (aside ++ held ++ [(time, e)]) ∧
      aside ++ held ++ [(time, e)] <:+ events ++ [(time, e)] ∧
      j.content = writtenBytes held ++ Journal.lineBytes (e.line time) ∧
      ((writtenBytes held).length : Int) ≤ bound := by
  obtain ⟨after, hafter, hj⟩ := writeAll_journal? (events ++ [(time, e)]) hfresh
  obtain ⟨aside₁, current, h₁, hlast₁⟩ :=
    Journal.holds_writeAll hbound hnonneg events (⟨rfl, rfl⟩ : Journal.Holds {} [] [])
  obtain ⟨aside, held, ⟨hrotated, hcontent⟩, hlast, hsize⟩ := Journal.holds_write hbound hnonneg h₁ time e
  have hall : aside₁ ++ (current ++ [(time, e)]) <:+ events ++ [(time, e)] := by
    rw [← List.append_assoc, List.suffix_append_self_iff]
    exact hlast₁
  rw [Journal.writeAll_concat] at hj
  refine ⟨after, _, aside, held, hafter, hj, ?_, ?_, ?_, hsize⟩
  · rw [hrotated, hcontent, List.append_assoc, ← writtenBytes_append]
  · rw [List.append_assoc]
    exact hlast.trans hall
  · rw [hcontent, writtenBytes_append, writtenBytes_singleton]

end Shelf

/-- An event with nothing in its context. -/
def passNote : Event where
  severity := .info
  topic := .sheetComputed

/-- Three notes in files of at most a hundred bytes: each of them sets the one before aside. -/
theorem writeAll_rotated_notes : ∃ after j aside held,
    (({} : Shelf).makeDirectory "logs").writeAll { directory := "logs", upkeep := { maxBytes := some 100 } }
        ([("one", passNote), ("two", passNote)] ++ [("three", passNote)]) = .ok after ∧
      after.journal? "logs" = some j ∧
      j.rotated.getD [] ++ j.content = writtenBytes (aside ++ held ++ [("three", passNote)]) ∧
      aside ++ held ++ [("three", passNote)] <:+ [("one", passNote), ("two", passNote)] ++ [("three", passNote)] ∧
      j.content = writtenBytes held ++ Journal.lineBytes (passNote.line "three") ∧
      ((writtenBytes held).length : Int) ≤ 100 :=
  @Shelf.writeAll_rotated { directory := "logs", upkeep := { maxBytes := some 100 } } 100 rfl (by decide) _ rfl _ _ _

end GameSheet
