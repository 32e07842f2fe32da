import GameSheet.Proofs.Data.Json
import GameSheet.Proofs.Data.Limits
import GameSheet.Proofs.Journal.Writing
import GameSheet.Proofs.Text.Ascii

/-!
# What is read from a journal

A reader comes upon one of its limits in some lines; the others, which it bears (`Journal.Bears`), hold for it what they
hold for a reader without limits (`Journal.lineData?_of_bears`). It reads the tail of a journal just if it bears all the
lines there (`Journal.tail_of_bears`, `Journal.tail_of_not_bears`).

The records of reports whose contexts are exact (`Event.noted_exact`) are read back from the bytes that were written for
them, if the tail of the journal covers them (**`Journal.tail_of_records`**). A query gives the newest of the records
that it selects (`Query.collect_eq`).
-/

namespace GameSheet

/-! ## Exact records -/

namespace Data

theorem clipEntries_eq (entries : List (String × Data)) :
    clipEntries entries = entries.map fun e => (e.1, clipData e.2) := by
  induction entries with
  | nil => rfl
  | cons e rest ih => rw [clipEntries, ih, List.map_cons]

theorem finiteItems_eq (items : List Data) : finiteItems items = items.map finiteData := by
  induction items with
  | nil => rfl
  | cons d rest ih => rw [finiteItems, ih, List.map_cons]

theorem finiteEntries_eq (entries : List (String × Data)) :
    finiteEntries entries = entries.map fun e => (e.1, finiteData e.2) := by
  induction entries with
  | nil => rfl
  | cons e rest ih => rw [finiteEntries, ih, List.map_cons]

theorem sortItems_eq (items : List Data) : sortItems items = items.map sortKeys := by
  induction items with
  | nil => rfl
  | cons d rest ih => rw [sortItems, ih, List.map_cons]

/-- Entries whose data is changed one by one keep their keys. -/
theorem Exact.map_entries {entries : List (String × Data)} (hnodup : (entries.map Prod.fst).Nodup) {f : Data → Data}
    (h : ∀ e ∈ entries, (f e.2).Exact) : Exact (Data.mapping (entries.map fun e => (e.1, f e.2))) := by
  refine .mapping ?_ fun e he => ?_
  · rw [List.map_map]
    exact hnodup
  · obtain ⟨e', he', rfl⟩ := List.mem_map.1 he
    exact h e' he'

theorem Exact.clip {d : Data} (h : d.Exact) : (clipData d).Exact := by
  induction h with
  | null => exact .null
  | bool b => exact .bool b
  | int n => exact .int n
  | text s => exact .text _
  | list hexact ih => exact .list hexact
  | mapping hnodup hexact ih =>
    rw [clipData, clipEntries_eq]
    exact .map_entries hnodup ih

/-- Exact data has no numbers that a record has no words for. -/
theorem Exact.finite {d : Data} (h : d.Exact) : finiteData d = d := by
  induction h with
  | null => rfl
  | bool b => rfl
  | int n => rfl
  | text s => rfl
  | list hexact ih =>
    rw [finiteData, finiteItems_eq, List.map_congr_left ih, List.map_id']
  | @mapping entries hnodup hexact ih =>
    have hentries : entries.map (fun e => (e.1, finiteData e.2)) = entries.map fun e => e :=
      List.map_congr_left fun e he => Prod.ext rfl (ih e he)
    rw [finiteData, finiteEntries_eq, hentries, List.map_id']

theorem Exact.sorted {d : Data} (h : d.Exact) : d.sortKeys.Exact := by
  induction h with
  | null => exact .null
  | bool b => exact .bool b
  | int n => exact .int n
  | text s => exact .text s
  | list hexact ih =>
    rw [sortKeys, sortItems_eq]
    refine .list fun d' hd' => ?_
    obtain ⟨d, hd, rfl⟩ := List.mem_map.1 hd'
    exact ih d hd
  | @mapping entries hnodup hexact ih =>
    have hperm := List.mergeSort_perm (sortEntries entries) fun a b => a.1 ≤ b.1
    rw [sortKeys]
    rw [sortEntries_eq] at hperm ⊢
    cases Exact.map_entries hnodup ih with
    | mapping hnodup' hexact' =>
      exact .mapping ((hperm.map Prod.fst).nodup_iff.2 hnodup') fun e he => hexact' e (hperm.mem_iff.1 he)

end Data

namespace Event

/-- An event with an exact context has an exact record. -/
theorem record_exact {e : Event} (h : (Data.mapping e.context).Exact) (time : String) : (e.record time).Exact := by
  have hcontext : Data.mapping (finiteEntries e.context) = Data.mapping e.context := h.finite
  have hcode : (textOrNull e.errorCode).Exact := by
    cases e.errorCode with
    | none => exact .null
    | some code => exact .text code
  rw [record, hcontext]
  refine .mapping (by simp) ?_
  simp only [List.forall_mem_cons]
  exact ⟨.int _, .text _, .text _, .text _, .text _, h, hcode, List.forall_mem_nil _⟩

/-- A report with an exact context leaves an exact record. -/
theorem noted_exact {e : Event} (h : (Data.mapping e.context).Exact) (time : String) : (e.noted time).Exact :=
  (@record_exact e.trim h.clip time).sorted

end Event

/-! ## Lines -/

namespace Journal

section Lines

variable {r : Data.Reader} {line : List Char}

/-- The data of a line, if it holds any and the reader bears it. -/
def lineData? (line : List Char) (r : Data.Reader := {}) : Option Data :=
  (lineData r line).toOption.join

/-- The reader comes upon none of its limits in a line. -/
def Bears (r : Data.Reader) (line : List Char) : Prop :=
  (lineData r line).isOk = true

instance (r : Data.Reader) (line : List Char) : Decidable (Bears r line) :=
  inferInstanceAs (Decidable (_ = true))

theorem lineData_of_bears (h : Bears r line) : lineData r line = .ok (lineData? line r) := by
  rw [lineData?]
  cases hfound : lineData r line with
  | ok found => rfl
  | error o =>
    rw [Bears, hfound] at h
    cases h

/-- A reader without limits bears every line. -/
theorem bears_free (standIn : Nat → Char) (line : List Char) : Bears (.free standIn) line := by
  have hfree := (Data.within_readJson (.free standIn) line).unburdened
  rw [Bears, lineData]
  split
  · rfl
  · cases hread : Data.readJson (.free standIn) line with
    | ok d => rfl
    | error fault =>
      cases fault with
      | malformed => rfl
      | overload o => exact absurd hread (hfree o)

/-- A line that the reader bears holds for it what it holds for a reader without limits. -/
theorem lineData?_of_bears (h : Bears r line) : lineData? line r = lineData? line (.free r.standIn) := by
  rw [lineData?, lineData?, lineData, lineData]
  rcases (Data.within_readJson r line).same with hsame | ⟨o, hover⟩
  · rw [hsame]
  · by_cases hblank : line.all Text.isBlank = true
    · rw [if_pos hblank, if_pos hblank]
    · rw [Bears, lineData, if_neg hblank, hover] at h
      cases h

/-- What is printed and no blank of JSON is no blank of a text. -/
theorem isBlank_of_printable {c : Char} (hprintable : Data.Printable c) (hblank : Data.isJsonBlank c = false) :
    Text.isBlank c = false := by
  obtain ⟨hlow, hhigh⟩ := hprintable
  have hspace : c.toNat ≠ 0x20 := fun hspace => by
    rw [← Char.ofNat_toNat c, hspace] at hblank
    exact absurd hblank (by decide)
  simp only [Text.isBlank, Bool.or_eq_false_iff, Bool.and_eq_false_imp, decide_eq_true_eq, decide_eq_false_iff_not,
    beq_eq_false_iff_ne]
  omega

/-- A printable line that starts with no blank is read as a JSON text. -/
theorem lineData_of_printable {c : Char} {cs : List Char} (hcs : line = c :: cs)
    (hprintable : ∀ c ∈ line, Data.Printable c) (hblank : Data.isJsonBlank c = false) :
    lineData r line = unlessMalformed (Data.readJson r line) := by
  have hhead : Text.isBlank c = false :=
    isBlank_of_printable (hprintable c (by rw [hcs]; exact List.mem_cons_self)) hblank
  have hall : ¬(line.all Text.isBlank = true) := by
    rw [hcs, List.all_cons, hhead, Bool.false_and]
    exact Bool.false_ne_true
  rw [lineData, if_neg hall]

/-- **A reader does not bear the line of an integer that has too many digits for it.** -/
theorem not_bears_of_exceeded (negative : Bool) {n : Decimal.Numeral} (hn : n.Tidy) {limit : Nat}
    (h : r.exceeded? n = some limit) : ¬Bears r (Data.minus negative ++ n.chars) := by
  have hvalue : Data.JsonText false Data.replacement (.value (Data.numberData negative n)) _ := .number negative hn
  obtain ⟨c, cs, hcs, hc, -⟩ := hvalue.value_head
  rw [Bears, lineData_of_printable hcs (Data.printable_number negative hn) hc, Data.readJson_exceeded r negative hn h]
  exact Bool.false_ne_true

end Lines

theorem isLineEnd_of_printable {c : Char} (h : Data.Printable c) : Text.isLineEnd c = false := by
  obtain ⟨hlow, hhigh⟩ := h
  simp only [Text.isLineEnd, Bool.or_eq_false_iff, Bool.and_eq_false_imp, decide_eq_true_eq, decide_eq_false_iff_not,
    beq_eq_false_iff_ne]
  omega

/-- A line of data is read back, with the floats that their texts denote, if the reader bears it. -/
theorem lineData?_keyed {d : Data} (h : d.Keyed) {r : Data.Reader} (hbears : Bears r d.json.toList) :
    lineData? d.json.toList r = some d.reread := by
  obtain ⟨c, cs, hcs, hc, -⟩ := Data.json_head h
  rw [lineData?_of_bears hbears, lineData?, lineData_of_printable hcs (Data.printable_json h) hc,
    Data.readJson_json h]
  rfl

/-- A line of exact data is read back as it is. -/
theorem lineData?_json {d : Data} (h : d.Exact) : lineData? d.json.toList = some d :=
  (lineData?_keyed h.keyed (bears_free Data.replacement _)).trans (congrArg some h.reread_eq)

/-! ## The tail -/

section Tail

variable {r : Data.Reader} {upkeep : Upkeep} {j : Journal}

/-- The tail holds what its lines hold, if the reader bears them all, -/
theorem tail_of_bears (h : ∀ line ∈ j.tailLines upkeep, Bears r line) :
    j.tail upkeep r = .ok ((j.tailLines upkeep).filterMap (lineData? · r)) := by
  have hfound : (j.tailLines upkeep).mapM (lineData r) = .ok ((j.tailLines upkeep).map (lineData? · r)) :=
    mapM_eq_ok_iff.2 (List.forall₂_map_right_iff.2 (List.forall₂_same.2 fun line hline =>
      lineData_of_bears (h line hline)))
  rw [tail, hfound]
  change Except.ok (((j.tailLines upkeep).map (lineData? · r)).filterMap id) = _
  rw [List.filterMap_map]
  rfl

/-- and else it is not read. -/
theorem tail_of_not_bears (h : ¬∀ line ∈ j.tailLines upkeep, Bears r line) : ∃ o, j.tail upkeep r = .error o := by
  cases hfound : (j.tailLines upkeep).mapM (lineData r) with
  | error o => exact ⟨o, by rw [tail, hfound]; rfl⟩
  | ok found =>
    refine absurd (fun line hline => ?_) h
    obtain ⟨d?, -, hd⟩ := exists_of_forall₂ (mapM_eq_ok_iff.1 hfound) hline
    rw [Bears, hd]
    rfl

theorem read_of_tail {records : List Data} (h : j.tail upkeep r = .ok records) (q : Query) :
    j.read upkeep q r = q.collect (min q.limit Query.greatestLimit - 1).toNat records.reverse := by
  rw [read, h]
  rfl

theorem read_of_overload {o : Data.Overload} (h : j.tail upkeep r = .error o) (q : Query) :
    j.read upkeep q r = .error (.overload o) := by
  rw [read, h]
  rfl

/-- Without limits the tail is always read. -/
theorem tail_eq (upkeep : Upkeep) (j : Journal) :
    j.tail upkeep = .ok ((j.tailLines upkeep).filterMap (lineData? ·)) :=
  tail_of_bears fun line _ => bears_free _ line

end Tail

/-- The bytes of some lines are those of one text. -/
theorem flatMap_lineBytes {α : Type} (text : α → String) (l : List α) :
    l.flatMap (fun a => lineBytes (text a)) =
      Text.utf8 (String.ofList (l.flatMap fun a => (text a).toList ++ ['\n'])) := by
  rw [Text.utf8_ofList, List.flatMap_assoc]
  refine List.flatMap_congr fun a _ => ?_
  rw [← Text.utf8_ofList, String.ofList_append, String.ofList_toList]
  rfl

/-- The lines of a file of printable lines, if the tail covers them. -/
theorem tailLines_of_lines {lines : List (List Char)} (hprintable : ∀ line ∈ lines, ∀ c ∈ line, Data.Printable c)
    {j : Journal} (hcontent : j.content = Text.utf8 (String.ofList (lines.flatMap fun line => line ++ ['\n'])))
    {upkeep : Upkeep} (hfits : (j.size : Int) ≤ upkeep.tailBytes) : j.tailLines upkeep = lines := by
  have hstart : j.tailStart upkeep = 0 := by
    rw [tailStart]
    omega
  have hascii : ∀ c ∈ lines.flatMap fun line => line ++ ['\n'], c.toNat < 0x80 := by
    intro c hc
    obtain ⟨line, hline, hc⟩ := List.mem_flatMap.1 hc
    rcases List.mem_append.1 hc with hc | hc
    · exact Nat.lt_trans (hprintable line hline c hc).2 (by decide)
    · rw [List.mem_singleton.1 hc]
      decide
  have hchars : Text.ofUtf8 j.content = lines.flatMap fun line => line ++ ['\n'] := by
    rw [hcontent, Text.ofUtf8_utf8, String.toList_ofList]
    rw [String.toList_ofList]
    exact hascii
  rw [tailLines, hstart, List.drop_zero, hchars,
    Text.lines_flatMap fun line hline c hc => isLineEnd_of_printable (hprintable line hline c hc)]
  rfl

end Journal

/-! ## Queries -/

/-- The query can be asked about the record, and selects it. -/
def Query.picks (q : Query) (record : Data) : Bool :=
  (q.selects record).toOption.getD false

theorem Query.picks_eq {q : Query} {record : Data} {b : Bool} (h : q.selects record = .ok b) : q.picks record = b := by
  rw [picks, h]
  rfl

/-- **A query gives the first of the records that it selects**, if it can be asked about all of them. -/
theorem Query.collect_eq (q : Query) {records : List Data} (h : ∀ r ∈ records, ∃ b, q.selects r = .ok b) (room : Nat) :
    q.collect room records = .ok ((records.filter q.picks).take (room + 1)) := by
  induction records generalizing room with
  | nil => rfl
  | cons r rest ih =>
    obtain ⟨⟨b, hb⟩, hrest⟩ := List.forall_mem_cons.1 h
    have hpicks : q.picks r = b := picks_eq hb
    rw [collect.eq_def]
    dsimp only
    rw [hb]
    cases b with
    | false =>
      rw [List.filter_cons_of_neg (by simp [hpicks])]
      exact ih hrest room
    | true =>
      rw [List.filter_cons_of_pos hpicks]
      cases room with
      | zero => rfl
      | succ room =>
        rw [List.take_succ_cons]
        change ((q.collect room rest).map fun more => r :: more) = _
        rw [ih hrest room]
        rfl

end GameSheet
