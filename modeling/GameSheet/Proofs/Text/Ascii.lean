import GameSheet.Text.Lines
import GameSheet.Text.Utf8
import Mathlib.Data.List.Basic

/-!
# ASCII texts in bytes and in lines

A text of ASCII is read back from its bytes (**`Text.ofUtf8_utf8`**), and lines that were written one after the other,
each with a line feed after it, are the lines of the whole text (**`Text.lines_flatMap`**).
-/

namespace GameSheet.Text

/-! ## Bytes -/

theorem utf8_ofList (cs : List Char) : utf8 (String.ofList cs) = cs.flatMap String.utf8EncodeChar := by
  rw [utf8, String.toUTF8_eq_toByteArray, String.toByteArray_ofList, List.utf8Encode.eq_1, List.toList_data_toByteArray]

/-- A character of ASCII has one byte. -/
theorem utf8EncodeChar_ascii {c : Char} (h : c.toNat < 0x80) : String.utf8EncodeChar c = [c.val.toUInt8] := by
  refine String.utf8EncodeChar_eq_singleton ?_
  rw [Char.utf8Size_eq_one_iff, UInt32.le_iff_toNat_le]
  exact Nat.le_of_lt_succ h

/-- A byte of ASCII is a character of its own. -/
theorem step_ascii (done : List Char) {c : Char} (h : c.toNat < 0x80) :
    (String.utf8EncodeChar c).foldl Decoding.step { done := done } = { done := c :: done } := by
  have hcode : c.val.toNat < 0x80 := h
  have hbyte : c.val.toUInt8.toNat = c.toNat := by
    rw [UInt32.toNat_toUInt8, Nat.mod_eq_of_lt (by omega)]
    rfl
  rw [utf8EncodeChar_ascii h, List.foldl_cons, List.foldl_nil, Decoding.step, if_pos rfl, hbyte, Decoding.first,
    if_pos h, Char.ofNat_toNat]

theorem utf8_ascii {cs : List Char} (h : ∀ c ∈ cs, c.toNat < 0x80) :
    utf8 (String.ofList cs) = cs.map fun c => c.val.toUInt8 := by
  rw [utf8_ofList, List.map_eq_flatMap]
  exact List.flatMap_congr fun c hc => utf8EncodeChar_ascii (h c hc)

/-- The bytes of a text of ASCII from one on are those of its characters from the same one on. -/
theorem drop_utf8 {cs : List Char} (h : ∀ c ∈ cs, c.toNat < 0x80) (count : Nat) :
    (utf8 (String.ofList cs)).drop count = utf8 (String.ofList (cs.drop count)) := by
  rw [utf8_ascii h, utf8_ascii fun c hc => h c (List.mem_of_mem_drop hc), List.map_drop]

theorem length_utf8 {cs : List Char} (h : ∀ c ∈ cs, c.toNat < 0x80) :
    (utf8 (String.ofList cs)).length = cs.length := by
  rw [utf8_ascii h, List.length_map]

/-- **A text of ASCII is read back from its bytes.** -/
theorem ofUtf8_utf8 {s : String} (h : ∀ c ∈ s.toList, c.toNat < 0x80) : ofUtf8 (utf8 s) = s.toList := by
  have hfold : ∀ (cs done : List Char), (∀ c ∈ cs, c.toNat < 0x80) →
      (cs.flatMap String.utf8EncodeChar).foldl Decoding.step { done := done } = { done := cs.reverse ++ done } := by
    intro cs
    induction cs with
    | nil => exact fun done _ => rfl
    | cons c cs ih =>
      intro done hcs
      obtain ⟨hc, hcs⟩ := List.forall_mem_cons.1 hcs
      rw [List.flatMap_cons, List.foldl_append, step_ascii done hc, ih (c :: done) hcs]
      simp
  have hbytes : utf8 s = s.toList.flatMap String.utf8EncodeChar := by
    rw [← utf8_ofList, String.ofList_toList]
  rw [ofUtf8, hbytes, hfold s.toList [] h]
  simp [Decoding.finish]

/-! ## Lines -/

theorem linesFrom_line {line : List Char} (h : ∀ c ∈ line, isLineEnd c = false) (done : List (List Char))
    (current rest : List Char) :
    linesFrom done current (line ++ '\n' :: rest) = linesFrom ((current.reverse ++ line) :: done) [] rest := by
  induction line generalizing current with
  | nil =>
    have hfeed : isLineEnd '\n' = true := by decide
    rw [List.nil_append, List.append_nil, linesFrom.eq_3 _ _ _ _ fun _ heq _ => absurd heq (by decide), if_pos hfeed]
  | cons c line ih =>
    obtain ⟨hc, hline⟩ := List.forall_mem_cons.1 h
    have hreturn : ∀ rest' : List Char, c = '\r' → line ++ '\n' :: rest = '\n' :: rest' → False := by
      rintro _ rfl -
      exact absurd hc (by decide)
    rw [List.cons_append, linesFrom.eq_3 _ _ _ _ hreturn, hc, if_neg (by decide), ih hline, List.reverse_cons,
      List.append_assoc, List.singleton_append]

/-- **Written lines are the lines of the text.** -/
theorem lines_flatMap {texts : List (List Char)} (h : ∀ line ∈ texts, ∀ c ∈ line, isLineEnd c = false) :
    lines (texts.flatMap fun line => line ++ ['\n']) = texts := by
  have hfrom : ∀ (texts done : List (List Char)), (∀ line ∈ texts, ∀ c ∈ line, isLineEnd c = false) →
      linesFrom done [] (texts.flatMap fun line => line ++ ['\n']) = texts.reverse ++ done := by
    intro texts
    induction texts with
    | nil => exact fun done _ => rfl
    | cons line texts ih =>
      intro done htexts
      obtain ⟨hline, htexts⟩ := List.forall_mem_cons.1 htexts
      rw [List.flatMap_cons, List.append_assoc, List.singleton_append, linesFrom_line hline, ih _ htexts]
      simp
  rw [lines, hfrom texts [] h, List.append_nil, List.reverse_reverse]

end GameSheet.Text
