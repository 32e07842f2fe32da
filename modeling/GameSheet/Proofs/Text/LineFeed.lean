import GameSheet.Proofs.Text.Ascii

/-!
# Texts around a line feed

A line feed is never part of a longer character, whatever bytes stand in front of it: it ends the character at hand
(`Text.Decoding.step_lineFeed`). So the bytes behind it are read as if there were no others
(**`Text.ofUtf8_lineFeed`**), and the lines behind it are those of the text that starts there
(**`Text.lines_lineFeed`**).
-/

namespace GameSheet.Text

/-! ## Bytes -/

namespace Decoding

variable {s : Decoding}

theorem step_first (h : s.owed = 0) (byte : UInt8) : s.step byte = first s.done byte.toNat := by
  rw [step, if_pos h]

/-- A byte that does not go on with the character at hand is read anew. -/
theorem step_anew (h : ¬s.owed = 0) {byte : UInt8} (hbyte : ¬(s.low ≤ byte.toNat && byte.toNat ≤ s.high) = true) :
    s.step byte = first (replacement :: s.done) byte.toNat := by
  rw [step, if_neg h, if_neg hbyte]

theorem step_more (h : ¬s.owed = 0) {byte : UInt8} (hbyte : (s.low ≤ byte.toNat && byte.toNat ≤ s.high) = true) :
    s.step byte = if s.owed = 1 then { done := Char.ofNat (s.value * 0x40 + (byte.toNat - 0x80)) :: s.done }
      else { done := s.done, owed := s.owed - 1, value := s.value * 0x40 + (byte.toNat - 0x80) } := by
  rw [step, if_neg h, if_pos hbyte]

/-- The bytes that may go on with a character are no ASCII. -/
theorem low_first (done : List Char) (b : Nat) : 0x80 ≤ (first done b).low := by
  unfold first
  split_ifs <;> simp

theorem low_step (s : Decoding) (byte : UInt8) : 0x80 ≤ (s.step byte).low := by
  by_cases howed : s.owed = 0
  · rw [step_first howed]
    exact low_first _ _
  · by_cases hbyte : (s.low ≤ byte.toNat && byte.toNat ≤ s.high) = true
    · rw [step_more howed hbyte]
      split_ifs <;> exact Nat.le_refl _
    · rw [step_anew howed hbyte]
      exact low_first _ _

theorem low_foldl (bytes : List UInt8) (h : 0x80 ≤ s.low) : 0x80 ≤ (bytes.foldl step s).low := by
  induction bytes generalizing s with
  | nil => exact h
  | cons byte rest ih => exact ih (low_step s byte)

/-- A line feed ends what is at hand. -/
theorem step_lineFeed (h : 0x80 ≤ s.low) : s.step 10 = { done := '\n' :: s.finish.reverse } := by
  by_cases howed : s.owed = 0
  · rw [step_first howed, finish, if_pos howed, List.reverse_reverse]
    rfl
  · have hbyte : ¬(s.low ≤ (10 : UInt8).toNat && (10 : UInt8).toNat ≤ s.high) = true := by
      rw [Bool.and_eq_true, decide_eq_true_eq]
      exact fun hle => absurd (Nat.le_trans h hle.1) (by decide)
    rw [step_anew howed hbyte, finish, if_neg howed, List.reverse_reverse]
    rfl

/-- The decoding with more characters in front of those read so far. -/
def after (s : Decoding) (front : List Char) : Decoding :=
  { s with done := s.done ++ front }

theorem first_after (done front : List Char) (b : Nat) : first (done ++ front) b = (first done b).after front := by
  unfold first
  split_ifs <;> rfl

/-- What was read before has no say in how a byte is read. -/
theorem step_after (s : Decoding) (front : List Char) (byte : UInt8) :
    (s.after front).step byte = (s.step byte).after front := by
  by_cases howed : s.owed = 0
  · rw [step_first howed, ← first_after]
    exact @step_first (s.after front) howed byte
  · by_cases hbyte : (s.low ≤ byte.toNat && byte.toNat ≤ s.high) = true
    · rw [step_more howed hbyte, apply_ite fun more : Decoding => more.after front]
      exact @step_more (s.after front) howed byte hbyte
    · rw [step_anew howed hbyte, ← first_after]
      exact @step_anew (s.after front) howed byte hbyte

theorem foldl_after (bytes : List UInt8) (s : Decoding) (front : List Char) :
    bytes.foldl step (s.after front) = (bytes.foldl step s).after front := by
  induction bytes generalizing s with
  | nil => rfl
  | cons byte rest ih => rw [List.foldl_cons, List.foldl_cons, step_after, ih]

theorem finish_after (s : Decoding) (front : List Char) : (s.after front).finish = front.reverse ++ s.finish := by
  rw [finish, finish, ← List.reverse_append, apply_ite (· ++ front)]
  rfl

end Decoding

/-- **What stands behind a line feed** is read as if nothing stood in front of it. -/
theorem ofUtf8_lineFeed (front rest : List UInt8) :
    ofUtf8 (front ++ 10 :: rest) = ofUtf8 front ++ '\n' :: ofUtf8 rest := by
  have hlow : 0x80 ≤ (front.foldl Decoding.step {}).low := Decoding.low_foldl front (Nat.le_refl _)
  have hstart : ({ done := '\n' :: (ofUtf8 front).reverse } : Decoding) =
      Decoding.after {} ('\n' :: (ofUtf8 front).reverse) := rfl
  rw [ofUtf8, List.foldl_append, List.foldl_cons, Decoding.step_lineFeed hlow, ← ofUtf8, hstart, Decoding.foldl_after,
    Decoding.finish_after, ← ofUtf8, List.reverse_cons, List.reverse_reverse, List.append_assoc, List.singleton_append]

theorem utf8_lineFeed (s : String) : utf8 (s ++ "\n") = utf8 s ++ [10] := by
  have hchars : s ++ "\n" = String.ofList (s.toList ++ ['\n']) := by
    rw [String.ofList_append, String.ofList_toList]
  have hbytes : utf8 s = s.toList.flatMap String.utf8EncodeChar := by rw [← utf8_ofList, String.ofList_toList]
  rw [hchars, utf8_ofList, List.flatMap_append, ← hbytes]
  rfl

/-! ## Lines -/

theorem linesFrom_open {line : List Char} (h : ∀ c ∈ line, isLineEnd c = false) (done : List (List Char))
    (current : List Char) : linesFrom done current line = linesFrom done (line.reverse ++ current) [] := by
  induction line generalizing current with
  | nil => rfl
  | cons c line ih =>
    obtain ⟨hc, hline⟩ := List.forall_mem_cons.1 h
    have hreturn : ∀ rest', c = '\r' → line = '\n' :: rest' → False := by
      rintro _ rfl -
      exact absurd hc (by decide)
    rw [linesFrom.eq_3 _ _ _ _ hreturn, hc, if_neg (by decide), ih hline, List.reverse_cons, List.append_assoc,
      List.singleton_append]

/-- A last line counts without an end of its own. -/
theorem lines_open {line : List Char} (h : ∀ c ∈ line, isLineEnd c = false) (hne : line ≠ []) : lines line = [line] := by
  have hreverse : ¬line.reverse.isEmpty = true := by simpa using hne
  rw [lines, linesFrom_open h, List.append_nil, linesFrom.eq_1, if_neg hreverse, List.reverse_reverse]
  rfl

theorem linesFrom_append (done front : List (List Char)) (current cs : List Char) :
    linesFrom (done ++ front) current cs = linesFrom done current cs ++ front := by
  induction done, current, cs using linesFrom.induct with
  | case1 done current h => rw [linesFrom.eq_1, linesFrom.eq_1, if_pos h, if_pos h]
  | case2 done current h => rw [linesFrom.eq_1, linesFrom.eq_1, if_neg h, if_neg h, List.cons_append]
  | case3 done current rest ih => rw [linesFrom.eq_2, linesFrom.eq_2, ← ih, List.cons_append]
  | case4 done current c rest h hend ih =>
    rw [linesFrom.eq_3 _ _ _ _ h, linesFrom.eq_3 _ _ _ _ h, if_pos hend, if_pos hend, ← ih, List.cons_append]
  | case5 done current c rest h hend ih =>
    rw [linesFrom.eq_3 _ _ _ _ h, linesFrom.eq_3 _ _ _ _ h, if_neg hend, if_neg hend, ih]

theorem linesFrom_feed (done : List (List Char)) (current rest : List Char) :
    linesFrom done current ('\n' :: rest) = linesFrom (current.reverse :: done) [] rest := by
  have h := linesFrom_line (List.forall_mem_nil _) done current rest
  rwa [List.nil_append, List.append_nil] at h

/-- A line feed ends the lines in front of it. -/
theorem linesFrom_lineFeed (done : List (List Char)) (current cs rest : List Char) :
    linesFrom done current (cs ++ '\n' :: rest) = linesFrom (linesFrom done current (cs ++ ['\n'])) [] rest := by
  have hreturn : isLineEnd '\r' = true := by decide
  have hempty : ∀ done current, linesFrom done current ('\n' :: rest) =
      linesFrom (linesFrom done current ['\n']) [] rest := fun done current => by
    rw [linesFrom_feed, linesFrom_feed]
    rfl
  induction done, current, cs using linesFrom.induct with
  | case1 done current h => exact hempty done current
  | case2 done current h => exact hempty done current
  | case3 done current cs ih =>
    rw [List.cons_append, List.cons_append, linesFrom.eq_2, ih, List.cons_append, List.cons_append, linesFrom.eq_2]
  | case4 done current c cs h hend ih =>
    by_cases hlast : c = '\r' ∧ cs = []
    · -- the carriage return and the line feed are one end
      obtain ⟨rfl, rfl⟩ := hlast
      rw [List.singleton_append, List.singleton_append, linesFrom.eq_2, linesFrom.eq_2]
      rfl
    · have hfeed : ∀ more rest', c = '\r' → cs ++ '\n' :: more = '\n' :: rest' → False := by
        intro more rest' hc hcs
        cases cs with
        | nil => exact hlast ⟨hc, rfl⟩
        | cons d cs => exact h cs hc (congrArg (· :: cs) (List.cons.inj hcs).1)
      rw [List.cons_append, List.cons_append, linesFrom.eq_3 _ _ _ _ (hfeed rest), linesFrom.eq_3 _ _ _ _ (hfeed []),
        if_pos hend, if_pos hend, ih]
  | case5 done current c cs h hend ih =>
    have hfeed : ∀ more rest', c = '\r' → cs ++ '\n' :: more = '\n' :: rest' → False :=
      fun more rest' hc _ => hend (by rw [hc, hreturn])
    rw [List.cons_append, List.cons_append, linesFrom.eq_3 _ _ _ _ (hfeed rest), linesFrom.eq_3 _ _ _ _ (hfeed []),
      if_neg hend, if_neg hend, ih]

/-- **The lines behind a line feed** are those of the text that starts there. -/
theorem lines_lineFeed (cs rest : List Char) : lines (cs ++ '\n' :: rest) = lines (cs ++ ['\n']) ++ lines rest := by
  rw [lines, lines, lines, linesFrom_lineFeed, ← List.nil_append (linesFrom [] [] (cs ++ ['\n'])), linesFrom_append,
    List.reverse_append, List.nil_append]

end GameSheet.Text
