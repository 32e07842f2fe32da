import GameSheet.Proofs.Basics
import GameSheet.Proofs.Formula.Grammar
import GameSheet.Proofs.Formula.Lexeme

/-!
# The tokens of a text

Where a token of a scan comes from (`exists_of_mem_scanFrom`): the text goes on with it at its offset. So

* its position is the offset of its characters (`chars_isPrefix_of_mem_scan`),
* a number token is a numeral (`readable_of_mem_scan`),
* it neither starts nor ends with a blank (`tokenAt?_chars`), and a blank text has no tokens (`scan_blank`).
-/

namespace GameSheet.Formula

open GameSheet.Text GameSheet.Decimal

/-- A token of a scan is the one at its offset. -/
theorem exists_of_mem_scanFrom {t : Token} {position : Nat} {cs : List Char} (h : t ∈ (scanFrom position cs).1) :
    ∃ before after, cs = before ++ (t.chars ++ after) ∧ t.position = position + before.length ∧
      tokenAt? (t.chars ++ after) = some (t.kind, t.chars, after) := by
  fun_induction scanFrom position cs with
  | case1 => cases h
  | case2 position c rest hc ih =>
    obtain ⟨before, after, hcs, hp, ht⟩ := ih h
    exact ⟨c :: before, after, by rw [hcs, List.cons_append], by rw [hp, List.length_cons]; omega, ht⟩
  | case3 position c rest hc kind chars tail htoken tokens misfit hscan ih =>
    obtain ⟨happend, _⟩ := tokenAt?_append htoken
    rcases List.mem_cons.1 h with rfl | hmem
    · exact ⟨[], tail, happend, rfl, by rw [← happend]; exact htoken⟩
    · rw [hscan] at ih
      obtain ⟨before, after, htail, hp, ht⟩ := ih hmem
      refine ⟨chars ++ before, after, by rw [happend, htail, List.append_assoc], ?_, ht⟩
      rw [hp, List.length_append]
      omega
  | case4 position c rest hc hnone => cases h

/-- **Positions are offsets**: the text has the characters of a token at its position. -/
theorem chars_isPrefix_of_mem_scan {t : Token} {cs : List Char} (h : t ∈ (scan cs).1) :
    t.chars <+: cs.drop t.position := by
  obtain ⟨before, after, rfl, hp, _⟩ := exists_of_mem_scanFrom h
  rw [hp, Nat.zero_add, List.drop_left]
  exact List.prefix_append t.chars after

/-! ## What a token starts and ends with -/

theorem isBlank_of_isNameStart {c : Char} (h : isNameStart c = true) : isBlank c = false := by
  have hrange : 65 ≤ c.toNat ∧ c.toNat ≤ 122 := by
    simp only [isNameStart, Bool.or_eq_true, Bool.and_eq_true, decide_eq_true_eq] at h
    rcases h with (⟨hl, hu⟩ | ⟨hl, hu⟩) | rfl
    · have hl' : 65 ≤ c.toNat := hl
      have hu' : c.toNat ≤ 90 := hu
      omega
    · have hl' : 97 ≤ c.toNat := hl
      have hu' : c.toNat ≤ 122 := hu
      omega
    · decide
  simp only [isBlank, Bool.or_eq_false_iff, Bool.and_eq_false_iff, decide_eq_false_iff_not, beq_eq_false_iff_ne]
  omega

theorem isBlank_of_isDigit {c : Char} (h : isDigit c = true) : isBlank c = false :=
  eq_false_of_isDigit (by decide +kernel) h

theorem isBlank_of_isNameChar {c : Char} (h : isNameChar c = true) : isBlank c = false := by
  rw [isNameChar, Bool.or_eq_true] at h
  rcases h with h | h
  · exact isBlank_of_isNameStart h
  · have hrange : 48 ≤ c.toNat ∧ c.toNat ≤ 57 := by
      simp only [isAsciiDigit, Bool.and_eq_true, decide_eq_true_eq] at h
      exact h
    simp only [isBlank, Bool.or_eq_false_iff, Bool.and_eq_false_iff, decide_eq_false_iff_not, beq_eq_false_iff_ne]
    omega

theorem Word.not_blank {cs : List Char} (h : Word cs) : ∀ c ∈ cs, isBlank c = false := by
  obtain ⟨hc, hcs⟩ := h
  exact List.forall_mem_cons.2 ⟨isBlank_of_isNameStart hc, fun x hx => isBlank_of_isNameChar (hcs x hx)⟩

theorem Numeral.chars_of_inOrder {n : Numeral} (h : n.InOrder isDigit) : ∀ c ∈ n.chars, isBlank c = false := by
  have hmarks : ∀ c ∈ ['.', 'e', 'E', '+', '-'], isBlank c = false := forall_mem_of_all (by decide)
  intro c hc
  rcases Numeral.mem_chars h hc with hdigit | hother
  · exact isBlank_of_isDigit hdigit
  · exact hmarks c hother

/-- A number token is a numeral, and a token neither starts nor ends with a blank. -/
theorem tokenAt?_chars {cs chars rest : List Char} {kind : TokenKind} (h : tokenAt? cs = some (kind, chars, rest)) :
    (kind = .number → ∃ n, Numeral.ofChars? isDigit chars = some n) ∧ (∀ c ∈ chars.head?, isBlank c = false) ∧
      ∀ c ∈ chars.getLast?, isBlank c = false := by
  have ends : ∀ {cs : List Char}, (∀ c ∈ cs, isBlank c = false) →
      (∀ c ∈ cs.head?, isBlank c = false) ∧ ∀ c ∈ cs.getLast?, isBlank c = false := fun hall =>
    ⟨fun c hc => hall c (List.mem_of_mem_head? hc), fun c hc => hall c (List.mem_of_getLast? hc)⟩
  cases lexeme_of_tokenAt? h with
  | @number n hn =>
    exact ⟨fun _ => ⟨n, Numeral.ofChars?_chars digitClass_isDigit hn⟩, ends (Numeral.chars_of_inOrder hn)⟩
  | identifier hword => exact ⟨fun hk => (by cases hk), ends hword.not_blank⟩
  | dotted hq hf =>
    have hpoint : isBlank '.' = false := by decide
    exact ⟨fun hk => (by cases hk),
      ends (List.forall_mem_append.2 ⟨hq.not_blank, List.forall_mem_cons.2 ⟨hpoint, hf.not_blank⟩⟩)⟩
  | string =>
    -- blanks may stand between the quotes
    have hquote : isBlank '"' = false := by decide
    refine ⟨fun hk => (by cases hk), fun c hc => ?_, fun c hc => ?_⟩
    · cases hc
      exact hquote
    · rw [List.getLast?_cons, List.getLast?_concat] at hc
      cases hc
      exact hquote
  | operator ho =>
    have hlong : ∀ o ∈ longOperators, o.any isBlank = false := by decide
    have hblank : ∀ c ∈ chars, isBlank c = false := by
      simpa only [List.any_eq_false, Bool.not_eq_true] using hlong _ ho
    exact ⟨fun hk => (by cases hk), ends hblank⟩
  | mark hc =>
    have hshort : ∀ p ∈ shortTokens, p.2 ≠ .number ∧ isBlank p.1 = false := by decide
    exact ⟨fun hk => absurd hk (hshort _ hc).1, ends (List.forall_mem_singleton.2 (hshort _ hc).2)⟩

/-- A text that a token starts does not start with a blank. -/
theorem tokenAt?_first {cs chars rest : List Char} {kind : TokenKind} (h : tokenAt? cs = some (kind, chars, rest)) :
    ∀ c ∈ cs.head?, isBlank c = false := by
  obtain ⟨rfl, hne⟩ := tokenAt?_append h
  obtain ⟨t, chars, rfl⟩ := List.exists_cons_of_ne_nil hne
  exact (tokenAt?_chars h).2.1

/-- **Number tokens are numerals.** -/
theorem readable_of_mem_scan {t : Token} {cs : List Char} (h : t ∈ (scan cs).1) : t.Readable := by
  obtain ⟨_, _, _, _, ht⟩ := exists_of_mem_scanFrom h
  exact (tokenAt?_chars ht).1

/-- **A blank text has no tokens.** -/
theorem scan_blank {cs : List Char} (h : cs.all isBlank = true) : (scan cs).1 = [] := by
  rw [List.eq_nil_iff_forall_not_mem]
  intro t ht
  obtain ⟨before, after, rfl, _, htoken⟩ := exists_of_mem_scanFrom ht
  have hfirst := tokenAt?_first htoken
  obtain ⟨_, hne⟩ := tokenAt?_append htoken
  obtain ⟨c, chars, hchars⟩ := List.exists_cons_of_ne_nil hne
  rw [hchars] at h hfirst
  have hblank : isBlank c = true := List.all_eq_true.1 h c (by simp)
  rw [hfirst c rfl] at hblank
  cases hblank

end GameSheet.Formula
