import Mathlib.Data.List.Basic
import GameSheet.Proofs.Formula.Lexing
import GameSheet.Proofs.Formula.Positions

/-!
# Texts side by side

What follows a text does not change its tokens if it starts with a divider, which is a blank, a comma, a closing
parenthesis or a quote: no token goes on with one (`tokenAt?_divided`). So the tokens of texts side by side are found
part by part, as long as their places do not matter (`Lexes`), and layout around a text changes nothing, whether the
text has a misfit or not (`unplacedScan_layout`).

The blanks around a text that consists of tokens are layout, since a token neither starts nor ends with a blank
(`Lexes.exists_layout`).
-/

namespace GameSheet.Formula

open GameSheet.Text GameSheet.Decimal

/-! ## Dividers -/

/-- A character that ends every token in front of it. -/
def isDivider (c : Char) : Bool :=
  isBlank c || c = ',' || c = ')' || c = '"'

/-- The text is empty or starts with a divider. -/
def Divided (cs : List Char) : Prop :=
  ∀ c ∈ cs.head?, isDivider c = true

theorem isBlank_of_isLayout {c : Char} (h : isLayout c = true) : isBlank c = true := by
  simp only [isLayout, Bool.or_eq_true, decide_eq_true_eq] at h
  rcases h with (((rfl | rfl) | rfl) | rfl) | rfl <;> decide

theorem all_isBlank_of_layout {cs : List Char} (h : cs.all isLayout = true) : cs.all isBlank = true :=
  List.all_eq_true.2 fun c hc => isBlank_of_isLayout (List.all_eq_true.1 h c hc)

theorem isDivider_of_isBlank {c : Char} (h : isBlank c = true) : isDivider c = true := by
  simp [isDivider, h]

theorem divided_of_blank {cs : List Char} (h : cs.all isBlank = true) : Divided cs := by
  intro c hc
  exact isDivider_of_isBlank (List.all_eq_true.1 h c (List.mem_of_mem_head? hc))

theorem divided_of_layout {cs : List Char} (h : cs.all isLayout = true) : Divided cs :=
  divided_of_blank (all_isBlank_of_layout h)

/-- A divider is none of the characters with which a token could go on. -/
theorem isDivider_spec {c : Char} (h : isDivider c = true) : isNameChar c = false ∧ isNameStart c = false ∧
    isDigit c = false ∧ c ∉ ['.', '=', '>', 'e', 'E', '+', '-'] := by
  simp only [isDivider, Bool.or_eq_true, decide_eq_true_eq] at h
  rcases h with ((hblank | rfl) | rfl) | rfl
  · have notBlank : ∀ {p : Char → Bool}, (p c = true → isBlank c = false) → p c = false := fun hp =>
      Bool.eq_false_iff.2 fun hc => absurd hblank (by simp [hp hc])
    refine ⟨notBlank isBlank_of_isNameChar, notBlank isBlank_of_isNameStart, notBlank isBlank_of_isDigit, fun hc => ?_⟩
    have hmarks : ['.', '=', '>', 'e', 'E', '+', '-'].any isBlank = false := by decide
    exact List.any_eq_false.1 hmarks c hc hblank
  all_goals decide

/-! ## Tokens in front of a divider -/

section Divided

variable {d : List Char}

/-- What is cut off at the first character outside a class is not changed by what follows, if that starts outside. -/
theorem span_append {p : Char → Bool} (hd : ∀ c ∈ d.head?, p c = false) (cs : List Char) :
    (cs ++ d).takeWhile p = cs.takeWhile p ∧ (cs ++ d).dropWhile p = cs.dropWhile p ++ d := by
  induction cs with
  | nil =>
    cases d with
    | nil => simp
    | cons c d =>
      have hc := hd c rfl
      simp [hc]
  | cons c cs ih => cases hc : p c <;> simp [hc, ih]

variable (hd : Divided d)

include hd

theorem nameAt?_divided (cs : List Char) : nameAt? (cs ++ d) = (nameAt? cs).map fun (name, rest) => (name, rest ++ d) := by
  cases cs with
  | nil =>
    cases d with
    | nil => rfl
    | cons c d =>
      have hc := (isDivider_spec (hd c rfl)).2.1
      simp [nameAt?, hc]
  | cons c cs =>
    have hspan := span_append (fun c hc => (isDivider_spec (hd c hc)).1) cs
    cases hc : isNameStart c <;> simp [nameAt?, hc, hspan.1, hspan.2]

theorem nameToken?_divided (cs : List Char) :
    nameToken? (cs ++ d) = (nameToken? cs).map fun (kind, chars, rest) => (kind, chars, rest ++ d) := by
  unfold nameToken?
  rw [nameAt?_divided hd]
  cases hn : nameAt? cs with
  | none => rfl
  | some found =>
    obtain ⟨name, rest⟩ := found
    cases rest with
    | nil =>
      cases d with
      | nil => rfl
      | cons c d =>
        have hc : c ≠ '.' := fun h => (isDivider_spec (hd c rfl)).2.2.2 (by simp [h])
        simp only [Option.map_some, List.nil_append]
        split
        · rename_i heq
          cases heq
        · rename_i heq
          simp only [Option.some.injEq, Prod.mk.injEq, List.cons.injEq] at heq
          exact absurd heq.2.1 hc
        · rename_i heq
          simp only [Option.some.injEq, Prod.mk.injEq] at heq
          obtain ⟨rfl, rfl⟩ := heq
          rfl
    | cons c rest =>
      by_cases hc : c = '.'
      · subst hc
        simp only [Option.map_some, List.cons_append, nameAt?_divided hd]
        cases nameAt? rest with
        | none => rfl
        | some found => simp
      · simp [hc]

theorem scanFraction_divided (cs : List Char) : Numeral.scanFraction isDigit (cs ++ d) =
    ((Numeral.scanFraction isDigit cs).1, (Numeral.scanFraction isDigit cs).2 ++ d) := by
  cases cs with
  | nil =>
    cases d with
    | nil => rfl
    | cons c d =>
      have hc : c ≠ '.' := fun h => (isDivider_spec (hd c rfl)).2.2.2 (by simp [h])
      simp [Numeral.scanFraction, hc]
  | cons c cs =>
    have hspan := span_append (fun c hc => (isDivider_spec (hd c hc)).2.2.1) cs
    by_cases hc : c = '.'
    · subst hc
      simp [Numeral.scanFraction, hspan.1, hspan.2]
    · simp [Numeral.scanFraction, hc]

theorem scanSign_divided (cs : List Char) : scanSign (cs ++ d) = ((scanSign cs).1, (scanSign cs).2 ++ d) := by
  cases cs with
  | nil =>
    cases d with
    | nil => rfl
    | cons c d =>
      have hc : ¬(c = '+' ∨ c = '-') := fun h => (isDivider_spec (hd c rfl)).2.2.2 (by rcases h with rfl | rfl <;> simp)
      simp [scanSign, hc]
  | cons c cs => by_cases hc : c = '+' ∨ c = '-' <;> simp [scanSign, hc]

theorem Power.scan_divided (cs : List Char) :
    Power.scan isDigit (cs ++ d) = ((Power.scan isDigit cs).1, (Power.scan isDigit cs).2 ++ d) := by
  cases cs with
  | nil =>
    cases d with
    | nil => rfl
    | cons c d =>
      have hc : ¬(c = 'e' ∨ c = 'E') := fun h => (isDivider_spec (hd c rfl)).2.2.2 (by rcases h with rfl | rfl <;> simp)
      simp [Power.scan, hc]
  | cons c cs =>
    have hspan := span_append (fun c hc => (isDivider_spec (hd c hc)).2.2.1) (scanSign cs).2
    by_cases hc : c = 'e' ∨ c = 'E'
    · simp only [Power.scan, List.cons_append, if_pos hc, scanSign_divided hd, hspan.1, hspan.2]
      cases (scanSign cs).2.takeWhile isDigit <;> rfl
    · simp only [Power.scan, List.cons_append, if_neg hc]

theorem Numeral.scan_divided (cs : List Char) :
    Numeral.scan isDigit (cs ++ d) = (Numeral.scan isDigit cs).map fun (n, rest) => (n, rest ++ d) := by
  have hspan := span_append (fun c hc => (isDivider_spec (hd c hc)).2.2.1) cs
  simp only [Numeral.scan, hspan.1, hspan.2, scanFraction_divided hd, Power.scan_divided hd]
  split <;> rfl

theorem markToken?_divided {cs : List Char} (hcs : cs ≠ []) :
    markToken? (cs ++ d) = (markToken? cs).map fun (kind, chars, rest) => (kind, chars, rest ++ d) := by
  match cs, hcs with
  | [a], _ =>
    cases d with
    | nil =>
      simp only [List.append_nil, markToken?, Option.map_map]
      rfl
    | cons c d =>
      have hc := (isDivider_spec (hd c rfl)).2.2.2
      have hlong : longOperators.contains [a, c] = false := by
        simp only [List.mem_cons, not_or] at hc
        simp [longOperators, hc]
      simp only [List.singleton_append, markToken?, hlong, Bool.false_eq_true, if_false, Option.map_map]
      rfl
  | a :: b :: rest, _ =>
    simp only [List.cons_append, markToken?]
    split
    · rfl
    · simp only [Option.map_map]
      rfl

end Divided

/-! ## String literals in front of other text -/

/-- A string literal ends with its quote, whatever follows. -/
theorem stringTail?_append_some {cs body rest : List Char} (h : stringTail? cs = some (body, rest)) (d : List Char) :
    stringTail? (cs ++ d) = some (body, rest ++ d) := by
  obtain rfl := stringTail?_append h
  obtain ⟨inside, rfl, hinside⟩ := quotable_of_stringTail? h
  rw [List.append_assoc, List.append_assoc]
  exact hinside.stringTail?_append (rest ++ d)

/-- A string literal that does not end does not end after layout either. -/
theorem stringTail?_layout {cs d : List Char} (hd : d.all isLayout = true) (h : stringTail? cs = none) :
    stringTail? (cs ++ d) = none := by
  have hquote : '"' ∉ d := fun hmem => absurd (List.all_eq_true.1 hd _ hmem) (by decide)
  rw [Option.eq_none_iff_forall_not_mem]
  rintro ⟨body, rest⟩ hbody
  obtain ⟨inside, rfl, hinside⟩ := quotable_of_stringTail? hbody
  -- the closing quote stands in the text, since it does not stand in the layout
  rcases List.append_eq_append_iff.1 (stringTail?_append hbody) with ⟨t, ht, rfl⟩ | ⟨t, rfl, -⟩
  · rcases List.eq_nil_or_concat t with rfl | ⟨t, c, rfl⟩
    · rw [List.append_nil] at ht
      rw [← ht, hinside.stringTail?_append []] at h
      cases h
    · rw [List.concat_eq_append, ← List.append_assoc] at ht
      obtain rfl : '"' = c := by simpa using (List.append_inj' ht rfl).2
      exact hquote (by simp)
  · rw [List.append_assoc, List.singleton_append, hinside.stringTail?_append t] at h
    cases h

/-! ## Tokens -/

/-- What follows a text with a divider does not change whether a token stands at its start, and which one, unless it
ends a string literal. -/
theorem tokenAt?_followed {cs d : List Char} (hd : Divided d) (hcs : cs ≠ [])
    (hstring : ∀ tail, cs = '"' :: tail → stringTail? tail = none → stringTail? (tail ++ d) = none) :
    tokenAt? (cs ++ d) = (tokenAt? cs).map fun (kind, chars, rest) => (kind, chars, rest ++ d) := by
  cases hname : nameToken? cs with
  | some token =>
    have hname' := nameToken?_divided hd cs
    rw [hname] at hname'
    rw [tokenAt?_name hname, tokenAt?_name hname']
    rfl
  | none =>
    have hname' : nameToken? (cs ++ d) = none := by rw [nameToken?_divided hd, hname]; rfl
    cases hnumeral : Numeral.scan isDigit cs with
    | some found =>
      have hnumeral' := Numeral.scan_divided hd cs
      rw [hnumeral] at hnumeral'
      rw [tokenAt?_numeral hname hnumeral, tokenAt?_numeral hname' hnumeral']
      rfl
    | none =>
      have hnumeral' : Numeral.scan isDigit (cs ++ d) = none := by rw [Numeral.scan_divided hd, hnumeral]; rfl
      obtain ⟨c, tail, rfl⟩ := List.exists_cons_of_ne_nil hcs
      by_cases hc : c = '"'
      · subst hc
        rw [List.cons_append, tokenAt?_quote, tokenAt?_quote]
        cases htail : stringTail? tail with
        | none => rw [hstring tail rfl htail]; rfl
        | some found => rw [stringTail?_append_some htail]; rfl
      · have hquote : (c :: tail).head? ≠ some '"' := fun h => hc (Option.some.inj h)
        rw [tokenAt?_mark hname hnumeral hquote, tokenAt?_mark hname' hnumeral' hquote, markToken?_divided hd hcs]

/-- A token in front of a divider is the same without it. -/
theorem tokenAt?_divided {cs chars rest d : List Char} {kind : TokenKind} (hd : Divided d)
    (h : tokenAt? cs = some (kind, chars, rest)) : tokenAt? (cs ++ d) = some (kind, chars, rest ++ d) := by
  have hcs : cs ≠ [] := by
    rintro rfl
    cases h
  rw [tokenAt?_followed hd hcs, h]
  · rfl
  · rintro tail rfl htail
    rw [tokenAt?_quote, htail] at h
    cases h

/-- Where no token starts none starts in front of layout. -/
theorem tokenAt?_layout {cs d : List Char} (hd : d.all isLayout = true) (hcs : cs ≠ []) (h : tokenAt? cs = none) :
    tokenAt? (cs ++ d) = none := by
  rw [tokenAt?_followed (divided_of_layout hd) hcs fun tail _ htail => stringTail?_layout hd htail, h]
  rfl

/-! ## Scans -/

theorem scanFrom_layouts {d : List Char} (hd : d.all isLayout = true) (position : Nat) (cs : List Char) :
    scanFrom position (d ++ cs) = scanFrom (position + d.length) cs := by
  induction d generalizing position with
  | nil => rfl
  | cons c d ih =>
    rw [List.all_cons, Bool.and_eq_true] at hd
    rw [List.cons_append, scanFrom_layout hd.1, ih hd.2, List.length_cons]
    congr 1
    omega

/-- Where a text without a misfit ends the tokens of what follows begin, if that starts with a divider. -/
theorem scanFrom_divided {d : List Char} (hd : Divided d) {position : Nat} {cs : List Char}
    (h : (scanFrom position cs).2 = none) : scanFrom position (cs ++ d) =
      ((scanFrom position cs).1 ++ (scanFrom (position + cs.length) d).1, (scanFrom (position + cs.length) d).2) := by
  fun_induction scanFrom position cs with
  | case1 => rfl
  | case2 position c rest hc ih =>
    rw [List.cons_append, scanFrom_layout hc, ih h, List.length_cons, Nat.add_right_comm, Nat.add_assoc]
  | case3 position c rest hc kind chars tail htoken tokens misfit hscan ih =>
    have happend := (tokenAt?_append htoken).1
    have htoken' := tokenAt?_divided hd htoken
    rw [List.cons_append] at htoken'
    rw [hscan] at ih
    rw [List.cons_append, scanFrom_token (by simpa using hc) htoken', ih h, happend, List.length_append, Nat.add_assoc,
      List.cons_append]
  | case4 position c rest hc hnone => cases h

/-- Layout after a text changes neither its tokens nor its misfit. -/
theorem scanFrom_append_layout {d : List Char} (hd : d.all isLayout = true) (position : Nat) (cs : List Char) :
    scanFrom position (cs ++ d) = scanFrom position cs := by
  fun_induction scanFrom position cs with
  | case1 position =>
    have h := scanFrom_layouts hd position []
    rwa [List.append_nil, scanFrom_nil] at h
  | case2 position c rest hc ih => rw [List.cons_append, scanFrom_layout hc, ih]
  | case3 position c rest hc kind chars tail htoken tokens misfit hscan ih =>
    have htoken' := tokenAt?_divided (divided_of_layout hd) htoken
    rw [List.cons_append] at htoken'
    rw [List.cons_append, scanFrom_token (by simpa using hc) htoken', ih, hscan]
  | case4 position c rest hc hnone =>
    have hnone' := tokenAt?_layout hd (List.cons_ne_nil c rest) hnone
    rw [List.cons_append] at hnone'
    rw [List.cons_append, scanFrom_misfit (by simpa using hc) hnone']

/-- **Layout around a text changes nothing.** -/
theorem unplacedScan_layout {before after : List Char} (hb : before.all isLayout = true)
    (ha : after.all isLayout = true) (cs : List Char) :
    unplacedScan (scan (before ++ (cs ++ after))) = unplacedScan (scan cs) := by
  rw [scan, scanFrom_layouts hb, scanFrom_append_layout ha]
  exact unplacedScan_scanFrom _ _ cs

/-- The token that a text starts with is followed by those of the rest. -/
theorem unplacedScan_token {c : Char} {cs chars rest : List Char} {kind : TokenKind} (hc : isLayout c = false)
    (ht : tokenAt? (c :: cs) = some (kind, chars, rest)) : unplacedScan (scan (c :: cs)) =
      (⟨kind, chars, 0⟩ :: (unplacedScan (scan rest)).1, (unplacedScan (scan rest)).2) := by
  have hrest := unplacedScan_scanFrom (0 + chars.length) 0 rest
  rw [← scan] at hrest
  rw [← hrest, scan, scanFrom_token hc ht]
  rfl

/-! ## Texts that consist of tokens -/

/-- The text consists of the tokens, at whatever places, and layout. -/
def Lexes (cs : List Char) (tokens : List Token) : Prop :=
  unplacedScan (scan cs) = (tokens, none)

namespace Lexes

theorem nil : Lexes [] [] := by
  rw [Lexes, scan, scanFrom_nil]
  rfl

theorem layout {c : Char} {cs : List Char} {tokens : List Token} (hc : isLayout c = true) (h : Lexes cs tokens) :
    Lexes (c :: cs) tokens := by
  rw [Lexes, scan, scanFrom_layout hc, unplacedScan_scanFrom _ 0]
  exact h

theorem token {c : Char} {cs chars rest : List Char} {kind : TokenKind} {tokens : List Token}
    (hc : isLayout c = false) (ht : tokenAt? (c :: cs) = some (kind, chars, rest)) (h : Lexes rest tokens) :
    Lexes (c :: cs) (⟨kind, chars, 0⟩ :: tokens) := by
  rw [Lexes, unplacedScan_token hc ht, h]

/-- The token that a text starts with is the first of its tokens. -/
theorem exists_cons {c : Char} {cs chars rest : List Char} {kind : TokenKind} {tokens : List Token}
    (hc : isLayout c = false) (ht : tokenAt? (c :: cs) = some (kind, chars, rest)) (h : Lexes (c :: cs) tokens) :
    ∃ more, tokens = ⟨kind, chars, 0⟩ :: more := by
  rw [Lexes, unplacedScan_token hc ht] at h
  exact ⟨_, (congrArg Prod.fst h).symm⟩

/-- The tokens of a text are followed by those of the text behind it, if that starts with a divider. -/
theorem unplacedScan_append {cs d : List Char} {tokens : List Token} (h : Lexes cs tokens) (hd : Divided d) :
    unplacedScan (scan (cs ++ d)) = (tokens ++ (unplacedScan (scan d)).1, (unplacedScan (scan d)).2) := by
  have hmisfit : (scanFrom 0 cs).2 = none := Option.map_eq_none_iff.1 (congrArg Prod.snd h)
  have htokens : (scanFrom 0 cs).1.map Token.unplaced = tokens := congrArg Prod.fst h
  have hrest := unplacedScan_scanFrom (0 + cs.length) 0 d
  rw [← scan] at hrest
  rw [← hrest, ← htokens, scan, scanFrom_divided hd hmisfit]
  simp only [unplacedScan, List.map_append]

/-- The tokens of texts side by side are those of the texts, if the second one starts with a divider. -/
theorem append {cs d : List Char} {tokens tokens' : List Token} (h : Lexes cs tokens) (hd : Divided d)
    (h' : Lexes d tokens') : Lexes (cs ++ d) (tokens ++ tokens') := by
  rw [Lexes, h.unplacedScan_append hd, h']

/-- A text with a token is not blank. -/
theorem not_blank {cs : List Char} {tokens : List Token} (h : Lexes cs tokens) (hne : tokens ≠ []) :
    cs.all isBlank = false := by
  rw [Bool.eq_false_iff]
  intro hall
  have htokens := congrArg Prod.fst h
  simp only [unplacedScan, scan_blank hall, List.map_nil] at htokens
  exact hne htokens.symm

/-- The number tokens of a text are numerals. -/
theorem readable {cs : List Char} {tokens : List Token} (h : Lexes cs tokens) : ∀ t ∈ tokens, t.Readable := by
  intro t ht
  have htokens := congrArg Prod.fst h
  simp only [unplacedScan] at htokens
  rw [← htokens] at ht
  obtain ⟨t', ht', rfl⟩ := List.mem_map.1 ht
  have hreadable : t'.Readable := readable_of_mem_scan ht'
  exact hreadable

end Lexes

/-! ## Blanks around a text -/

/-- Trimming takes the blanks around a text that neither starts nor ends with one. -/
theorem trim_eq {before cs after : List Char} (hb : before.all isBlank = true) (ha : after.all isBlank = true)
    (hfirst : ∀ c ∈ cs.head?, isBlank c = false) (hlast : ∀ c ∈ cs.getLast?, isBlank c = false) :
    trim (before ++ (cs ++ after)) = cs := by
  have hdrop : ∀ {l m : List Char}, l.all isBlank = true → (l ++ m).dropWhile isBlank = m.dropWhile isBlank := by
    intro l m h
    exact List.dropWhile_append_of_pos (List.all_eq_true.1 h)
  have hkeep : ∀ {l : List Char}, (∀ c ∈ l.head?, isBlank c = false) → l.dropWhile isBlank = l := by
    intro l h
    cases l with
    | nil => rfl
    | cons c l => rw [List.dropWhile_cons_of_neg (by rw [h c rfl]; decide)]
  cases cs with
  | nil =>
    have hafter : after.dropWhile isBlank = [] := by simpa using hdrop (m := []) ha
    rw [trim, hdrop hb, List.nil_append, hafter]
    rfl
  | cons c cs =>
    have hstart : (c :: cs ++ after).dropWhile isBlank = c :: cs ++ after := hkeep fun c' hc' => hfirst c' hc'
    have hend : (c :: cs).reverse.dropWhile isBlank = (c :: cs).reverse := hkeep (by rwa [List.head?_reverse])
    rw [trim, hdrop hb, hstart, List.reverse_append, hdrop (by rwa [List.all_reverse]), hend, List.reverse_reverse]

/-- Around a text without a misfit there is layout, and inside there is no blank at the ends. -/
theorem exists_layout_of_scanFrom {position : Nat} {cs : List Char} (h : (scanFrom position cs).2 = none) :
    ∃ before inner after, cs = before ++ (inner ++ after) ∧ before.all isLayout = true ∧ after.all isLayout = true ∧
      (∀ c ∈ inner.head?, isBlank c = false) ∧ ∀ c ∈ inner.getLast?, isBlank c = false := by
  fun_induction scanFrom position cs with
  | case1 => exact ⟨[], [], [], rfl, rfl, rfl, by simp, by simp⟩
  | case2 position c rest hc ih =>
    obtain ⟨before, inner, after, rfl, hb, hrest⟩ := ih h
    exact ⟨c :: before, inner, after, rfl, by rw [List.all_cons, hc, hb]; rfl, hrest⟩
  | case3 position c rest hc kind chars tail htoken tokens misfit hscan ih =>
    obtain ⟨happend, hne⟩ := tokenAt?_append htoken
    obtain ⟨t, chars', hchars⟩ := List.exists_cons_of_ne_nil hne
    have hfirst : ∀ x ∈ (chars ++ tail).head?, isBlank x = false := happend ▸ tokenAt?_first htoken
    rw [hscan] at ih
    obtain ⟨before, inner, after, htail, hb, ha, -, hlast⟩ := ih h
    cases inner with
    | nil =>
      -- the token is the last one
      refine ⟨[], chars, tail, happend, rfl, ?_, ?_, (tokenAt?_chars htoken).2.2⟩
      · rw [htail, List.nil_append, List.all_append, hb, ha]
        rfl
      · rw [hchars] at hfirst ⊢
        exact hfirst
    | cons x inner =>
      refine ⟨[], chars ++ (before ++ x :: inner), after, ?_, rfl, ha, ?_, ?_⟩
      · rw [happend, htail]
        simp
      · rw [hchars] at hfirst ⊢
        exact hfirst
      · rwa [← List.append_assoc, List.getLast?_append_of_ne_nil _ (List.cons_ne_nil x inner)]
  | case4 => cases h

/-- The blanks around a text that consists of tokens are layout. -/
theorem Lexes.exists_layout {cs : List Char} {tokens : List Token} (h : Lexes cs tokens) :
    ∃ before after, cs = before ++ (trim cs ++ after) ∧ before.all isLayout = true ∧ after.all isLayout = true := by
  have hmisfit : (scanFrom 0 cs).2 = none := Option.map_eq_none_iff.1 (congrArg Prod.snd h)
  obtain ⟨before, inner, after, rfl, hb, ha, hfirst, hlast⟩ := exists_layout_of_scanFrom hmisfit
  exact ⟨before, after, by rw [trim_eq (all_isBlank_of_layout hb) (all_isBlank_of_layout ha) hfirst hlast], hb, ha⟩

end GameSheet.Formula
