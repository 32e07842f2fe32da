import Mathlib.Data.List.DropRight
import GameSheet.Proofs.Formula.Acceptance
import GameSheet.Proofs.Formula.Calls

/-!
# Blanks behind a formula

A text is accepted as a formula without the blanks around it (`validate`). With the blanks that stand behind it the
formula is the same as long as these are layout. Any other blank starts no token, so the formula stops there
(`parse_append_blank`), and that is the only error that an accepted text has when it is parsed without its marker as it
stands (`parse_marked`). Read as the text of a cell once more, it is a formula whatever the blanks are
(`exists_parse_unmarked`).
-/

namespace GameSheet.Formula

open GameSheet.Text

variable {registry : Registry}

/-- The blanks at the end of the text are layout. -/
def endsInLayout (text : String) : Bool :=
  (text.toList.rtakeWhile isBlank).all isLayout

/-- A blank that is no layout. -/
def Misfit.IsLoose (m : Misfit) : Prop :=
  isBlank m.char = true ∧ isLayout m.char = false

/-- The text of a cell that starts with the marker of a formula. -/
def isMarked (text : String) : Bool :=
  text.toList.head? == some '='

theorem isMarked_iff {text : String} : isMarked text = true ↔ ∃ cs, text.toList = '=' :: cs := by
  rw [isMarked, beq_iff_eq, List.head?_eq_some_iff]

/-! ## Scans of blanks -/

/-- In blanks there are no tokens, and the scan stops at the first one that is no layout. -/
theorem scanFrom_blank {cs : List Char} (h : cs.all isBlank = true) (position : Nat) :
    scanFrom position cs = ([], none) ∧ cs.all isLayout = true ∨
      ∃ m, scanFrom position cs = ([], some m) ∧ m.IsLoose ∧ cs.all isLayout = false := by
  induction cs generalizing position with
  | nil => exact .inl ⟨scanFrom_nil position, rfl⟩
  | cons c cs ih =>
    obtain ⟨hc, hcs⟩ := Bool.and_eq_true_iff.1 h
    cases hlayout : isLayout c with
    | true =>
      rw [scanFrom_layout hlayout, List.all_cons, hlayout, Bool.true_and]
      exact ih hcs (position + 1)
    | false =>
      have hnone : tokenAt? (c :: cs) = none := by
        rw [Option.eq_none_iff_forall_not_mem]
        rintro ⟨kind, chars, rest⟩ htoken
        rw [tokenAt?_first htoken c rfl] at hc
        cases hc
      exact .inr ⟨_, scanFrom_misfit hlayout hnone, ⟨hc, hlayout⟩, by rw [List.all_cons, hlayout, Bool.false_and]⟩

/-! ## Blanks behind a formula -/

/-- The tokens of a text stay as they are in front of blanks, and a misfit there is one of the blanks. -/
theorem scan_append_blank {cs after : List Char} {tokens : List Token} (h : scan cs = (tokens, none))
    (ha : after.all isBlank = true) :
    scan (cs ++ after) = (tokens, none) ∧ after.all isLayout = true ∨
      ∃ m, scan (cs ++ after) = (tokens, some m) ∧ m.IsLoose ∧ after.all isLayout = false := by
  have happend := scanFrom_divided (divided_of_blank ha) (congrArg Prod.snd h)
  rw [← scan, ← scan, h, Nat.zero_add] at happend
  rcases scanFrom_blank ha cs.length with ⟨hscan, hlayout⟩ | ⟨m, hscan, hloose, hlayout⟩
  · rw [hscan, List.append_nil] at happend
    exact .inl ⟨happend, hlayout⟩
  · rw [hscan, List.append_nil] at happend
    exact .inr ⟨m, happend, hloose, hlayout⟩

/-- A text that consists of the tokens of a formula up to a misfit stops there. -/
theorem readPhrase_of_misfit {cs : List Char} {d : Derivation .start} {m : Misfit}
    (h : scan cs = (d.tokens, some m)) : readPhrase cs = .error (.misfit m) := by
  have htokens : (scan cs).1 = d.tokens := by rw [h]
  have hblank : ¬cs.all isBlank = true := by
    intro hall
    rw [scan_blank hall] at htokens
    exact d.tokens_ne_nil htokens.symm
  obtain ⟨r, hr, -⟩ := d.read fun t ht => readable_of_mem_scan (htokens ▸ ht)
  simp only [readPhrase, if_neg hblank, h, hr]

/-- **Blanks behind a formula** change nothing if they are layout; otherwise the formula stops at one that is not. -/
theorem parse_append_blank {cs after : List Char} {e : Expr} (h : parse registry (String.ofList cs) = .ok e)
    (ha : after.all isBlank = true) :
    after.all isLayout = true ∧ parse registry (String.ofList (cs ++ after)) = .ok e ∨
      after.all isLayout = false ∧
        ∃ m : Misfit, m.IsLoose ∧ parse registry (String.ofList (cs ++ after)) = .error (.misfit m) := by
  obtain ⟨phrase, hphrase, hcheck⟩ := bind_eq_ok_iff.1 h
  rw [String.toList_ofList] at hphrase
  obtain ⟨d, htokens, rfl⟩ := exists_derivation_of_readPhrase hphrase
  rcases scan_append_blank (tokenize_eq_ok_iff.1 htokens) ha with ⟨hscan, hlayout⟩ | ⟨m, hscan, hloose, hlayout⟩
  · refine .inl ⟨hlayout, ?_⟩
    rw [parse, String.toList_ofList, readPhrase_of_tokenize (tokenize_eq_ok_iff.2 hscan)]
    exact hcheck
  · refine .inr ⟨hlayout, m, hloose, ?_⟩
    rw [parse, String.toList_ofList, readPhrase_of_misfit hscan]
    rfl

/-! ## Accepted texts -/

theorem validate_eq_none_iff {text : String} :
    validate registry text = none ↔ ∃ e, parse registry (stripMarker text) = .ok e := by
  unfold validate
  cases parse registry (stripMarker text) <;> simp

/-- Trimming takes blanks at the end away. -/
theorem trim_append_blank (cs : List Char) {after : List Char} (ha : after.all isBlank = true) :
    trim (cs ++ after) = trim cs := by
  have hafter : ∀ c ∈ after.reverse, isBlank c = true := fun c hc => List.all_eq_true.1 ha c (List.mem_reverse.1 hc)
  rw [trim, trim, List.dropWhile_append]
  split
  next hempty =>
    have hnil : after.dropWhile isBlank = [] := List.dropWhile_eq_nil_iff.2 (List.all_eq_true.1 ha)
    rw [hnil, List.isEmpty_iff.1 hempty]
  next => rw [List.reverse_append, List.dropWhile_append_of_pos hafter]

/-- The marker stands in front, so that blanks are taken from the end only. -/
theorem stripMarker_marked {text : String} {cs : List Char} (h : text.toList = '=' :: cs) :
    stripMarker text = String.ofList (cs.rdropWhile isBlank) := by
  have hmarker : ('=' :: cs).dropWhile isBlank = '=' :: cs := List.dropWhile_cons_of_neg (by decide)
  have hlast : ('=' :: cs).rdropWhile isBlank = '=' :: cs.rdropWhile isBlank := by
    rw [List.rdropWhile, List.reverse_cons, List.dropWhile_append]
    split
    next hempty =>
      have hnil : cs.rdropWhile isBlank = [] := by rw [List.rdropWhile, List.isEmpty_iff.1 hempty, List.reverse_nil]
      rw [hnil]
      decide
    next => rw [List.reverse_append]; rfl
  have htrim : trim text.toList = '=' :: cs.rdropWhile isBlank := by
    rw [trim, h, hmarker]
    exact hlast
  rw [stripMarker, htrim]
  rfl

variable {text : String} {cs : List Char}

/-- What an accepted text is without its marker: a formula and blanks behind it. -/
theorem exists_parse_of_accepted (htext : text.toList = '=' :: cs) (haccepted : validate registry text = none) :
    ∃ inner after e, cs = inner ++ after ∧ after.all isBlank = true ∧ after.all isLayout = endsInLayout text ∧
      parse registry (String.ofList inner) = .ok e := by
  obtain ⟨e, he⟩ := validate_eq_none_iff.1 haccepted
  rw [stripMarker_marked htext] at he
  refine ⟨_, cs.rtakeWhile isBlank, e, (List.rdropWhile_append_rtakeWhile).symm, ?_, ?_, he⟩
  · exact List.all_eq_true.2 fun c hc => List.mem_rtakeWhile_imp hc
  · have hmarker : isBlank '=' = false := by decide
    rw [endsInLayout, htext, List.rtakeWhile, List.rtakeWhile, List.reverse_cons, List.takeWhile_append]
    split
    next hall => simp [hmarker, (List.takeWhile_prefix isBlank).eq_of_length hall]
    next => rfl

/-- **An accepted text without its marker** is parsed, or it stops at a loose blank that it ends in. -/
theorem parse_marked (htext : text.toList = '=' :: cs) (haccepted : validate registry text = none) {o : ParseError}
    (h : parse registry (String.ofList cs) = .error o) :
    endsInLayout text = false ∧ ∃ m : Misfit, m.IsLoose ∧ o = .misfit m := by
  obtain ⟨inner, after, e, rfl, hblank, hlayout, he⟩ := exists_parse_of_accepted htext haccepted
  rcases parse_append_blank he hblank with ⟨-, hok⟩ | ⟨hends, m, hloose, herror⟩
  · rw [hok] at h
    cases h
  · rw [herror] at h
    cases h
    exact ⟨hlayout.symm.trans hends, m, hloose, rfl⟩

/-- A formula is one also without a marker in front of it, of which it has none. -/
theorem exists_parse_stripMarker {body : String} {e : Expr} (h : parse registry body = .ok e) :
    ∃ e', parse registry (stripMarker body) = .ok e' := by
  obtain ⟨e', he', -⟩ := unplacedResult_eq_ok_iff.1 (parse_stripMarker_of_parse h)
  exact ⟨e', he'⟩

/-- An accepted text without its marker is a formula if it is read as the text of a cell once more. -/
theorem exists_parse_unmarked (htext : text.toList = '=' :: cs) (haccepted : validate registry text = none) :
    ∃ e, parse registry (stripMarker (String.ofList cs)) = .ok e := by
  obtain ⟨inner, after, e, rfl, hblank, -, he⟩ := exists_parse_of_accepted htext haccepted
  have hstrip : stripMarker (String.ofList (inner ++ after)) = stripMarker (String.ofList inner) := by
    rw [stripMarker, stripMarker, String.toList_ofList, String.toList_ofList, trim_append_blank inner hblank]
  rw [hstrip]
  exact exists_parse_stripMarker he

end GameSheet.Formula
