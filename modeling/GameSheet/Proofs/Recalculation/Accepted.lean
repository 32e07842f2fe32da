import GameSheet.Proofs.Evaluation.Confined
import GameSheet.Proofs.Formula.Trailing
import GameSheet.Proofs.Recalculation.Reference
import GameSheet.Proofs.Recalculation.Unbroken

/-!
# Accepted formulas

A formula is accepted before it is put into a cell (`validate`). In a workbook of accepted formulas an accepted formula
fails in its syntax in one way only, and so do the cells of a pass: **`Engine.accepted_keepsSyntax`**. A text that is
accepted may end in a blank that is no layout (`Workbook.EndsLoosely`). The check takes such a blank away, and so does a
pass; where a formula refers to the cell its body is parsed with the blank, and stops there.

A failure of this kind is kept through all that refers to it (`Failure.KeepsSyntax`), also in a memo.
-/

namespace GameSheet

open Formula Text

/-! ## Workbooks of accepted formulas -/

/-- The registry accepts the formulas of the workbook: each text in a cell that starts with a marker, and the formula of
each formula column. -/
structure Workbook.Accepted (registry : Registry) (w : Workbook) : Prop where
  texts : ∀ cell, w.Contains cell → ∀ text, cell.site.row.cell cell.column.id = .text text → isMarked text = true →
    validate registry text = none
  formulas : ∀ sheet ∈ w.sheets, ∀ column ∈ sheet.columns, column.kind = .formula → ∀ f ∈ column.formula, f ≠ "" →
    validate registry f = none

/-- A formula in a cell ends in blanks of which one is no layout. -/
def Workbook.EndsLoosely (w : Workbook) : Prop :=
  ∃ cell text, w.Contains cell ∧ cell.site.row.cell cell.column.id = .text text ∧ isMarked text = true ∧
    endsInLayout text = false

/-- The failure is none of the syntax, unless it is one at a loose blank and a formula of the workbook ends in such. -/
def Failure.KeepsSyntax (w : Workbook) (f : Failure) : Prop :=
  ∀ e, f = .parse e → w.EndsLoosely ∧ ∃ m : Misfit, m.IsLoose ∧ e = .misfit m

/-- The outcome is no failure of the syntax, unless it is one at a loose blank and a formula of the workbook ends in
such. -/
structure Outcome.KeepsSyntax (w : Workbook) (o : Outcome) : Prop where
  parse : o.code? ≠ some "parse_error"
  lex : o.code? = some "lex_error" → w.EndsLoosely ∧ ∃ m : Misfit, m.IsLoose ∧ o = .failed (.parse (.misfit m))

/-- The failures of the syntax are those of parsing. -/
theorem Failure.exists_parse_of_code {f : Failure} (h : f.code = "lex_error" ∨ f.code = "parse_error") :
    ∃ e, f = .parse e := by
  unfold Failure.code at h
  split at h <;> first | exact ⟨_, rfl⟩ | simp at h

theorem Failure.KeepsSyntax.outcome {w : Workbook} {f : Failure} (h : f.KeepsSyntax w) :
    (Outcome.failed f).KeepsSyntax w where
  parse hcode := by
    obtain ⟨e, rfl⟩ := Failure.exists_parse_of_code (.inr (Option.some.inj hcode))
    obtain ⟨-, m, -, rfl⟩ := h e rfl
    have hne : "lex_error" ≠ "parse_error" := by decide
    exact hne (Option.some.inj hcode)
  lex hcode := by
    obtain ⟨e, rfl⟩ := Failure.exists_parse_of_code (.inl (Option.some.inj hcode))
    obtain ⟨hends, m, hloose, rfl⟩ := h e rfl
    exact ⟨hends, m, hloose, rfl⟩

namespace Workbook.Accepted

variable {registry : Registry} {w : Workbook} {cell : CellSite} {body : String}

/-- A body is parsed where a formula refers to its cell, or it stops at a loose blank. -/
theorem keepsSyntax (h : w.Accepted registry) (hc : w.Contains cell) (hb : cell.source = .formula body) {o : ParseError}
    (ho : parse registry body = .error o) : (Failure.parse o).KeepsSyntax w := by
  rintro _ ⟨⟩
  rcases Row.formula_of_source hb with ⟨text, cs, hcell, htext, rfl⟩ | ⟨hkind, f, hf, hne, rfl⟩
  · have hmarked := isMarked_iff.2 ⟨cs, htext⟩
    obtain ⟨hends, hloose⟩ := parse_marked htext (h.texts cell hc text hcell hmarked) ho
    exact ⟨⟨cell, text, hc, hcell, hmarked, hends⟩, hloose⟩
  · obtain ⟨e, he⟩ := validate_eq_none_iff.1 (h.formulas _ hc.1 _ hc.2 hkind f hf hne)
    rw [he] at ho
    cases ho

/-- A body is a formula if it is read as the text of a cell, as a pass does. -/
theorem exists_parse (h : w.Accepted registry) (hc : w.Contains cell) (hb : cell.source = .formula body) :
    ∃ e, parse registry (stripMarker body) = .ok e := by
  rcases Row.formula_of_source hb with ⟨text, cs, hcell, htext, rfl⟩ | ⟨hkind, f, hf, hne, rfl⟩
  · exact exists_parse_unmarked htext (h.texts cell hc text hcell (isMarked_iff.2 ⟨cs, htext⟩))
  · obtain ⟨e, he⟩ := validate_eq_none_iff.1 (h.formulas _ hc.1 _ hc.2 hkind f hf hne)
    exact exists_parse_stripMarker he

/-- The workbook without sheets has no formulas. -/
theorem empty (registry : Registry) : Workbook.empty.Accepted registry where
  texts _ hc := absurd hc.1 List.not_mem_nil
  formulas _ hs := absurd hs List.not_mem_nil

end Workbook.Accepted

/-! ## Evaluations -/

/-- No failure but that of parsing is one of the syntax. -/
theorem Failure.keepsSyntax_of_ne {w : Workbook} {f : Failure} (h : ∀ e, f ≠ .parse e) : f.KeepsSyntax w :=
  fun e he => absurd he (h e)

theorem outer_keepsSyntax (w w' : Workbook) : Outer w' (Failure.KeepsSyntax w) where
  search hx hf := by
    rcases hx _ hf with ⟨m, rfl⟩ | ⟨e, cell, rfl, -⟩ <;> exact Failure.keepsSyntax_of_ne (by simp)
  refused h := by
    obtain ⟨-, rfl⟩ | rfl := Guard.enter_error h <;> exact Failure.keepsSyntax_of_ne (by simp)
  bareText := Failure.keepsSyntax_of_ne (by simp)
  resultNaN := Failure.keepsSyntax_of_ne (by simp)
  resultInfinite := Failure.keepsSyntax_of_ne (by simp)

/-- At the rows of a workbook of accepted formulas every expression keeps to this kind of failures. -/
theorem invariant_keepsSyntax {w : Workbook} {engine : Engine} (h : w.Accepted engine.registry) :
    Invariant ⟨w, engine.options⟩ engine.registry (Failure.KeepsSyntax w)
      fun _ site _ => ∀ s, site = some s → s.sheet ∈ w.sheets where
  unfit f hf := by cases hf <;> exact Failure.keepsSyntax_of_ne (by simp)
  calls _ _ _ f hf := by
    cases hf <;> exact Failure.keepsSyntax_of_ne (by simp)
  missing _ _ hf := (outer_keepsSyntax w w).search Scope.searches_target hf
  literal _ _ _ _ _ := Failure.keepsSyntax_of_ne (by simp)
  refused _ _ _ _ he := (outer_keepsSyntax w w).refused he
  malformed hI _ ht hs hp := h.keepsSyntax (Scope.contains_of_target hI ht) hs hp
  inside hI _ ht _ _ _ s hs := by
    cases hs
    exact (Scope.contains_of_target hI ht).1

namespace Engine

variable {engine : Engine} {w : Workbook}

/-- **An accepted formula keeps to this kind**, with a memo that does. -/
theorem confined_keepsSyntax (h : w.Accepted engine.registry) {context : Option Context}
    (hcontext : context.elim Workbook.empty Context.workbook = w) {formula : String}
    (hformula : ∃ e, parse engine.registry (stripMarker formula) = .ok e) :
    Confined (KnowsOnly (Failure.KeepsSyntax w)) (Failure.KeepsSyntax w) ⟨engine.options.maxDepth, []⟩
      (engine.steps context formula) := by
  refine confined_steps hcontext (invariant_keepsSyntax h) (remembers_knowsOnly _) (outer_keepsSyntax w w)
    (fun o ho => ?_) fun site e hsite _ _ => hsite
  obtain ⟨e, he⟩ := hformula
  rw [he] at ho
  cases ho

/-- The outcome of an accepted formula, and the memo after it. -/
theorem evaluateWith_keepsSyntax (h : w.Accepted engine.registry) {context : Option Context}
    (hcontext : context.elim Workbook.empty Context.workbook = w) {formula : String}
    (hformula : ∃ e, parse engine.registry (stripMarker formula) = .ok e) {memo : Option Memo}
    (hmemo : KnowsOnly (Failure.KeepsSyntax w) memo) :
    (engine.evaluateWith memo context formula).1.KeepsSyntax w ∧
      KnowsOnly (Failure.KeepsSyntax w) (engine.evaluateWith memo context formula).2 := by
  obtain ⟨-, hafter, hfails⟩ := confined_keepsSyntax h hcontext hformula (engine.start memo) rfl hmemo
  rw [evaluateWith_eq]
  refine ⟨?_, hafter⟩
  rcases hrun : engine.steps context formula (engine.start memo) with ⟨o, after⟩
  cases o with
  | ok v => exact ⟨fun hcode => (nomatch hcode), fun hcode => (nomatch hcode)⟩
  | error f => exact (hfails f (by rw [hrun])).outcome

/-- Accepted formulas one after the other. -/
theorem session_keepsSyntax (h : w.Accepted engine.registry) {calls : List (Option Context × String)}
    (hcalls : ∀ call ∈ calls, call.1.elim Workbook.empty Context.workbook = w ∧
      ∃ e, parse engine.registry (stripMarker call.2) = .ok e) {memo : Option Memo}
    (hmemo : KnowsOnly (Failure.KeepsSyntax w) memo) : ∀ o ∈ engine.session memo calls, o.KeepsSyntax w := by
  induction calls generalizing memo with
  | nil => exact List.forall_mem_nil _
  | cons call rest ih =>
    obtain ⟨⟨hcontext, hformula⟩, hrest⟩ := List.forall_mem_cons.1 hcalls
    obtain ⟨houtcome, hafter⟩ := evaluateWith_keepsSyntax h hcontext hformula hmemo
    exact List.forall_mem_cons.2 ⟨houtcome, ih hrest hafter⟩

/-- The formulas that a pass evaluates are accepted ones. -/
theorem exists_parse_of_mem_sheetCalls (h : w.Accepted engine.registry) {sheet : Sheet} (hs : sheet ∈ w.sheets)
    {call : Option Context × String} (hcall : call ∈ sheetCalls w sheet) :
    call.1.elim Workbook.empty Context.workbook = w ∧ ∃ e, parse engine.registry (stripMarker call.2) = .ok e := by
  obtain ⟨row, hrow, hcall⟩ := List.mem_flatMap.1 hcall
  obtain ⟨column, hcolumn, hcall⟩ := List.mem_filterMap.1 hcall
  obtain ⟨i, hi, rfl⟩ := List.mem_iff_getElem.1 hrow
  unfold cellCall at hcall
  split at hcall
  · cases hcall
  next body hbody =>
    cases hcall
    let cell : CellSite := ⟨⟨sheet, ⟨i, hi⟩⟩, column⟩
    have hc : w.Contains cell := ⟨hs, hcolumn⟩
    exact ⟨rfl, h.exists_parse hc hbody⟩

/-- **Accepted formulas do not fail in their syntax**, except at a blank that is no layout and in which a formula of the
workbook ends: in a workbook of accepted formulas neither an accepted formula in any context does, nor any result of a
pass over a sheet. -/
theorem accepted_keepsSyntax (engine : Engine) {w : Workbook} (h : w.Accepted engine.registry) :
    (∀ (context : Option Context) (formula : String), (∀ c ∈ context, c.workbook = w) →
      validate engine.registry formula = none → (engine.evaluate context formula).KeepsSyntax w) ∧
    ∀ sheet ∈ w.sheets, ∀ (useMemo : Bool) (computed : ComputedSheet),
      (engine.computeSheet w sheet useMemo).1 = .ok computed → ∀ o ∈ computed.outcomes, o.2.2.KeepsSyntax w := by
  constructor
  · intro context formula hcontext hformula
    have hparse := validate_eq_none_iff.1 hformula
    cases context with
    | none =>
      -- nowhere there are no formulas
      have hnowhere :=
        (@evaluateWith_keepsSyntax engine _ (.empty engine.registry) none rfl formula hparse none (knowsOnly_none _)).1
      refine ⟨hnowhere.parse, fun hcode => ?_⟩
      obtain ⟨⟨cell, text, hc, -⟩, -⟩ := hnowhere.lex hcode
      exact absurd hc.1 List.not_mem_nil
    | some c =>
      have hplace : (some c).elim Workbook.empty Context.workbook = w := hcontext c rfl
      exact (evaluateWith_keepsSyntax h hplace hparse (knowsOnly_none _)).1
  · intro sheet hs useMemo computed hcomputed o ho
    have hmemo : KnowsOnly (Failure.KeepsSyntax w) (if useMemo then some ∅ else none) := by
      cases useMemo
      · exact knowsOnly_none _
      · exact knowsOnly_empty _
    have hall := session_keepsSyntax h (fun call => exists_parse_of_mem_sheetCalls h hs) hmemo
    rw [← (completes_of_ok hcomputed).outcomes] at hall
    exact hall _ (List.mem_map_of_mem ho)

end Engine

/-! ## Notes that are formulas -/

section Ledger

/-- The texts in the cells of a ledger. -/
theorem ledger_texts {note : String} {cell : CellSite} (hc : (ledger note).Contains cell) {text : String}
    (h : cell.site.row.cell cell.column.id = .text text) : text ∈ ["one", "five", note] := by
  obtain ⟨heq, hcolumn⟩ := eq_ledgerCell hc
  have hcells : (ledgerColumns.map fun c => (ledgerCell note c).site.row.cell c.id) =
      [.text "one", .text "five", .text note, .null, .null] := rfl
  have hmem : RawCell.text text ∈ ledgerColumns.map fun c => (ledgerCell note c).site.row.cell c.id := by
    rw [← h, heq]
    exact List.mem_map_of_mem hcolumn
  rw [hcells] at hmem
  simpa using hmem

/-- A ledger is one of accepted formulas if its note is no formula that is refused. -/
theorem ledger_accepted {note : String} (h : isMarked note = true → validate .standard note = none) :
    (ledger note).Accepted .standard where
  texts cell hc text hcell hmarked := by
    have hplain : ∀ text ∈ ["one", "five"], isMarked text = false := by decide
    have hmem := ledger_texts hc hcell
    simp only [List.mem_cons, List.not_mem_nil, or_false] at hmem
    rcases hmem with rfl | rfl | rfl
    · rw [hplain "one" (by simp)] at hmarked
      cases hmarked
    · rw [hplain "five" (by simp)] at hmarked
      cases hmarked
    · exact h hmarked
  formulas sheet hs column hcolumn _ f hf _ := by
    obtain rfl := List.mem_singleton.1 hs
    have hformulas : ledgerColumns.filterMap Column.formula = ["Net", "Gross"] := rfl
    have haccepted : ∀ f ∈ ["Net", "Gross"], validate .standard f = none := by decide +kernel
    exact haccepted f (hformulas ▸ List.mem_filterMap.2 ⟨column, hcolumn, hf⟩)

/-- A note with a space behind it is accepted, and so is a formula that refers to it; neither fails in its syntax. -/
theorem accepted_keepsSyntax_ledger : (ledger "=1+1 ").Accepted .standard ∧ validate .standard "Note + 1" = none ∧
    (Engine.evaluate {} (some ⟨ledger "=1+1 ", "books", "first", none⟩) "Note + 1").KeepsSyntax (ledger "=1+1 ") := by
  have haccepted : (ledger "=1+1 ").Accepted .standard := ledger_accepted fun _ => by decide +kernel
  have hformula : validate .standard "Note + 1" = none := by decide +kernel
  refine ⟨haccepted, hformula, (Engine.accepted_keepsSyntax {} haccepted).1 _ _ (fun c hc => ?_) hformula⟩
  cases hc
  rfl

/-- A note with a no-break space behind it is accepted, and what refers to it fails at the space. -/
theorem accepted_fails_at_blank : ¬∀ (engine : Engine) (w : Workbook), w.Accepted engine.registry →
    ∀ (context : Option Context) (formula : String), (∀ c ∈ context, c.workbook = w) →
      validate engine.registry formula = none → (engine.evaluate context formula).code? ≠ some "lex_error" := by
  intro h
  have haccepted : (ledger "=1+1\u00a0").Accepted .standard := ledger_accepted fun _ => by decide +kernel
  have hformula : validate .standard "Note" = none := by decide +kernel
  have hcode : (Engine.evaluate {} (some ⟨ledger "=1+1\u00a0", "books", "first", none⟩) "Note").code? =
      some "lex_error" := by decide +kernel
  refine h {} _ haccepted _ _ (fun c hc => ?_) hformula hcode
  cases hc
  rfl

end Ledger

end GameSheet
