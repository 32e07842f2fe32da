import GameSheet.Proofs.Evaluation.Ideal
import GameSheet.Proofs.Evaluation.Memo

/-!
# Evaluation from a memo alone

A memo backs a formula cell if the body of the cell can be evaluated by what the memo knows, without computing any
other cell (`Backs`). A larger memo backs it too. Inside a guard, a cell that is backed is computed without entering
any other, however deep the guard is already (`Follows`).

A formula whose references lead to cells that are backed is computed by entering them one at a time, and afterwards the
memo knows all of them that were needed, so it backs the formula (`Recorded`). That is why a chain of cells that are
computed in order never grows beyond two.
-/

namespace GameSheet

open Formula

/-! ## Outcomes that are kept -/

/-- An outcome that is kept for the other readers of a cell. -/
def Kept {α : Type} (o : Except Failure α) : Prop :=
  ∀ f, o = .error f → f.isKept = true

section Kept

variable {α β : Type}

theorem kept_ok (a : α) : Kept (.ok a : Except Failure α) := fun _ h => by cases h

theorem kept_error {f : Failure} (h : f.isKept = true) : Kept (.error f : Except Failure α) :=
  fun f' hf => by cases hf; exact h

theorem Kept.not_cut {o : Except Failure α} (h : Kept o) : ¬Cut o := by
  rintro ⟨limit, rfl⟩
  cases h _ rfl

theorem Kept.recovered {o : Except Failure α} (h : Kept o) : Kept (recovered o) := by
  cases o with
  | ok a => exact kept_ok _
  | error f =>
    cases hm : f.isMaskable with
    | true => simpa only [GameSheet.recovered, hm, if_true] using kept_ok none
    | false => simpa only [GameSheet.recovered, hm, Bool.false_eq_true, if_false] using kept_error (h f rfl)

end Kept

/-! ## Memos -/

/-- The second memo knows all that the first one knows. -/
def Extends (known known' : Memo) : Prop :=
  ∀ (key : CellKey) (o : Except Failure CellValue), known[key]? = some o → known'[key]? = some o

/-- The memo has only outcomes that are kept. -/
def KeepsKept (known : Memo) : Prop :=
  ∀ (key : CellKey) (o : Except Failure CellValue), known[key]? = some o → Kept o

theorem Extends.refl (known : Memo) : Extends known known := fun _ _ h => h

theorem Extends.trans {known known' known'' : Memo} (h : Extends known known') (h' : Extends known' known'') :
    Extends known known'' := fun key o ho => h' key o (h key o ho)

theorem extends_insert {known : Memo} {key : CellKey} (h : known[key]? = none) (o : Except Failure CellValue) :
    Extends known (known.insert key o) := by
  intro key' o' ho'
  rw [Std.HashMap.getElem?_insert]
  split
  · next heq => rw [← beq_iff_eq.1 heq, h] at ho'; cases ho'
  · exact ho'

theorem KeepsKept.insert {known : Memo} (h : KeepsKept known) (key : CellKey) {o : Except Failure CellValue}
    (ho : Kept o) : KeepsKept (known.insert key o) := by
  intro key' o' ho'
  rw [Std.HashMap.getElem?_insert] at ho'
  split at ho'
  · cases ho'; exact ho
  · exact h key' o' ho'

/-! ## Reading what is known -/

namespace Scope

variable {scope : Scope} {registry : Registry}

/-- The value of a cell as far as a memo knows it. -/
def knownValue (scope : Scope) (known : Memo) (cell : CellSite) : Eval CellValue :=
  match cell.source with
  | .literal raw => Eval.ofRaw raw
  | .formula _ => Eval.ofExcept (known[cell.key]?.getD (.error (.depth scope.options.maxDepth)))

/-- The value of the cell that a reference leads to, as far as a memo knows it. -/
def knownRead (scope : Scope) (known : Memo) (site : Option RowSite) (r : Reference) : Eval CellValue := do
  scope.knownValue known (← Eval.ofExcept (scope.target site r))

/-- The value of a formula body at a row, as far as a memo knows the cells it refers to. -/
def knownBody (scope : Scope) (registry : Registry) (known : Memo) (body : String) (site : RowSite) : Eval CellValue := do
  let e ← Eval.ofExcept ((parse registry body).mapError .parse)
  e.eval registry (scope.knownRead known (some site))

theorem knownValue_literal {cell : CellSite} {raw : RawCell} (h : cell.source = .literal raw) (known : Memo) :
    scope.knownValue known cell = Eval.ofRaw raw := by
  simp only [knownValue, h]

theorem knownValue_some {cell : CellSite} {body : String} (h : cell.source = .formula body) {known : Memo}
    {o : Except Failure CellValue} (ho : known[cell.key]? = some o) :
    scope.knownValue known cell = Eval.ofExcept o := by
  simp only [knownValue, h, ho, Option.getD_some]

theorem knownValue_none {cell : CellSite} {body : String} (h : cell.source = .formula body) {known : Memo}
    (ho : known[cell.key]? = none) :
    scope.knownValue known cell = throw (.depth scope.options.maxDepth) := by
  simp only [knownValue, h, ho, Option.getD_none]
  rfl

/-- A larger memo gives what a smaller one gives. -/
theorem outlives_knownValue {known known' : Memo} (h : Extends known known') (cell : CellSite) :
    Outlives (scope.knownValue known cell) (scope.knownValue known' cell) := by
  cases hs : cell.source with
  | literal raw =>
    rw [knownValue_literal hs, knownValue_literal hs]
    exact outlives_ofExcept _
  | formula body =>
    cases ho : known[cell.key]? with
    | none =>
      rw [knownValue_none hs ho]
      exact fun w w' hcut => absurd ⟨_, rfl⟩ hcut
    | some o =>
      rw [knownValue_some hs ho, knownValue_some hs (h _ _ ho)]
      exact outlives_ofExcept o

theorem outlives_knownBody {known known' : Memo} (h : Extends known known') (body : String) (site : RowSite) :
    Outlives (scope.knownBody registry known body site) (scope.knownBody registry known' body site) :=
  (outlives_ofExcept _).bind fun e _ => Outlives.eval e fun _ _ => (outlives_ofExcept _).bind fun cell _ =>
    outlives_knownValue h cell

/-- The memo knows enough to evaluate the body of the cell, if it has one, and its outcome is one to keep. -/
def Backs (scope : Scope) (registry : Registry) (known : Memo) (cell : CellSite) : Prop :=
  ∀ body, cell.source = .formula body →
    ∃ o, Kept o ∧ ∀ w, (scope.knownBody registry known body cell.site w).1 = o

theorem Backs.mono {known known' : Memo} {cell : CellSite} (h : scope.Backs registry known cell)
    (hext : Extends known known') : scope.Backs registry known' cell := by
  intro body hb
  obtain ⟨o, hkept, ho⟩ := h body hb
  refine ⟨o, hkept, fun w => ?_⟩
  rw [outlives_knownBody hext body cell.site w w (by rw [ho]; exact hkept.not_cut), ho]

end Scope

/-! ## Following what is known -/

/-- In a state whose memo knows at least as much, the second step does what the first one does by the smaller memo
alone, unless this is too little, and changes neither the guard nor the memo. -/
def Follows {α : Type} (known : Memo) (x y : Eval α) : Prop :=
  ∀ (w w' : Walk) (known' : Memo), w'.memo = some known' → Extends known known' → ¬Cut (x w).1 →
    (y w').1 = (x w).1 ∧ (y w').2.guard = w'.guard ∧ (y w').2.memo = w'.memo

namespace Follows

variable {α β : Type} {known : Memo}

/-- A step that only adds warnings. -/
theorem const {x : Eval α} {o : Except Failure α} {notes : List Warning} (hx : x.Only o notes) :
    Follows known x x := by
  intro w w' _ _ _ _
  rw [hx, hx]
  exact ⟨rfl, rfl, rfl⟩

theorem ofExcept (o : Except Failure α) : Follows known (Eval.ofExcept o) (Eval.ofExcept o) :=
  .const (Eval.only_ofExcept o)

theorem bind {x y : Eval α} {k l : α → Eval β} (hxy : Follows known x y)
    (hkl : ∀ a, x.Returns a → Follows known (k a) (l a)) : Follows known (x >>= k) (y >>= l) := by
  intro w w' known' hmemo hext hcut
  rcases hx : x w with ⟨o, after⟩
  rcases hy : y w' with ⟨o', after'⟩
  have hsame := hxy w w' known' hmemo hext
  rw [hx, hy] at hsame
  cases o with
  | error f =>
    rw [Eval.bind_error hx] at hcut ⊢
    obtain ⟨rfl, hguard, hmemo'⟩ := hsame fun h => hcut (cut_error.1 h)
    rw [Eval.bind_error hy]
    exact ⟨rfl, hguard, hmemo'⟩
  | ok a =>
    obtain ⟨rfl, hguard, hmemo'⟩ := hsame (not_cut_ok a)
    rw [Eval.bind_ok hx] at hcut ⊢
    rw [Eval.bind_ok hy]
    obtain ⟨hout, hguard', hmemo''⟩ := hkl a ⟨w, after, hx⟩ after after' known' (hmemo'.trans hmemo) hext hcut
    exact ⟨hout, hguard'.trans hguard, hmemo''.trans hmemo'⟩

theorem attempt {x y : Eval α} (hxy : Follows known x y) : Follows known (Eval.attempt x) (Eval.attempt y) := by
  intro w w' known' hmemo hext hcut
  rw [attempt_apply] at hcut ⊢
  rw [attempt_apply]
  obtain ⟨hout, hguard, hmemo'⟩ := hxy w w' known' hmemo hext (mt cut_recovered.2 hcut)
  exact ⟨by rw [hout], hguard, hmemo'⟩

end Follows

/-- Following what is known is kept by all ways of going on. -/
theorem composable_follows (registry : Registry) (known : Memo) :
    Composable registry fun (α : Type) (x : Bool → Eval α) => Follows known (x false) (x true) where
  value a := .const (Eval.only_pure a)
  failure _ := .const (Eval.only_throw _)
  warning note := .const (Eval.only_warn note)
  sequence hx hk := hx.bind fun a ha => hk a ⟨false, ha⟩
  recovery hx := hx.attempt

namespace Scope

variable {scope : Scope} {registry : Registry} {known : Memo}

/-- What a memo knows of a cell is read from it. -/
theorem follows_cellValue (evaluate : Evaluator) (cell : CellSite) :
    Follows known (scope.knownValue known cell) (cellValue evaluate cell) := by
  cases hs : cell.source with
  | literal raw =>
    rw [knownValue_literal hs, cellValue_literal hs]
    exact .ofExcept _
  | formula body =>
    cases ho : known[cell.key]? with
    | none =>
      rw [knownValue_none hs ho]
      exact fun w w' _ _ _ hcut => absurd ⟨_, rfl⟩ hcut
    | some o =>
      rw [knownValue_some hs ho]
      intro w w' known' hmemo hext _
      have hknown : w'.known? cell.key = some o := by simp [Walk.known?, hmemo, hext _ _ ho]
      rw [cellValue_formula hs, formulaValue_known hknown, Eval.ofExcept_apply]
      exact ⟨rfl, rfl, rfl⟩

/-- What a memo knows of the cells that a body refers to is read from it. -/
theorem follows_body (room : Nat) (body : String) (site : RowSite) :
    Follows known (scope.knownBody registry known body site) (scope.chained registry (room + 1) body site) := by
  unfold knownBody chained
  refine Follows.bind (.ofExcept _) fun e _ => ?_
  exact (composable_follows registry known).eval
    (fun b => cond b (scope.read (scope.chained registry room) (some site)) (scope.knownRead known (some site)))
    e fun r _ => Follows.bind (.ofExcept _) fun cell _ => follows_cellValue _ cell

end Scope

/-! ## Recording what is asked for -/

section Recorded

variable (scope : Scope) (registry : Registry) (g : Guard) (earlier : CellSite → Prop)

/-- The state inside the guard, with a memo that backs the earlier cells. -/
structure Prepared (w : Walk) (known : Memo) : Prop where
  guard : w.guard = g
  memo : w.memo = some known
  kept : KeepsKept known
  backs : ∀ cell, earlier cell → scope.Backs registry known cell

/-- The end of a step that started in such a state: the outcome is one to keep, and the memo has grown to know all that
the step needed. -/
structure Recording {α : Type} (known : Memo) (x : Memo → Eval α) (r : Except Failure α × Walk) (known' : Memo) :
    Prop where
  outcome : Kept r.1
  grown : Extends known known'
  prepared : Prepared scope registry g earlier r.2 known'
  recorded : ∀ known'', Extends known' known'' → ∀ w, (x known'' w).1 = r.1

/-- The first step records what the steps by given memos need. -/
def Recorded {α : Type} (y : Eval α) (x : Memo → Eval α) : Prop :=
  ∀ (w : Walk) (known : Memo), Prepared scope registry g earlier w known →
    ∃ known', Recording scope registry g earlier known x (y w) known'

end Recorded

section Recording

variable {scope : Scope} {registry : Registry} {g : Guard} {earlier : CellSite → Prop} {α β : Type}

/-- A step that only adds warnings needs nothing. -/
theorem Recorded.const {y : Eval α} {o : Except Failure α} {notes : List Warning} (hy : y.Only o notes) (ho : Kept o) :
    Recorded scope registry g earlier y fun _ => y := by
  intro w known h
  rw [hy]
  exact ⟨known, ho, .refl known, ⟨h.guard, h.memo, h.kept, h.backs⟩, fun _ _ w' => by rw [hy]⟩

theorem Recorded.bind {y : Eval α} {x : Memo → Eval α} {l : α → Eval β} {k : Memo → α → Eval β}
    (hx : Recorded scope registry g earlier y x)
    (hk : ∀ a, y.Returns a → Recorded scope registry g earlier (l a) fun m => k m a) :
    Recorded scope registry g earlier (y >>= l) fun m => x m >>= k m := by
  intro w known h
  obtain ⟨known', hfirst⟩ := hx w known h
  rcases hy : y w with ⟨o, after⟩
  rw [hy] at hfirst
  cases o with
  | error f =>
    rw [Eval.bind_error hy]
    refine ⟨known', kept_error (hfirst.outcome f rfl), hfirst.grown, hfirst.prepared, fun known'' hext w' => ?_⟩
    have hx' : x known'' w' = (.error f, (x known'' w').2) := Prod.ext (hfirst.recorded known'' hext w') rfl
    rw [Eval.bind_error hx']
  | ok a =>
    obtain ⟨known'', hnext⟩ := hk a ⟨w, after, hy⟩ after known' hfirst.prepared
    rw [Eval.bind_ok hy]
    refine ⟨known'', hnext.outcome, hfirst.grown.trans hnext.grown, hnext.prepared, fun known₃ hext w' => ?_⟩
    have hx' : x known₃ w' = (.ok a, (x known₃ w').2) :=
      Prod.ext (hfirst.recorded known₃ (hnext.grown.trans hext) w') rfl
    rw [Eval.bind_ok hx']
    exact hnext.recorded known₃ hext _

theorem Recorded.attempt {y : Eval α} {x : Memo → Eval α} (hx : Recorded scope registry g earlier y x) :
    Recorded scope registry g earlier (Eval.attempt y) fun m => Eval.attempt (x m) := by
  intro w known h
  obtain ⟨known', hfirst⟩ := hx w known h
  rw [attempt_apply]
  refine ⟨known', hfirst.outcome.recovered, hfirst.grown, hfirst.prepared, fun known'' hext w' => ?_⟩
  rw [attempt_apply, hfirst.recorded known'' hext w']

/-- Recording what is needed is kept by all ways of going on, if what is raised on the way is kept. -/
theorem composable_recorded (scope : Scope) (registry : Registry) (g : Guard) (earlier : CellSite → Prop)
    (raised : ∀ f, Raised registry f → f.isKept = true) :
    Composable registry fun (α : Type) (x : Option Memo → Eval α) =>
      Recorded scope registry g earlier (x none) fun m => x (some m) where
  value a := .const (Eval.only_pure a) (kept_ok a)
  failure h := .const (Eval.only_throw _) (kept_error (raised _ h))
  warning note := .const (Eval.only_warn note) (kept_ok ())
  sequence hx hk := hx.bind fun a ha => hk a ⟨none, ha⟩
  recovery hx := hx.attempt

/-! ## Cells that are entered one at a time -/

/-- A cell with data is recorded, if the data is a value. -/
theorem recorded_literal {evaluate : Evaluator} {cell : CellSite} {raw : RawCell} (hs : cell.source = .literal raw)
    (h : Kept (raw.value.mapError Failure.overflow)) :
    Recorded scope registry g earlier (Scope.cellValue evaluate cell) fun known => scope.knownValue known cell := by
  rw [Scope.cellValue_literal hs, funext fun known => Scope.knownValue_literal hs known]
  exact .const (Eval.only_ofExcept _) h

/-- A formula cell that is not in the memo, but backed by it, is entered and stored. -/
theorem formulaValue_backed (room : Nat) {cell : CellSite} {body : String} {inside : Guard} {w : Walk} {known : Memo}
    {o : Except Failure CellValue} (h : Prepared scope registry g earlier w known)
    (henter : g.enter ⟨cell.key, cell.label⟩ = .ok inside) (hknown : known[cell.key]? = none) (ho : Kept o)
    (hbacked : ∀ w', (scope.knownBody registry known body cell.site w').1 = o) :
    ∃ after, Scope.formulaValue (scope.chained registry (room + 1)) cell body w = (o, Walk.store after cell.key o) ∧
      after.guard = g ∧ after.memo = some known := by
  rw [formulaValue_fresh (by simp [Walk.known?, h.memo, hknown])]
  obtain ⟨hout, hguard, hmemo⟩ := Scope.follows_body room body cell.site w { w with guard := inside } known h.memo
    (.refl known) (by rw [hbacked]; exact ho.not_cut)
  rw [hbacked] at hout
  rcases hrun : scope.chained registry (room + 1) body cell.site { w with guard := inside } with ⟨o', after⟩
  rw [hrun] at hout hguard hmemo
  obtain rfl : o' = o := hout
  have hwithin : Eval.within ⟨cell.key, cell.label⟩ (scope.chained registry (room + 1) body cell.site) w =
      (o', { after with guard := after.guard.leave }) := by
    rw [Eval.within_ok (h.guard ▸ henter), hrun]
  refine ⟨{ after with guard := after.guard.leave }, ?_, ?_, ?_⟩
  · cases o' with
    | ok v => exact Eval.remember_ok hwithin
    | error f => rw [Eval.remember_error hwithin, if_pos (ho f rfl)]
  · show after.guard.leave = g
    rw [show after.guard = inside from hguard, Guard.leave_enter henter]
  · exact (show after.memo = w.memo from hmemo).trans h.memo

/-- A formula cell that the memo backs and that may be entered is recorded. -/
theorem recorded_formula {room : Nat} {cell : CellSite} {body : String} {inside : Guard}
    (hs : cell.source = .formula body) (hmem : earlier cell) (henter : g.enter ⟨cell.key, cell.label⟩ = .ok inside) :
    Recorded scope registry g earlier (Scope.cellValue (scope.chained registry (room + 1)) cell)
      fun known => scope.knownValue known cell := by
  rw [Scope.cellValue_formula hs]
  intro w known h
  -- whatever the outcome is, it is what a memo with it gives
  have recorded : ∀ {known' : Memo} {o}, known'[cell.key]? = some o → ∀ known'', Extends known' known'' → ∀ w',
      (scope.knownValue known'' cell w').1 = o := fun ho known'' hext w' => by
    rw [Scope.knownValue_some hs (hext _ _ ho), Eval.ofExcept_apply]
  cases hknown : known[cell.key]? with
  | some o =>
    rw [formulaValue_known (by simp [Walk.known?, h.memo, hknown] : w.known? cell.key = some o)]
    exact ⟨known, h.kept _ o hknown, .refl known, h, recorded hknown⟩
  | none =>
    obtain ⟨o, ho, hbacked⟩ := h.backs cell hmem body hs
    obtain ⟨after, hrun, hguard, hmemo⟩ := formulaValue_backed room h henter hknown ho hbacked
    rw [hrun]
    refine ⟨known.insert cell.key o, ho, extends_insert hknown o, ⟨hguard, ?_, h.kept.insert _ ho, fun d hd => ?_⟩,
      recorded (by simp)⟩
    · show after.memo.map (·.insert cell.key o) = _
      rw [hmemo, Option.map_some]
    · exact (h.backs d hd).mono (extends_insert hknown o)

/-- A cell with data, or a formula cell that the memo backs and that may be entered, is recorded. -/
theorem recorded_cell {room : Nat} {cell : CellSite}
    (hliteral : ∀ raw, cell.source = .literal raw → Kept (raw.value.mapError Failure.overflow))
    (hearlier : ∀ body, cell.source = .formula body →
      earlier cell ∧ ∃ inside, g.enter ⟨cell.key, cell.label⟩ = .ok inside) :
    Recorded scope registry g earlier (Scope.cellValue (scope.chained registry (room + 1)) cell)
      fun known => scope.knownValue known cell := by
  cases hs : cell.source with
  | literal raw => exact recorded_literal hs (hliteral raw hs)
  | formula body =>
    obtain ⟨hmem, inside, henter⟩ := hearlier body hs
    exact recorded_formula hs hmem henter

/-- The value of the cell that a reference leads to is recorded if that of the cell is, or else its failure is kept. -/
theorem recorded_read {evaluate : Evaluator} {site : Option RowSite} {r : Reference}
    (hmissing : ∀ f, scope.target site r = .error f → f.isKept = true)
    (hcell : ∀ cell, scope.target site r = .ok cell →
      Recorded scope registry g earlier (Scope.cellValue evaluate cell) fun known => scope.knownValue known cell) :
    Recorded scope registry g earlier (scope.read evaluate site r) fun known => scope.knownRead known site r := by
  exact Recorded.bind (.const (Eval.only_ofExcept _) hmissing) fun cell hc => hcell cell hc.of_ofExcept

/-- **The value of an expression is recorded if the values are to which its references lead.** -/
theorem recorded_eval (raised : ∀ f, Raised registry f → f.isKept = true) {evaluate : Evaluator}
    {site : Option RowSite} (e : Expr)
    (h : ∀ r ∈ e.references,
      Recorded scope registry g earlier (scope.read evaluate site r) fun known => scope.knownRead known site r) :
    Recorded scope registry g earlier (e.eval registry (scope.read evaluate site)) fun known =>
      e.eval registry (scope.knownRead known site) :=
  (composable_recorded scope registry g earlier raised).eval
    (fun i => i.elim (scope.read evaluate site) fun known => scope.knownRead known site) e h

end Recording

end GameSheet
