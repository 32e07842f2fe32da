import GameSheet.Proofs.Formula.Grammar

/-!
# Closing what is open

Facts about the steps of a reading that do not depend on how the reading came about.

* `Rests level pending`: closing at the level leaves everything open.
* `Nonterminal.Holds`: a phrase of the nonterminal may stand where the reading is.
* `Reading.closed`: the last operand and what is open around it, after closing at a level. A step that follows an
  operand depends on nothing else (`Reading.step_operator`, `Reading.step_comma`
  and two for closing parentheses).
-/

namespace GameSheet.Formula

/-! ## Runs -/

namespace Reading

theorem steps_append {r r' : Reading} {a b : List Token} (h : r.steps a = .ok r') : r.steps (a ++ b) = r'.steps b := by
  induction a generalizing r with
  | nil =>
    cases h
    rfl
  | cons t a ih =>
    simp only [List.cons_append, steps] at h ⊢
    cases hs : r.step t with
    | none =>
      rw [hs] at h
      cases h
    | some next =>
      rw [hs] at h
      exact ih h

theorem steps_cons {r r' : Reading} {t : Token} {ts : List Token} (h : r.step t = some r') :
    r.steps (t :: ts) = r'.steps ts := by
  simp only [steps, h]

theorem steps_single {r r' : Reading} {t : Token} (h : r.step t = some r') : r.steps [t] = .ok r' :=
  steps_cons h

end Reading

/-! ## Closing -/

/-- What is innermost waits for an operand that binds less tightly than the level, or for a parenthesis. -/
def Rests (level : Nat) : List Pending → Prop
  | .negate :: _ => signLevel < level
  | .keep :: _ => signLevel < level
  | .infixed op _ :: _ => op.level < level
  | _ => True

section Closing

variable {k l : Nat} {v : Phrase} {pending : List Pending}

theorem Rests.mono (h : Rests k pending) (hl : k ≤ l) : Rests l pending := by
  match pending, h with
  | [], _ => trivial
  | .group :: _, _ => trivial
  | .call _ _ _ :: _, _ => trivial
  | .negate :: _, h => exact Nat.lt_of_lt_of_le h hl
  | .keep :: _, h => exact Nat.lt_of_lt_of_le h hl
  | .infixed _ _ :: _, h => exact Nat.lt_of_lt_of_le h hl

/-- All that waits binds less tightly than an atom. -/
theorem rests_six (pending : List Pending) : Rests 6 pending := by
  match pending with
  | [] => trivial
  | .group :: _ => trivial
  | .call _ _ _ :: _ => trivial
  | .negate :: _ => exact (by decide : signLevel < 6)
  | .keep :: _ => exact (by decide : signLevel < 6)
  | .infixed op _ :: _ => exact op.level_lt_six

theorem Rests.collapse (h : Rests k pending) : Formula.collapse k v pending = (v, pending) := by
  match pending, h with
  | [], _ => rfl
  | .group :: _, _ => rfl
  | .call _ _ _ :: _, _ => rfl
  | .negate :: _, h => simp only [Formula.collapse, if_neg (Nat.not_le.2 h)]
  | .keep :: _, h => simp only [Formula.collapse, if_neg (Nat.not_le.2 h)]
  | .infixed _ _ :: _, h => simp only [Formula.collapse, if_neg (Nat.not_le.2 h)]

theorem collapse_negate (h : k ≤ signLevel) : collapse k v (.negate :: pending) = collapse k (.negate v) pending := by
  simp only [collapse, if_pos h]

theorem collapse_keep (h : k ≤ signLevel) : collapse k v (.keep :: pending) = collapse k v pending := by
  simp only [collapse, if_pos h]

theorem collapse_infixed {op : Operator} {left : Phrase} (h : k ≤ op.level) :
    collapse k v (.infixed op left :: pending) = collapse k (.binary op left v) pending := by
  simp only [collapse, if_pos h]

end Closing

theorem Link.closingLevel {c : Chain} (link : Link c) : closingLevel link.op = c.level := by
  rw [← link.level]
  have h := link.level
  cases hop : link.op with
  | pow =>
    rw [hop] at h
    cases c <;> cases h
  | _ => rfl

/-- A phrase of the nonterminal may stand here: a chain is not closed by the operators that it starts with. -/
def Nonterminal.Holds : Nonterminal → List Pending → Prop
  | .chain c, pending => Rests c.level pending
  | _, _ => True

/-! ## Steps after an operand -/

namespace Reading

/-- The last operand and what is open, after closing at the level. -/
def closed (level : Nat) : Reading → Option (Phrase × List Pending)
  | operand _ => none
  | named name position pending => some (collapse level (.name name position) pending)
  | complete value pending => some (collapse level value pending)

variable {r : Reading} {t : Token} {v : Phrase} {pending : List Pending}

/-- Unless a parenthesis follows, a name is an operand like any other. -/
theorem step_of_closed {k : Nat} {s : Phrase × List Pending} (h : r.closed k = some s) (ht : t.kind ≠ .leftParen) :
    ∃ value pending, r.step t = stepComplete value pending t ∧ ∀ k, r.closed k = some (collapse k value pending) := by
  cases r with
  | operand pending => cases h
  | named name position pending => exact ⟨.name name position, pending, if_neg ht, fun _ => rfl⟩
  | complete value pending => exact ⟨value, pending, rfl, fun _ => rfl⟩

theorem step_operator {op : Operator} (h : r.closed (closingLevel op) = some (v, pending)) (ht : t.kind = .operator)
    (hop : Operator.ofChars? t.chars = some op) : r.step t = some (.operand (.infixed op v :: pending)) := by
  obtain ⟨value, waiting, hs, hc⟩ := step_of_closed h (by rw [ht]; decide)
  rw [hc] at h
  rw [hs]
  simp only [stepComplete, ht, hop, Option.map_some, Option.some.inj h]

theorem step_closing_group (h : r.closed 0 = some (v, .group :: pending)) (ht : t.kind = .rightParen) :
    r.step t = some (.complete v pending) := by
  obtain ⟨value, waiting, hs, hc⟩ := step_of_closed h (by rw [ht]; decide)
  rw [hc] at h
  rw [hs]
  simp only [stepComplete, ht, Option.some.inj h]

theorem step_closing_call {name : String} {position : Nat} {done : List Phrase}
    (h : r.closed 0 = some (v, .call name position done :: pending)) (ht : t.kind = .rightParen) :
    r.step t = some (.complete (.call name (v :: done).reverse position) pending) := by
  obtain ⟨value, waiting, hs, hc⟩ := step_of_closed h (by rw [ht]; decide)
  rw [hc] at h
  rw [hs]
  simp only [stepComplete, ht, Option.some.inj h]

theorem step_comma {name : String} {position : Nat} {done : List Phrase}
    (h : r.closed 0 = some (v, .call name position done :: pending)) (ht : t.kind = .comma) :
    r.step t = some (.operand (.call name position (v :: done) :: pending)) := by
  obtain ⟨value, waiting, hs, hc⟩ := step_of_closed h (by rw [ht]; decide)
  rw [hc] at h
  rw [hs]
  simp only [stepComplete, ht, Option.some.inj h]

theorem finish_of_closed (h : r.closed 0 = some (v, [])) : r.finish = .ok v := by
  cases r with
  | operand pending => cases h
  | named name position pending => simp only [finish, finish.finishValue, Option.some.inj h]
  | complete value pending => simp only [finish, finish.finishValue, Option.some.inj h]

end Reading

end GameSheet.Formula
