import GameSheet.Proofs.Formula.Closing

/-!
# Every parse tree is read

The reading goes through the tokens of a parse tree, wherever a phrase of its nonterminal may stand, and arrives at
its phrase: closed at any level within reach of the nonterminal, the reading is the phrase over what was open before
(`Derivation.Reads`). Closing is part of the statement because a sign or an operator is completed only by what
follows its operand.

* **Completeness** (`Derivation.read`): the tokens of a formula are read, and the reading ends with its phrase.
-/

namespace GameSheet.Formula

/-- The tree is read wherever it may stand. -/
def Derivation.Reads {n : Nonterminal} (d : Derivation n) : Prop :=
  (∀ t ∈ d.tokens, t.Readable) → ∀ pending, n.Holds pending →
    ∃ r, (Reading.operand pending).steps d.tokens = .ok r ∧
      ∀ k ≤ n.reach, r.closed k = some (collapse k d.phrase pending)

/-- The arguments are read after the opening parenthesis of a call, up to the closing one. -/
def Arguments.Reads (a : Arguments) : Prop :=
  (∀ t ∈ a.tokens, t.Readable) → ∀ (name : String) (position : Nat) (pending : List Pending)
    (closing : Terminal .rightParen),
    (Reading.operand (.call name position [] :: pending)).steps (a.tokens ++ [closing.1]) =
      .ok (.complete (.call name a.phrases position) pending)

/-- Further arguments are read after an argument, up to the closing parenthesis. -/
def Further.Reads (f : Further) : Prop :=
  (∀ t ∈ f.tokens, t.Readable) → ∀ {r : Reading} {v : Phrase} {name : String} {position : Nat} {done : List Phrase}
    {pending : List Pending} (closing : Terminal .rightParen),
    r.closed 0 = some (v, .call name position done :: pending) →
    r.steps (f.tokens ++ [closing.1]) = .ok (.complete (.call name ((v :: done).reverse ++ f.phrases) position) pending)

namespace Derivation

/-! ## Chains, signs and powers -/

section Chains

variable {c : Chain}

theorem Reads.single {x : Derivation c.operand} (hx : x.Reads) : (Derivation.single c x).Reads := by
  intro ht pending hp
  have hx' : c.operand.Holds pending := by
    cases c with
    | comparison => exact Rests.mono hp (by decide)
    | addition => exact Rests.mono hp (by decide)
    | multiplication => trivial
  obtain ⟨r, hr, hc⟩ := hx ht pending hx'
  exact ⟨r, hr, fun k hk => hc k (Nat.le_trans hk (Nat.le_of_lt c.level_lt_reach_operand))⟩

/-- An operator of a level waits for an operand of the level. -/
theorem holds_link (link : Link c) (left : Phrase) (pending : List Pending) :
    c.operand.Holds (.infixed link.op left :: pending) := by
  have hl := link.level
  cases c with
  | comparison => exact (by rw [hl]; decide : link.op.level < 2)
  | addition => exact (by rw [hl]; decide : link.op.level < 3)
  | multiplication => trivial

theorem Reads.joined {left : Derivation (.chain c)} {link : Link c} {right : Derivation c.operand}
    (hleft : left.Reads) (hright : right.Reads) : (Derivation.joined c left link right).Reads := by
  intro ht pending hp
  simp only [tokens, List.forall_mem_append, List.forall_mem_cons] at ht
  obtain ⟨htl, _, htr⟩ := ht
  obtain ⟨r, hr, hc⟩ := hleft htl pending hp
  -- the operator completes the chain to its left and nothing more
  have hclosed : r.closed (closingLevel link.op) = some (left.phrase, pending) := by
    rw [link.closingLevel, hc c.level (Nat.le_refl _), Rests.collapse hp]
  have hstep := Reading.step_operator hclosed link.isOperator link.read
  obtain ⟨r', hr', hc'⟩ := hright htr _ (holds_link link left.phrase pending)
  refine ⟨r', ?_, fun k hk => ?_⟩
  · rw [tokens, Reading.steps_append hr, Reading.steps_cons hstep, hr']
  · rw [hc' k (Nat.le_trans hk (Nat.le_of_lt c.level_lt_reach_operand)),
      collapse_infixed (by rw [link.level]; exact hk), phrase]

end Chains

theorem Reads.unsigned {x : Derivation .power} (hx : x.Reads) : (Derivation.unsigned x).Reads := by
  intro ht pending _
  exact hx ht pending trivial

theorem Reads.minus {sign : Mark ['-']} {x : Derivation .unary} (hx : x.Reads) : (Derivation.minus sign x).Reads := by
  intro ht pending _
  simp only [tokens, List.forall_mem_cons] at ht
  have hstep : (Reading.operand pending).step sign.1 = some (.operand (.negate :: pending)) := by
    simp only [Reading.step, Reading.stepOperand, sign.2.1, sign.2.2, if_true]
  obtain ⟨r, hr, hc⟩ := hx ht.2 (.negate :: pending) trivial
  refine ⟨r, by rw [tokens, Reading.steps_cons hstep, hr], fun k hk => ?_⟩
  rw [hc k hk, collapse_negate hk, phrase]

theorem Reads.plus {sign : Mark ['+']} {x : Derivation .unary} (hx : x.Reads) : (Derivation.plus sign x).Reads := by
  intro ht pending _
  simp only [tokens, List.forall_mem_cons] at ht
  have hstep : (Reading.operand pending).step sign.1 = some (.operand (.keep :: pending)) := by
    have hne : ¬ ['+'] = ['-'] := by decide
    simp only [Reading.step, Reading.stepOperand, sign.2.1, sign.2.2, if_neg hne, if_true]
  obtain ⟨r, hr, hc⟩ := hx ht.2 (.keep :: pending) trivial
  refine ⟨r, by rw [tokens, Reading.steps_cons hstep, hr], fun k hk => ?_⟩
  rw [hc k hk, collapse_keep hk, phrase]

theorem Reads.bare {x : Derivation .atom} (hx : x.Reads) : (Derivation.bare x).Reads := by
  intro ht pending _
  obtain ⟨r, hr, hc⟩ := hx ht pending trivial
  exact ⟨r, hr, fun k hk => hc k (Nat.le_trans hk (by decide))⟩

theorem Reads.raised {x : Derivation .atom} {mark : Mark ['^']} {y : Derivation .unary} (hx : x.Reads)
    (hy : y.Reads) : (Derivation.raised x mark y).Reads := by
  intro ht pending _
  simp only [tokens, List.forall_mem_append, List.forall_mem_cons] at ht
  obtain ⟨htx, _, hty⟩ := ht
  obtain ⟨r, hr, hc⟩ := hx htx pending trivial
  -- the base is the last atom alone, since `^` completes nothing
  have hclosed : r.closed (closingLevel .pow) = some (x.phrase, pending) := by
    have hrests : Rests (closingLevel .pow) pending := rests_six pending
    rw [hc (closingLevel .pow) (Nat.le_refl _), hrests.collapse]
  have hstep := Reading.step_operator hclosed mark.2.1 (mark.read rfl)
  obtain ⟨r', hr', hc'⟩ := hy hty (.infixed .pow x.phrase :: pending) trivial
  refine ⟨r', ?_, fun k hk => ?_⟩
  · rw [tokens, Reading.steps_append hr, Reading.steps_cons hstep, hr']
  · rw [hc' k hk, collapse_infixed (Nat.le_trans hk (by decide)), phrase]

/-! ## Atoms -/

/-- An atom of one token is read in one step. -/
theorem reads_leaf {d : Derivation .atom} {t : Token} (htokens : d.tokens = [t])
    (hstep : t.Readable → ∀ pending, (Reading.operand pending).step t = some (.complete d.phrase pending)) :
    d.Reads := by
  intro ht pending _
  rw [htokens] at ht ⊢
  exact ⟨_, Reading.steps_single (hstep (ht t List.mem_cons_self) pending), fun _ _ => rfl⟩

theorem reads_number (t : Terminal .number) : (number t).Reads := by
  refine reads_leaf rfl fun ht pending => ?_
  obtain ⟨n, hn⟩ := ht t.2
  simp only [Reading.step, Reading.stepOperand, Phrase.ofToken?, t.2, hn, Option.map_some, phrase, Token.number]

theorem reads_string (t : Terminal .string) : (string t).Reads := by
  refine reads_leaf rfl fun _ pending => ?_
  simp only [Reading.step, Reading.stepOperand, Phrase.ofToken?, t.2, Option.map_some, phrase]

theorem reads_dotted (t : Terminal .dottedIdentifier) : (dotted t).Reads := by
  refine reads_leaf rfl fun _ pending => ?_
  simp only [Reading.step, Reading.stepOperand, Phrase.ofToken?, t.2, Option.map_some, phrase, Token.qualifier,
    Token.field]

theorem step_name (t : Terminal .identifier) (pending : List Pending) :
    (Reading.operand pending).step t.1 = some (.named t.1.text t.1.position pending) := by
  simp only [Reading.step, Reading.stepOperand, t.2]

theorem reads_name (t : Terminal .identifier) : (name t).Reads := by
  intro _ pending _
  exact ⟨_, Reading.steps_single (step_name t pending), fun _ _ => rfl⟩

theorem reads_call {callee : Terminal .identifier} {opening : Terminal .leftParen} {args : Arguments}
    {closing : Terminal .rightParen} (ha : args.Reads) : (call callee opening args closing).Reads := by
  intro ht pending _
  simp only [tokens, List.forall_mem_cons, List.forall_mem_append] at ht
  obtain ⟨_, _, hargs, _⟩ := ht
  have hopen : (Reading.named callee.1.text callee.1.position pending).step opening.1 =
      some (.operand (.call callee.1.text callee.1.position [] :: pending)) := if_pos opening.2
  have hrun := ha hargs callee.1.text callee.1.position pending closing
  refine ⟨.complete (call callee opening args closing).phrase pending, ?_, fun _ _ => rfl⟩
  rw [tokens, Reading.steps_cons (step_name callee pending), Reading.steps_cons hopen, hrun, phrase]

theorem Reads.group {opening : Terminal .leftParen} {inner : Derivation .start} {closing : Terminal .rightParen}
    (hi : inner.Reads) : (Derivation.group opening inner closing).Reads := by
  intro ht pending _
  simp only [tokens, List.forall_mem_cons, List.forall_mem_append] at ht
  have hopen : (Reading.operand pending).step opening.1 = some (.operand (.group :: pending)) := by
    simp only [Reading.step, Reading.stepOperand, opening.2]
  obtain ⟨r, hr, hc⟩ := hi ht.2.1 (.group :: pending) trivial
  have hstep := Reading.step_closing_group (hc 0 (Nat.zero_le _)) closing.2
  refine ⟨.complete inner.phrase pending, ?_, fun _ _ => rfl⟩
  rw [tokens, Reading.steps_cons hopen, Reading.steps_append hr, Reading.steps_single hstep]

end Derivation

/-! ## Arguments -/

theorem Arguments.reads_none : Arguments.none.Reads := by
  intro _ name position pending closing
  have hstep : (Reading.operand (.call name position [] :: pending)).step closing.1 =
      .some (.complete (.call name [] position) pending) := by
    simp only [Reading.step, Reading.stepOperand, closing.2]
  exact Reading.steps_single hstep

theorem Arguments.reads_some {first : Derivation .start} {rest : Further} (hfirst : first.Reads)
    (hrest : rest.Reads) : (Arguments.some first rest).Reads := by
  intro ht name position pending closing
  simp only [Arguments.tokens, List.forall_mem_append] at ht
  obtain ⟨r, hr, hc⟩ := hfirst ht.1 (.call name position [] :: pending) trivial
  have hrun := hrest ht.2 closing (hc 0 (Nat.zero_le _))
  rw [Arguments.tokens, List.append_assoc, Reading.steps_append hr, hrun]
  rfl

theorem Further.reads_none : Further.none.Reads := by
  intro _ r v name position done pending closing hc
  have hstep := Reading.step_closing_call hc closing.2
  simpa [Further.tokens, Further.phrases] using Reading.steps_single hstep

theorem Further.reads_more {comma : Terminal .comma} {next : Derivation .start} {rest : Further}
    (hnext : next.Reads) (hrest : rest.Reads) : (Further.more comma next rest).Reads := by
  intro ht r v name position done pending closing hc
  simp only [Further.tokens, List.forall_mem_cons, List.forall_mem_append] at ht
  obtain ⟨r', hr', hc'⟩ := hnext ht.2.1 (.call name position (v :: done) :: pending) trivial
  have hrun := hrest ht.2.2 closing (hc' 0 (Nat.zero_le _))
  rw [Further.tokens, List.cons_append, List.append_assoc, Reading.steps_cons (Reading.step_comma hc comma.2),
    Reading.steps_append hr', hrun]
  simp [Further.phrases]

/-! ## Every tree -/

mutual

theorem Derivation.reads : {n : Nonterminal} → (d : Derivation n) → d.Reads
  | _, .single _ operand => operand.reads.single
  | _, .joined _ left _ right => left.reads.joined right.reads
  | _, .unsigned operand => operand.reads.unsigned
  | _, .minus _ operand => operand.reads.minus
  | _, .plus _ operand => operand.reads.plus
  | _, .bare base => base.reads.bare
  | _, .raised base _ exponent => base.reads.raised exponent.reads
  | _, .number t => Derivation.reads_number t
  | _, .string t => Derivation.reads_string t
  | _, .call _ _ args _ => Derivation.reads_call args.reads
  | _, .dotted t => Derivation.reads_dotted t
  | _, .name t => Derivation.reads_name t
  | _, .group _ inner _ => inner.reads.group

theorem Arguments.reads : (a : Arguments) → a.Reads
  | .none => Arguments.reads_none
  | .some first rest => Arguments.reads_some first.reads rest.reads

theorem Further.reads : (f : Further) → f.Reads
  | .none => Further.reads_none
  | .more _ next rest => Further.reads_more next.reads rest.reads

end

/-- **Completeness**: the tokens of a formula are read to its phrase. -/
theorem Derivation.read (d : Derivation .start) (ht : ∀ t ∈ d.tokens, t.Readable) :
    ∃ r, Reading.start.steps d.tokens = .ok r ∧ r.finish = .ok d.phrase := by
  obtain ⟨r, hr, hc⟩ := d.reads ht [] trivial
  exact ⟨r, hr, Reading.finish_of_closed (hc 0 (Nat.zero_le _))⟩

end GameSheet.Formula
