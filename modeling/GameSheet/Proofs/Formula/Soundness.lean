import GameSheet.Proofs.Formula.Closing

/-!
# What is read has a parse tree

What is open to the left of the reading point is a parse tree without its right edge. `Opened pending ts` says so: the
tokens `ts` are those of the subtrees that are complete, each with the tokens that stand beside it in its production.
Closing builds the subtrees of the right edge (`Opened.close`), and a step keeps the tokens that have been read
(`Reached.step`).

* **Soundness** (`exists_derivation_of_read`): tokens that are read to a phrase are those of a parse tree with this
  phrase.
-/

namespace GameSheet.Formula

open GameSheet.Text GameSheet.Decimal

/-! ## Wider nonterminals -/

/-- How tightly a phrase of the nonterminal holds together. -/
def Nonterminal.rank : Nonterminal → Nat
  | .chain c => c.level
  | .unary => 4
  | .power => 5
  | .atom => 6

theorem Nonterminal.rank_injective {m n : Nonterminal} (h : m.rank = n.rank) : m = n := by
  cases m with
  | chain c => cases n with
    | chain c' => cases c <;> cases c' <;> first | rfl | cases h
    | _ => cases c <;> cases h
  | _ => cases n with
    | chain c' => cases c' <;> cases h
    | _ => first | rfl | cases h

theorem Nonterminal.rank_le_six (n : Nonterminal) : n.rank ≤ 6 := by
  cases n with
  | chain c => cases c <;> decide
  | _ => decide

theorem Chain.rank_operand (c : Chain) : c.operand.rank = c.level + 1 := by
  cases c <;> rfl

/-- A phrase of one nonterminal is one of the next wider. -/
theorem Derivation.widen_step {m : Nonterminal} (hm : m ≠ .atom) : ∃ m' : Nonterminal, m'.rank = m.rank + 1 ∧
    ∀ d : Derivation m', ∃ e : Derivation m, e.tokens = d.tokens ∧ e.phrase = d.phrase := by
  cases m with
  | chain c => exact ⟨c.operand, c.rank_operand, fun d => ⟨.single c d, rfl, rfl⟩⟩
  | unary => exact ⟨.power, rfl, fun d => ⟨.unsigned d, rfl, rfl⟩⟩
  | power => exact ⟨.atom, rfl, fun d => ⟨.bare d, rfl, rfl⟩⟩
  | atom => exact absurd rfl hm

/-- A phrase of a nonterminal is one of any wider nonterminal. -/
theorem Derivation.widen {m n : Nonterminal} (d : Derivation n) (h : m.rank ≤ n.rank) :
    ∃ e : Derivation m, e.tokens = d.tokens ∧ e.phrase = d.phrase := by
  obtain ⟨j, hj⟩ : ∃ j, n.rank = m.rank + j := ⟨n.rank - m.rank, by omega⟩
  induction j generalizing m with
  | zero =>
    obtain rfl := Nonterminal.rank_injective hj
    exact ⟨d, rfl, rfl⟩
  | succ j ih =>
    have hm : m ≠ .atom := by
      rintro rfl
      have hn := n.rank_le_six
      have hatom : Nonterminal.atom.rank = 6 := rfl
      omega
    obtain ⟨m', hr, hstep⟩ := Derivation.widen_step hm
    obtain ⟨e, het, hep⟩ := ih (m := m') (by omega) (by omega)
    obtain ⟨e', het', hep'⟩ := hstep e
    exact ⟨e', by rw [het', het], by rw [hep', hep]⟩

/-! ## Arguments that are complete -/

/-- An argument with the comma after it. -/
abbrev DoneArgument : Type := Derivation .start × Terminal .comma

/-- The tokens of arguments, commas included. -/
def doneTokens (done : List DoneArgument) : List Token :=
  done.flatMap fun a => a.1.tokens ++ [a.2.1]

/-- The phrases of arguments. -/
def donePhrases (done : List DoneArgument) : List Phrase :=
  done.map fun a => a.1.phrase

/-- What follows an argument: a comma, arguments and a last one. -/
def Further.ofDone (comma : Terminal .comma) : List DoneArgument → Derivation .start → Further
  | [], last => .more comma last .none
  | a :: done, last => .more comma a.1 (Further.ofDone a.2 done last)

/-- Arguments and a last one. -/
def Arguments.ofDone : List DoneArgument → Derivation .start → Arguments
  | [], last => .some last .none
  | a :: done, last => .some a.1 (Further.ofDone a.2 done last)

theorem Further.ofDone_tokens (comma : Terminal .comma) (done : List DoneArgument) (last : Derivation .start) :
    (Further.ofDone comma done last).tokens = comma.1 :: (doneTokens done ++ last.tokens) := by
  induction done generalizing comma with
  | nil => simp [Further.ofDone, Further.tokens, doneTokens]
  | cons a done ih => simp [Further.ofDone, Further.tokens, ih, doneTokens]

theorem Further.ofDone_phrases (comma : Terminal .comma) (done : List DoneArgument) (last : Derivation .start) :
    (Further.ofDone comma done last).phrases = donePhrases done ++ [last.phrase] := by
  induction done generalizing comma with
  | nil => rfl
  | cons a done ih => simp [Further.ofDone, Further.phrases, ih, donePhrases]

theorem Arguments.ofDone_tokens (done : List DoneArgument) (last : Derivation .start) :
    (Arguments.ofDone done last).tokens = doneTokens done ++ last.tokens := by
  cases done with
  | nil => simp [Arguments.ofDone, Arguments.tokens, Further.tokens, doneTokens]
  | cons a done => simp [Arguments.ofDone, Arguments.tokens, Further.ofDone_tokens, doneTokens]

theorem Arguments.ofDone_phrases (done : List DoneArgument) (last : Derivation .start) :
    (Arguments.ofDone done last).phrases = donePhrases done ++ [last.phrase] := by
  cases done with
  | nil => rfl
  | cons a done => simp [Arguments.ofDone, Arguments.phrases, Further.ofDone_phrases, donePhrases]

/-! ## What is open -/

/-- The tokens read are those of what is open and of the complete subtrees beside it. -/
inductive Opened : List Pending → List Token → Prop
  | start : Opened [] []
  | group {pending : List Pending} {ts : List Token} (opening : Terminal .leftParen) :
      Opened pending ts → Opened (.group :: pending) (ts ++ [opening.1])
  | call {pending : List Pending} {ts : List Token} (callee : Terminal .identifier) (opening : Terminal .leftParen)
      (done : List DoneArgument) :
      Opened pending ts →
      Opened (.call callee.1.text callee.1.position (donePhrases done).reverse :: pending)
        (ts ++ callee.1 :: opening.1 :: doneTokens done)
  | minus {pending : List Pending} {ts : List Token} (sign : Mark ['-']) :
      Opened pending ts → Opened (.negate :: pending) (ts ++ [sign.1])
  | plus {pending : List Pending} {ts : List Token} (sign : Mark ['+']) :
      Opened pending ts → Opened (.keep :: pending) (ts ++ [sign.1])
  | linked {pending : List Pending} {ts : List Token} {c : Chain} (left : Derivation (.chain c)) (link : Link c) :
      Opened pending ts → Rests c.level pending →
      Opened (.infixed link.op left.phrase :: pending) (ts ++ (left.tokens ++ [link.token]))
  | raised {pending : List Pending} {ts : List Token} (base : Derivation .atom) (mark : Mark ['^']) :
      Opened pending ts → Opened (.infixed .pow base.phrase :: pending) (ts ++ (base.tokens ++ [mark.1]))

section Close

variable {c : Chain} {m n : Nonterminal} {pending : List Pending} {ts : List Token}

/-- Closing at the level of a chain, with the subtree at the right edge, gives a subtree of the chain. -/
def Closes (c : Chain) (d : Derivation n) (pending : List Pending) (ts : List Token) : Prop :=
  ∃ (pending' : List Pending) (ts' : List Token) (e : Derivation (.chain c)),
    collapse c.level d.phrase pending = (e.phrase, pending') ∧ Opened pending' ts' ∧ Rests c.level pending' ∧
      ts' ++ e.tokens = ts ++ d.tokens

/-- Where nothing is to be closed, the subtree is one of the chain already. -/
theorem Opened.closes_of_rests (ho : Opened pending ts) (hr : Rests c.level pending) {d : Derivation n}
    (hn : c.level ≤ n.rank) : Closes c d pending ts := by
  obtain ⟨e, het, hep⟩ := d.widen (m := .chain c) hn
  exact ⟨pending, ts, e, by rw [hr.collapse, hep], ho, hr, by rw [het]⟩

/-- The subtree `d` with what waits for it is a subtree `x`, and the rest closes over that. -/
theorem Closes.grow {p : Pending} {d : Derivation n} {x : Derivation m} {beside : List Token}
    (hx : Closes c x pending ts) (hp : collapse c.level d.phrase (p :: pending) = collapse c.level x.phrase pending)
    (ht : x.tokens = beside ++ d.tokens) : Closes c d (p :: pending) (ts ++ beside) := by
  obtain ⟨pending', ts', e, he, ho, hr, he'⟩ := hx
  exact ⟨pending', ts', e, by rw [hp, he], ho, hr, by rw [he', ht, List.append_assoc]⟩

/-- What may stand after an operator or sign that binds at a level or tighter binds at that level. -/
theorem Nonterminal.rank_of_holds {k : Nat} (h : n.Holds pending) (hk : k ≤ 4) (hr : ∀ l, Rests l pending → k ≤ l) :
    k ≤ n.rank := by
  cases n with
  | chain c => exact hr _ h
  | unary => exact hk
  | power => exact Nat.le_trans hk (by decide)
  | atom => exact Nat.le_trans hk (by decide)

theorem Chain.level_le_three (c : Chain) : c.level ≤ 3 := by
  cases c <;> decide

/-- **Closing builds subtrees**: whatever is open is closed to a subtree of the chain, as long as the subtree at the
right edge may stand there. -/
theorem Opened.close (ho : Opened pending ts) (c : Chain) {n : Nonterminal} (d : Derivation n)
    (hd : n.Holds pending) (hn : c.level ≤ n.rank) : Closes c d pending ts := by
  have hc := c.level_le_three
  induction ho generalizing n with
  | start => exact Opened.start.closes_of_rests trivial hn
  | group opening ho _ => exact (Opened.group opening ho).closes_of_rests trivial hn
  | call callee opening done ho _ => exact (Opened.call callee opening done ho).closes_of_rests trivial hn
  | minus sign ho ih =>
    have hrank : 4 ≤ n.rank := Nonterminal.rank_of_holds hd (Nat.le_refl _) fun l hl => Nat.le_of_lt hl
    obtain ⟨x, hxt, hxp⟩ := d.widen (m := .unary) hrank
    refine (ih (.minus sign x) trivial (Nat.le_trans hc (by decide))).grow ?_ ?_
    · rw [collapse_negate (Nat.le_trans hc (by decide)), Derivation.phrase, hxp]
    · rw [Derivation.tokens, hxt, List.singleton_append]
  | plus sign ho ih =>
    have hrank : 4 ≤ n.rank := Nonterminal.rank_of_holds hd (Nat.le_refl _) fun l hl => Nat.le_of_lt hl
    obtain ⟨x, hxt, hxp⟩ := d.widen (m := .unary) hrank
    refine (ih (.plus sign x) trivial (Nat.le_trans hc (by decide))).grow ?_ ?_
    · rw [collapse_keep (Nat.le_trans hc (by decide)), Derivation.phrase, hxp]
    · rw [Derivation.tokens, hxt, List.singleton_append]
  | @linked pending ts c' left link ho hrests ih =>
    rcases Nat.lt_or_ge c'.level c.level with hlt | hle
    · exact (Opened.linked left link ho hrests).closes_of_rests (by simpa [Rests, link.level] using hlt) hn
    · have hc' := c'.level_le_three
      have hrank : c'.operand.rank ≤ n.rank := by
        rw [c'.rank_operand]
        refine Nonterminal.rank_of_holds hd (by omega) fun l hl => ?_
        rw [← link.level]
        exact hl
      obtain ⟨x, hxt, hxp⟩ := d.widen hrank
      refine (ih (.joined c' left link x) hrests hle).grow ?_ ?_
      · rw [collapse_infixed (by rw [link.level]; exact hle), Derivation.phrase, hxp]
      · rw [Derivation.tokens, hxt, List.append_assoc, List.singleton_append]
  | raised base mark ho ih =>
    have hrank : 4 ≤ n.rank := by
      refine Nonterminal.rank_of_holds hd (Nat.le_refl _) fun l hl => ?_
      exact Nat.le_of_lt (Nat.lt_trans (by decide : 4 < 5) hl)
    obtain ⟨x, hxt, hxp⟩ := d.widen (m := .unary) hrank
    refine (ih (.raised base mark x) trivial (Nat.le_trans hc (by decide))).grow ?_ ?_
    · rw [collapse_infixed (Nat.le_trans hc (by decide)), Derivation.phrase, hxp]
    · rw [Derivation.tokens, hxt, List.append_assoc, List.singleton_append]

end Close

/-! ## Steps -/

/-- Where a reading stands after some tokens. -/
inductive Reached : Reading → List Token → Prop
  | operand {pending : List Pending} {ts : List Token} : Opened pending ts → Reached (.operand pending) ts
  | named {pending : List Pending} {ts : List Token} (t : Terminal .identifier) :
      Opened pending ts → Reached (.named t.1.text t.1.position pending) (ts ++ [t.1])
  | complete {pending : List Pending} {ts : List Token} (d : Derivation .atom) :
      Opened pending ts → Reached (.complete d.phrase pending) (ts ++ d.tokens)

section Steps

variable {pending : List Pending} {ts : List Token} {r r' : Reading} {t : Token}

/-- No level is looser than that of comparisons. -/
theorem collapse_zero (v : Phrase) (pending : List Pending) :
    collapse 0 v pending = collapse Chain.comparison.level v pending := by
  induction pending generalizing v with
  | nil => rfl
  | cons p pending ih =>
    cases p with
    | group => rfl
    | call name position done => rfl
    | negate => rw [collapse_negate (Nat.zero_le _), collapse_negate (by decide), ih]
    | keep => rw [collapse_keep (Nat.zero_le _), collapse_keep (by decide), ih]
    | infixed op left =>
      have hop : Chain.comparison.level ≤ op.level := by cases op <;> decide
      rw [collapse_infixed (Nat.zero_le _), collapse_infixed hop, ih]

/-- An atom may stand anywhere, and everything around it can be closed. -/
theorem Opened.close_all (ho : Opened pending ts) (d : Derivation .atom) :
    ∃ (pending' : List Pending) (ts' : List Token) (e : Derivation .start),
      collapse 0 d.phrase pending = (e.phrase, pending') ∧ Opened pending' ts' ∧ ts' ++ e.tokens = ts ++ d.tokens := by
  obtain ⟨pending', ts', e, he, ho', _, ht⟩ := ho.close .comparison d trivial (by decide)
  exact ⟨pending', ts', e, by rw [collapse_zero, he], ho', ht⟩

/-- An operator is the power mark, or one of a level. -/
theorem Operator.pow_or_chain (op : Operator) : op = .pow ∨ ∃ c : Chain, op.level = c.level := by
  cases op with
  | pow => exact Or.inl rfl
  | add => exact Or.inr ⟨.addition, rfl⟩
  | sub => exact Or.inr ⟨.addition, rfl⟩
  | mul => exact Or.inr ⟨.multiplication, rfl⟩
  | div => exact Or.inr ⟨.multiplication, rfl⟩
  | _ => exact Or.inr ⟨.comparison, rfl⟩

theorem Operator.chars_of_pow {chars : List Char} (h : Operator.ofChars? chars = some .pow) : chars = ['^'] := by
  unfold Operator.ofChars? at h
  split at h <;> first | rfl | cases h

/-- An operator after an atom. -/
theorem Opened.reached_operator {op : Operator} (ho : Opened pending ts) (d : Derivation .atom)
    (ht : t.kind = .operator) (hop : Operator.ofChars? t.chars = some op) :
    Reached (.operand (.infixed op (collapse (closingLevel op) d.phrase pending).1 ::
      (collapse (closingLevel op) d.phrase pending).2)) (ts ++ d.tokens ++ [t]) := by
  rcases op.pow_or_chain with rfl | ⟨c, hc⟩
  · have hrests : Rests (closingLevel .pow) pending := rests_six pending
    rw [hrests.collapse, List.append_assoc]
    exact .operand (ho.raised d ⟨t, ht, Operator.chars_of_pow hop⟩)
  · let link : Link c := ⟨t, op, ht, Chain.mem_operators.2 ⟨hop, hc⟩⟩
    have hlevel : closingLevel op = c.level := link.closingLevel
    have hn : c.level ≤ Nonterminal.atom.rank := by cases c <;> decide
    obtain ⟨pending', ts', e, he, ho', hrests, hts⟩ := ho.close c d trivial hn
    rw [hlevel, he, ← hts, List.append_assoc]
    exact .operand (ho'.linked e link hrests)

/-- A step after an atom keeps the tokens. -/
theorem Opened.reached_of_stepComplete (ho : Opened pending ts) (d : Derivation .atom)
    (h : Reading.stepComplete d.phrase pending t = some r') : Reached r' (ts ++ d.tokens ++ [t]) := by
  obtain ⟨pending', ts', e, he, ho', hts⟩ := ho.close_all d
  unfold Reading.stepComplete at h
  split at h
  · rename_i hk
    obtain ⟨op, hop, rfl⟩ := Option.map_eq_some_iff.1 h
    exact ho.reached_operator d hk hop
  · rename_i hk
    rw [he] at h
    rw [← hts]
    cases ho' with
    | group opening ho'' =>
      cases h
      have hr := Reached.complete (.group opening e ⟨t, hk⟩) ho''
      simpa [Derivation.tokens, Derivation.phrase] using hr
    | call callee opening done ho'' =>
      cases h
      have hr := Reached.complete (.call callee opening (.ofDone done e) ⟨t, hk⟩) ho''
      simpa [Derivation.tokens, Derivation.phrase, Arguments.ofDone_tokens, Arguments.ofDone_phrases] using hr
    | _ => cases h
  · rename_i hk
    rw [he] at h
    rw [← hts]
    cases ho' with
    | call callee opening done ho'' =>
      cases h
      have hr := Reached.operand (ho''.call callee opening (done ++ [(e, ⟨t, hk⟩)]))
      simpa [donePhrases, doneTokens] using hr
    | _ => cases h
  · cases h

/-- A call without arguments yet starts with its name and the parenthesis. -/
theorem Opened.of_call_nil {name : String} {position : Nat} (h : Opened (.call name position [] :: pending) ts) :
    ∃ (callee : Terminal .identifier) (opening : Terminal .leftParen) (ts' : List Token), Opened pending ts' ∧
      ts = ts' ++ [callee.1, opening.1] ∧ name = callee.1.text ∧ position = callee.1.position := by
  generalize hq : Pending.call name position [] :: pending = q at h
  cases h with
  | call callee opening done ho =>
    simp only [List.cons.injEq, Pending.call.injEq] at hq
    obtain ⟨⟨hname, hposition, hdone⟩, rfl⟩ := hq
    have hnil : done = [] := by simpa [donePhrases] using hdone.symm
    subst hnil
    exact ⟨callee, opening, _, ho, rfl, hname, hposition⟩
  | _ => cases hq

/-- An operand by itself is an atom. -/
theorem exists_atom_of_ofToken {v : Phrase} (h : Phrase.ofToken? t = some v) :
    ∃ d : Derivation .atom, d.tokens = [t] ∧ d.phrase = v := by
  unfold Phrase.ofToken? at h
  split at h
  · rename_i hk
    obtain ⟨n, hn, rfl⟩ := Option.map_eq_some_iff.1 h
    exact ⟨.number ⟨t, hk⟩, rfl, by simp only [Derivation.phrase, Token.number, hn]⟩
  · rename_i hk
    cases h
    exact ⟨.string ⟨t, hk⟩, rfl, rfl⟩
  · rename_i hk
    cases h
    exact ⟨.name ⟨t, hk⟩, rfl, rfl⟩
  · rename_i hk
    cases h
    exact ⟨.dotted ⟨t, hk⟩, rfl, rfl⟩
  · cases h

/-- A step where an operand must follow keeps the tokens. -/
theorem Opened.reached_of_stepOperand (ho : Opened pending ts) (h : Reading.stepOperand pending t = some r') :
    Reached r' (ts ++ [t]) := by
  unfold Reading.stepOperand at h
  split at h
  · rename_i hk
    cases h
    exact .named ⟨t, hk⟩ ho
  · rename_i hk
    cases h
    exact .operand (ho.group ⟨t, hk⟩)
  · rename_i hk
    split at h
    · cases h
      obtain ⟨callee, opening, ts', ho', rfl, rfl, rfl⟩ := ho.of_call_nil
      have hr := Reached.complete (.call callee opening .none ⟨t, hk⟩) ho'
      simpa [Derivation.tokens, Derivation.phrase, Arguments.tokens, Arguments.phrases] using hr
    · cases h
  · rename_i hk
    split at h
    · rename_i hc
      cases h
      exact .operand (ho.minus ⟨t, hk, hc⟩)
    · split at h
      · rename_i hc
        cases h
        exact .operand (ho.plus ⟨t, hk, hc⟩)
      · cases h
  · obtain ⟨v, hv, rfl⟩ := Option.map_eq_some_iff.1 h
    obtain ⟨d, hdt, rfl⟩ := exists_atom_of_ofToken hv
    rw [← hdt]
    exact .complete d ho

/-- **One step** keeps the tokens. -/
theorem Reached.step (h : Reached r ts) (hs : r.step t = some r') : Reached r' (ts ++ [t]) := by
  cases h with
  | operand ho => exact ho.reached_of_stepOperand hs
  | named callee ho =>
    simp only [Reading.step] at hs
    split at hs
    · rename_i hk
      cases hs
      have hr := Reached.operand (ho.call callee ⟨t, hk⟩ [])
      simpa [donePhrases, doneTokens] using hr
    · exact ho.reached_of_stepComplete (.name callee) hs
  | complete d ho => exact ho.reached_of_stepComplete d hs

/-- **A run** keeps the tokens. -/
theorem Reached.steps {us : List Token} (h : Reached r ts) (hs : r.steps us = .ok r') : Reached r' (ts ++ us) := by
  induction us generalizing r ts with
  | nil =>
    cases hs
    rw [List.append_nil]
    exact h
  | cons t us ih =>
    simp only [Reading.steps] at hs
    split at hs
    · rename_i next hnext
      have hr := ih (h.step hnext) hs
      rwa [List.append_assoc, List.singleton_append] at hr
    · cases hs

theorem Opened.exists_of_finishValue {p : Phrase} (ho : Opened pending ts) (d : Derivation .atom)
    (h : Reading.finish.finishValue d.phrase pending = .ok p) :
    ∃ e : Derivation .start, e.tokens = ts ++ d.tokens ∧ e.phrase = p := by
  obtain ⟨pending', ts', e, he, ho', hts⟩ := ho.close_all d
  rw [Reading.finish.finishValue, he] at h
  cases ho' with
  | start =>
    cases h
    exact ⟨e, hts, rfl⟩
  | _ => cases h

/-- Where a text may end, the tokens have a parse tree. -/
theorem Reached.exists_of_finish {p : Phrase} (h : Reached r ts) (hf : r.finish = .ok p) :
    ∃ e : Derivation .start, e.tokens = ts ∧ e.phrase = p := by
  cases h with
  | operand ho =>
    -- an operand is missing, or the closing parenthesis of a call without arguments
    cases ho with
    | call callee opening done ho =>
      cases hd : (donePhrases done).reverse with
      | nil =>
        rw [hd] at hf
        cases hf
      | cons v vs =>
        rw [hd] at hf
        cases hf
    | _ => cases hf
  | named callee ho => exact ho.exists_of_finishValue (.name callee) hf
  | complete d ho => exact ho.exists_of_finishValue d hf

end Steps

/-- **Soundness**: tokens that are read to a phrase are those of a parse tree with this phrase. -/
theorem exists_derivation_of_read {ts : List Token} {r : Reading} {p : Phrase} (h : Reading.start.steps ts = .ok r)
    (hf : r.finish = .ok p) : ∃ d : Derivation .start, d.tokens = ts ∧ d.phrase = p :=
  ((Reached.operand .start).steps h).exists_of_finish hf

end GameSheet.Formula
