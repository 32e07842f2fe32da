import GameSheet.Proofs.Formula.Grammar

/-!
# The grammar is unambiguous

Two parse trees of a nonterminal whose tokens start the same text are equal, provided that what follows each of them
does not go on with a phrase of the nonterminal (`Nonterminal.Stops`). At the end of a text nothing goes on, so:

* **Unambiguity** (`Derivation.tokens_injective`): the tokens of a parse tree determine it.

The productions of a level are left recursive, so there a first operand determines only where the other tree starts.
What is compared is therefore how far two chains reach (`Derivation.Comparable`): one of them is the other with further
operands joined to it.
-/

namespace GameSheet.Formula

/-! ## What may follow -/

/-- What follows a phrase of the nonterminal does not go on with it: it ends the phrase, or it is an operator that
binds less tightly. -/
def Nonterminal.Stops (n : Nonterminal) (rest : List Token) : Prop :=
  ∀ t ∈ rest.head?, t.kind = .rightParen ∨ t.kind = .comma ∨
    (t.kind = .operator ∧ ∀ op, Operator.ofChars? t.chars = some op → op.level < n.reach)

namespace Nonterminal

variable {n m : Nonterminal} {rest : List Token}

theorem stops_nil : n.Stops [] := by
  intro t ht
  cases ht

theorem stops_closing (t : Terminal .rightParen) : n.Stops (t.1 :: rest) := by
  intro s hs
  cases hs
  exact Or.inl t.2

theorem stops_comma (t : Terminal .comma) : n.Stops (t.1 :: rest) := by
  intro s hs
  cases hs
  exact Or.inr (Or.inl t.2)

theorem stops_operator {t : Token} {op : Operator} (ht : t.kind = .operator) (hop : Operator.ofChars? t.chars = some op)
    (h : op.level < n.reach) : n.Stops (t :: rest) := by
  intro s hs
  cases hs
  refine Or.inr (Or.inr ⟨ht, fun op' hop' => ?_⟩)
  rw [hop] at hop'
  cases hop'
  exact h

theorem Stops.mono (h : n.Stops rest) (hr : n.reach ≤ m.reach) : m.Stops rest := by
  intro t ht
  rcases h t ht with hk | hk | ⟨hk, hl⟩
  · exact Or.inl hk
  · exact Or.inr (Or.inl hk)
  · exact Or.inr (Or.inr ⟨hk, fun op hop => Nat.lt_of_lt_of_le (hl op hop) hr⟩)

theorem Stops.operator_lt {t : Token} {op : Operator} (h : n.Stops (t :: rest)) (ht : t.kind = .operator)
    (hop : Operator.ofChars? t.chars = some op) : op.level < n.reach := by
  rcases h t rfl with hk | hk | ⟨_, hl⟩
  · rw [ht] at hk
    cases hk
  · rw [ht] at hk
    cases hk
  · exact hl op hop

/-- An opening parenthesis does not follow a phrase. -/
theorem not_stops_opening (t : Terminal .leftParen) : ¬ n.Stops (t.1 :: rest) := by
  intro h
  have hk := t.2
  rcases h t.1 rfl with h | h | ⟨h, _⟩ <;> rw [h] at hk <;> cases hk

theorem stops_link {c : Chain} (link : Link c) : c.operand.Stops (link.token :: rest) :=
  stops_operator link.isOperator link.read (by rw [link.level]; exact c.level_lt_reach_operand)

theorem not_stops_link {c : Chain} (link : Link c) : ¬ (Nonterminal.chain c).Stops (link.token :: rest) := by
  intro h
  have hl := h.operator_lt link.isOperator link.read
  rw [link.level] at hl
  exact Nat.lt_irrefl _ hl

theorem Stops.operand {c : Chain} (h : (Nonterminal.chain c).Stops rest) : c.operand.Stops rest :=
  h.mono (Nat.le_of_lt c.level_lt_reach_operand)

end Nonterminal

open Nonterminal

/-! ## Uniqueness of a tree -/

/-- No other tree has the same tokens at the start of a text. -/
def Derivation.Unique {n : Nonterminal} (d : Derivation n) : Prop :=
  ∀ (d' : Derivation n) {r r' : List Token}, d.tokens ++ r = d'.tokens ++ r' → n.Stops r → n.Stops r' →
    d = d' ∧ r = r'

/-- No other arguments have the same tokens in front of the closing parenthesis. -/
def Arguments.Unique (a : Arguments) : Prop :=
  ∀ (a' : Arguments) {t t' : Terminal .rightParen} {r r' : List Token},
    a.tokens ++ t.1 :: r = a'.tokens ++ t'.1 :: r' → a = a' ∧ t = t' ∧ r = r'

/-- No other arguments have the same tokens in front of the closing parenthesis. -/
def Further.Unique (f : Further) : Prop :=
  ∀ (f' : Further) {t t' : Terminal .rightParen} {r r' : List Token},
    f.tokens ++ t.1 :: r = f'.tokens ++ t'.1 :: r' → f = f' ∧ t = t' ∧ r = r'

/-! ## Chains -/

section Chains

variable {c : Chain}

/-- A chain with further operands joined to it. -/
def Derivation.joinAll (d : Derivation (.chain c)) (links : List (Link c × Derivation c.operand)) :
    Derivation (.chain c) :=
  links.foldl (fun d l => .joined c d l.1 l.2) d

/-- The tokens of operators and operands. -/
def linkTokens (links : List (Link c × Derivation c.operand)) : List Token :=
  links.flatMap fun l => l.1.token :: l.2.tokens

theorem Derivation.joinAll_concat (d : Derivation (.chain c)) (links : List (Link c × Derivation c.operand))
    (link : Link c) (right : Derivation c.operand) :
    d.joinAll (links ++ [(link, right)]) = .joined c (d.joinAll links) link right := by
  simp [Derivation.joinAll]

theorem linkTokens_concat (links : List (Link c × Derivation c.operand)) (link : Link c)
    (right : Derivation c.operand) (r : List Token) :
    linkTokens (links ++ [(link, right)]) ++ r = linkTokens links ++ link.token :: (right.tokens ++ r) := by
  simp [linkTokens]

/-- Before an operator of the level, and before what follows a chain, an operand is over. -/
theorem stops_linkTokens {links : List (Link c × Derivation c.operand)} {r : List Token} (h : c.operand.Stops r) :
    c.operand.Stops (linkTokens links ++ r) := by
  cases links with
  | nil => exact h
  | cons l links => exact stops_link l.1

/-- What follows a chain does not start with an operator of its level. -/
theorem eq_nil_of_stops {links : List (Link c × Derivation c.operand)} {r r' : List Token}
    (h : (Nonterminal.chain c).Stops r) (hr : r = linkTokens links ++ r') : links = [] := by
  cases links with
  | nil => rfl
  | cons l links =>
    rw [hr] at h
    exact absurd h (not_stops_link l.1)

/-- If two chains start the same text, one of them is the other with further operands joined to it. -/
def Derivation.Comparable (d : Derivation (.chain c)) : Prop :=
  ∀ (d' : Derivation (.chain c)) {r r' : List Token}, d.tokens ++ r = d'.tokens ++ r' →
    c.operand.Stops r → c.operand.Stops r' →
    (∃ links, d' = d.joinAll links ∧ r = linkTokens links ++ r') ∨
      (∃ links, d = d'.joinAll links ∧ r' = linkTokens links ++ r)

/-- A chain that starts the same text as a single operand starts with it. -/
theorem Derivation.joinAll_of_single {x : Derivation c.operand} (hx : x.Unique) :
    (d' : Derivation (.chain c)) → ∀ {r r' : List Token}, x.tokens ++ r = d'.tokens ++ r' →
      c.operand.Stops r → c.operand.Stops r' → ∃ links, d' = (single c x).joinAll links ∧ r = linkTokens links ++ r'
  | .single _ y, r, r', h, hr, hr' => by
    obtain ⟨rfl, rfl⟩ := hx y h hr hr'
    exact ⟨[], rfl, rfl⟩
  | .joined _ left link right, r, r', h, hr, hr' => by
    have h' : x.tokens ++ r = left.tokens ++ link.token :: (right.tokens ++ r') := by
      rw [h]
      simp [Derivation.tokens]
    obtain ⟨links, hl, hs⟩ := Derivation.joinAll_of_single hx left h' hr (stops_link link)
    exact ⟨links ++ [(link, right)], by rw [Derivation.joinAll_concat, ← hl], by rw [linkTokens_concat, hs]⟩

theorem Derivation.comparable_single {x : Derivation c.operand} (hx : x.Unique) : (single c x).Comparable :=
  fun d' _ _ h hr hr' => Or.inl (Derivation.joinAll_of_single hx d' h hr hr')

theorem Derivation.Comparable.joined {left : Derivation (.chain c)} {link : Link c} {right : Derivation c.operand}
    (hl : left.Comparable) (hright : right.Unique) : (Derivation.joined c left link right).Comparable := by
  intro d' r r' h hr hr'
  have h' : left.tokens ++ link.token :: (right.tokens ++ r) = d'.tokens ++ r' := by
    rw [← h]
    simp [Derivation.tokens]
  rcases hl d' h' (stops_link link) hr' with ⟨links, rfl, hs⟩ | ⟨links, rfl, hs⟩
  · cases links with
    | nil => exact Or.inr ⟨[(link, right)], rfl, by simpa [linkTokens] using hs.symm⟩
    | cons l links =>
      -- the operator and operand that `d'` has next are `link` and `right`
      obtain ⟨link', right'⟩ := l
      have hs' : link.token :: (right.tokens ++ r) = link'.token :: (right'.tokens ++ (linkTokens links ++ r')) := by
        simpa [linkTokens] using hs
      obtain ⟨ht, htail⟩ := List.cons.inj hs'
      obtain rfl := Link.ext_token ht
      obtain ⟨rfl, rfl⟩ := hright right' htail hr (stops_linkTokens hr')
      exact Or.inl ⟨links, rfl, rfl⟩
  · exact Or.inr ⟨links ++ [(link, right)], by rw [Derivation.joinAll_concat], by rw [linkTokens_concat, hs]⟩

/-- Where nothing goes on, comparable chains are equal. -/
theorem Derivation.Comparable.unique {d : Derivation (.chain c)} (hd : d.Comparable) : d.Unique := by
  intro d' r r' h hr hr'
  rcases hd d' h hr.operand hr'.operand with ⟨links, rfl, hs⟩ | ⟨links, rfl, hs⟩
  · obtain rfl := eq_nil_of_stops hr hs
    exact ⟨rfl, hs⟩
  · obtain rfl := eq_nil_of_stops hr' hs
    exact ⟨rfl, hs.symm⟩

end Chains

/-! ## Signs and powers -/

/-- A phrase does not start with what a power cannot start with. -/
theorem Derivation.first_ne_operator {d : Derivation .power} {t : Token} {r s : List Token} (ht : t.kind = .operator)
    (h : d.tokens ++ r = t :: s) : False := by
  obtain ⟨t', rest, hd, _, ho⟩ := d.first
  rw [hd] at h
  cases (List.cons.inj h).1
  exact ho (Or.inl rfl) ht

/-- Differently written operators are different tokens. -/
theorem Mark.ne_of_chars {a b : List Char} (hab : a ≠ b) (m : Mark a) (m' : Mark b) : m.1 ≠ m'.1 := by
  intro h
  exact hab (by rw [← m.2.2, ← m'.2.2, h])

theorem Derivation.Unique.unsigned {d : Derivation .power} (hd : d.Unique) : (Derivation.unsigned d).Unique := by
  intro d' r r' h hr hr'
  cases d' with
  | unsigned e =>
    obtain ⟨rfl, rfl⟩ := hd e h (hr.mono (Nat.le_refl _)) (hr'.mono (Nat.le_refl _))
    exact ⟨rfl, rfl⟩
  | minus sign e => exact (Derivation.first_ne_operator sign.2.1 h).elim
  | plus sign e => exact (Derivation.first_ne_operator sign.2.1 h).elim

theorem Derivation.Unique.minus {sign : Mark ['-']} {d : Derivation .unary} (hd : d.Unique) :
    (Derivation.minus sign d).Unique := by
  intro d' r r' h hr hr'
  cases d' with
  | unsigned e => exact (Derivation.first_ne_operator sign.2.1 h.symm).elim
  | minus sign' e =>
    obtain ⟨ht, htail⟩ := List.cons.inj h
    obtain rfl := Subtype.ext ht
    obtain ⟨rfl, rfl⟩ := hd e htail hr hr'
    exact ⟨rfl, rfl⟩
  | plus sign' e => exact absurd (List.cons.inj h).1 (Mark.ne_of_chars (by decide) sign sign')

theorem Derivation.Unique.plus {sign : Mark ['+']} {d : Derivation .unary} (hd : d.Unique) :
    (Derivation.plus sign d).Unique := by
  intro d' r r' h hr hr'
  cases d' with
  | unsigned e => exact (Derivation.first_ne_operator sign.2.1 h.symm).elim
  | minus sign' e => exact absurd (List.cons.inj h).1 (Mark.ne_of_chars (by decide) sign sign')
  | plus sign' e =>
    obtain ⟨ht, htail⟩ := List.cons.inj h
    obtain rfl := Subtype.ext ht
    obtain ⟨rfl, rfl⟩ := hd e htail hr hr'
    exact ⟨rfl, rfl⟩

/-- A power mark goes on with an atom only. -/
theorem stops_mark {mark : Mark ['^']} {r : List Token} : Nonterminal.atom.Stops (mark.1 :: r) :=
  stops_operator mark.2.1 (mark.read rfl) (by decide)

theorem not_stops_mark {mark : Mark ['^']} {r : List Token} : ¬ Nonterminal.power.Stops (mark.1 :: r) := by
  intro h
  have hl := h.operator_lt mark.2.1 (mark.read rfl)
  exact absurd hl (by decide)

theorem Nonterminal.Stops.atom {r : List Token} (h : Nonterminal.power.Stops r) : Nonterminal.atom.Stops r :=
  h.mono (by decide)

theorem Derivation.Unique.bare {d : Derivation .atom} (hd : d.Unique) : (Derivation.bare d).Unique := by
  intro d' r r' h hr hr'
  cases d' with
  | bare e =>
    obtain ⟨rfl, rfl⟩ := hd e h hr.atom hr'.atom
    exact ⟨rfl, rfl⟩
  | raised e mark x =>
    have h' : d.tokens ++ r = e.tokens ++ mark.1 :: (x.tokens ++ r') := by
      simpa [Derivation.tokens] using h
    obtain ⟨-, rfl⟩ := hd e h' hr.atom stops_mark
    exact absurd hr not_stops_mark

theorem Derivation.Unique.raised {d : Derivation .atom} {mark : Mark ['^']} {x : Derivation .unary} (hd : d.Unique)
    (hx : x.Unique) : (Derivation.raised d mark x).Unique := by
  intro d' r r' h hr hr'
  have h' : d.tokens ++ mark.1 :: (x.tokens ++ r) = d'.tokens ++ r' := by
    simpa [Derivation.tokens] using h
  cases d' with
  | bare e =>
    obtain ⟨-, rfl⟩ := hd e h' stops_mark hr'.atom
    exact absurd hr' not_stops_mark
  | raised e mark' y =>
    have he : d.tokens ++ mark.1 :: (x.tokens ++ r) = e.tokens ++ mark'.1 :: (y.tokens ++ r') := by
      simpa [Derivation.tokens] using h'
    obtain ⟨rfl, hs⟩ := hd e he stops_mark stops_mark
    obtain ⟨ht, htail⟩ := List.cons.inj hs
    obtain rfl := Subtype.ext ht
    obtain ⟨rfl, rfl⟩ := hx y htail (hr.mono (Nat.le_refl _)) (hr'.mono (Nat.le_refl _))
    exact ⟨rfl, rfl⟩

/-! ## Atoms and arguments -/

/-- The sort of the token that an atom starts with. -/
def Derivation.lead : Derivation .atom → TokenKind
  | .number _ => .number
  | .string _ => .string
  | .call .. => .identifier
  | .dotted _ => .dottedIdentifier
  | .name _ => .identifier
  | .group .. => .leftParen

theorem Derivation.first_lead (d : Derivation .atom) : ∃ t rest, d.tokens = t :: rest ∧ t.kind = d.lead := by
  cases d with
  | number t => exact ⟨t.1, _, rfl, t.2⟩
  | string t => exact ⟨t.1, _, rfl, t.2⟩
  | call callee opening args closing => exact ⟨callee.1, _, rfl, callee.2⟩
  | dotted t => exact ⟨t.1, _, rfl, t.2⟩
  | name t => exact ⟨t.1, _, rfl, t.2⟩
  | group opening inner closing => exact ⟨opening.1, _, rfl, opening.2⟩

theorem Derivation.lead_eq {d d' : Derivation .atom} {r r' : List Token} (h : d.tokens ++ r = d'.tokens ++ r') :
    d.lead = d'.lead := by
  obtain ⟨t, rest, hd, hk⟩ := d.first_lead
  obtain ⟨t', rest', hd', hk'⟩ := d'.first_lead
  rw [hd, hd'] at h
  cases (List.cons.inj h).1
  rw [← hk, ← hk']

theorem Terminal.cons_inj {k : TokenKind} (t t' : Terminal k) {r r' : List Token} (h : t.1 :: r = t'.1 :: r') :
    t = t' ∧ r = r' :=
  ⟨Subtype.ext (List.cons.inj h).1, (List.cons.inj h).2⟩

/-- An atom of one token is unique if no other production starts with a token of its sort. -/
theorem Derivation.unique_leaf {k : TokenKind} {leaf : Terminal k → Derivation .atom}
    (htokens : ∀ t, (leaf t).tokens = [t.1]) (hlead : ∀ t, (leaf t).lead = k)
    (honly : ∀ d : Derivation .atom, d.lead = k → ∃ t, d = leaf t) (t : Terminal k) : (leaf t).Unique := by
  intro d' r r' h _ _
  have hk := Derivation.lead_eq h
  rw [hlead] at hk
  obtain ⟨t', rfl⟩ := honly d' hk.symm
  rw [htokens, htokens] at h
  obtain ⟨rfl, rfl⟩ := Terminal.cons_inj t t' h
  exact ⟨rfl, rfl⟩

theorem Derivation.unique_number : ∀ t, (number t).Unique := by
  refine Derivation.unique_leaf (fun _ => rfl) (fun _ => rfl) fun d hd => ?_
  cases d with
  | number t => exact ⟨t, rfl⟩
  | _ => cases hd

theorem Derivation.unique_string : ∀ t, (string t).Unique := by
  refine Derivation.unique_leaf (fun _ => rfl) (fun _ => rfl) fun d hd => ?_
  cases d with
  | string t => exact ⟨t, rfl⟩
  | _ => cases hd

theorem Derivation.unique_dotted : ∀ t, (dotted t).Unique := by
  refine Derivation.unique_leaf (fun _ => rfl) (fun _ => rfl) fun d hd => ?_
  cases d with
  | dotted t => exact ⟨t, rfl⟩
  | _ => cases hd

/-- A name is no call: what follows it would be an opening parenthesis. -/
theorem Derivation.unique_name (t : Terminal .identifier) : (name t).Unique := by
  intro d' r r' h hr hr'
  have hk := Derivation.lead_eq h
  cases d' with
  | name t' =>
    obtain ⟨rfl, rfl⟩ := Terminal.cons_inj t t' h
    exact ⟨rfl, rfl⟩
  | call callee opening args closing =>
    obtain ⟨-, rfl⟩ := Terminal.cons_inj t callee h
    exact absurd hr (not_stops_opening opening)
  | _ => cases hk

theorem Arguments.Unique.call {callee : Terminal .identifier} {opening : Terminal .leftParen} {args : Arguments}
    {closing : Terminal .rightParen} (ha : args.Unique) : (Derivation.call callee opening args closing).Unique := by
  intro d' r r' h hr hr'
  have hk := Derivation.lead_eq h
  cases d' with
  | name t =>
    obtain ⟨-, rfl⟩ := Terminal.cons_inj t callee h.symm
    exact absurd hr' (not_stops_opening opening)
  | call callee' opening' args' closing' =>
    obtain ⟨rfl, hs⟩ := Terminal.cons_inj callee callee' h
    obtain ⟨rfl, hs⟩ := Terminal.cons_inj opening opening' hs
    have hargs : args.tokens ++ closing.1 :: r = args'.tokens ++ closing'.1 :: r' := by
      simpa using hs
    obtain ⟨rfl, rfl, rfl⟩ := ha args' hargs
    exact ⟨rfl, rfl⟩
  | _ => cases hk

theorem Derivation.Unique.group {opening : Terminal .leftParen} {inner : Derivation .start}
    {closing : Terminal .rightParen} (hi : inner.Unique) : (Derivation.group opening inner closing).Unique := by
  intro d' r r' h hr hr'
  have hk := Derivation.lead_eq h
  cases d' with
  | group opening' inner' closing' =>
    obtain ⟨rfl, hs⟩ := Terminal.cons_inj opening opening' h
    have hinner : inner.tokens ++ closing.1 :: r = inner'.tokens ++ closing'.1 :: r' := by
      simpa using hs
    obtain ⟨rfl, hclosing⟩ := hi inner' hinner (stops_closing closing) (stops_closing closing')
    obtain ⟨rfl, rfl⟩ := Terminal.cons_inj closing closing' hclosing
    exact ⟨rfl, rfl⟩
  | _ => cases hk

/-- A phrase does not start with a closing parenthesis. -/
theorem Derivation.first_ne_closing {n : Nonterminal} {d : Derivation n} {t : Terminal .rightParen} {r s : List Token}
    (h : t.1 :: r = d.tokens ++ s) : False := by
  obtain ⟨t', rest, hd, hk, _⟩ := d.first
  rw [hd] at h
  exact hk (by rw [← (List.cons.inj h).1, t.2])

theorem Terminal.comma_ne_closing (t : Terminal .comma) (t' : Terminal .rightParen) : t.1 ≠ t'.1 := by
  intro h
  have hk := t.2
  rw [h, t'.2] at hk
  cases hk

/-- After an argument stands a comma or the closing parenthesis. -/
theorem Further.stops {n : Nonterminal} (f : Further) (t : Terminal .rightParen) {r : List Token} :
    n.Stops (f.tokens ++ t.1 :: r) := by
  cases f with
  | none => exact stops_closing t
  | more comma next rest => exact stops_comma comma

theorem Arguments.unique_none : Arguments.none.Unique := by
  intro a' t t' r r' h
  cases a' with
  | none =>
    obtain ⟨rfl, rfl⟩ := Terminal.cons_inj t t' h
    exact ⟨rfl, rfl, rfl⟩
  | some first rest =>
    have hs : t.1 :: r = first.tokens ++ (rest.tokens ++ t'.1 :: r') := by
      simpa [Arguments.tokens] using h
    exact (Derivation.first_ne_closing hs).elim

theorem Arguments.unique_some {first : Derivation .start} {rest : Further} (hfirst : first.Unique)
    (hrest : rest.Unique) : (Arguments.some first rest).Unique := by
  intro a' t t' r r' h
  cases a' with
  | none =>
    have hs : t'.1 :: r' = first.tokens ++ (rest.tokens ++ t.1 :: r) := by
      simpa [Arguments.tokens] using h.symm
    exact (Derivation.first_ne_closing hs).elim
  | some first' rest' =>
    have hs : first.tokens ++ (rest.tokens ++ t.1 :: r) = first'.tokens ++ (rest'.tokens ++ t'.1 :: r') := by
      simpa [Arguments.tokens] using h
    obtain ⟨rfl, htail⟩ := hfirst first' hs (rest.stops t) (rest'.stops t')
    obtain ⟨rfl, rfl, rfl⟩ := hrest rest' htail
    exact ⟨rfl, rfl, rfl⟩

theorem Further.unique_none : Further.none.Unique := by
  intro f' t t' r r' h
  cases f' with
  | none =>
    obtain ⟨rfl, rfl⟩ := Terminal.cons_inj t t' h
    exact ⟨rfl, rfl, rfl⟩
  | more comma next rest => exact absurd (List.cons.inj h).1.symm (comma.comma_ne_closing t)

theorem Further.unique_more {comma : Terminal .comma} {next : Derivation .start} {rest : Further}
    (hnext : next.Unique) (hrest : rest.Unique) : (Further.more comma next rest).Unique := by
  intro f' t t' r r' h
  cases f' with
  | none => exact absurd (List.cons.inj h).1 (comma.comma_ne_closing t')
  | more comma' next' rest' =>
    obtain ⟨rfl, hs⟩ := Terminal.cons_inj comma comma' h
    have hs' : next.tokens ++ (rest.tokens ++ t.1 :: r) = next'.tokens ++ (rest'.tokens ++ t'.1 :: r') := by
      simpa using hs
    obtain ⟨rfl, htail⟩ := hnext next' hs' (rest.stops t) (rest'.stops t')
    obtain ⟨rfl, rfl, rfl⟩ := hrest rest' htail
    exact ⟨rfl, rfl, rfl⟩

/-! ## Every tree is unique -/

/-- What the induction carries: comparable chains, unique trees of the other nonterminals. -/
def Derivation.Splits : {n : Nonterminal} → Derivation n → Prop
  | .chain _, d => d.Comparable
  | .unary, d => d.Unique
  | .power, d => d.Unique
  | .atom, d => d.Unique

theorem Derivation.Splits.unique : {n : Nonterminal} → {d : Derivation n} → d.Splits → d.Unique
  | .chain _, _, h => Derivation.Comparable.unique h
  | .unary, _, h => h
  | .power, _, h => h
  | .atom, _, h => h

mutual

theorem Derivation.splits : {n : Nonterminal} → (d : Derivation n) → d.Splits
  | _, .single _ operand => Derivation.comparable_single operand.splits.unique
  | _, .joined _ left _ right => Derivation.Comparable.joined left.splits right.splits.unique
  | _, .unsigned operand => Derivation.Unique.unsigned operand.splits
  | _, .minus _ operand => Derivation.Unique.minus operand.splits
  | _, .plus _ operand => Derivation.Unique.plus operand.splits
  | _, .bare base => Derivation.Unique.bare base.splits
  | _, .raised base _ exponent => Derivation.Unique.raised base.splits exponent.splits
  | _, .number t => Derivation.unique_number t
  | _, .string t => Derivation.unique_string t
  | _, .call _ _ args _ => args.unique.call
  | _, .dotted t => Derivation.unique_dotted t
  | _, .name t => Derivation.unique_name t
  | _, .group _ inner _ => Derivation.Unique.group inner.splits.unique

theorem Arguments.unique : (a : Arguments) → a.Unique
  | .none => Arguments.unique_none
  | .some first rest => Arguments.unique_some first.splits.unique rest.unique

theorem Further.unique : (f : Further) → f.Unique
  | .none => Further.unique_none
  | .more _ next rest => Further.unique_more next.splits.unique rest.unique

end

/-- **Unambiguity**: the tokens of a parse tree determine it. -/
theorem Derivation.tokens_injective {n : Nonterminal} {d d' : Derivation n} (h : d.tokens = d'.tokens) : d = d' :=
  (d.splits.unique d' (congrArg (· ++ []) h) stops_nil stops_nil).1

end GameSheet.Formula
