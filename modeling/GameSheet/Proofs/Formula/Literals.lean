import Mathlib
import GameSheet.Proofs.Formula.Acceptance
import GameSheet.Proofs.Formula.Layout

/-!
# String literals

Every text is the text of some string literal (`literalText`): **`literalText_denotes`**. The literal is one token, it
is read back as the text, and it stands for the text wherever a formula takes it, either as a string literal or as a
name in a reference to another sheet.

What a formula is with a literal of any text at one place is what it is with another one there: the tokens around the
place stay (`Lexes.unplacedScan_literal`), a string token of a parse tree may be exchanged for another
(`Derivation.exchanges`), and the names of the phrase fit as before (`Phrase.Slot.exists_check`). So a place of the text
is a place of the expression (`Expr.Slot`), and none of the texts is taken for anything else.
-/

namespace GameSheet.Formula

open GameSheet.Text

variable {registry : Registry}

/-! ## Places for texts -/

/-- A phrase in which a place is left for a text. -/
inductive Phrase.Slot where
  | text
  | negate (operand : Phrase.Slot)
  | left (op : Operator) (operand : Phrase.Slot) (right : Phrase)
  | right (op : Operator) (left : Phrase) (operand : Phrase.Slot)
  | argument (callee : String) (before : List Phrase) (slot : Phrase.Slot) (after : List Phrase) (position : Nat)

/-- The phrase with the text at the place. -/
def Phrase.Slot.fill : Phrase.Slot → String → Phrase
  | .text, s => .text s 0
  | .negate operand, s => .negate (operand.fill s)
  | .left op operand q, s => .binary op (operand.fill s) q
  | .right op p operand, s => .binary op p (operand.fill s)
  | .argument callee before slot after position, s => .call callee (before ++ slot.fill s :: after) position

/-- An expression in which a place is left for a text: for a string literal, or for a name of a reference to another
sheet. -/
inductive Expr.Slot where
  | text
  | sheet (row : RowSelector) (column : String) (position : Nat)
  | row (sheet column : String) (position : Nat)
  | column (sheet : String) (row : RowSelector) (position : Nat)
  | negate (operand : Expr.Slot)
  | left (op : Operator) (operand : Expr.Slot) (right : Expr)
  | right (op : Operator) (left : Expr) (operand : Expr.Slot)
  | argument (name : String) (before : List Expr) (slot : Expr.Slot) (after : List Expr) (position : Nat)

/-- The expression with the text at the place. -/
def Expr.Slot.fill : Expr.Slot → String → Expr
  | .text, s => .text s 0
  | .sheet r c position, s => .ref (.cross s r c position)
  | .row t c position, s => .ref (.cross t (.named s) c position)
  | .column t r position, s => .ref (.cross t r s position)
  | .negate operand, s => .negate (operand.fill s)
  | .left op operand e, s => .binary op (operand.fill s) e
  | .right op e operand, s => .binary op e (operand.fill s)
  | .argument name before slot after position, s => .call name (before ++ slot.fill s :: after) position

/-! ## Tokens -/

theorem tokenize_literalText (s : String) :
    tokenize (literalText s).toList = .ok [⟨.string, (literalText s).toList, 0⟩] := by
  have htoken := tokenAt?_literalText s []
  rw [List.append_nil, literalText_toList] at htoken
  rw [tokenize_eq_ok_iff, literalText_toList, scan, scanFrom_token (by decide) htoken, scanFrom_nil]

theorem divided_literalText (s : String) (rest : List Char) : Divided ((literalText s).toList ++ rest) := by
  rw [literalText_toList]
  rintro c ⟨⟩
  decide

/-- **Tokens around a string literal** do not depend on its text. -/
theorem Lexes.unplacedScan_literal {cs : List Char} {tokens : List Token} (h : Lexes cs tokens) (s : String)
    (rest : List Char) : unplacedScan (scan (cs ++ ((literalText s).toList ++ rest))) =
      (tokens ++ (literalToken s).1 :: (unplacedScan (scan rest)).1, (unplacedScan (scan rest)).2) := by
  have htoken := tokenAt?_literalText s rest
  have hscan : unplacedScan (scan ((literalText s).toList ++ rest)) =
      ((literalToken s).1 :: (unplacedScan (scan rest)).1, (unplacedScan (scan rest)).2) := by
    rw [literalText_toList] at htoken ⊢
    rw [List.cons_append] at htoken ⊢
    exact unplacedScan_token (by decide) htoken
  rw [h.unplacedScan_append (divided_literalText s rest), hscan]

/-! ## Parse trees -/

/-- A token of two lists side by side stands in one of them. -/
theorem append_eq_append_string {left right before after : List Token} {t : Token}
    (h : left ++ right = before ++ t :: after) :
    (∃ rest, left = before ++ t :: rest ∧ after = rest ++ right) ∨
      ∃ rest, before = left ++ rest ∧ right = rest ++ t :: after := by
  rcases List.append_eq_append_iff.1 h with ⟨rest, rfl, hrest⟩ | ⟨rest, rfl, hrest⟩
  · exact .inr ⟨rest, rfl, hrest⟩
  · cases rest with
    | nil => exact .inr ⟨[], by simp, hrest.symm⟩
    | cons b rest =>
      obtain ⟨rfl, rfl⟩ := List.cons.inj hrest
      exact .inl ⟨rest, rfl, rfl⟩

/-- A string token does not stand where another token does. -/
theorem cons_eq_append_string {right before after : List Token} {a t : Token} {kind : TokenKind}
    (ha : a.kind = kind) (hkind : kind ≠ .string) (ht : t.kind = .string) (h : a :: right = before ++ t :: after) :
    ∃ rest, before = a :: rest ∧ right = rest ++ t :: after := by
  rcases List.cons_eq_append_iff.1 h with ⟨-, hfirst⟩ | hrest
  · obtain ⟨rfl, -⟩ := List.cons.inj hfirst
    exact absurd (ha.symm.trans ht) hkind
  · exact hrest

/-- A string token stands in front of another token or behind it. -/
theorem append_cons_eq_append_string {left right before after : List Token} {a t : Token} {kind : TokenKind}
    (ha : a.kind = kind) (hkind : kind ≠ .string) (ht : t.kind = .string)
    (h : left ++ a :: right = before ++ t :: after) :
    (∃ rest, left = before ++ t :: rest ∧ after = rest ++ a :: right) ∨
      ∃ rest, before = left ++ a :: rest ∧ right = rest ++ t :: after := by
  rcases append_eq_append_string h with hleft | ⟨rest, rfl, hrest⟩
  · exact .inl hleft
  · obtain ⟨rest, rfl, hright⟩ := cons_eq_append_string ha hkind ht hrest
    exact .inr ⟨rest, rfl, hright⟩

/-- A tree of the nonterminal has these tokens around a place for the literal of a text. -/
def Nonterminal.Opens (n : Nonterminal) (before after : List Token) : Prop :=
  ∃ slot : Phrase.Slot, ∀ s, ∃ d : Derivation n,
    d.tokens = before ++ (literalToken s).1 :: after ∧ d.phrase = slot.fill s

/-- Arguments have these tokens around a place for the literal of a text. -/
def Arguments.Opens (before after : List Token) : Prop :=
  ∃ ps slot qs, ∀ s, ∃ a : Arguments,
    a.tokens = before ++ (literalToken s).1 :: after ∧ a.phrases = ps ++ Phrase.Slot.fill slot s :: qs

/-- Arguments after the first have these tokens around a place for the literal of a text. -/
def Further.Opens (before after : List Token) : Prop :=
  ∃ ps slot qs, ∀ s, ∃ f : Further,
    f.tokens = before ++ (literalToken s).1 :: after ∧ f.phrases = ps ++ Phrase.Slot.fill slot s :: qs

/-- Any string token of the tree may be exchanged for the literal of a text. -/
def Derivation.Exchanges {n : Nonterminal} (d : Derivation n) : Prop :=
  ∀ ⦃t : Token⦄ ⦃before after : List Token⦄, t.kind = .string → d.tokens = before ++ t :: after → n.Opens before after

/-- Any string token of the arguments may be exchanged for the literal of a text. -/
def Arguments.Exchanges (a : Arguments) : Prop :=
  ∀ ⦃t : Token⦄ ⦃before after : List Token⦄, t.kind = .string → a.tokens = before ++ t :: after →
    Arguments.Opens before after

/-- Any string token of the arguments may be exchanged for the literal of a text. -/
def Further.Exchanges (f : Further) : Prop :=
  ∀ ⦃t : Token⦄ ⦃before after : List Token⦄, t.kind = .string → f.tokens = before ++ t :: after →
    Further.Opens before after

/-- A place in a part of a tree is a place in the tree, between the other tokens of the tree. -/
theorem Nonterminal.Opens.within {m n : Nonterminal} {before after : List Token} (h : m.Opens before after)
    (front back : List Token) (build : Derivation m → Derivation n) (around : Phrase.Slot → Phrase.Slot)
    (htokens : ∀ d, (build d).tokens = front ++ (d.tokens ++ back))
    (hphrase : ∀ d slot s, d.phrase = Phrase.Slot.fill slot s → (build d).phrase = (around slot).fill s) :
    n.Opens (front ++ before) (after ++ back) := by
  obtain ⟨slot, hslot⟩ := h
  refine ⟨around slot, fun s => ?_⟩
  obtain ⟨d, hd, hs⟩ := hslot s
  exact ⟨build d, by rw [htokens, hd]; simp, hphrase d slot s hs⟩

namespace Derivation

/-- A production that adds neither tokens nor a phrase. -/
theorem Exchanges.silent {m n : Nonterminal} {d : Derivation m} (hd : d.Exchanges) (build : Derivation m → Derivation n)
    (htokens : ∀ d, (build d).tokens = d.tokens) (hphrase : ∀ d, (build d).phrase = d.phrase) :
    (build d).Exchanges := by
  intro t before after ht h
  rw [htokens] at h
  have hopens := (hd ht h).within [] [] build id (by simp [htokens]) (by simp [hphrase])
  rwa [List.append_nil] at hopens

/-- A production that adds a sign. -/
theorem Exchanges.signed {d : Derivation .unary} (hd : d.Exchanges) {sign : Token} (hsign : sign.kind = .operator)
    (build : Derivation .unary → Derivation .unary) (around : Phrase.Slot → Phrase.Slot)
    (htokens : ∀ d, (build d).tokens = sign :: d.tokens)
    (hphrase : ∀ d slot s, d.phrase = Phrase.Slot.fill slot s → (build d).phrase = (around slot).fill s) :
    (build d).Exchanges := by
  intro t before after ht h
  rw [htokens] at h
  obtain ⟨rest, rfl, hrest⟩ := cons_eq_append_string hsign (by decide) ht h
  have hopens := (hd ht hrest).within [sign] [] build around (by simp [htokens]) hphrase
  rwa [List.append_nil] at hopens

/-- A production of two operands with an operator between them: the place is in one of them. -/
theorem Exchanges.binary {l r n : Nonterminal} {left : Derivation l} {right : Derivation r} (hleft : left.Exchanges)
    (hright : right.Exchanges) {mark : Token} (hmark : mark.kind = .operator) (op : Operator)
    (build : Derivation l → Derivation r → Derivation n)
    (htokens : ∀ x y, (build x y).tokens = x.tokens ++ mark :: y.tokens)
    (hphrase : ∀ x y, (build x y).phrase = .binary op x.phrase y.phrase) : (build left right).Exchanges := by
  intro t before after ht h
  rw [htokens] at h
  rcases append_cons_eq_append_string hmark (by decide) ht h with ⟨rest, hl, rfl⟩ | ⟨rest, rfl, hr⟩
  · exact (hleft ht hl).within [] (mark :: right.tokens) (build · right) (.left op · right.phrase)
      (by simp [htokens]) (by simp [hphrase, Phrase.Slot.fill])
  · have hopens := (hright ht hr).within (left.tokens ++ [mark]) [] (build left) (.right op left.phrase)
      (by simp [htokens]) (by simp [hphrase, Phrase.Slot.fill])
    rwa [List.append_nil, List.append_assoc] at hopens

theorem Exchanges.group {opening : Terminal .leftParen} {inner : Derivation .start} {closing : Terminal .rightParen}
    (hinner : inner.Exchanges) : (group opening inner closing).Exchanges := by
  intro t before after ht h
  obtain ⟨rest, rfl, hrest⟩ := cons_eq_append_string opening.2 (by decide) ht h
  rcases append_cons_eq_append_string closing.2 (by decide) ht hrest with ⟨rest', hi, rfl⟩ | ⟨rest', -, hnil⟩
  · exact (hinner ht hi).within [opening.1] [closing.1] (.group opening · closing) id (by simp) (by simp)
  · simp at hnil

/-- An atom of one token of another sort has no string token. -/
theorem exchanges_leaf {d : Derivation .atom} {kind : TokenKind} (x : Terminal kind) (hd : d.tokens = [x.1])
    (hkind : kind ≠ .string) : d.Exchanges := by
  intro t before after ht h
  obtain ⟨rest, -, hrest⟩ := cons_eq_append_string x.2 hkind ht (hd.symm.trans h)
  simp at hrest

/-- **A string literal is the place itself.** -/
theorem exchanges_string (x : Terminal .string) : (string x).Exchanges := by
  intro t before after ht h
  obtain ⟨rfl, rfl⟩ : before = [] ∧ after = [] := by
    rcases List.cons_eq_append_iff.1 h with ⟨rfl, hx⟩ | ⟨rest, -, hrest⟩
    · exact ⟨rfl, (List.cons.inj hx).2⟩
    · simp at hrest
  exact ⟨.text, fun s => ⟨.string (literalToken s), rfl, literalOf_phrase s⟩⟩

end Derivation

theorem Arguments.Exchanges.call {callee : Terminal .identifier} {opening : Terminal .leftParen} {args : Arguments}
    {closing : Terminal .rightParen} (hargs : args.Exchanges) :
    (Derivation.call callee opening args closing).Exchanges := by
  intro t before after ht h
  obtain ⟨rest, rfl, hopened⟩ := cons_eq_append_string callee.2 (by decide) ht h
  obtain ⟨rest, rfl, hrest⟩ := cons_eq_append_string opening.2 (by decide) ht hopened
  rcases append_cons_eq_append_string closing.2 (by decide) ht hrest with ⟨rest', ha, rfl⟩ | ⟨rest', -, hnil⟩
  · obtain ⟨ps, slot, qs, hslot⟩ := hargs ht ha
    refine ⟨.argument callee.1.text ps slot qs callee.1.position, fun s => ?_⟩
    obtain ⟨a', htokens, hphrases⟩ := hslot s
    exact ⟨.call callee opening a' closing, by simp [htokens], by simp [hphrases, Phrase.Slot.fill]⟩
  · simp at hnil

/-- The string token stands in the first argument or in a further one. -/
theorem Arguments.exchanges_some {first : Derivation .start} {rest : Further} (hfirst : first.Exchanges)
    (hrest : rest.Exchanges) : (Arguments.some first rest).Exchanges := by
  intro t before after ht h
  rcases append_eq_append_string h with ⟨tail, hf, rfl⟩ | ⟨tail, rfl, hr⟩
  · obtain ⟨slot, hslot⟩ := hfirst ht hf
    refine ⟨[], slot, rest.phrases, fun s => ?_⟩
    obtain ⟨d', htokens, hphrase⟩ := hslot s
    exact ⟨.some d' rest, by simp [htokens], by simp [hphrase]⟩
  · obtain ⟨ps, slot, qs, hslot⟩ := hrest ht hr
    refine ⟨first.phrase :: ps, slot, qs, fun s => ?_⟩
    obtain ⟨f', htokens, hphrases⟩ := hslot s
    exact ⟨.some first f', by simp [htokens], by simp [hphrases]⟩

theorem Further.exchanges_more {comma : Terminal .comma} {next : Derivation .start} {rest : Further}
    (hnext : next.Exchanges) (hrest : rest.Exchanges) : (Further.more comma next rest).Exchanges := by
  intro t before after ht h
  obtain ⟨tail, rfl, htail⟩ := cons_eq_append_string comma.2 (by decide) ht h
  rcases append_eq_append_string htail with ⟨tail', hn, rfl⟩ | ⟨tail', rfl, hr⟩
  · obtain ⟨slot, hslot⟩ := hnext ht hn
    refine ⟨[], slot, rest.phrases, fun s => ?_⟩
    obtain ⟨d', htokens, hphrase⟩ := hslot s
    exact ⟨.more comma d' rest, by simp [htokens], by simp [hphrase]⟩
  · obtain ⟨ps, slot, qs, hslot⟩ := hrest ht hr
    refine ⟨next.phrase :: ps, slot, qs, fun s => ?_⟩
    obtain ⟨f', htokens, hphrases⟩ := hslot s
    exact ⟨.more comma next f', by simp [htokens], by simp [hphrases]⟩

mutual

/-- **A string token of a parse tree may be exchanged for any string literal.** -/
theorem Derivation.exchanges : {n : Nonterminal} → (d : Derivation n) → d.Exchanges
  | _, .single c operand => operand.exchanges.silent (.single c) (by simp) (by simp)
  | _, .joined c left link right =>
    left.exchanges.binary right.exchanges link.isOperator link.op (.joined c · link ·) (by simp) (by simp)
  | _, .unsigned operand => operand.exchanges.silent .unsigned (by simp) (by simp)
  | _, .minus sign operand =>
    operand.exchanges.signed sign.2.1 (.minus sign) .negate (by simp) (by simp [Phrase.Slot.fill])
  | _, .plus sign operand => operand.exchanges.signed sign.2.1 (.plus sign) id (by simp) (by simp)
  | _, .bare base => base.exchanges.silent .bare (by simp) (by simp)
  | _, .raised base mark exponent =>
    base.exchanges.binary exponent.exchanges mark.2.1 .pow (.raised · mark ·) (by simp) (by simp)
  | _, .number t => Derivation.exchanges_leaf t rfl (by decide)
  | _, .string t => Derivation.exchanges_string t
  | _, .call _ _ args _ => args.exchanges.call
  | _, .dotted t => Derivation.exchanges_leaf t rfl (by decide)
  | _, .name t => Derivation.exchanges_leaf t rfl (by decide)
  | _, .group _ inner _ => inner.exchanges.group

theorem Arguments.exchanges : (a : Arguments) → a.Exchanges
  | .none => fun _ _ _ _ h => by simp at h
  | .some first rest => Arguments.exchanges_some first.exchanges rest.exchanges

theorem Further.exchanges : (f : Further) → f.Exchanges
  | .none => fun _ _ _ _ h => by simp at h
  | .more _ next rest => Further.exchanges_more next.exchanges rest.exchanges

end

/-! ## Names that fit -/

namespace Expr.Slot

/-- Of the expressions with a place only a string literal gives a name. -/
theorem eq_text_of_asName? {slot : Expr.Slot} {s name : String} (h : (slot.fill s).asName? = some name) :
    slot = .text := by
  cases slot with
  | text => rfl
  | _ => cases h

/-- Of the expressions with a place only a string literal picks a row. -/
theorem eq_text_of_asRow? {slot : Expr.Slot} {s : String} {r : RowSelector} (h : (slot.fill s).asRow? = some r) :
    slot = .text := by
  cases slot with
  | text => rfl
  | _ => cases h

/-- Whether a reference may be made of arguments does not depend on the text, which is one of its names. -/
theorem exists_crossReference {slot : Expr.Slot} {before after : List Expr} {position : Nat} {s : String} {e : Expr}
    (h : crossReference (before ++ slot.fill s :: after) position = .ok e) :
    ∃ S : Expr.Slot, ∀ s, crossReference (before ++ slot.fill s :: after) position = .ok (S.fill s) := by
  have hlength : before.length + after.length = 2 := by
    have hthree := length_of_crossReference h
    rw [List.length_append, List.length_cons] at hthree
    omega
  match before, after, hlength with
  | [], [_, _], _ =>
    obtain ⟨_, r, c, hsheet, hrow, hcolumn, -⟩ := crossReference_eq_ok_iff.1 h
    obtain rfl := eq_text_of_asName? hsheet
    exact ⟨.sheet r c position, fun s => crossReference_eq_ok_iff.2 ⟨s, r, c, rfl, hrow, hcolumn, rfl⟩⟩
  | [_], [_], _ =>
    obtain ⟨t, _, c, hsheet, hrow, hcolumn, -⟩ := crossReference_eq_ok_iff.1 h
    obtain rfl := eq_text_of_asRow? hrow
    exact ⟨.row t c position, fun s => crossReference_eq_ok_iff.2 ⟨t, .named s, c, hsheet, rfl, hcolumn, rfl⟩⟩
  | [_, _], [], _ =>
    obtain ⟨t, r, _, hsheet, hrow, hcolumn, -⟩ := crossReference_eq_ok_iff.1 h
    obtain rfl := eq_text_of_asName? hcolumn
    exact ⟨.column t r position, fun s => crossReference_eq_ok_iff.2 ⟨t, r, s, hsheet, hrow, rfl, rfl⟩⟩
  | _ :: _ :: _ :: _, _, hlength =>
    simp only [List.length_cons] at hlength
    omega

/-- Whether a call is accepted does not depend on the text in one of its arguments. -/
theorem exists_checkCall {slot : Expr.Slot} {callee : String} {before after : List Expr} {position : Nat} {s : String}
    {e : Expr} (h : checkCall registry callee (before ++ slot.fill s :: after) position = .ok e) :
    ∃ S : Expr.Slot, ∀ s, checkCall registry callee (before ++ slot.fill s :: after) position = .ok (S.fill s) := by
  simp only [checkCall, List.length_append, List.length_cons] at h ⊢
  cases hf : registry.find? callee with
  | none =>
    rw [hf] at h
    cases h
  | some f =>
    simp only [hf] at h ⊢
    split at h
    · next hcount =>
      split at h
      · next hname =>
        simp only [if_pos hcount, if_pos hname]
        exact exists_crossReference h
      · next hname =>
        simp only [if_pos hcount, if_neg hname]
        exact ⟨.argument (upper callee) before slot after position, fun s => rfl⟩
    · cases h

end Expr.Slot

/-- **Whether the names of a phrase fit does not depend on the text in one place**, and the place is one of the
expression. -/
theorem Phrase.Slot.exists_check : (slot : Phrase.Slot) → ∀ {s : String} {e : Expr},
    (slot.fill s).check registry = .ok e →
      ∃ S : Expr.Slot, ∀ s, (slot.fill s).check registry = .ok (S.fill s)
  | .text, _, _, _ => ⟨.text, fun _ => rfl⟩
  | .negate operand, _, _, h => by
    obtain ⟨a, ha, -⟩ := bind_eq_ok_iff.1 h
    obtain ⟨S, hS⟩ := operand.exists_check ha
    exact ⟨.negate S, fun s => bind_eq_ok_iff.2 ⟨_, hS s, rfl⟩⟩
  | .left op operand q, _, _, h => by
    obtain ⟨a, ha, hrest⟩ := bind_eq_ok_iff.1 h
    obtain ⟨b, hb, -⟩ := bind_eq_ok_iff.1 hrest
    obtain ⟨S, hS⟩ := operand.exists_check ha
    exact ⟨.left op S b, fun s => bind_eq_ok_iff.2 ⟨_, hS s, bind_eq_ok_iff.2 ⟨b, hb, rfl⟩⟩⟩
  | .right op p operand, _, _, h => by
    obtain ⟨a, ha, hrest⟩ := bind_eq_ok_iff.1 h
    obtain ⟨b, hb, -⟩ := bind_eq_ok_iff.1 hrest
    obtain ⟨S, hS⟩ := operand.exists_check hb
    exact ⟨.right op a S, fun s => bind_eq_ok_iff.2 ⟨a, ha, bind_eq_ok_iff.2 ⟨_, hS s, rfl⟩⟩⟩
  | .argument callee before slot after position, s, _, h => by
    obtain ⟨es, hargs, hcall⟩ := bind_eq_ok_iff.1 h
    obtain ⟨as, e, bs, has, he, hbs, rfl⟩ := Phrase.checkAll_append_cons.1 hargs
    obtain ⟨S, hS⟩ := slot.exists_check he
    rw [hS s] at he
    cases he
    obtain ⟨S', hS'⟩ := Expr.Slot.exists_checkCall hcall
    exact ⟨S', fun s => bind_eq_ok_iff.2
      ⟨_, Phrase.checkAll_append_cons.2 ⟨as, _, bs, has, hS s, hbs, rfl⟩, hS' s⟩⟩

/-! ## Texts of formulas -/

/-- **A formula takes every text in the place of a string literal if it takes one there**, and the expression holds the
text in one place. -/
theorem exists_slot_of_parse {before after s₀ : String} {tokens : List Token} {e₀ : Expr}
    (hbefore : tokenize before.toList = .ok tokens)
    (h : parse registry (before ++ literalText s₀ ++ after) = .ok e₀) : ∃ slot : Expr.Slot, ∀ s, ∃ e,
      parse registry (before ++ literalText s ++ after) = .ok e ∧ e.unplaced = slot.fill s := by
  have htext : ∀ s, (before ++ literalText s ++ after).toList =
      before.toList ++ ((literalText s).toList ++ after.toList) := by simp
  have hscan := (lexes_of_tokenize hbefore).unplacedScan_literal
  obtain ⟨d, hd, hcheck⟩ := exists_lexes_of_parse h
  rw [Lexes, htext, hscan, Prod.mk.injEq] at hd
  obtain ⟨htokens, hmisfit⟩ := hd
  obtain ⟨slot, hslot⟩ := d.exchanges rfl htokens.symm
  -- the tree with the text that stands there already is the tree itself
  obtain ⟨d₀, htokens₀, hphrase₀⟩ := hslot s₀
  obtain rfl : d₀ = d := Derivation.tokens_injective (htokens₀.trans htokens)
  rw [hphrase₀] at hcheck
  obtain ⟨S, hS⟩ := slot.exists_check hcheck
  refine ⟨S, fun s => ?_⟩
  obtain ⟨d', htokens', hphrase'⟩ := hslot s
  have hlexes : Lexes (before ++ literalText s ++ after).toList d'.tokens := by
    rw [Lexes, htext, hscan, htokens', hmisfit]
  have hparse : unplacedResult Expr.unplaced (parse registry (before ++ literalText s ++ after)) = .ok (S.fill s) := by
    rw [parse_of_lexes hlexes, hphrase', hS s]
  exact unplacedResult_eq_ok_iff.1 hparse

/-- A string literal by itself is parsed to the text. -/
theorem parse_literalText (s : String) : parse registry (literalText s) = .ok (.text s 0) := by
  have htokens : tokenize (literalText s).toList = .ok (literalOf s).tokens := by
    rw [tokenize_literalText, literalText_toList]
    rfl
  rw [parse, readPhrase_of_tokenize htokens, literalOf_phrase]
  rfl

/-- A call of a function takes every text in the place of any argument. -/
theorem exists_parse_call {name s : String} {f : FunctionSpec} {before after : List String} {es fs : List Expr}
    (hname : Word name.toList) (hfind : registry.find? name = some f)
    (haccepts : f.accepts (before.length + 1 + after.length) = true) (hother : upper name ≠ referenceKey)
    (hbefore : List.Forall₂ (fun text e => parse registry text = .ok e) before es)
    (hafter : List.Forall₂ (fun text e => parse registry text = .ok e) after fs) :
    ∃ e, parse registry (callText name (before ++ literalText s :: after)) = .ok e ∧
      e.unplaced = .call (upper name) (Expr.unplacedAll es ++ .text s 0 :: Expr.unplacedAll fs) 0 := by
  have hcount : (before ++ literalText s :: after).length = before.length + 1 + after.length := by
    rw [List.length_append, List.length_cons]
    omega
  have hargs := List.rel_append hbefore (.cons (parse_literalText s) hafter)
  have hparse := parse_callText_of_find? hname hfind (hcount ▸ haccepts) hother hargs
  simpa [Expr.unplacedAll_eq_map, Expr.unplaced] using hparse

/-- A reference to another sheet takes every text as each of its names. -/
theorem exists_parse_reference {name sheet row column : String} {f : FunctionSpec} (hname : Word name.toList)
    (hfind : registry.find? name = some f) (haccepts : f.accepts 3 = true) (href : upper name = referenceKey) :
    ∃ e, parse registry (callText name [literalText sheet, literalText row, literalText column]) = .ok e ∧
      e.unplaced = .ref (.cross sheet (.named row) column 0) := by
  have hargs : List.Forall₂ (fun text e => parse registry text = .ok e)
      [literalText sheet, literalText row, literalText column] [.text sheet 0, .text row 0, .text column 0] :=
    .cons (parse_literalText sheet) (.cons (parse_literalText row) (.cons (parse_literalText column) .nil))
  have hcall : checkCall registry name [.text sheet 0, .text row 0, .text column 0] 0 =
      .ok (.ref (.cross sheet (.named row) column 0)) := by
    have hthree : f.accepts [Expr.text sheet 0, .text row 0, .text column 0].length = true := haccepts
    simp only [checkCall, hfind, hthree, if_true, if_pos href]
    exact crossReference_eq_ok_iff.2 ⟨sheet, .named row, column, rfl, rfl, rfl, rfl⟩
  exact unplacedResult_eq_ok_iff.1 ((parse_callText hname hargs).trans hcall)

/-- A formula takes a string literal between the texts: the text in front consists of tokens, and with some literal
they are a formula. -/
def TakesLiteral (registry : Registry) (before after : String) : Prop :=
  (∃ tokens, tokenize before.toList = .ok tokens) ∧
    ∃ s e, parse registry (before ++ literalText s ++ after) = .ok e

/-- **Every text can be written as a string literal.** The literal of a text, with a backslash before its quotes and
backslashes, is one token, and it is read back as the text. Where a formula takes a string literal it takes that of
every text, and what is parsed holds the text in one place, as a string literal or as a name of a reference to another
sheet. A call takes it as any of its arguments, and a reference as each of its names. -/
theorem literalText_denotes :
    (∀ s, tokenize (literalText s).toList = .ok [⟨.string, (literalText s).toList, 0⟩] ∧
      unescape (literalText s).toList = s.toList) ∧
    (∀ registry before after, TakesLiteral registry before after → ∃ slot : Expr.Slot, ∀ s, ∃ e,
      parse registry (before ++ literalText s ++ after) = .ok e ∧ e.unplaced = slot.fill s) ∧
    (∀ (registry : Registry) name f before after es fs, Word name.toList → registry.find? name = some f →
      f.accepts (before.length + 1 + after.length) = true → upper name ≠ referenceKey →
      List.Forall₂ (fun text e => parse registry text = .ok e) before es →
      List.Forall₂ (fun text e => parse registry text = .ok e) after fs → ∀ s, ∃ e,
      parse registry (callText name (before ++ literalText s :: after)) = .ok e ∧
        e.unplaced = .call (upper name) (Expr.unplacedAll es ++ .text s 0 :: Expr.unplacedAll fs) 0) ∧
    ∀ (registry : Registry) name f, Word name.toList → registry.find? name = some f → f.accepts 3 = true →
      upper name = referenceKey → ∀ sheet row column, ∃ e,
      parse registry (callText name [literalText sheet, literalText row, literalText column]) = .ok e ∧
        e.unplaced = .ref (.cross sheet (.named row) column 0) := by
  refine ⟨fun s => ⟨tokenize_literalText s, unescape_literalText s⟩, ?_, ?_, ?_⟩
  · rintro registry before after ⟨⟨tokens, hbefore⟩, s, e, hparse⟩
    exact exists_slot_of_parse hbefore hparse
  · intro registry name f before after es fs hname hfind haccepts hother hbefore hafter s
    exact exists_parse_call hname hfind haccepts hother hbefore hafter
  · intro registry name f hname hfind haccepts href sheet row column
    exact exists_parse_reference hname hfind haccepts href

theorem literalText_denotes_row :
    TakesLiteral .standard "REF(Items, " ", Net)" ∧
    (∃ slot : Expr.Slot, ∀ s, ∃ e,
      parse .standard ("REF(Items, " ++ literalText s ++ ", Net)") = .ok e ∧ e.unplaced = slot.fill s) ∧
    (∀ s, ∃ e, parse .standard (callText "if" (["Net"] ++ literalText s :: ["Tax"])) = .ok e ∧
      e.unplaced = .call "IF" [.ref (.column "Net" 0), .text s 0, .ref (.column "Tax" 0)] 0) ∧
    ∃ e, parse .standard (callText "ref" [literalText "a \"b\"", literalText "c\\d", literalText ""]) = .ok e ∧
      e.unplaced = .ref (.cross "a \"b\"" (.named "c\\d") "" 0) := by
  obtain ⟨-, hslot, hcall, href⟩ := literalText_denotes
  have htakes : TakesLiteral .standard "REF(Items, " ", Net)" := by
    refine ⟨⟨[⟨.identifier, ['R', 'E', 'F'], 0⟩, ⟨.leftParen, ['('], 3⟩,
      ⟨.identifier, ['I', 't', 'e', 'm', 's'], 4⟩, ⟨.comma, [','], 9⟩], ?_⟩,
      "first", .ref (.cross "Items" (.named "first") "Net" 0), ?_⟩ <;> cbv
  have hfound : ∀ name ∈ ["if", "ref"], ∃ f, Registry.standard.find? name = some f ∧ f.accepts 3 = true := by
    have hany : ∀ name ∈ ["if", "ref"], (Registry.standard.find? name).any (·.accepts 3) = true := by decide +kernel
    exact fun name hname => (Option.any_eq_true _ _).1 (hany name hname)
  obtain ⟨f, hf, haccepts⟩ := hfound "if" (by simp)
  obtain ⟨g, hg, haccepts'⟩ := hfound "ref" (by simp)
  have hrest : "f".toList.all isNameChar = true ∧ "ef".toList.all isNameChar = true := by decide
  have hif : Word "if".toList := .mk (by decide) (List.all_eq_true.1 hrest.1)
  have hreference : Word "ref".toList := .mk (by decide) (List.all_eq_true.1 hrest.2)
  refine ⟨htakes, hslot _ _ _ htakes, fun s => ?_, href _ _ g hreference hg haccepts' (by decide) _ _ _⟩
  exact hcall _ _ f ["Net"] ["Tax"] [.ref (.column "Net" 0)] [.ref (.column "Tax" 0)] hif hf haccepts (by decide)
    (.cons (by cbv) .nil) (.cons (by cbv) .nil) s

end GameSheet.Formula
