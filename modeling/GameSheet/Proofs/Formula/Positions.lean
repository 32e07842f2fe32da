import GameSheet.Formula.Parse

/-!
# Formulas without positions

A position in a tree or in an error only says where in the text something was found. Without positions (`unplaced`) the
tree of a text, or the error in it, is determined by its tokens without positions: **`parse_unplaced`**. Texts that
differ in their layout, or of which one stands inside the other, are compared this way.

Every stage of the parser commutes with taking the positions away; a step of the reading looks at the sort and the
characters of a token alone.
-/

namespace GameSheet.Formula

/-! ## Taking the positions away -/

/-- The token at no particular place. -/
def Token.unplaced (t : Token) : Token := { t with position := 0 }

/-- The misfit at no particular place. -/
def Misfit.unplaced (m : Misfit) : Misfit := { m with position := 0 }

/-- The error at no particular place. -/
def ParseError.unplaced : ParseError → ParseError
  | misfit m => misfit m.unplaced
  | fault f _ => fault f 0

/-- The reference at no particular place. -/
def Reference.unplaced : Reference → Reference
  | column name _ => column name 0
  | previous name _ => previous name 0
  | setting key _ => setting key 0
  | cross sheet row name _ => cross sheet row name 0

mutual

/-- The phrase at no particular place. -/
def Phrase.unplaced : Phrase → Phrase
  | .number x => .number x
  | .text s _ => .text s 0
  | .name label _ => .name label 0
  | .dotted qualifier field _ => .dotted qualifier field 0
  | .negate operand => .negate operand.unplaced
  | .binary op left right => .binary op left.unplaced right.unplaced
  | .call callee args _ => .call callee (Phrase.unplacedAll args) 0

/-- The phrases at no particular place. -/
def Phrase.unplacedAll : List Phrase → List Phrase
  | [] => []
  | p :: rest => p.unplaced :: Phrase.unplacedAll rest

end

mutual

/-- The expression at no particular place. -/
def Expr.unplaced : Expr → Expr
  | .number x => .number x
  | .text s _ => .text s 0
  | .ref r => .ref r.unplaced
  | .negate operand => .negate operand.unplaced
  | .binary op left right => .binary op left.unplaced right.unplaced
  | .call callee args _ => .call callee (Expr.unplacedAll args) 0

/-- The expressions at no particular place. -/
def Expr.unplacedAll : List Expr → List Expr
  | [] => []
  | e :: rest => e.unplaced :: Expr.unplacedAll rest

end

theorem Phrase.unplacedAll_eq_map (ps : List Phrase) : Phrase.unplacedAll ps = ps.map Phrase.unplaced := by
  induction ps with
  | nil => rfl
  | cons p rest ih => rw [unplacedAll, ih, List.map_cons]

theorem Expr.unplacedAll_eq_map (es : List Expr) : Expr.unplacedAll es = es.map Expr.unplaced := by
  induction es with
  | nil => rfl
  | cons e rest ih => rw [unplacedAll, ih, List.map_cons]

/-- The result at no particular place. -/
def unplacedResult {α : Type} (unplaced : α → α) (x : Except ParseError α) : Except ParseError α :=
  (x.map unplaced).mapError ParseError.unplaced

@[simp] theorem unplacedResult_ok {α : Type} (u : α → α) (a : α) : unplacedResult u (.ok a) = .ok (u a) := rfl

@[simp] theorem unplacedResult_error {α : Type} (u : α → α) (e : ParseError) :
    unplacedResult u (.error e) = .error e.unplaced := rfl

/-- What is open, at no particular place. -/
def Pending.unplaced : Pending → Pending
  | group => group
  | call name _ done => call name 0 (done.map Phrase.unplaced)
  | negate => negate
  | keep => keep
  | infixed op left => infixed op left.unplaced

/-- The reading at no particular place. -/
def Reading.unplaced : Reading → Reading
  | operand pending => operand (pending.map Pending.unplaced)
  | named name _ pending => named name 0 (pending.map Pending.unplaced)
  | complete value pending => complete value.unplaced (pending.map Pending.unplaced)

/-! ## Reading -/

theorem Phrase.ofToken?_unplaced (t : Token) : Phrase.ofToken? t.unplaced = (Phrase.ofToken? t).map Phrase.unplaced := by
  unfold Phrase.ofToken?
  cases hk : t.kind with
  | number =>
    simp only [Token.unplaced, hk, Option.map_map]
    rfl
  | _ => simp only [Token.unplaced, hk]; rfl

theorem collapse_unplaced (level : Nat) (v : Phrase) (pending : List Pending) :
    collapse level v.unplaced (pending.map Pending.unplaced) =
      ((collapse level v pending).1.unplaced, (collapse level v pending).2.map Pending.unplaced) := by
  induction pending generalizing v with
  | nil => rfl
  | cons p pending ih =>
    cases p with
    | group => rfl
    | call name position done => rfl
    | negate =>
      simp only [List.map_cons, Pending.unplaced, collapse]
      split
      · rw [← ih, Phrase.unplaced]
      · rfl
    | keep =>
      simp only [List.map_cons, Pending.unplaced, collapse]
      split
      · rw [← ih]
      · rfl
    | infixed op left =>
      simp only [List.map_cons, Pending.unplaced, collapse]
      split
      · rw [← ih, Phrase.unplaced]
      · rfl

namespace Reading

theorem stepOperand_unplaced (pending : List Pending) (t : Token) :
    stepOperand (pending.map Pending.unplaced) t.unplaced = (stepOperand pending t).map unplaced := by
  have hleaf : (Phrase.ofToken? t.unplaced).map (fun value => complete value (pending.map Pending.unplaced)) =
      ((Phrase.ofToken? t).map fun value => complete value pending).map unplaced := by
    rw [Phrase.ofToken?_unplaced, Option.map_map, Option.map_map]
    rfl
  have hkind : t.unplaced.kind = t.kind := rfl
  have hchars : t.unplaced.chars = t.chars := rfl
  unfold stepOperand
  rw [hkind, hchars]
  cases t.kind with
  | identifier => rfl
  | leftParen => rfl
  | rightParen =>
    cases pending with
    | nil => rfl
    | cons p pending =>
      cases p with
      | call name position done => cases done <;> rfl
      | _ => rfl
  | operator =>
    dsimp only
    split
    · rfl
    · split <;> rfl
  | _ => exact hleaf

theorem stepComplete_unplaced (value : Phrase) (pending : List Pending) (t : Token) :
    stepComplete value.unplaced (pending.map Pending.unplaced) t.unplaced =
      (stepComplete value pending t).map unplaced := by
  have hkind : t.unplaced.kind = t.kind := rfl
  have hchars : t.unplaced.chars = t.chars := rfl
  unfold stepComplete
  rw [hkind, hchars]
  simp only [collapse_unplaced]
  cases t.kind with
  | operator =>
    simp only [Option.map_map]
    rfl
  | rightParen =>
    rcases collapse 0 value pending with ⟨v, open_⟩
    cases open_ with
    | nil => rfl
    | cons p rest =>
      cases p with
      | call name position done =>
        simp only [List.map_cons, Pending.unplaced, Option.map_some, unplaced, Phrase.unplaced,
          Phrase.unplacedAll_eq_map, List.map_reverse]
      | _ => rfl
  | comma =>
    rcases collapse 0 value pending with ⟨v, open_⟩
    cases open_ with
    | nil => rfl
    | cons p rest => cases p <;> rfl
  | _ => rfl

theorem step_unplaced (r : Reading) (t : Token) : r.unplaced.step t.unplaced = (r.step t).map unplaced := by
  cases r with
  | operand pending => exact stepOperand_unplaced pending t
  | named name position pending =>
    have hkind : t.unplaced.kind = t.kind := rfl
    simp only [unplaced, step, hkind]
    split
    · rfl
    · exact stepComplete_unplaced (.name name position) pending t
  | complete value pending => exact stepComplete_unplaced value pending t

theorem steps_unplaced (r : Reading) (ts : List Token) :
    r.unplaced.steps (ts.map Token.unplaced) = ((r.steps ts).map unplaced).mapError Token.unplaced := by
  induction ts generalizing r with
  | nil => rfl
  | cons t ts ih =>
    simp only [List.map_cons, steps, step_unplaced]
    cases r.step t with
    | none => rfl
    | some next => exact ih next

theorem finish_unplaced (r : Reading) : r.unplaced.finish = r.finish.map Phrase.unplaced := by
  have hvalue : ∀ (v : Phrase) pending, finish.finishValue v.unplaced (pending.map Pending.unplaced) =
      (finish.finishValue v pending).map Phrase.unplaced := fun v pending => by
    simp only [finish.finishValue, collapse_unplaced]
    rcases collapse 0 v pending with ⟨v, _ | ⟨p, rest⟩⟩ <;> rfl
  cases r with
  | operand pending =>
    cases pending with
    | nil => rfl
    | cons p rest =>
      cases p with
      | call name position done => cases done <;> rfl
      | _ => rfl
  | named name position pending => exact hvalue (.name name position) pending
  | complete value pending => exact hvalue value pending

end Reading

/-! ## Checking -/

theorem Expr.asName?_unplaced (e : Expr) : e.unplaced.asName? = e.asName? := by
  cases e with
  | ref r => cases r <;> rfl
  | _ => rfl

theorem Expr.asRow?_unplaced (e : Expr) : e.unplaced.asRow? = e.asRow? := by
  cases e with
  | number x => rfl
  | ref r => cases r <;> rfl
  | _ => rfl

theorem Expr.isText_unplaced (e : Expr) : e.unplaced.isText = e.isText := by
  cases e <;> rfl

theorem crossReference_unplaced (args : List Expr) (position : Nat) :
    crossReference (args.map Expr.unplaced) 0 = unplacedResult Expr.unplaced (crossReference args position) := by
  match args with
  | [] => rfl
  | [_] => rfl
  | [_, _] => rfl
  | [sheet, row, column] =>
    simp only [List.map_cons, List.map_nil, crossReference, Expr.asName?_unplaced, Expr.asRow?_unplaced]
    split <;> rfl
  | _ :: _ :: _ :: _ :: rest =>
    simp only [List.map_cons, crossReference, List.length_cons, List.length_map]
    rfl

theorem checkCall_unplaced (registry : Registry) (name : String) (args : List Expr) (position : Nat) :
    checkCall registry name (args.map Expr.unplaced) 0 =
      unplacedResult Expr.unplaced (checkCall registry name args position) := by
  unfold checkCall
  cases hf : registry.find? name with
  | none => rfl
  | some f =>
    simp only [List.length_map]
    split
    · split
      · exact crossReference_unplaced args position
      · simp only [unplacedResult_ok, Expr.unplaced, Expr.unplacedAll_eq_map]
    · rfl

/-- One step of a check after another. -/
theorem unplacedResult_bind {α β : Type} {u : α → α} {u' : β → β} (x : Except ParseError α)
    {k l : α → Except ParseError β} (h : ∀ a, l (u a) = unplacedResult u' (k a)) :
    (unplacedResult u x >>= l) = unplacedResult u' (x >>= k) := by
  cases x with
  | error e => rfl
  | ok a => exact h a

mutual

/-- The check of a phrase does not look at positions. -/
theorem Phrase.check_unplaced (registry : Registry) : ∀ p : Phrase,
    p.unplaced.check registry = unplacedResult Expr.unplaced (p.check registry)
  | .number _ => rfl
  | .text _ _ => rfl
  | .name _ _ => rfl
  | .dotted qualifier field position => by
    simp only [Phrase.unplaced, Phrase.check]
    split
    · rfl
    · split <;> rfl
  | .negate operand => by
    rw [Phrase.unplaced, Phrase.check, Phrase.check, Phrase.check_unplaced registry operand]
    exact unplacedResult_bind _ fun _ => rfl
  | .binary op left right => by
    rw [Phrase.unplaced, Phrase.check, Phrase.check, Phrase.check_unplaced registry left,
      Phrase.check_unplaced registry right]
    exact unplacedResult_bind _ fun _ => unplacedResult_bind _ fun _ => rfl
  | .call callee args position => by
    rw [Phrase.unplaced, Phrase.check, Phrase.check, Phrase.checkAll_unplaced registry args]
    exact unplacedResult_bind _ fun es => checkCall_unplaced registry callee es position

/-- The check of several phrases does not look at positions. -/
theorem Phrase.checkAll_unplaced (registry : Registry) : ∀ ps : List Phrase,
    Phrase.checkAll registry (Phrase.unplacedAll ps) =
      unplacedResult (List.map Expr.unplaced) (Phrase.checkAll registry ps)
  | [] => rfl
  | p :: rest => by
    rw [Phrase.unplacedAll, Phrase.checkAll, Phrase.checkAll, Phrase.check_unplaced registry p,
      Phrase.checkAll_unplaced registry rest]
    exact unplacedResult_bind _ fun _ => unplacedResult_bind _ fun _ => rfl

end

/-! ## Parsing -/

/-- A scan at no particular place. -/
def unplacedScan (s : List Token × Option Misfit) : List Token × Option Misfit :=
  (s.1.map Token.unplaced, s.2.map Misfit.unplaced)

/-- The scan of a text does not depend on where it starts. -/
theorem unplacedScan_scanFrom (position position' : Nat) (cs : List Char) :
    unplacedScan (scanFrom position cs) = unplacedScan (scanFrom position' cs) := by
  fun_induction scanFrom position cs generalizing position' with
  | case1 => simp [scanFrom_nil]
  | case2 position c rest hc ih => rw [scanFrom_layout hc, ih]
  | case3 position c rest hc kind chars tail htoken tokens misfit hscan ih =>
    rw [scanFrom_token (by simpa using hc) htoken]
    have htail := ih (position' + chars.length)
    rw [hscan] at htail
    simp only [unplacedScan, Prod.mk.injEq] at htail
    simp only [unplacedScan, List.map_cons, htail.1, htail.2]
    rfl
  | case4 position c rest hc hnone =>
    rw [scanFrom_misfit (by simpa using hc) hnone]
    rfl

theorem wrongToken_unplaced (t : Token) : wrongToken t.unplaced = (wrongToken t).unplaced := by
  have hkind : t.unplaced.kind = t.kind := rfl
  simp only [wrongToken, hkind]
  split <;> rfl

/-- What the tokens of a text and its misfit are read to, at no particular place. -/
def readScanned (s : List Token × Option Misfit) : Except ParseError Phrase :=
  match Reading.start.steps s.1, s.2 with
  | .error t, _ => .error (wrongToken t)
  | .ok _, some m => .error (.misfit m)
  | .ok reading, none =>
    match reading.finish with
    | .ok phrase => .ok phrase
    | .error .parenthesis => .error (.fault .unmatchedParenthesis 0)
    | .error .operand => .error (.fault .unexpectedEnd 0)

/-- What a text is read to depends on its tokens without positions. -/
theorem readPhrase_unplaced {cs : List Char} (h : cs.all Text.isBlank = false) :
    unplacedResult Phrase.unplaced (readPhrase cs) = readScanned (unplacedScan (scan cs)) := by
  rcases hscan : scan cs with ⟨tokens, misfit⟩
  have hsteps := Reading.steps_unplaced .start tokens
  rw [show Reading.start.unplaced = Reading.start from rfl] at hsteps
  simp only [readPhrase, h, Bool.false_eq_true, if_false, hscan, readScanned, unplacedScan]
  cases hread : Reading.start.steps tokens with
  | error t =>
    have hread' : Reading.start.steps (tokens.map Token.unplaced) = .error t.unplaced := by rw [hsteps, hread]; rfl
    simp only [hread', unplacedResult_error, wrongToken_unplaced]
  | ok r =>
    have hread' : Reading.start.steps (tokens.map Token.unplaced) = .ok r.unplaced := by rw [hsteps, hread]; rfl
    cases misfit with
    | some m => simp only [hread', Option.map_some]; rfl
    | none =>
      simp only [hread', Option.map_none, Reading.finish_unplaced]
      cases r.finish with
      | ok p => rfl
      | error u => cases u <;> rfl

/-- **What a text is parsed to, at no particular place, depends on its tokens without positions.** -/
theorem parse_unplaced {registry : Registry} {body : String} (h : body.toList.all Text.isBlank = false) :
    unplacedResult Expr.unplaced (parse registry body) =
      readScanned (unplacedScan (scan body.toList)) >>= Phrase.check registry := by
  rw [← readPhrase_unplaced h, parse]
  exact (unplacedResult_bind _ fun p => p.check_unplaced registry).symm

end GameSheet.Formula
