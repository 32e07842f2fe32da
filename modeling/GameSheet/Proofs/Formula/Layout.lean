import GameSheet.Proofs.Formula.Lossless

/-!
# Layout does not matter

Layout may be put into a text wherever no token is cut in two (`Padding`): in front of the first token, between two
tokens, behind the last one.

* The tokens stay the same, but for their positions (`lexes_padded`). What is put in is a divider: a token that ends in
  front of it does so without looking beyond (`tokenAt?_beginning`), whatever the text went on with before, and is not
  changed by it (`tokenAt?_divided`).
* So is the tree of the text, or the error in it, under every registry (`parse_padded`).
* A pair of parentheses around a formula leaves no trace in its tree (`parse_parenthesized`).

**`layout_immaterial`** puts the three together.
-/

namespace GameSheet.Formula

open GameSheet.Text

/-- The text with more text put in by offset, in front of each of its characters and at its end. -/
def padded (pad : Nat → List Char) (offset : Nat) : List Char → List Char
  | [] => pad offset
  | c :: cs => pad offset ++ c :: padded pad (offset + 1) cs

example : padded (fun offset => if offset = 1 then [' '] else []) 0 "a+b".toList = "a +b".toList := rfl

/-- What is put in is layout, and nothing is put inside a token. -/
structure Padding (pad : Nat → List Char) (tokens : List Token) : Prop where
  layout : ∀ offset, (pad offset).all isLayout = true
  outside : ∀ t ∈ tokens, ∀ offset, t.position < offset → offset < t.position + t.chars.length → pad offset = []

section Padding

variable {pad : Nat → List Char}

/-- Where nothing is put in the text stays as it is. -/
theorem padded_append {cs : List Char} {offset : Nat}
    (h : ∀ p, offset ≤ p → p < offset + cs.length → pad p = []) (tail : List Char) :
    padded pad offset (cs ++ tail) = cs ++ padded pad (offset + cs.length) tail := by
  induction cs generalizing offset with
  | nil => rfl
  | cons c cs ih =>
    have hrest : padded pad (offset + 1) (cs ++ tail) = cs ++ padded pad (offset + 1 + cs.length) tail :=
      ih fun p hp hp' => h p (by omega) (by rw [List.length_cons]; omega)
    rw [List.cons_append, padded, h offset le_rfl (by simp), hrest, List.length_cons, Nat.add_assoc, Nat.add_comm 1]
    rfl

/-- Within a token nothing is put in. -/
theorem padded_token {c : Char} {cs : List Char} {offset : Nat}
    (h : ∀ p, offset < p → p < offset + (c :: cs).length → pad p = []) (tail : List Char) :
    padded pad offset (c :: cs ++ tail) = pad offset ++ (c :: cs ++ padded pad (offset + (c :: cs).length) tail) := by
  rw [List.length_cons] at h ⊢
  rw [List.cons_append, padded, padded_append fun p hp hp' => h p (by omega) (by omega), Nat.add_assoc,
    Nat.add_comm 1]
  rfl

variable (hpad : ∀ offset, (pad offset).all isLayout = true)

include hpad

/-- The padded text is the text up to where something is put in, and that is a divider. -/
theorem exists_divided_padded (offset : Nat) (cs : List Char) :
    ∃ front back d, cs = front ++ back ∧ padded pad offset cs = front ++ d ∧ Divided d := by
  induction cs generalizing offset with
  | nil => exact ⟨[], [], pad offset, rfl, rfl, divided_of_layout (hpad offset)⟩
  | cons c cs ih =>
    cases hp : pad offset with
    | nil =>
      obtain ⟨front, back, d, rfl, hd, hdivided⟩ := ih (offset + 1)
      exact ⟨c :: front, back, d, rfl, by rw [padded, hp, hd]; rfl, hdivided⟩
    | cons x p =>
      refine ⟨[], c :: cs, padded pad offset (c :: cs), rfl, rfl, ?_⟩
      have hx : isLayout x = true := List.all_eq_true.1 (hpad offset) x (by rw [hp]; exact List.mem_cons_self)
      rw [padded, hp]
      rintro _ ⟨⟩
      exact isDivider_of_isBlank (isBlank_of_isLayout hx)

/-- A token stays the token when the text behind it is padded. -/
theorem tokenAt?_padded {kind : TokenKind} {chars tail : List Char}
    (h : tokenAt? (chars ++ tail) = some (kind, chars, tail)) (offset : Nat) :
    tokenAt? (chars ++ padded pad offset tail) = some (kind, chars, padded pad offset tail) := by
  obtain ⟨front, back, d, rfl, hd, hdivided⟩ := exists_divided_padded hpad offset tail
  have halone : tokenAt? (chars ++ front ++ d) = some (kind, chars, front ++ d) :=
    tokenAt?_divided hdivided (tokenAt?_beginning h)
  rwa [hd, ← List.append_assoc]

theorem all_isBlank_padded (offset : Nat) (cs : List Char) :
    (padded pad offset cs).all isBlank = cs.all isBlank := by
  induction cs generalizing offset with
  | nil => exact all_isBlank_of_layout (hpad offset)
  | cons c cs ih =>
    rw [padded, List.all_append, all_isBlank_of_layout (hpad offset), Bool.true_and, List.all_cons, ih, List.all_cons]

end Padding

/-! ## The tokens of a padded text -/

theorem Lexes.layouts {d cs : List Char} {tokens : List Token} (hd : d.all isLayout = true) (h : Lexes cs tokens) :
    Lexes (d ++ cs) tokens := by
  induction d with
  | nil => exact h
  | cons c d ih =>
    rw [List.all_cons, Bool.and_eq_true] at hd
    exact (ih hd.2).layout hd.1

theorem Lexes.exists_tokenize {cs : List Char} {tokens : List Token} (h : Lexes cs tokens) :
    ∃ found, tokenize cs = .ok found ∧ found.map Token.unplaced = tokens := by
  rcases hscan : scan cs with ⟨found, misfit⟩
  rw [Lexes, hscan, unplacedScan, Prod.mk.injEq, Option.map_eq_none_iff] at h
  obtain ⟨htokens, rfl⟩ := h
  exact ⟨found, tokenize_eq_ok_iff.2 hscan, htokens⟩

theorem lexes_of_tokenize {cs : List Char} {tokens : List Token} (h : tokenize cs = .ok tokens) :
    Lexes cs (tokens.map Token.unplaced) := by
  rw [Lexes, tokenize_eq_ok_iff.1 h]
  rfl

/-- The tokens of a padded text are those of the text. -/
theorem Cuts.lexes_padded {offset stop : Nat} {cs : List Char} {tokens : List Token} {pad : Nat → List Char}
    (h : Cuts offset cs tokens stop []) (hpad : Padding pad tokens) :
    Lexes (padded pad offset cs) (tokens.map Token.unplaced) := by
  have hlayout := hpad.layout
  generalize hrest : ([] : List Char) = rest at h
  induction h with
  | refl offset cs =>
    subst hrest
    have hnil := Lexes.nil.layouts (hlayout offset)
    rwa [List.append_nil] at hnil
  | layout hc _ ih => exact ((ih hpad hrest).layout hc).layouts (hlayout _)
  | @token offset stop c cs chars tail rest kind tokens hc ht _ ih =>
    obtain ⟨hfirst, hothers⟩ := List.forall_mem_cons.1 hpad.outside
    obtain ⟨happend, hne⟩ := tokenAt?_append ht
    obtain ⟨c', chars, rfl⟩ := List.exists_cons_of_ne_nil hne
    obtain ⟨rfl, -⟩ := List.cons.inj happend
    rw [happend] at ht ⊢
    rw [padded_token hfirst]
    exact ((ih ⟨hlayout, hothers⟩ hrest).token hc (tokenAt?_padded hlayout ht _)).layouts (hlayout _)

theorem lexes_padded {cs : List Char} {tokens : List Token} {pad : Nat → List Char} (h : tokenize cs = .ok tokens)
    (hpad : Padding pad tokens) : Lexes (padded pad 0 cs) (tokens.map Token.unplaced) := by
  obtain ⟨stop, hcuts⟩ := tokenize_eq_ok_iff_cuts.1 h
  exact hcuts.lexes_padded hpad

/-! ## The trees of padded and of parenthesized texts -/

variable {registry : Registry} {body : String}

/-- A padded text is parsed to the same tree, or fails for the same reason. -/
theorem parse_padded {tokens : List Token} {pad : Nat → List Char} (h : tokenize body.toList = .ok tokens)
    (hpad : Padding pad tokens) :
    unplacedResult Expr.unplaced (parse registry (String.ofList (padded pad 0 body.toList))) =
      unplacedResult Expr.unplaced (parse registry body) := by
  have hscan := lexes_padded h hpad
  rw [← String.toList_ofList (l := padded pad 0 body.toList)] at hscan
  refine parse_of_scans ?_ (hscan.trans (lexes_of_tokenize h).symm)
  rw [String.toList_ofList, all_isBlank_padded hpad.layout]

/-- Parentheses around a formula leave no trace. -/
theorem parse_parenthesized {e : Expr} (h : parse registry body = .ok e) :
    ∃ e', parse registry ("(" ++ body ++ ")") = .ok e' ∧ e'.unplaced = e.unplaced := by
  obtain ⟨d, hd, hcheck⟩ := exists_lexes_of_parse h
  have hlexes : Lexes ("(" ++ body ++ ")").toList d.parenthesized.tokens := by
    rw [String.toList_append, String.toList_append]
    exact hd.parenthesized
  exact unplacedResult_eq_ok_iff.1 ((parse_of_lexes hlexes).trans hcheck)

/-- **Layout does not matter.**

* A text that consists of tokens and layout has the same tokens, in the same order, however layout is put in between
  them, and is parsed to the same tree or the same error under every registry, but for the positions.
* What is parsed to a tree is parsed to the same tree in a pair of parentheses, but for the positions. -/
theorem layout_immaterial (body : String) :
    (∀ tokens pad, tokenize body.toList = .ok tokens → Padding pad tokens →
      (∃ found, tokenize (padded pad 0 body.toList) = .ok found ∧
        found.map (fun t => (t.kind, t.chars)) = tokens.map fun t => (t.kind, t.chars)) ∧
      ∀ registry, unplacedResult Expr.unplaced (parse registry (String.ofList (padded pad 0 body.toList))) =
        unplacedResult Expr.unplaced (parse registry body)) ∧
    ∀ registry e, parse registry body = .ok e →
      ∃ e', parse registry ("(" ++ body ++ ")") = .ok e' ∧ e'.unplaced = e.unplaced := by
  refine ⟨fun tokens pad h hpad => ⟨?_, fun registry => parse_padded h hpad⟩, fun registry e h => parse_parenthesized h⟩
  obtain ⟨found, hfound, hmap⟩ := (lexes_padded h hpad).exists_tokenize
  refine ⟨found, hfound, ?_⟩
  have hpairs := congrArg (List.map fun t : Token => (t.kind, t.chars)) hmap
  rwa [List.map_map, List.map_map] at hpairs

/-- A line break in front of a comparison, and parentheses around a name. -/
theorem layout_immaterial_samples :
    (∃ found, tokenize "Net \n<=.5".toList = .ok found ∧ found.map (fun t => (t.kind, t.chars)) =
      [(.identifier, "Net".toList), (.operator, "<=".toList), (.number, ".5".toList)]) ∧
    ∃ e', parse .standard "(Net)" = .ok e' ∧ e'.unplaced = .ref (.column "Net" 0) := by
  have htokens : tokenize "Net<=.5".toList =
      .ok [⟨.identifier, "Net".toList, 0⟩, ⟨.operator, "<=".toList, 3⟩, ⟨.number, ".5".toList, 5⟩] := by cbv
  have hpad : Padding (fun offset => if offset = 3 then [' ', '\n'] else [])
      [⟨.identifier, "Net".toList, 0⟩, ⟨.operator, "<=".toList, 3⟩, ⟨.number, ".5".toList, 5⟩] := by
    refine ⟨fun offset => ?_, ?_⟩
    · by_cases h : offset = 3 <;> simp only [h, if_true, if_false] <;> rfl
    · -- the offset is the end of the name, the start of the operator, and in front of the number
      exact List.forall_mem_cons.2 ⟨fun offset _ h => if_neg (Nat.ne_of_lt h), List.forall_mem_cons.2
        ⟨fun offset h _ => if_neg (Nat.ne_of_gt h), List.forall_mem_cons.2
          ⟨fun offset h _ => if_neg (Nat.ne_of_gt (Nat.lt_of_succ_lt (Nat.lt_of_succ_lt h))), List.forall_mem_nil _⟩⟩⟩
  have hparse : parse .standard "Net" = .ok (.ref (.column "Net" 0)) := by cbv
  exact ⟨((layout_immaterial "Net<=.5").1 _ _ htokens hpad).1, (layout_immaterial "Net").2 _ _ hparse⟩

end GameSheet.Formula
