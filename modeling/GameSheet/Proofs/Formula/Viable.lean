import GameSheet.Proofs.Formula.Calls

/-!
# Beginnings of formulas

A sentence is a list of tokens, each spelled as its sort demands, that has a parse tree; a list of tokens is viable if
some sentence starts with it. The reading takes exactly the viable lists (`viable_iff`):

* wherever a reading stands, some tokens complete it: an operand if one must follow, then a closing parenthesis for
  everything that is open (`Reading.exists_completion`), and what is completed has a parse tree by soundness;
* a sentence is read to its end by completeness, and so is what it starts with (`Reading.steps_of_append`).

Each token of a text is spelled as its sort demands (`spelled_of_mem_scan`).
-/

namespace GameSheet.Formula

open GameSheet.Text GameSheet.Decimal

/-! ## Spelled tokens -/

/-- The characters of the token are spelled as its sort demands. -/
def Token.Spelled (t : Token) : Prop :=
  tokenAt? t.chars = some (t.kind, t.chars, [])

theorem Token.Spelled.readable {t : Token} (h : t.Spelled) : t.Readable :=
  (tokenAt?_chars h).1

theorem spelled_of_mem_scan {t : Token} {cs : List Char} (h : t ∈ (scan cs).1) : t.Spelled := by
  obtain ⟨_, _, _, _, ht⟩ := exists_of_mem_scanFrom h
  exact tokenAt?_alone ht

/-! ## Sentences and what they start with -/

/-- The tokens are spelled as their sorts demand and have a parse tree. -/
def Sentence (ts : List Token) : Prop :=
  (∀ t ∈ ts, t.Spelled) ∧ ∃ d : Derivation .start, d.tokens = ts

/-- Some sentence starts with the tokens. -/
def Viable (ts : List Token) : Prop :=
  ∃ more, Sentence (ts ++ more)

/-! ## Completions -/

/-- A number, which may stand wherever an operand must follow. -/
def zeroToken : Token := ⟨.number, ['0'], 0⟩

/-- A closing parenthesis. -/
def closingToken : Token := ⟨.rightParen, [')'], 0⟩

theorem spelled_zeroToken : zeroToken.Spelled := by
  unfold Token.Spelled
  decide +kernel

theorem spelled_closingToken : closingToken.Spelled :=
  tokenAt?_closing []

/-- Closing at a level leaves the outer part of what is open, which rests at the level. -/
theorem exists_collapse (k : Nat) (value : Phrase) (pending : List Pending) :
    ∃ v outer, collapse k value pending = (v, outer) ∧ outer <:+ pending ∧ Rests k outer := by
  induction pending generalizing value with
  | nil => exact ⟨value, [], rfl, List.suffix_rfl, trivial⟩
  | cons p pending ih =>
    by_cases hp : Rests k (p :: pending)
    · exact ⟨value, _, hp.collapse, List.suffix_rfl, hp⟩
    · have closes : ∃ v, collapse k value (p :: pending) = collapse k v pending := by
        cases p with
        | group => exact absurd trivial hp
        | call => exact absurd trivial hp
        | negate => exact ⟨_, collapse_negate (Nat.not_lt.1 hp)⟩
        | keep => exact ⟨_, collapse_keep (Nat.not_lt.1 hp)⟩
        | infixed => exact ⟨_, collapse_infixed (Nat.not_lt.1 hp)⟩
      obtain ⟨v, hv⟩ := closes
      obtain ⟨w, outer, heq, hsuffix, hrests⟩ := ih v
      exact ⟨w, outer, by rw [hv, heq], hsuffix.trans (List.suffix_cons p pending), hrests⟩

namespace Reading

/-- The tokens bring the reading to a place where the text may end. -/
def CompletedBy (r : Reading) (more : List Token) : Prop :=
  (∀ t ∈ more, t.Spelled) ∧ ∃ r' p, r.steps more = .ok r' ∧ r'.finish = .ok p

theorem CompletedBy.cons {r next : Reading} {t : Token} {more : List Token} (h : next.CompletedBy more)
    (ht : t.Spelled) (hs : r.step t = some next) : r.CompletedBy (t :: more) := by
  obtain ⟨hmore, r', p, hr, hf⟩ := h
  exact ⟨List.forall_mem_cons.2 ⟨ht, hmore⟩, r', p, by rw [steps_cons hs, hr], hf⟩

/-- After an operand, closing parentheses complete what is open: each of them takes what it closes away. -/
theorem exists_completion_of_closed (n : Nat) : ∀ {r : Reading} (value : Phrase) {pending : List Pending},
    pending.length ≤ n → (∀ k, r.closed k = some (collapse k value pending)) → ∃ more, r.CompletedBy more := by
  induction n with
  | zero =>
    intro r value pending hn hc
    obtain rfl : pending = [] := List.length_eq_zero_iff.1 (Nat.le_zero.1 hn)
    exact ⟨[], List.forall_mem_nil _, r, value, rfl, finish_of_closed (hc 0)⟩
  | succ n ih =>
    intro r value pending hn hc
    obtain ⟨v, outer, heq, hsuffix, hrests⟩ := exists_collapse 0 value pending
    have hclosed : r.closed 0 = some (v, outer) := by rw [hc 0, heq]
    have hlength := hsuffix.length_le
    match outer, hrests with
    | [], _ => exact ⟨[], List.forall_mem_nil _, r, v, rfl, finish_of_closed hclosed⟩
    | .group :: outer, _ =>
      rw [List.length_cons] at hlength
      obtain ⟨more, hmore⟩ := ih (r := complete v outer) v (by omega) fun _ => rfl
      exact ⟨_, hmore.cons spelled_closingToken (step_closing_group hclosed rfl)⟩
    | .call name position done :: outer, _ =>
      rw [List.length_cons] at hlength
      obtain ⟨more, hmore⟩ :=
        ih (r := complete _ outer) (.call name (v :: done).reverse position) (by omega) fun _ => rfl
      exact ⟨_, hmore.cons spelled_closingToken (step_closing_call hclosed rfl)⟩

/-- **Every reading can be completed.** -/
theorem exists_completion (r : Reading) : ∃ more, r.CompletedBy more := by
  cases r with
  | operand pending =>
    obtain ⟨n, hn⟩ := spelled_zeroToken.readable rfl
    have hstep : (operand pending).step zeroToken = some (complete (.number n.value) pending) := by
      simp only [step, stepOperand, zeroToken, Phrase.ofToken?]
      rw [show Numeral.ofChars? isDigit ['0'] = some n from hn]
      rfl
    obtain ⟨more, hmore⟩ :=
      exists_completion_of_closed _ (r := complete _ pending) (.number n.value) le_rfl fun _ => rfl
    exact ⟨_, hmore.cons spelled_zeroToken hstep⟩
  | named name position pending =>
    exact exists_completion_of_closed _ (.name name position) le_rfl fun _ => rfl
  | complete value pending => exact exists_completion_of_closed _ value le_rfl fun _ => rfl

/-- What tokens that are read start with is read. -/
theorem steps_of_append {r r' : Reading} {a b : List Token} (h : r.steps (a ++ b) = .ok r') :
    ∃ middle, r.steps a = .ok middle ∧ middle.steps b = .ok r' := by
  induction a generalizing r with
  | nil => exact ⟨r, rfl, h⟩
  | cons t a ih =>
    rw [List.cons_append, steps] at h
    split at h
    · next next hnext =>
      rw [steps_cons hnext]
      exact ih h
    · cases h

/-- A run that fails stops at the first token that does not go on with what was read. -/
theorem steps_eq_error {r : Reading} {ts : List Token} {t : Token} (h : r.steps ts = .error t) :
    ∃ before after middle, ts = before ++ t :: after ∧ r.steps before = .ok middle ∧ middle.step t = none := by
  induction ts generalizing r with
  | nil => cases h
  | cons u ts ih =>
    rw [steps] at h
    split at h
    · next next hnext =>
      obtain ⟨before, after, middle, rfl, hbefore, hstep⟩ := ih h
      exact ⟨u :: before, after, middle, rfl, by rw [steps_cons hnext, hbefore], hstep⟩
    · next hnone =>
      cases h
      exact ⟨[], ts, r, rfl, rfl, hnone⟩

end Reading

/-! ## What the reading takes -/

section Spelled

variable {ts : List Token} (hts : ∀ t ∈ ts, t.Spelled)

include hts

/-- Tokens are a sentence exactly if they are read to the end and the text may end there. -/
theorem sentence_iff : Sentence ts ↔ ∃ r p, Reading.start.steps ts = .ok r ∧ r.finish = .ok p := by
  constructor
  · rintro ⟨_, d, rfl⟩
    obtain ⟨r, hr, hf⟩ := d.read fun t ht => (hts t ht).readable
    exact ⟨r, d.phrase, hr, hf⟩
  · rintro ⟨r, p, hr, hf⟩
    obtain ⟨d, hd, _⟩ := exists_derivation_of_read hr hf
    exact ⟨hts, d, hd⟩

/-- **The reading takes exactly the viable lists of tokens.** -/
theorem viable_iff : Viable ts ↔ ∃ r, Reading.start.steps ts = .ok r := by
  constructor
  · rintro ⟨more, hmore⟩
    obtain ⟨r, _, hr, _⟩ := (sentence_iff hmore.1).1 hmore
    obtain ⟨middle, hmiddle, _⟩ := Reading.steps_of_append hr
    exact ⟨middle, hmiddle⟩
  · rintro ⟨r, hr⟩
    obtain ⟨more, hmore, r', p, hr', hf⟩ := r.exists_completion
    have hall : ∀ t ∈ ts ++ more, t.Spelled := List.forall_mem_append.2 ⟨hts, hmore⟩
    exact ⟨more, (sentence_iff hall).2 ⟨r', p, by rw [Reading.steps_append hr, hr'], hf⟩⟩

end Spelled

end GameSheet.Formula
