import GameSheet.Proofs.Formula.Lexeme
import GameSheet.Proofs.Formula.Locating

/-!
# Nothing is lost between tokens

The tokens of a text lie side by side in it, and what lies between them is layout (`Lossless`).

* **`tokenize_lossless`**: this is so for every text that consists of tokens. In any other text there is a character at
  which neither layout nor a lexeme stands, and what is in front of it consists of tokens.

The second part needs that cutting does not look beyond the place where it stops (`Cuts.exists_alone`).
-/

namespace GameSheet.Formula

/-- The character at the offset is one of the token. -/
def Token.Covers (t : Token) (offset : Nat) : Prop :=
  t.position ≤ offset ∧ offset < t.position + t.chars.length

/-- The tokens and layout make up the text. -/
structure Lossless (cs : List Char) (tokens : List Token) : Prop where
  increasing : tokens.Pairwise fun s t => s.position < t.position
  slice : ∀ t ∈ tokens, (cs.drop t.position).take t.chars.length = t.chars
  apart : tokens.Pairwise fun s t => s.position + s.chars.length ≤ t.position
  layout : ∀ offset c, cs[offset]? = some c → (∀ t ∈ tokens, ¬t.Covers offset) → isLayout c = true

/-! ## What is cut off -/

section Cuts

variable {offset stop : Nat} {cs rest : List Char} {tokens : List Token}

/-- What is cut off lies between the two offsets, and is cut the same way by itself. -/
theorem Cuts.exists_alone (h : Cuts offset cs tokens stop rest) :
    ∃ cut, cs = cut ++ rest ∧ stop = offset + cut.length ∧ Cuts offset cut tokens stop [] := by
  induction h with
  | refl offset cs => exact ⟨[], rfl, rfl, .refl offset []⟩
  | @layout offset stop c cs rest tokens hc _ ih =>
    obtain ⟨cut, rfl, hstop, hcut⟩ := ih
    exact ⟨c :: cut, rfl, by rw [hstop, List.length_cons]; omega, .layout hc hcut⟩
  | @token offset stop c cs chars tail rest kind tokens hc ht _ ih =>
    obtain ⟨cut, rfl, hstop, hcut⟩ := ih
    obtain ⟨happend, hne⟩ := tokenAt?_append ht
    rw [happend] at ht
    have halone := tokenAt?_beginning ht
    refine ⟨chars ++ cut, by rw [happend, List.append_assoc], by rw [hstop, List.length_append]; omega, ?_⟩
    obtain ⟨c', chars, rfl⟩ := List.exists_cons_of_ne_nil hne
    obtain ⟨rfl, -⟩ := List.cons.inj happend
    exact .token hc halone hcut

theorem Cuts.chars_ne_nil (h : Cuts offset cs tokens stop rest) : ∀ t ∈ tokens, t.chars ≠ [] := by
  induction h with
  | refl => exact List.forall_mem_nil _
  | layout _ _ ih => exact ih
  | token _ ht _ ih => exact List.forall_mem_cons.2 ⟨(tokenAt?_append ht).2, ih⟩

/-- The tokens lie between the two offsets. -/
theorem Cuts.within (h : Cuts offset cs tokens stop rest) :
    offset ≤ stop ∧ ∀ t ∈ tokens, offset ≤ t.position ∧ t.position + t.chars.length ≤ stop := by
  induction h with
  | refl => exact ⟨le_rfl, List.forall_mem_nil _⟩
  | layout _ _ ih => exact ⟨by omega, fun t ht => ⟨by have := (ih.2 t ht).1; omega, (ih.2 t ht).2⟩⟩
  | token _ _ _ ih =>
    refine ⟨by omega, List.forall_mem_cons.2 ⟨⟨le_rfl, ih.1⟩, fun t ht => ⟨?_, (ih.2 t ht).2⟩⟩⟩
    have := (ih.2 t ht).1
    omega

theorem Cuts.apart (h : Cuts offset cs tokens stop rest) :
    tokens.Pairwise fun s t => s.position + s.chars.length ≤ t.position := by
  induction h with
  | refl => exact .nil
  | layout _ _ ih => exact ih
  | token _ _ htail ih => exact List.pairwise_cons.2 ⟨fun t ht => (htail.within.2 t ht).1, ih⟩

/-- What is cut off outside of the tokens is layout. -/
theorem Cuts.isLayout_of_not_covers (h : Cuts offset cs tokens stop rest) {i : Nat} {c : Char} (hc : cs[i]? = some c)
    (hi : offset + i < stop) (hout : ∀ t ∈ tokens, ¬t.Covers (offset + i)) : isLayout c = true := by
  induction h generalizing i with
  | refl => omega
  | layout hlayout _ ih =>
    cases i with
    | zero =>
      cases hc
      exact hlayout
    | succ i =>
      have hnext : ∀ {n : Nat}, n + (i + 1) = n + 1 + i := by omega
      rw [hnext] at hi hout
      exact ih hc hi hout
  | @token offset stop _ _ chars _ _ _ _ _ ht _ ih =>
    obtain ⟨hfirst, htail⟩ := List.forall_mem_cons.1 hout
    -- the offset lies behind the token
    obtain ⟨j, rfl⟩ := Nat.exists_eq_add_of_le (show chars.length ≤ i by
      simp only [Token.Covers] at hfirst
      omega)
    rw [(tokenAt?_append ht).1, List.getElem?_append_right (Nat.le_add_right _ _), Nat.add_sub_cancel_left] at hc
    rw [← Nat.add_assoc] at hi htail
    exact ih hc hi htail

/-- A text is scanned without a misfit exactly if it is cut to its end. -/
theorem scanFrom_eq_none_iff : scanFrom offset cs = (tokens, none) ↔ ∃ stop, Cuts offset cs tokens stop [] := by
  constructor
  · intro h
    fun_induction scanFrom offset cs generalizing tokens with
    | case1 offset =>
      cases h
      exact ⟨offset, .refl offset []⟩
    | case2 offset c rest hc ih =>
      obtain ⟨stop, hcuts⟩ := ih h
      exact ⟨stop, .layout hc hcuts⟩
    | case3 offset c rest hc kind chars tail ht found misfit hscan ih =>
      cases h
      obtain ⟨stop, hcuts⟩ := ih hscan
      exact ⟨stop, .token (by simpa using hc) ht hcuts⟩
    | case4 => cases h
  · rintro ⟨stop, hcuts⟩
    rw [hcuts.scanFrom_eq, scanFrom_nil, List.append_nil]

end Cuts

theorem tokenize_eq_ok_iff_cuts {cs : List Char} {tokens : List Token} :
    tokenize cs = .ok tokens ↔ ∃ stop, Cuts 0 cs tokens stop [] := by
  rw [tokenize_eq_ok_iff, scan, scanFrom_eq_none_iff]

theorem tokenize_eq_error_iff {cs : List Char} {m : Misfit} :
    tokenize cs = .error m ↔ ∃ tokens, StopsAt cs tokens m := by
  simp only [stopsAt_iff, tokenize]
  rcases scan cs with ⟨tokens, _ | m'⟩ <;> simp

/-! ## Texts that consist of tokens and texts that do not -/

theorem lossless_of_tokenize {cs : List Char} {tokens : List Token} (h : tokenize cs = .ok tokens) :
    Lossless cs tokens := by
  obtain ⟨stop, hcuts⟩ := tokenize_eq_ok_iff_cuts.1 h
  have hscan := tokenize_eq_ok_iff.1 h
  obtain ⟨cut, hcut, hstop, -⟩ := hcuts.exists_alone
  rw [List.append_nil] at hcut
  refine ⟨hcuts.apart.imp_of_mem fun {s t} hs _ hst => ?_, fun t ht => ?_, hcuts.apart, fun offset c hc hout => ?_⟩
  · have := List.length_pos_iff.2 (hcuts.chars_ne_nil s hs)
    omega
  · have hmem : t ∈ (scan cs).1 := by rwa [hscan]
    exact (List.prefix_iff_eq_take.1 (chars_isPrefix_of_mem_scan hmem)).symm
  · have hlength := (List.getElem?_eq_some_iff.1 hc).1
    refine hcuts.isLayout_of_not_covers hc (by rw [hstop, ← hcut]; omega) ?_
    rwa [Nat.zero_add]

/-- **Cutting into tokens loses nothing.**

* The tokens of a text that consists of tokens and layout have increasing positions, are what stands there, do not
  overlap, and leave layout only.
* Otherwise the misfit is the character of the text at its position, the text in front of it consists of tokens and
  layout, and neither layout nor a lexeme of any sort stands at the position. -/
theorem tokenize_lossless (cs : List Char) :
    (∀ tokens, tokenize cs = .ok tokens → Lossless cs tokens) ∧
    ∀ m, tokenize cs = .error m → cs[m.position]? = some m.char ∧
      (∃ tokens, tokenize (cs.take m.position) = .ok tokens) ∧ isLayout m.char = false ∧
      ∀ kind lexeme, lexeme <+: cs.drop m.position → ¬Lexeme kind lexeme := by
  refine ⟨fun tokens => lossless_of_tokenize, fun m h => ?_⟩
  obtain ⟨tokens, rest, hcuts, hlayout, htoken⟩ := tokenize_eq_error_iff.1 h
  obtain ⟨cut, rfl, hposition, halone⟩ := hcuts.exists_alone
  rw [Nat.zero_add] at hposition
  refine ⟨?_, ⟨tokens, ?_⟩, hlayout, fun kind lexeme hprefix => ?_⟩
  · rw [hposition, List.getElem?_append_right le_rfl, Nat.sub_self, List.getElem?_cons_zero]
  · rw [hposition, List.take_left]
    exact tokenize_eq_ok_iff_cuts.2 ⟨_, halone⟩
  · rw [hposition, List.drop_left] at hprefix
    exact not_lexeme_of_tokenAt? htoken hprefix

/-- A text that consists of tokens, and one with a character that fits nowhere. -/
theorem tokenize_lossless_samples :
    (∃ tokens, tokenize "Base >= 1.5".toList = .ok tokens ∧ Lossless "Base >= 1.5".toList tokens) ∧
    ∃ m, tokenize "1 $ 2".toList = .error m ∧ m = ⟨2, '$'⟩ ∧
      ∀ kind lexeme, lexeme <+: "1 $ 2".toList.drop 2 → ¬Lexeme kind lexeme := by
  have hok : tokenize "Base >= 1.5".toList =
      .ok [⟨.identifier, "Base".toList, 0⟩, ⟨.operator, ">=".toList, 5⟩, ⟨.number, "1.5".toList, 8⟩] := by cbv
  have herror : tokenize "1 $ 2".toList = .error ⟨2, '$'⟩ := by cbv
  exact ⟨⟨_, hok, (tokenize_lossless _).1 _ hok⟩, _, herror, rfl, ((tokenize_lossless _).2 _ herror).2.2.2⟩

end GameSheet.Formula
