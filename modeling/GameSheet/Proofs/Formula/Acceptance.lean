import GameSheet.Proofs.Formula.Completeness
import GameSheet.Proofs.Formula.Lexing
import GameSheet.Proofs.Formula.Names
import GameSheet.Proofs.Formula.Soundness
import GameSheet.Proofs.Formula.Unambiguous

/-!
# What the parser accepts

The parts come together. A body that consists of tokens and layout is read to a phrase exactly if its tokens have a
parse tree: one direction is the soundness of the reading (`exists_derivation_of_readPhrase`), the other its
completeness, which needs that number tokens are numerals (`readPhrase_of_tokenize`). The phrase is accepted exactly if
its names fit.

* **Acceptance** (`parse_derives`): the parser accepts what the grammar derives and the registry knows, with the tree
  of the only derivation.
-/

namespace GameSheet.Formula

theorem tokenize_eq_ok_iff {cs : List Char} {tokens : List Token} :
    tokenize cs = .ok tokens ↔ scan cs = (tokens, none) := by
  unfold tokenize
  rcases scan cs with ⟨found, _ | misfit⟩
  · simp
  · simp

/-- A body that is read to a phrase has tokens with a parse tree: they are all read, no character is left over, and
the text may end. -/
theorem exists_derivation_of_readPhrase {cs : List Char} {p : Phrase} (h : readPhrase cs = .ok p) :
    ∃ d : Derivation .start, tokenize cs = .ok d.tokens ∧ d.phrase = p := by
  unfold readPhrase at h
  split at h
  · cases h
  · rcases hscan : scan cs with ⟨tokens, misfit⟩
    rw [hscan] at h
    dsimp only at h
    cases hr : Reading.start.steps tokens with
    | error t =>
      rw [hr] at h
      cases h
    | ok r =>
      rw [hr] at h
      cases misfit with
      | some m => cases h
      | none =>
        cases hf : r.finish with
        | ok q =>
          simp only [hf, Except.ok.injEq] at h
          subst h
          obtain ⟨d, rfl, hd⟩ := exists_derivation_of_read hr hf
          exact ⟨d, tokenize_eq_ok_iff.2 hscan, hd⟩
        | error u =>
          simp only [hf] at h
          cases u <;> cases h

/-- A body whose tokens have a parse tree is read to its phrase. -/
theorem readPhrase_of_tokenize {cs : List Char} {d : Derivation .start} (hd : tokenize cs = .ok d.tokens) :
    readPhrase cs = .ok d.phrase := by
  have hscan := tokenize_eq_ok_iff.1 hd
  have hblank : ¬ cs.all Text.isBlank = true := by
    intro hall
    have hnil := scan_blank hall
    rw [hscan] at hnil
    exact d.tokens_ne_nil hnil
  have hreadable : ∀ t ∈ d.tokens, t.Readable := by
    intro t ht
    have hmem : t ∈ (scan cs).1 := by
      rw [hscan]
      exact ht
    exact readable_of_mem_scan hmem
  obtain ⟨r, hr, hf⟩ := d.read hreadable
  simp only [readPhrase, if_neg hblank, hscan, hr, hf]

/-- **Acceptance.** The parser gives a tree for a body exactly if the body consists of tokens that the grammar derives,
the names fit the registry, and it is the tree of the derivation. There is one derivation at most, and the positions
of its tokens, from which the tree has its own, are their offsets in the body. -/
theorem parse_derives {registry : Registry} (href : registry.ReferenceTakesThree) (body : String) :
    (∀ e, parse registry body = .ok e ↔
      ∃ d : Derivation .start, tokenize body.toList = .ok d.tokens ∧ d.phrase.Fits registry ∧ e = d.phrase.tree) ∧
    (∀ d d' : Derivation .start, tokenize body.toList = .ok d.tokens → tokenize body.toList = .ok d'.tokens →
      d = d') ∧
    ∀ d : Derivation .start, tokenize body.toList = .ok d.tokens → ∀ t ∈ d.tokens,
      t.chars <+: body.toList.drop t.position := by
  refine ⟨fun e => ?_, fun d d' h h' => ?_, fun d h t ht => ?_⟩
  · rw [parse, bind_eq_ok_iff]
    constructor
    · rintro ⟨p, hp, he⟩
      obtain ⟨d, hd, rfl⟩ := exists_derivation_of_readPhrase hp
      obtain ⟨hfits, rfl⟩ := (Phrase.check_eq_ok_iff href d.phrase e).1 he
      exact ⟨d, hd, hfits, rfl⟩
    · rintro ⟨d, hd, hfits, rfl⟩
      exact ⟨d.phrase, readPhrase_of_tokenize hd, (Phrase.check_eq_ok_iff href _ _).2 ⟨hfits, rfl⟩⟩
  · rw [h] at h'
    exact Derivation.tokens_injective (Except.ok.inj h')
  · rw [tokenize_eq_ok_iff] at h
    apply chars_isPrefix_of_mem_scan
    rw [h]
    exact ht

theorem parse_derives_sample : Registry.standard.ReferenceTakesThree ∧
    ∃ d : Derivation .start, tokenize "Net * (Tax + PREV.Net) <> -Net ^ Rate".toList = .ok d.tokens ∧
      d.phrase.Fits Registry.standard ∧
      Expr.binary .ne
        (.binary .mul (.ref (.column "Net" 0)) (.binary .add (.ref (.column "Tax" 7)) (.ref (.previous "Net" 13))))
        (.negate (.binary .pow (.ref (.column "Net" 27)) (.ref (.column "Rate" 33)))) = d.phrase.tree := by
  refine ⟨Registry.standard_referenceTakesThree, ?_⟩
  refine ((parse_derives Registry.standard_referenceTakesThree "Net * (Tax + PREV.Net) <> -Net ^ Rate").1 _).1 ?_
  cbv

end GameSheet.Formula
