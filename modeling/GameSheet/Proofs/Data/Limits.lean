import GameSheet.Proofs.Basics
import GameSheet.Proofs.Data.Grammar

/-!
# Limits of a reader

A reader with limits reads what one without them reads, unless it comes upon one of its limits; one without them comes
upon none (**`Data.within_readJson`**). The text of an integer that has more digits than the limit is not read
(`Data.readJson_exceeded`), JSON though it is.
-/

namespace GameSheet.Data

open GameSheet.Text

/-- Reading within limits comes to what reading without them comes to, or upon a limit. Without limits it comes upon
none. -/
structure Within {α : Type} (limited free : Except JsonFault α) : Prop where
  unburdened : ∀ o, free ≠ .error (.overload o)
  same : limited = free ∨ ∃ o, limited = .error (.overload o)

namespace Within

variable {α β : Type} {x y : Except JsonFault α}

theorem ok (a : α) : Within (.ok a) (.ok a) where
  unburdened _ heq := by cases heq
  same := .inl rfl

theorem malformed : Within (.error .malformed : Except JsonFault α) (.error .malformed) where
  unburdened _ heq := by cases heq
  same := .inl rfl

theorem bind {f g : α → Except JsonFault β} (h : Within x y) (hnext : ∀ a, Within (f a) (g a)) :
    Within (x >>= f) (y >>= g) := by
  obtain ⟨hfree, rfl | ⟨o, rfl⟩⟩ := h
  · cases x with
    | ok a => exact hnext a
    | error fault => exact ⟨fun o heq => hfree o (congrArg _ (Except.error.inj heq)), .inl rfl⟩
  · refine ⟨fun o' heq => ?_, .inr ⟨o, rfl⟩⟩
    cases y with
    | ok a => exact (hnext a).unburdened o' heq
    | error fault => exact hfree o' (congrArg _ (Except.error.inj heq))

end Within

section Reading

variable (r : Reader)

theorem within_readNumber (negative : Bool) (cs : List Char) :
    Within (readNumber r negative cs) (readNumber (.free r.standIn) negative cs) := by
  have hdigits : ∀ count : Nat, (Reader.free r.standIn).digits.filter (· < count) = none := fun _ => rfl
  unfold readNumber
  split
  · exact .malformed
  · dsimp only
    split
    · rw [hdigits]
      split
      · exact ⟨(Within.ok _).unburdened, .inr ⟨_, rfl⟩⟩
      · exact .ok _
    · exact .ok _

theorem within_readScalar (cs : List Char) : Within (readScalar r cs) (readScalar (.free r.standIn) cs) := by
  unfold readScalar
  split
  · exact .ok _
  · split
    · exact within_readNumber r true _
    · exact within_readNumber r false _

theorem within_readText (cs : List Char) : Within (readText r cs) (readText (.free r.standIn) cs) := by
  have hsame : readText (.free r.standIn) cs = readText r cs := rfl
  rw [hsame, readText]
  cases readString r.standIn [] cs with
  | none => exact .malformed
  | some found => exact .ok found

/-- A list or a mapping is opened where there is a level left. -/
theorem within_levelsInside {α : Type} (sort : String) (levels : Option Nat) {f g : Option Nat → Except JsonFault α}
    (h : ∀ inside, Within (f inside) (g none)) :
    Within (levelsInside sort levels >>= f) (levelsInside sort none >>= g) := by
  cases levels with
  | none => exact h none
  | some levels =>
    cases levels with
    | zero => exact ⟨(h none).unburdened, .inr ⟨_, rfl⟩⟩
    | succ levels => exact h (some levels)

/-- Reading from the front of a text, through at most so many steps. -/
theorem within_read (fuel : Nat) : ∀ levels : Option Nat,
    (∀ cs, Within (readValue r fuel levels cs) (readValue (.free r.standIn) fuel none cs)) ∧
      (∀ done cs, Within (readItems r fuel levels done cs) (readItems (.free r.standIn) fuel none done cs)) ∧
      ∀ done cs, Within (readEntries r fuel levels done cs) (readEntries (.free r.standIn) fuel none done cs) := by
  induction fuel with
  | zero => exact fun levels => ⟨fun _ => .malformed, fun _ _ => .malformed, fun _ _ => .malformed⟩
  | succ fuel ih =>
    intro levels
    obtain ⟨hvalue, hitems, hentries⟩ := ih levels
    refine ⟨fun cs => ?_, fun done cs => ?_, fun done cs => ?_⟩
    · unfold readValue
      split
      · exact (within_readText r _).bind fun found => .ok (text found.1, found.2)
      · refine within_levelsInside _ _ fun inside => ?_
        split
        · exact .ok _
        · exact (ih inside).2.1 _ _
      · refine within_levelsInside _ _ fun inside => ?_
        split
        · exact .ok _
        · exact (ih inside).2.2 _ _
      · exact within_readScalar r cs
    · unfold readItems
      refine (hvalue cs).bind ?_
      rintro ⟨d, rest⟩
      dsimp only
      split
      · exact hitems _ _
      · exact .ok _
      · exact .malformed
    · unfold readEntries
      split
      · refine (within_readText r _).bind ?_
        rintro ⟨key, rest⟩
        dsimp only
        split
        · refine (hvalue _).bind ?_
          rintro ⟨d, rest⟩
          dsimp only
          split
          · exact hentries _ _
          · exact .ok _
          · exact .malformed
        · exact .malformed
      · exact .malformed

/-- **Reading with limits comes to what reading without them comes to**, or upon a limit. -/
theorem within_readJson (cs : List Char) : Within (readJson r cs) (readJson (.free r.standIn) cs) := by
  refine ((within_read r _ _).1 _).bind ?_
  rintro ⟨d, rest⟩
  dsimp only
  split
  · exact .ok d
  · exact .malformed

/-- An integer of too many digits is not read. -/
theorem readJson_exceeded (negative : Bool) {n : Decimal.Numeral} (hn : n.Tidy) {limit : Nat}
    (h : r.exceeded? n = some limit) :
    readJson r (minus negative ++ n.chars) = .error (.overload (.digits limit n.whole.length)) := by
  have hvalue : JsonText false replacement (.value (numberData negative n)) (minus negative ++ n.chars) :=
    .number negative hn
  have hblanks := hvalue.skipBlanks_value []
  have hread := readValue_number r (2 * (minus negative ++ n.chars).length) r.levels negative hn
    (by simp [Ends] : Ends [])
  rw [List.append_nil] at hblanks hread
  rw [readJson, hblanks, hread, Reader.number, h]
  rfl

end Reading

end GameSheet.Data
