import GameSheet.Proofs.Basics
import GameSheet.Text.Upper

/-!
# Upper case is stable

The upper-case form of a text is its own upper-case form (**`Text.upper_upper`**): no character in the upper-case form
of a character has an upper-case form other than itself. For the runs of the table this is checked run against run, by
the places where the images begin and end, and only where these overlap character by character.
-/

namespace GameSheet.Text

/-! ## Runs -/

namespace CaseRun

/-- The code point of the upper-case form of a character of the run. -/
def image (r : CaseRun) (code : Nat) : Nat :=
  (code + r.offset).toNat

/-- Whether no upper-case form of a character of the run belongs to another run. -/
def avoids (r other : CaseRun) : Bool :=
  (r.image r.last).blt other.first || other.last.blt (r.image r.first) ||
    (List.range ((r.last - r.first) / r.step + 1)).all fun i => !other.contains (r.image (r.first + i * r.step))

/-- Whether all upper-case forms lie on one side of the code points that are no characters. -/
def isValid (r : CaseRun) : Bool :=
  (r.image r.last).blt 0xD800 || Nat.blt 0xDFFF (r.image r.first) && (r.image r.last).blt 0x110000

variable {r other : CaseRun} {code : Nat}

theorem bounds_of_contains (h : r.contains code = true) : r.first ≤ code ∧ code ≤ r.last := by
  simp only [contains, Bool.and_eq_true, decide_eq_true_eq] at h
  exact h.1

theorem image_mono {m n : Nat} (h : m ≤ n) : r.image m ≤ r.image n := by
  unfold image
  omega

/-- A character of a run stands a whole number of steps behind the first one. -/
theorem exists_step (h : r.contains code = true) :
    ∃ i < (r.last - r.first) / r.step + 1, r.first + i * r.step = code := by
  obtain ⟨hfirst, hlast⟩ := bounds_of_contains h
  simp only [contains, Bool.and_eq_true, beq_iff_eq] at h
  refine ⟨(code - r.first) / r.step, Nat.lt_succ_of_le (Nat.div_le_div_right (by omega)), ?_⟩
  rw [Nat.div_mul_cancel (Nat.dvd_of_mod_eq_zero h.2)]
  omega

theorem not_contains_image (hr : r.avoids other = true) (h : r.contains code = true) :
    other.contains (r.image code) = false := by
  obtain ⟨hfirst, hlast⟩ := bounds_of_contains h
  have hlow : r.image r.first ≤ r.image code := image_mono hfirst
  have hhigh : r.image code ≤ r.image r.last := image_mono hlast
  rw [avoids, Bool.or_eq_true, Bool.or_eq_true, Nat.blt_eq, Nat.blt_eq] at hr
  rcases hr with (hbefore | hafter) | hsteps
  · refine Bool.eq_false_iff.2 fun hc => ?_
    have := (bounds_of_contains hc).1
    omega
  · refine Bool.eq_false_iff.2 fun hc => ?_
    have := (bounds_of_contains hc).2
    omega
  · obtain ⟨i, hi, rfl⟩ := exists_step h
    simpa using List.all_eq_true.1 hsteps i (List.mem_range.2 hi)

/-- The upper-case forms of the characters of a valid run are characters. -/
theorem toNat_ofNat_image (hr : r.isValid = true) (h : r.contains code = true) :
    (Char.ofNat (r.image code)).toNat = r.image code := by
  obtain ⟨hfirst, hlast⟩ := bounds_of_contains h
  have hlow : r.image r.first ≤ r.image code := image_mono hfirst
  have hhigh : r.image code ≤ r.image r.last := image_mono hlast
  have hvalid : (r.image code).isValidChar := by
    simp only [isValid, Bool.or_eq_true, Bool.and_eq_true, Nat.blt_eq] at hr
    unfold Nat.isValidChar
    omega
  rw [Char.ofNat, dif_pos hvalid]
  rfl

end CaseRun

/-! ## Characters -/

/-- The characters beyond ASCII with an upper-case form other than themselves, and the letters a to z, as runs. -/
def casedRuns : List CaseRun :=
  upperRuns ++ upperExpansions.map fun (code, _) => ⟨code, code, 1, 0⟩

/-- The characters of ASCII keep to it, and those in upper case stay as they are. -/
theorem toUpper_ascii : ∀ code < 0x80, (Char.ofNat code).toUpper.toNat < 0x80 ∧
    (Char.ofNat code).toUpper.toUpper = (Char.ofNat code).toUpper ∧
      (CaseRun.contains ⟨0x61, 0x7A, 1, -32⟩ code = false → (Char.ofNat code).toUpper = Char.ofNat code) := by
  decide +kernel

/-- A character outside of these runs is its own upper-case form. -/
theorem upperChar_of_not_cased {c : Char} (h : ∀ r ∈ casedRuns, r.contains c.toNat = false) : upperChar c = [c] := by
  simp only [casedRuns, List.forall_mem_append, List.forall_mem_map] at h
  obtain ⟨hruns, hexpansions⟩ := h
  rw [upperChar]
  split_ifs with hascii
  · have hupper := (toUpper_ascii c.toNat hascii).2.2 (hruns _ (.head _))
    rw [Char.ofNat_toNat] at hupper
    rw [hupper]
  · have hlookup : upperExpansions.lookup c.toNat = none := by
      refine List.lookup_eq_none_iff.2 fun e he => ?_
      have := hexpansions e he
      simp only [CaseRun.contains, Nat.mod_one, beq_self_eq_true, Bool.and_true, Bool.and_eq_false_imp,
        decide_eq_true_eq, decide_eq_false_iff_not] at this
      simp only [bne_iff_ne, ne_eq]
      omega
    have hfind : upperRuns.find? (·.contains c.toNat) = none := by
      simpa [List.find?_eq_none] using hruns
    rw [hlookup, hfind]

theorem avoids_of_mem : ∀ r ∈ upperRuns, r.isValid = true ∧ ∀ other ∈ casedRuns, r.avoids other = true := by
  have hall : (upperRuns.all fun r => r.isValid && casedRuns.all r.avoids) = true := by decide +kernel
  simpa only [List.all_eq_true, Bool.and_eq_true] using hall

theorem upperChar_of_mem_expansion :
    ∀ e ∈ upperExpansions, ∀ code ∈ e.2, upperChar (Char.ofNat code) = [Char.ofNat code] := by
  decide +kernel

/-- Every character in an upper-case form is its own upper-case form. -/
theorem upperChar_of_mem_upperChar {c d : Char} (h : d ∈ upperChar c) : upperChar d = [d] := by
  rw [upperChar] at h
  split_ifs at h with hascii
  · obtain rfl := List.mem_singleton.1 h
    have hupper := toUpper_ascii c.toNat hascii
    rw [Char.ofNat_toNat] at hupper
    rw [upperChar, if_pos hupper.1, hupper.2.1]
  · split at h
    case h_1 codes hlookup =>
      obtain ⟨code, hcode, rfl⟩ := List.mem_map.1 h
      exact upperChar_of_mem_expansion _ (mem_of_lookup hlookup) code hcode
    case h_2 hlookup =>
      split at h
      case h_1 r hfind =>
        obtain rfl := List.mem_singleton.1 h
        have hcontains : r.contains c.toNat = true := by simpa using List.find?_some hfind
        obtain ⟨hvalid, havoids⟩ := avoids_of_mem r (List.mem_of_find?_eq_some hfind)
        refine upperChar_of_not_cased fun other hother => ?_
        have hcode : (Char.ofNat (c.toNat + r.offset).toNat).toNat = r.image c.toNat :=
          CaseRun.toNat_ofNat_image hvalid hcontains
        rw [hcode]
        exact CaseRun.not_contains_image (havoids other hother) hcontains
      case h_2 hfind =>
        obtain rfl := List.mem_singleton.1 h
        rw [upperChar, if_neg hascii, hlookup, hfind]

/-! ## Texts -/

/-- **The upper-case form of a text is its own upper-case form.** -/
theorem upper_upper (s : String) : upper (upper s) = upper s := by
  have hfixed : ∀ cs : List Char, (∀ c ∈ cs, upperChar c = [c]) → cs.flatMap upperChar = cs := fun cs hcs => by
    rw [List.flatMap_congr hcs, List.flatMap_singleton']
  rw [upper, upper, String.toList_ofList, hfixed]
  intro d hd
  obtain ⟨c, _, hc⟩ := List.mem_flatMap.1 hd
  exact upperChar_of_mem_upperChar hc

end GameSheet.Text
