import GameSheet.Proofs.Data.Grammar

/-!
# Characters of JSON texts

A JSON text has no control characters other than blanks (`Data.JsonText.orderly`), and outside of its strings no capital
letter but the mark of an exponent. So a text is no JSON in the sense of RFC 8259 if a word such as `Infinity` stands in
it outside of strings (**`Data.not_isJson_of_capital`**).
-/

namespace GameSheet.Data

open GameSheet.Text

/-! ## Strings in a text -/

/-- Where a character of a text stands. -/
inductive Place where
  | outside
  | inside
  /-- Inside of a string, after a backslash. -/
  | escaped
  deriving DecidableEq

/-- Where the next character stands. -/
def Place.next : Place → Char → Place
  | outside, c => if c = '"' then inside else outside
  | inside, c => if c = '"' then outside else if c = '\\' then escaped else inside
  | escaped, _ => inside

/-- The characters outside of strings. -/
def bare : Place → List Char → List Char
  | _, [] => []
  | .outside, c :: cs => c :: bare (Place.outside.next c) cs
  | p, c :: cs => bare (p.next c) cs

theorem bare_append (p : Place) (cs ds : List Char) :
    bare p (cs ++ ds) = bare p cs ++ bare (cs.foldl Place.next p) ds := by
  induction cs generalizing p with
  | nil => rfl
  | cons c cs ih => cases p <;> simp [bare, ih]

/-- A character that may stand outside of strings. -/
def isBare (c : Char) : Bool :=
  c != '"' && (!c.isUpper || c == 'E') && (decide (0x20 ≤ c.toNat) || isJsonBlank c)

/-- Every string in the text is closed, no character of it is a control character other than a blank, and unless words
stand for floats there are no capital letters outside of strings but the mark of an exponent. -/
structure Orderly (extended : Bool) (cs : List Char) : Prop where
  closed : cs.foldl Place.next .outside = .outside
  characters : ∀ c ∈ cs, 0x20 ≤ c.toNat ∨ isJsonBlank c = true
  capitals : extended = false → ∀ c ∈ bare .outside cs, c.isUpper = true → c = 'E'

section Orderly

variable {extended : Bool} {standIn : Nat → Char} {cs ds s : List Char}

theorem Orderly.append (h : Orderly extended cs) (h' : Orderly extended ds) : Orderly extended (cs ++ ds) where
  closed := by rw [List.foldl_append, h.closed, h'.closed]
  characters := List.forall_mem_append.2 ⟨h.characters, h'.characters⟩
  capitals hextended := by
    rw [bare_append, h.closed]
    exact List.forall_mem_append.2 ⟨h.capitals hextended, h'.capitals hextended⟩

/-- Characters of no string. -/
theorem foldl_of_notMem (h : '"' ∉ cs) : cs.foldl Place.next .outside = .outside ∧ bare .outside cs = cs := by
  induction cs with
  | nil => exact ⟨rfl, rfl⟩
  | cons c cs ih =>
    rw [List.mem_cons, not_or] at h
    obtain ⟨hclosed, hbare⟩ := ih h.2
    have hnext : Place.outside.next c = .outside := if_neg (Ne.symm h.1)
    exact ⟨by rw [List.foldl_cons, hnext, hclosed], by rw [bare, hnext, hbare]⟩

theorem orderly_of_bare (h : ∀ c ∈ cs, isBare c = true) : Orderly extended cs := by
  simp only [isBare, Bool.and_eq_true, Bool.or_eq_true, bne_iff_ne, decide_eq_true_eq, Bool.not_eq_true',
    beq_iff_eq] at h
  obtain ⟨hclosed, hbare⟩ := foldl_of_notMem fun hquote => (h '"' hquote).1.1 rfl
  refine ⟨hclosed, fun c hc => (h c hc).2, fun _ c hc hupper => ?_⟩
  rw [hbare] at hc
  refine (h c hc).1.2.resolve_left ?_
  rw [hupper]
  decide

theorem orderly_blank (h : Blank cs) : Orderly extended cs := by
  refine orderly_of_bare fun c hc => ?_
  rcases isJsonBlank_iff.1 (h c hc) with rfl | rfl | rfl | rfl <;> decide

theorem orderly_number (negative : Bool) {n : Decimal.Numeral} (h : n.Tidy) :
    Orderly extended (minus negative ++ n.chars) := by
  refine Orderly.append (orderly_of_bare ?_) (orderly_of_bare fun c hc => ?_)
  · cases negative <;> exact forall_mem_of_all (by decide)
  · rcases Decimal.Numeral.mem_chars h.inOrder hc with hdigit | hmark
    · have hrange := Decimal.toNat_of_isAsciiDigit hdigit
      have hupper : c.isUpper = false := by
        refine decide_eq_false fun hletter => ?_
        have hcapital : 65 ≤ c.toNat := UInt32.le_iff_toNat_le.1 hletter.1
        omega
      have hquote : c ≠ '"' := (ne_of_isAsciiDigit hdigit (by decide)).symm
      simp only [isBare, hupper, Bool.not_false, Bool.true_or, Bool.and_true, Bool.and_eq_true, Bool.or_eq_true,
        bne_iff_ne, decide_eq_true_eq]
      exact ⟨hquote, .inl (by omega)⟩
    · have hmarks : ∀ c ∈ ['.', 'e', 'E', '+', '-'], isBare c = true :=
        forall_mem_of_all (by decide)
      exact hmarks c hmark

/-- A hexadecimal digit neither ends a string nor escapes. -/
theorem next_of_hexValue? {c : Char} {n : Nat} (h : hexValue? c = some n) :
    Place.inside.next c = .inside ∧ 0x20 ≤ c.toNat := by
  have hrange : 48 ≤ c.toNat := by
    unfold hexValue? at h
    simp only [Bool.and_eq_true, decide_eq_true_eq, Char.le_def, UInt32.le_iff_toNat_le] at h
    split at h
    · next hdigit => exact hdigit.1
    · split at h
      · next hsmall => exact Nat.le_trans (by decide) hsmall.1
      · split at h
        · next hlarge => exact Nat.le_trans (by decide) hlarge.1
        · cases h
  have hquote : c ≠ '"' := by
    rintro rfl
    exact absurd hrange (by decide)
  have hslash : c ≠ '\\' := by
    rintro rfl
    cases h
  exact ⟨by rw [Place.next, if_neg hquote, if_neg hslash], by omega⟩

theorem hexValue?_of_unit? {a b c d : Char} {unit : Nat} (h : unit? a b c d = some unit) :
    ∀ x ∈ [a, b, c, d], ∃ n, hexValue? x = some n := by
  simp only [unit?, bind, Option.bind_eq_some_iff] at h
  obtain ⟨n, ha, m, hb, k, hc, l, hd, -⟩ := h
  simp [ha, hb, hc, hd]

/-- What is quoted does not end its string and stands inside of it. -/
structure Kept (cs : List Char) : Prop where
  closed : cs.foldl Place.next .inside = .inside
  nothing : bare .inside cs = []
  characters : ∀ c ∈ cs, 0x20 ≤ c.toNat

theorem Kept.append (h : Kept cs) (h' : Kept ds) : Kept (cs ++ ds) where
  closed := by rw [List.foldl_append, h.closed, h'.closed]
  nothing := by rw [bare_append, h.closed, h.nothing, h'.nothing, List.append_nil]
  characters := List.forall_mem_append.2 ⟨h.characters, h'.characters⟩

theorem kept_unit {a b c d : Char} {unit : Nat} (h : unit? a b c d = some unit) : Kept ['\\', 'u', a, b, c, d] := by
  have hhex : ∀ x ∈ [a, b, c, d], Place.inside.next x = .inside ∧ 0x20 ≤ x.toNat := fun x hx => by
    obtain ⟨n, hn⟩ := hexValue?_of_unit? h x hx
    exact next_of_hexValue? hn
  simp only [List.forall_mem_cons] at hhex
  obtain ⟨⟨ha, ha'⟩, ⟨hb, hb'⟩, ⟨hc, hc'⟩, ⟨hd, hd'⟩, -⟩ := hhex
  have hslash : Place.inside.next '\\' = .escaped := by decide
  have hu : Place.escaped.next 'u' = .inside := rfl
  refine ⟨?_, ?_, ?_⟩
  · simp only [List.foldl_cons, List.foldl_nil, hslash, hu, ha, hb, hc, hd]
  · simp only [bare, hslash, hu, ha, hb, hc]
  · simp [ha', hb', hc', hd']

theorem Quoted.kept (h : Quoted standIn cs s) : Kept cs := by
  induction h with
  | nil => exact ⟨rfl, rfl, List.forall_mem_nil _⟩
  | @plain c cs s hcontrol hquote hslash _ ih =>
    have hnext : Place.inside.next c = .inside := by rw [Place.next, if_neg hquote, if_neg hslash]
    have hone : Kept [c] := ⟨hnext, by simp [bare], List.forall_mem_singleton.2 hcontrol⟩
    exact hone.append ih
  | @letter c e cs s hescape _ ih =>
    have hcontrol : 0x20 ≤ c.toNat := by
      by_contra hlt
      have hne : ∀ x : Char, 0x20 ≤ x.toNat → ¬c = x := by
        rintro x hx rfl
        exact hlt hx
      simp [readString.escape?, hne] at hescape
    have hone : Kept ['\\', c] := ⟨rfl, rfl, by simp [hcontrol]⟩
    exact hone.append ih
  | unit hunit _ _ ih => exact (kept_unit hunit).append ih
  | pair hhigh hlow _ _ _ ih => exact (kept_unit hhigh).append ((kept_unit hlow).append ih)

theorem orderly_string (h : Quoted standIn cs s) : Orderly extended ('"' :: (cs ++ ['"'])) := by
  have hopen : Place.outside.next '"' = .inside := by decide
  have hclose : Place.inside.next '"' = .outside := by decide
  have hkept := h.kept
  refine ⟨?_, ?_, fun _ => ?_⟩
  · rw [List.foldl_cons, hopen, List.foldl_append, hkept.closed]
    rfl
  · refine List.forall_mem_cons.2 ⟨.inl (by decide), List.forall_mem_append.2 ⟨fun c hc => ?_, ?_⟩⟩
    · exact .inl (hkept.characters c hc)
    · exact List.forall_mem_singleton.2 (.inl (by decide))
  · rw [bare, hopen, bare_append, hkept.nothing, hkept.closed]
    exact forall_mem_of_all (by decide)

end Orderly

/-- **Every part of a JSON text is orderly.** -/
theorem JsonText.orderly {extended : Bool} {standIn : Nat → Char} {p : Part} {cs : List Char}
    (h : JsonText extended standIn p cs) : Orderly extended cs := by
  have hbare : ∀ c ∈ ['[', ']', '\x7b', '\x7d', ',', ':'], isBare c = true := forall_mem_of_all (by decide)
  have hmark : ∀ c ∈ ['[', ']', '\x7b', '\x7d', ',', ':'], Orderly extended [c] := fun c hc =>
    orderly_of_bare (List.forall_mem_singleton.2 (hbare c hc))
  induction h with
  | null => exact orderly_of_bare (forall_mem_of_all (by decide))
  | bool b => cases b <;> exact orderly_of_bare (forall_mem_of_all (by decide))
  | number negative hn => exact orderly_number negative hn
  | string hquoted => exact orderly_string hquoted
  | nan hextended => exact ⟨by decide, forall_mem_of_all (by decide), by rw [hextended]; nofun⟩
  | infinity negative hextended =>
    cases negative with
    | false => exact ⟨by decide, forall_mem_of_all (by decide), by rw [hextended]; nofun⟩
    | true => exact ⟨by decide, forall_mem_of_all (by decide), by rw [hextended]; nofun⟩
  | emptyArray hblanks =>
    exact (hmark '[' (by decide)).append ((orderly_blank hblanks).append (hmark ']' (by decide)))
  | array _ ih => exact (hmark '[' (by decide)).append (ih.append (hmark ']' (by decide)))
  | emptyObject hblanks =>
    exact (hmark '\x7b' (by decide)).append ((orderly_blank hblanks).append (hmark '\x7d' (by decide)))
  | object _ ih => exact (hmark '\x7b' (by decide)).append (ih.append (hmark '\x7d' (by decide)))
  | element hbefore _ hafter ih => exact ((orderly_blank hbefore).append ih).append (orderly_blank hafter)
  | oneElement _ ih => exact ih
  | moreElements _ _ ih ihs => exact ih.append ((hmark ',' (by decide)).append ihs)
  | @member d before cs s between ds hbefore hkey hbetween _ ih =>
    have hstring : Orderly extended _ := orderly_string hkey
    have hrest := (orderly_blank hbefore).append
      (hstring.append ((orderly_blank hbetween).append ((hmark ':' (by decide)).append ih)))
    simpa using hrest
  | oneMember _ ih => exact ih
  | moreMembers _ _ ih ihs => exact ih.append ((hmark ',' (by decide)).append ihs)

/-- **No JSON text has a capital letter outside of strings**, but the mark of an exponent. -/
theorem not_isJson_of_capital {front back : List Char} {c : Char} (hfront : front.foldl Place.next .outside = .outside)
    (hupper : c.isUpper = true) (hc : c ≠ 'E') (d : Data) : ¬IsJson (front ++ c :: back) d := by
  intro h
  refine hc (h.orderly.capitals rfl c ?_ hupper)
  rw [bare_append, hfront, bare]
  exact List.mem_append_right _ List.mem_cons_self

/-- The text of a float that is not finite starts with a capital letter, after a minus for a negative one. -/
theorem exists_capital {x : Float} (h : x.isFinite = false) : ∃ (negative : Bool) (c : Char) (word : List Char),
    (float x).json.toList = minus negative ++ c :: word ∧ c.isUpper = true ∧ c ≠ 'E' := by
  rcases toList_json_float x with ⟨-, htext, -⟩ | ⟨negative, -, htext, -⟩ | ⟨n, negative, hx, -⟩
  · exact ⟨false, 'N', _, htext, by decide, by decide⟩
  · cases negative with
    | false => exact ⟨false, 'I', _, htext, by decide, by decide⟩
    | true => exact ⟨true, 'I', _, htext, by decide, by decide⟩
  · rw [hx] at h
    cases h

end GameSheet.Data
