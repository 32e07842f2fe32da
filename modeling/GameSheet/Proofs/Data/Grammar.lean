import GameSheet.Proofs.Data.Scalars
import GameSheet.Proofs.Data.Strings

/-!
# The grammar of JSON

The texts of JSON with the data that they denote (`Data.JsonText`), by the grammar of RFC 8259, or with the words for
NaN and the infinities beside it. A reader without limits reads every such text as the data that it denotes, whether it
has these words or not: **`Data.JsonText.readJson`**.

A value is read from the front of a text, whatever ends it. The steps that reading needs are bounded by the length of
the text, so the induction over the grammar carries that bound (`Data.JsonText.reads`).
-/

namespace GameSheet.Data

open GameSheet.Text

/-! ## The grammar -/

/-- Blanks and nothing else. -/
def Blank (cs : List Char) : Prop :=
  ∀ c ∈ cs, isJsonBlank c = true

/-- A part of a JSON text and what it denotes. -/
inductive Part where
  | value (d : Data)
  /-- A value between blanks. -/
  | element (d : Data)
  /-- Elements with commas between them. -/
  | elements (items : List Data)
  /-- A key and its element. -/
  | member (key : String) (d : Data)
  /-- Members with commas between them. -/
  | members (entries : List (String × Data))

/-- The mapping that members denote: of entries with one key the last value counts. -/
def ofEntries (done entries : List (String × Data)) : Data :=
  mapping (entries.foldl (fun done e => setEntry e.1 e.2 done) done)

/-- The text is a part of a JSON text, by the grammar of RFC 8259 or, where it is `extended`, with words for the floats
that are not finite. Other characters stand in for surrogates that stand alone. -/
inductive JsonText (extended : Bool) (standIn : Nat → Char) : Part → List Char → Prop
  | null : JsonText extended standIn (.value null) "null".toList
  | bool (b : Bool) : JsonText extended standIn (.value (bool b)) (if b then "true" else "false").toList
  | number (negative : Bool) {n : Decimal.Numeral} : n.Tidy →
      JsonText extended standIn (.value (numberData negative n)) (minus negative ++ n.chars)
  | string {cs s : List Char} : Quoted standIn cs s →
      JsonText extended standIn (.value (text (String.ofList s))) ('"' :: (cs ++ ['"']))
  | nan : extended = true → JsonText extended standIn (.value (float (0.0 / 0.0))) "NaN".toList
  | infinity (negative : Bool) : extended = true →
      JsonText extended standIn (.value (float (if negative then -1.0 / 0.0 else 1.0 / 0.0)))
        (if negative then "-Infinity" else "Infinity").toList
  | emptyArray {blanks : List Char} : Blank blanks →
      JsonText extended standIn (.value (list [])) ('[' :: (blanks ++ [']']))
  | array {items : List Data} {cs : List Char} : JsonText extended standIn (.elements items) cs →
      JsonText extended standIn (.value (list items)) ('[' :: (cs ++ [']']))
  | emptyObject {blanks : List Char} : Blank blanks →
      JsonText extended standIn (.value (mapping [])) ('\x7b' :: (blanks ++ ['\x7d']))
  | object {entries : List (String × Data)} {cs : List Char} : JsonText extended standIn (.members entries) cs →
      JsonText extended standIn (.value (ofEntries [] entries)) ('\x7b' :: (cs ++ ['\x7d']))
  | element {d : Data} {before cs after : List Char} : Blank before → JsonText extended standIn (.value d) cs →
      Blank after → JsonText extended standIn (.element d) (before ++ cs ++ after)
  | oneElement {d : Data} {cs : List Char} : JsonText extended standIn (.element d) cs →
      JsonText extended standIn (.elements [d]) cs
  | moreElements {d : Data} {items : List Data} {cs ds : List Char} : JsonText extended standIn (.element d) cs →
      JsonText extended standIn (.elements items) ds →
      JsonText extended standIn (.elements (d :: items)) (cs ++ ',' :: ds)
  | member {d : Data} {before cs s between ds : List Char} : Blank before → Quoted standIn cs s → Blank between →
      JsonText extended standIn (.element d) ds →
      JsonText extended standIn (.member (String.ofList s) d) (before ++ '"' :: (cs ++ '"' :: (between ++ ':' :: ds)))
  | oneMember {key : String} {d : Data} {cs : List Char} : JsonText extended standIn (.member key d) cs →
      JsonText extended standIn (.members [(key, d)]) cs
  | moreMembers {key : String} {d : Data} {entries : List (String × Data)} {cs ds : List Char} :
      JsonText extended standIn (.member key d) cs → JsonText extended standIn (.members entries) ds →
      JsonText extended standIn (.members ((key, d) :: entries)) (cs ++ ',' :: ds)

/-- The text is a JSON text in the sense of RFC 8259 that denotes the data. -/
def IsJson (cs : List Char) (d : Data) : Prop :=
  JsonText false replacement (.element d) cs

/-! ## Blanks -/

section Blanks

variable {c : Char} {before cs rest : List Char}

theorem skipBlanks_of_head (hc : isJsonBlank c = false) : skipBlanks (c :: cs) = c :: cs := by
  simp [skipBlanks, hc]

theorem Blank.skipBlanks (h : Blank before) (rest : List Char) : skipBlanks (before ++ rest) = skipBlanks rest := by
  induction before with
  | nil => rfl
  | cons c before ih =>
    obtain ⟨hc, hbefore⟩ := List.forall_mem_cons.1 h
    have hstep := ih hbefore
    simp only [Data.skipBlanks] at hstep ⊢
    rw [List.cons_append, List.dropWhile_cons_of_pos hc, hstep]

/-- The text is at its end, or the structure around it goes on. -/
def Closes (rest : List Char) : Prop :=
  ∀ c ∈ rest.head?, c = ',' ∨ c = ']' ∨ c = '\x7d'

theorem closes_cons (hc : c = ',' ∨ c = ']' ∨ c = '\x7d') : Closes (c :: rest) := by
  rintro _ ⟨⟩
  exact hc

theorem Closes.skipBlanks (h : Closes rest) : skipBlanks rest = rest := by
  cases rest with
  | nil => rfl
  | cons c rest =>
    have hc : isJsonBlank c = false := by
      rcases h c rfl with rfl | rfl | rfl <;> decide
    exact skipBlanks_of_head hc

/-- Blanks after a value end it, and so does what closes. -/
theorem Closes.ends {after : List Char} (h : Closes rest) (hafter : Blank after) : Ends (after ++ rest) := by
  cases after with
  | nil => exact fun c hc => .inr (h c hc)
  | cons c after =>
    rintro _ ⟨⟩
    exact .inl (hafter c List.mem_cons_self)

end Blanks

/-! ## What a text starts with -/

/-- A character that starts a value: no blank, and it closes nothing. -/
def Opens (c : Char) : Prop :=
  isJsonBlank c = false ∧ c ≠ ']'

instance (c : Char) : Decidable (Opens c) :=
  inferInstanceAs (Decidable (_ ∧ _))

theorem opens_of_isAsciiDigit {c : Char} (hc : Text.isAsciiDigit c = true) : Opens c := by
  have hne := fun w hw => (@ne_of_isAsciiDigit c w hc hw).symm
  refine ⟨?_, hne ']' (by decide)⟩
  simp [isJsonBlank, hne ' ' (by decide), hne '\t' (by decide), hne '\n' (by decide), hne '\r' (by decide)]

/-- The text of a number starts with a digit or a minus. -/
theorem number_head (negative : Bool) {n : Decimal.Numeral} (hn : n.Tidy) :
    ∃ c cs, minus negative ++ n.chars = c :: cs ∧ (Text.isAsciiDigit c = true ∨ c = '-') := by
  obtain ⟨c, cs, hcs, hc⟩ := exists_chars hn
  cases negative with
  | false => exact ⟨c, cs, hcs, .inl hc⟩
  | true => exact ⟨'-', _, rfl, .inr rfl⟩

namespace JsonText

variable {extended : Bool} {standIn : Nat → Char} {d : Data} {cs : List Char}

/-- A value starts with a character that is no blank and closes nothing. -/
theorem value_head (h : JsonText extended standIn (.value d) cs) : ∃ c tail, cs = c :: tail ∧ Opens c := by
  cases h with
  | null => exact ⟨'n', _, rfl, by decide⟩
  | bool b => cases b with
    | false => exact ⟨'f', _, rfl, by decide⟩
    | true => exact ⟨'t', _, rfl, by decide⟩
  | number negative hn =>
    obtain ⟨c, tail, hcs, hc⟩ := number_head negative hn
    refine ⟨c, tail, hcs, ?_⟩
    rcases hc with hc | rfl
    · exact opens_of_isAsciiDigit hc
    · decide
  | string => exact ⟨'"', _, rfl, by decide⟩
  | nan => exact ⟨'N', _, rfl, by decide⟩
  | infinity negative => cases negative with
    | false => exact ⟨'I', _, rfl, by decide⟩
    | true => exact ⟨'-', _, rfl, by decide⟩
  | emptyArray => exact ⟨'[', _, rfl, by decide⟩
  | array => exact ⟨'[', _, rfl, by decide⟩
  | emptyObject => exact ⟨'\x7b', _, rfl, by decide⟩
  | object => exact ⟨'\x7b', _, rfl, by decide⟩

/-- A value is not skipped with the blanks before it. -/
theorem skipBlanks_value (h : JsonText extended standIn (.value d) cs) (rest : List Char) :
    skipBlanks (cs ++ rest) = cs ++ rest := by
  obtain ⟨c, tail, rfl, hc, -⟩ := h.value_head
  exact skipBlanks_of_head hc

theorem element_head (h : JsonText extended standIn (.element d) cs) :
    ∃ before c tail, Blank before ∧ cs = before ++ c :: tail ∧ Opens c := by
  cases h with
  | element hbefore hvalue hafter =>
    obtain ⟨c, tail, rfl, hc⟩ := hvalue.value_head
    exact ⟨_, c, _, hbefore, List.append_assoc _ _ _, hc⟩

/-- Elements start, after blanks, with a character that closes nothing. -/
theorem elements_head {items : List Data} (h : JsonText extended standIn (.elements items) cs) :
    ∃ before c tail, Blank before ∧ cs = before ++ c :: tail ∧ Opens c := by
  cases h with
  | oneElement helement => exact helement.element_head
  | moreElements helement =>
    obtain ⟨before, c, tail, hbefore, rfl, hc⟩ := helement.element_head
    exact ⟨before, c, _, hbefore, List.append_assoc _ _ _, hc⟩

/-- Members start, after blanks, with a quote. -/
theorem members_head {entries : List (String × Data)} (h : JsonText extended standIn (.members entries) cs) :
    ∃ before tail, Blank before ∧ cs = before ++ '"' :: tail := by
  have hmember : ∀ {key d cs}, JsonText extended standIn (.member key d) cs →
      ∃ before tail, Blank before ∧ cs = before ++ '"' :: tail := fun h => by
    cases h with
    | member hbefore => exact ⟨_, _, hbefore, rfl⟩
  cases h with
  | oneMember h => exact hmember h
  | moreMembers h =>
    obtain ⟨before, tail, hbefore, rfl⟩ := hmember h
    exact ⟨before, _, hbefore, List.append_assoc _ _ _⟩

end JsonText

/-! ## Reading -/

/-- A reader without limits. -/
def Reader.free (standIn : Nat → Char) : Reader where
  standIn := standIn

/-- The part is read from its text without limits, whatever closes it, if the steps suffice for the text. -/
def Part.Reads (standIn : Nat → Char) : Part → List Char → Prop
  | .value d, cs => ∀ fuel rest, cs.length ≤ fuel → Ends rest →
      readValue (.free standIn) fuel none (cs ++ rest) = .ok (d, rest)
  | .element d, cs => ∀ fuel rest, cs.length ≤ fuel → Closes rest →
      ∃ tail, readValue (.free standIn) fuel none (skipBlanks (cs ++ rest)) = .ok (d, tail) ∧ skipBlanks tail = rest
  | .elements items, cs => ∀ fuel done rest, cs.length < fuel →
      readItems (.free standIn) fuel none done (skipBlanks (cs ++ ']' :: rest)) =
        .ok (list (done.reverse ++ items), rest)
  | .member key d, cs => ∀ fuel done c rest, cs.length ≤ fuel → c = ',' ∨ c = '\x7d' →
      readEntries (.free standIn) (fuel + 1) none done (skipBlanks (cs ++ c :: rest)) =
        if c = ',' then readEntries (.free standIn) fuel none (setEntry key d done) (skipBlanks rest)
        else .ok (mapping (setEntry key d done), rest)
  | .members entries, cs => ∀ fuel done rest, cs.length < fuel →
      readEntries (.free standIn) fuel none done (skipBlanks (cs ++ '\x7d' :: rest)) =
        .ok (ofEntries done entries, rest)

section Reading

variable {standIn : Nat → Char} {d : Data} {cs : List Char}

/-- A value that starts like no string, list or mapping is read as another scalar. -/
theorem readValue_scalar (r : Reader) (fuel : Nat) (levels : Option Nat) {c : Char}
    (hstart : c ≠ '"' ∧ c ≠ '[' ∧ c ≠ '\x7b') (cs : List Char) :
    readValue r (fuel + 1) levels (c :: cs) = readScalar r (c :: cs) := by
  obtain ⟨hquote, hbracket, hbrace⟩ := hstart
  rw [readValue.eq_5 _ _ _ _ (fun _ heq => hquote (List.cons.inj heq).1) (fun _ heq => hbracket (List.cons.inj heq).1)
    fun _ heq => hbrace (List.cons.inj heq).1]

/-- A number is read as a value. -/
theorem readValue_number (r : Reader) (fuel : Nat) (levels : Option Nat) (negative : Bool) {n : Decimal.Numeral}
    (hn : n.Tidy) {rest : List Char} (h : Ends rest) :
    readValue r (fuel + 1) levels (minus negative ++ n.chars ++ rest) = r.number negative n rest := by
  have hread := readScalar_number r negative hn h
  obtain ⟨c, cs, hcs, hc⟩ := number_head negative hn
  have hstart : c ≠ '"' ∧ c ≠ '[' ∧ c ≠ '\x7b' := by
    rcases hc with hc | rfl
    · have hne := fun w hw => (@ne_of_isAsciiDigit c w hc hw).symm
      exact ⟨hne '"' (by decide), hne '[' (by decide), hne '\x7b' (by decide)⟩
    · decide
  rw [hcs] at hread ⊢
  exact (readValue_scalar r fuel levels hstart (cs ++ rest)).trans hread

/-- A scalar that is no string is read as one. -/
theorem reads_scalar {c : Char} (hstart : c ≠ '"' ∧ c ≠ '[' ∧ c ≠ '\x7b')
    (hscalar : ∀ rest, Ends rest → readScalar (.free standIn) (c :: cs ++ rest) = .ok (d, rest)) :
    (Part.value d).Reads standIn (c :: cs) := by
  intro fuel rest hfuel hrest
  rw [List.length_cons] at hfuel
  obtain ⟨fuel, rfl⟩ := Nat.exists_eq_succ_of_ne_zero (by omega : fuel ≠ 0)
  exact (readValue_scalar _ fuel none hstart (cs ++ rest)).trans (hscalar rest hrest)

theorem Reader.number_free (negative : Bool) (n : Decimal.Numeral) (rest : List Char) :
    (Reader.free standIn).number negative n rest = .ok (numberData negative n, rest) := by
  have hexceeded : (Reader.free standIn).exceeded? n = none := by
    rw [exceeded?]
    split <;> rfl
  rw [number, hexceeded]

theorem reads_number (negative : Bool) {n : Decimal.Numeral} (hn : n.Tidy) :
    (Part.value (numberData negative n)).Reads standIn (minus negative ++ n.chars) := by
  intro fuel rest hfuel hrest
  obtain ⟨c, cs, hcs, -⟩ := number_head negative hn
  rw [hcs, List.length_cons] at hfuel
  obtain ⟨fuel, rfl⟩ := Nat.exists_eq_succ_of_ne_zero (by omega : fuel ≠ 0)
  rw [readValue_number _ _ _ negative hn hrest, Reader.number_free]

theorem reads_string {s : List Char} (h : Quoted standIn cs s) :
    (Part.value (text (String.ofList s))).Reads standIn ('"' :: (cs ++ ['"'])) := by
  intro fuel rest hfuel _
  rw [List.length_cons] at hfuel
  obtain ⟨fuel, rfl⟩ := Nat.exists_eq_succ_of_ne_zero (by omega : fuel ≠ 0)
  have hread : readText (.free standIn) (cs ++ '"' :: rest) = .ok (String.ofList s, rest) := Quoted.readText h rest
  rw [List.cons_append, readValue.eq_2, List.append_assoc, List.singleton_append, hread]
  rfl

theorem reads_emptyArray {blanks : List Char} (h : Blank blanks) :
    (Part.value (list [])).Reads standIn ('[' :: (blanks ++ [']'])) := by
  intro fuel rest hfuel _
  rw [List.length_cons] at hfuel
  obtain ⟨fuel, rfl⟩ := Nat.exists_eq_succ_of_ne_zero (by omega : fuel ≠ 0)
  rw [List.cons_append, readValue.eq_3, List.append_assoc, List.singleton_append, h.skipBlanks]
  rfl

theorem reads_emptyObject {blanks : List Char} (h : Blank blanks) :
    (Part.value (mapping [])).Reads standIn ('\x7b' :: (blanks ++ ['\x7d'])) := by
  intro fuel rest hfuel _
  rw [List.length_cons] at hfuel
  obtain ⟨fuel, rfl⟩ := Nat.exists_eq_succ_of_ne_zero (by omega : fuel ≠ 0)
  rw [List.cons_append, readValue.eq_4, List.append_assoc, List.singleton_append, h.skipBlanks]
  rfl

theorem reads_array {extended : Bool} {items : List Data} (h : JsonText extended standIn (.elements items) cs)
    (hitems : (Part.elements items).Reads standIn cs) :
    (Part.value (list items)).Reads standIn ('[' :: (cs ++ [']'])) := by
  intro fuel rest hfuel _
  rw [List.length_cons, List.length_append, List.length_singleton] at hfuel
  obtain ⟨fuel, rfl⟩ := Nat.exists_eq_succ_of_ne_zero (by omega : fuel ≠ 0)
  have hread := hitems fuel [] rest (by omega)
  obtain ⟨before, c, tail, hbefore, rfl, hblank, hbracket⟩ := h.elements_head
  rw [List.append_assoc, hbefore.skipBlanks, List.cons_append, skipBlanks_of_head hblank] at hread
  rw [List.cons_append, readValue.eq_3, List.append_assoc, List.singleton_append, List.append_assoc, hbefore.skipBlanks,
    List.cons_append, skipBlanks_of_head hblank]
  simp only [levelsInside, bind, Except.bind]
  split
  · next heq => exact absurd (List.cons.inj heq).1 hbracket
  · exact hread

theorem reads_object {extended : Bool} {entries : List (String × Data)}
    (h : JsonText extended standIn (.members entries) cs) (hentries : (Part.members entries).Reads standIn cs) :
    (Part.value (ofEntries [] entries)).Reads standIn ('\x7b' :: (cs ++ ['\x7d'])) := by
  intro fuel rest hfuel _
  rw [List.length_cons, List.length_append, List.length_singleton] at hfuel
  obtain ⟨fuel, rfl⟩ := Nat.exists_eq_succ_of_ne_zero (by omega : fuel ≠ 0)
  have hread := hentries fuel [] rest (by omega)
  obtain ⟨before, tail, hbefore, rfl⟩ := h.members_head
  have hquote : isJsonBlank '"' = false := by decide
  rw [List.append_assoc, hbefore.skipBlanks, List.cons_append, skipBlanks_of_head hquote] at hread
  rw [List.cons_append, readValue.eq_4, List.append_assoc, List.singleton_append, List.append_assoc, hbefore.skipBlanks,
    List.cons_append, skipBlanks_of_head hquote]
  exact hread

theorem reads_element {extended : Bool} {before after : List Char} (hbefore : Blank before)
    (h : JsonText extended standIn (.value d) cs) (hafter : Blank after) (hvalue : (Part.value d).Reads standIn cs) :
    (Part.element d).Reads standIn (before ++ cs ++ after) := by
  intro fuel rest hfuel hrest
  rw [List.length_append, List.length_append] at hfuel
  refine ⟨after ++ rest, ?_, ?_⟩
  · rw [List.append_assoc, List.append_assoc, hbefore.skipBlanks, h.skipBlanks_value]
    exact hvalue fuel _ (by omega) (hrest.ends hafter)
  · rw [hafter.skipBlanks, hrest.skipBlanks]

theorem reads_oneElement (h : (Part.element d).Reads standIn cs) : (Part.elements [d]).Reads standIn cs := by
  intro fuel done rest hfuel
  obtain ⟨fuel, rfl⟩ := Nat.exists_eq_succ_of_ne_zero (by omega : fuel ≠ 0)
  obtain ⟨tail, hread, htail⟩ := h fuel (']' :: rest) (by omega) (closes_cons (.inr (.inl rfl)))
  rw [readItems.eq_2, hread]
  simp only [bind, Except.bind]
  rw [htail, List.reverse_cons]
  rfl

theorem reads_moreElements {items : List Data} {ds : List Char} (h : (Part.element d).Reads standIn cs)
    (hitems : (Part.elements items).Reads standIn ds) :
    (Part.elements (d :: items)).Reads standIn (cs ++ ',' :: ds) := by
  intro fuel done rest hfuel
  rw [List.length_append, List.length_cons] at hfuel
  obtain ⟨fuel, rfl⟩ := Nat.exists_eq_succ_of_ne_zero (by omega : fuel ≠ 0)
  obtain ⟨tail, hread, htail⟩ := h fuel (',' :: (ds ++ ']' :: rest)) (by omega) (closes_cons (.inl rfl))
  have hmore := hitems fuel (d :: done) rest (by omega)
  rw [List.reverse_cons, List.append_assoc, List.singleton_append] at hmore
  rw [List.append_assoc, List.cons_append, readItems.eq_2, hread]
  simp only [bind, Except.bind]
  rw [htail]
  exact hmore

theorem reads_member {before between ds s : List Char} (hbefore : Blank before) (hkey : Quoted standIn cs s)
    (hbetween : Blank between) (h : (Part.element d).Reads standIn ds) :
    (Part.member (String.ofList s) d).Reads standIn (before ++ '"' :: (cs ++ '"' :: (between ++ ':' :: ds))) := by
  intro fuel done c rest hfuel hc
  simp only [List.length_append, List.length_cons] at hfuel
  obtain ⟨tail, hread, htail⟩ := h fuel (c :: rest) (by omega) (closes_cons (hc.imp id .inr))
  have hquote : isJsonBlank '"' = false := by decide
  have hcolon : isJsonBlank ':' = false := by decide
  simp only [List.append_assoc, List.cons_append]
  have hname : ∀ rest, readText (.free standIn) (cs ++ '"' :: rest) = .ok (String.ofList s, rest) :=
    Quoted.readText hkey
  rw [hbefore.skipBlanks, skipBlanks_of_head hquote, readEntries.eq_2, hname]
  simp only [bind, Except.bind, hbetween.skipBlanks, skipBlanks_of_head hcolon, hread, htail]
  rcases hc with rfl | rfl <;> rfl

theorem reads_oneMember {key : String} (h : (Part.member key d).Reads standIn cs) :
    (Part.members [(key, d)]).Reads standIn cs := by
  intro fuel done rest hfuel
  obtain ⟨fuel, rfl⟩ := Nat.exists_eq_succ_of_ne_zero (by omega : fuel ≠ 0)
  rw [h fuel done '\x7d' rest (by omega) (.inr rfl), if_neg (by decide)]
  rfl

theorem reads_moreMembers {key : String} {entries : List (String × Data)} {ds : List Char}
    (h : (Part.member key d).Reads standIn cs) (hentries : (Part.members entries).Reads standIn ds) :
    (Part.members ((key, d) :: entries)).Reads standIn (cs ++ ',' :: ds) := by
  intro fuel done rest hfuel
  rw [List.length_append, List.length_cons] at hfuel
  obtain ⟨fuel, rfl⟩ := Nat.exists_eq_succ_of_ne_zero (by omega : fuel ≠ 0)
  rw [List.append_assoc, List.cons_append, h fuel done ',' _ (by omega) (.inl rfl), if_pos rfl,
    hentries fuel _ _ (by omega)]
  rfl

end Reading

namespace JsonText

variable {extended : Bool} {standIn : Nat → Char} {p : Part} {d : Data} {cs : List Char}

/-- **Every part of a JSON text is read.** -/
theorem reads (h : JsonText extended standIn p cs) : p.Reads standIn cs := by
  induction h with
  | null => exact reads_scalar (by decide) fun rest _ => readScalar_null _ rest
  | bool b =>
    cases b with
    | false => exact reads_scalar (by decide) fun rest _ => readScalar_bool _ rest false
    | true => exact reads_scalar (by decide) fun rest _ => readScalar_bool _ rest true
  | number negative hn => exact reads_number negative hn
  | string hquoted => exact reads_string hquoted
  | nan => exact reads_scalar (by decide) fun rest _ => readScalar_nan _ rest
  | infinity negative =>
    cases negative with
    | false => exact reads_scalar (by decide) fun rest _ => readScalar_infinity _ rest false
    | true => exact reads_scalar (by decide) fun rest _ => readScalar_infinity _ rest true
  | emptyArray hblanks => exact reads_emptyArray hblanks
  | array hitems ih => exact reads_array hitems ih
  | emptyObject hblanks => exact reads_emptyObject hblanks
  | object hentries ih => exact reads_object hentries ih
  | element hbefore hvalue hafter ih => exact reads_element hbefore hvalue hafter ih
  | oneElement _ ih => exact reads_oneElement ih
  | moreElements _ _ ih ihs => exact reads_moreElements ih ihs
  | member hbefore hkey hbetween _ ih => exact reads_member hbefore hkey hbetween ih
  | oneMember _ ih => exact reads_oneMember ih
  | moreMembers _ _ ih ihs => exact reads_moreMembers ih ihs

/-- **A JSON text is read as the data that it denotes.** -/
theorem readJson (h : JsonText extended standIn (.element d) cs) : Data.readJson (.free standIn) cs = .ok d := by
  have hblanks : (skipBlanks cs).length ≤ cs.length := (List.dropWhile_sublist _).length_le
  obtain ⟨tail, hread, htail⟩ := h.reads (2 * cs.length + 1) [] (by omega) (by simp [Closes])
  rw [List.append_nil] at hread
  have hlevels : (Reader.free standIn).levels = none := rfl
  rw [Data.readJson, hlevels, hread]
  simp only [bind, Except.bind]
  rw [htail]
  rfl

theorem ofJson? (h : JsonText extended replacement (.element d) cs) : Data.ofJson? cs = some d := by
  have hread : Data.readJson {} cs = .ok d := h.readJson
  rw [Data.ofJson?, hread]
  rfl

end JsonText

end GameSheet.Data
