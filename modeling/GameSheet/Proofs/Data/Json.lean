import GameSheet.Proofs.Basics
import GameSheet.Proofs.Data.Grammar
import GameSheet.Proofs.Decimal.Shortest

/-!
# JSON read back

Data whose mappings have distinct keys (`Data.Keyed`) is written as JSON texts, on one line or with a part to a line
(`Data.jsonText_json`, **`Data.jsonText_jsonLines`**), which denote it with the floats that their texts denote. So a
reader without limits reads it back with these floats (**`Data.readJson_json`**), and as it is if all of its floats are
finite (`Data.Finite`). Then the texts are JSON in the sense of RFC 8259 (**`Data.isJson_jsonLines`**). The text on one
line has printable characters of ASCII only (`Data.printable_json`).
-/

namespace GameSheet.Data

open GameSheet.Text

/-- The data has no floats, and the keys of every mapping in it are distinct. -/
inductive Exact : Data → Prop
  | null : Exact null
  | bool (b : Bool) : Exact (bool b)
  | int (n : Int) : Exact (int n)
  | text (s : String) : Exact (text s)
  | list {items : List Data} : (∀ d ∈ items, Exact d) → Exact (list items)
  | mapping {entries : List (String × Data)} : (entries.map Prod.fst).Nodup → (∀ e ∈ entries, Exact e.2) →
      Exact (mapping entries)

/-- The keys of every mapping in the data are distinct. -/
inductive Keyed : Data → Prop
  | null : Keyed null
  | bool (b : Bool) : Keyed (bool b)
  | int (n : Int) : Keyed (int n)
  | float (x : Float) : Keyed (float x)
  | text (s : String) : Keyed (text s)
  | list {items : List Data} : (∀ d ∈ items, Keyed d) → Keyed (list items)
  | mapping {entries : List (String × Data)} : (entries.map Prod.fst).Nodup → (∀ e ∈ entries, Keyed e.2) →
      Keyed (mapping entries)

theorem Exact.keyed {d : Data} (h : d.Exact) : d.Keyed := by
  induction h with
  | null => exact .null
  | bool b => exact .bool b
  | int n => exact .int n
  | text s => exact .text s
  | list hexact ih => exact .list ih
  | mapping hnodup hexact ih => exact .mapping hnodup ih

/-- All floats in the data are finite. -/
inductive Finite : Data → Prop
  | null : Finite null
  | bool (b : Bool) : Finite (bool b)
  | int (n : Int) : Finite (int n)
  | float {x : Float} : x.isFinite = true → Finite (float x)
  | text (s : String) : Finite (text s)
  | list {items : List Data} : (∀ d ∈ items, Finite d) → Finite (list items)
  | mapping {entries : List (String × Data)} : (∀ e ∈ entries, Finite e.2) → Finite (mapping entries)

theorem Finite.of_float {x : Float} (h : (Data.float x).Finite) : x.isFinite = true := by
  cases h with
  | float hx => exact hx

theorem Finite.of_list {items : List Data} (h : (Data.list items).Finite) : ∀ d ∈ items, d.Finite := by
  cases h with
  | list hitems => exact hitems

theorem Finite.of_mapping {entries : List (String × Data)} (h : (Data.mapping entries).Finite) :
    ∀ e ∈ entries, e.2.Finite := by
  cases h with
  | mapping hentries => exact hentries

theorem Finite.of_exact {d : Data} (h : d.Exact) : d.Finite := by
  induction h with
  | null => exact .null
  | bool b => exact .bool b
  | int n => exact .int n
  | text s => exact .text s
  | list hexact ih => exact .list ih
  | mapping hnodup hexact ih => exact .mapping ih

/-! ## What is read -/

mutual

/-- The data with the floats that are read from their JSON texts. -/
def reread : Data → Data
  | float x => float (Decimal.reread x)
  | list items => list (rereadItems items)
  | mapping entries => mapping (rereadEntries entries)
  | d => d

/-- The items with the floats that are read. -/
def rereadItems : List Data → List Data
  | [] => []
  | d :: rest => reread d :: rereadItems rest

/-- The entries with the floats that are read. -/
def rereadEntries : List (String × Data) → List (String × Data)
  | [] => []
  | (key, d) :: rest => (key, reread d) :: rereadEntries rest

end

theorem rereadItems_eq (items : List Data) : rereadItems items = items.map reread := by
  induction items with
  | nil => rfl
  | cons d rest ih => rw [rereadItems, ih, List.map_cons]

theorem rereadEntries_eq (entries : List (String × Data)) :
    rereadEntries entries = entries.map fun e => (e.1, e.2.reread) := by
  induction entries with
  | nil => rfl
  | cons e rest ih => rw [rereadEntries, ih, List.map_cons]

/-- **Finite floats are read as they are.** -/
theorem Finite.reread_eq {d : Data} (h : d.Finite) : d.reread = d := by
  induction h with
  | null => rfl
  | bool b => rfl
  | int n => rfl
  | float hx => rw [reread, Decimal.reread_eq hx]
  | text s => rfl
  | list hfinite ih => rw [reread, rereadItems_eq, List.map_congr_left ih, List.map_id']
  | @mapping entries hfinite ih =>
    have hentries : entries.map (fun e => (e.1, e.2.reread)) = entries.map fun e => e :=
      List.map_congr_left fun e he => Prod.ext rfl (ih e he)
    rw [reread, rereadEntries_eq, hentries, List.map_id']

/-- Exact data stays as it is. -/
theorem Exact.reread_eq {d : Data} (h : d.Exact) : d.reread = d :=
  (Finite.of_exact h).reread_eq

/-! ## Parts of a text -/

theorem toList_jsonString (s : String) : (jsonString s).toList = '"' :: (s.toList.flatMap jsonChar ++ ['"']) := by
  rw [jsonString, String.toList_ofList, List.cons_append]

theorem toList_json_list (items : List Data) :
    (list items).json.toList = '[' :: ((", ".intercalate (jsonItems items)).toList ++ [']']) := by
  rw [json, String.toList_append, String.toList_append]
  rfl

theorem toList_json_mapping (entries : List (String × Data)) :
    (mapping entries).json.toList = '\x7b' :: ((", ".intercalate (jsonEntries entries)).toList ++ ['\x7d']) := by
  rw [json, String.toList_append, String.toList_append]
  rfl

theorem jsonItems_eq (items : List Data) : jsonItems items = items.map json := by
  induction items with
  | nil => rfl
  | cons d rest ih => rw [jsonItems, ih, List.map_cons]

/-- The text of an entry whose value has a certain text. -/
def jsonEntry (key : String) (value : String) : String :=
  jsonString key ++ ": " ++ value

theorem jsonEntries_eq (entries : List (String × Data)) :
    jsonEntries entries = entries.map fun e => jsonEntry e.1 e.2.json := by
  induction entries with
  | nil => rfl
  | cons e rest ih =>
    rw [jsonEntries, ih, List.map_cons]
    rfl

theorem jsonLinesItems_eq (level : Nat) (items : List Data) :
    jsonLinesItems level items = items.map (jsonLinesAt level) := by
  induction items with
  | nil => rfl
  | cons d rest ih => rw [jsonLinesItems, ih, List.map_cons]

theorem jsonLinesEntries_eq (level : Nat) (entries : List (String × Data)) :
    jsonLinesEntries level entries = entries.map fun e => jsonEntry e.1 (e.2.jsonLinesAt level) := by
  induction entries with
  | nil => rfl
  | cons e rest ih =>
    rw [jsonLinesEntries, ih, List.map_cons]
    rfl

theorem toList_jsonLinesAt_list (level : Nat) (d : Data) (rest : List Data) :
    (jsonLinesAt level (list (d :: rest))).toList = '[' :: ((lineBreak (level + 1)).toList ++
      (("," ++ lineBreak (level + 1)).intercalate ((d :: rest).map (jsonLinesAt (level + 1)))).toList ++
        (lineBreak level).toList ++ [']']) := by
  rw [jsonLinesAt, jsonLinesItems_eq]
  simp only [String.toList_append, List.append_assoc]
  rfl

theorem toList_jsonLinesAt_mapping (level : Nat) (e : String × Data) (rest : List (String × Data)) :
    (jsonLinesAt level (mapping (e :: rest))).toList = '\x7b' :: ((lineBreak (level + 1)).toList ++
      (("," ++ lineBreak (level + 1)).intercalate
        ((e :: rest).map fun e => jsonEntry e.1 (e.2.jsonLinesAt (level + 1)))).toList ++
          (lineBreak level).toList ++ ['\x7d']) := by
  rw [jsonLinesAt, jsonLinesEntries_eq]
  simp only [String.toList_append, List.append_assoc]
  rfl

/-- Parts with a separator between them start with the first part. -/
theorem exists_intercalate (separator x : String) (l : List String) :
    ∃ tail, (separator.intercalate (x :: l)).toList = x.toList ++ tail := by
  cases l with
  | nil => exact ⟨[], by rw [String.intercalate_singleton, List.append_nil]⟩
  | cons y l =>
    rw [String.intercalate_cons_cons, String.toList_append, String.toList_append, List.append_assoc]
    exact ⟨_, rfl⟩

/-- The text of a mapping over lines starts with its first entry. -/
theorem toList_jsonLines_mapping (key : String) (d : Data) (rest : List (String × Data)) :
    ∃ tail, (mapping ((key, d) :: rest)).jsonLines.toList =
      '\x7b' :: ((lineBreak 1).toList ++ ((jsonString key ++ ": ").toList ++ ((d.jsonLinesAt 1).toList ++ tail))) := by
  obtain ⟨tail, htail⟩ := exists_intercalate ("," ++ lineBreak 1) (jsonEntry key (d.jsonLinesAt 1))
    (rest.map fun e => jsonEntry e.1 (e.2.jsonLinesAt 1))
  refine ⟨tail ++ (lineBreak 0).toList ++ ['\x7d'], ?_⟩
  rw [jsonLines, toList_jsonLinesAt_mapping, List.map_cons, htail, jsonEntry]
  simp only [String.toList_append, List.append_assoc]

/-! ## Scalars -/

section Grammar

variable {extended : Bool} {standIn : Nat → Char}

theorem jsonText_int (n : Int) : JsonText extended standIn (.value (int n)) (int n).json.toList := by
  obtain ⟨numeral, negative, htidy, htext, hn⟩ := toList_json_int n
  rw [htext, hn]
  exact .number negative htidy

theorem jsonText_float {x : Float} (h : extended = false → x.isFinite = true) :
    JsonText extended standIn (.value (float (Decimal.reread x))) (float x).json.toList := by
  have hextended : x.isFinite = false → extended = true := fun hx => by
    cases extended with
    | true => rfl
    | false => rw [h rfl] at hx; cases hx
  rcases toList_json_float x with ⟨hx, htext, hvalue⟩ | ⟨negative, hx, htext, hvalue⟩ |
    ⟨n, negative, -, hn, htext, hvalue⟩
  · rw [htext, hvalue]
    exact .nan (hextended hx)
  · rw [htext, hvalue]
    exact .infinity negative (hextended hx)
  · rw [htext, hvalue, ← numberData_strict negative hn]
    exact .number negative hn.toTidy

theorem jsonText_text (s : String) : JsonText extended standIn (.value (text s)) (jsonString s).toList := by
  have hstring : JsonText extended standIn _ _ := .string (quoted_flatMap s.toList)
  rw [String.ofList_toList] at hstring
  rw [toList_jsonString]
  exact hstring

/-! ## Lists and mappings -/

theorem blank_nil : Blank [] :=
  List.forall_mem_nil _

theorem blank_lineBreak (level : Nat) : Blank (lineBreak level).toList := by
  rw [lineBreak, String.toList_ofList]
  refine List.forall_mem_cons.2 ⟨by decide, fun c hc => ?_⟩
  rw [List.eq_of_mem_replicate hc]
  decide

/-- Texts with commas and blanks between them, and blanks around all, if each is a part with blanks around it. -/
theorem separated {α β : Type} (one : β → List Char → Prop) (several : List β → List Char → Prop) (part : α → β)
    (hone : ∀ {b cs}, one b cs → several [b] cs)
    (hmore : ∀ {b l cs ds}, one b cs → several l ds → several (b :: l) (cs ++ ',' :: ds))
    {write : α → String} {separator : String} {before between after : List Char} {l : List α}
    (hseparator : separator.toList = ',' :: between) (hbetween : Blank between) (hafter : Blank after) (hne : l ≠ [])
    (hl : ∀ a ∈ l, ∀ before after, Blank before → Blank after → one (part a) (before ++ (write a).toList ++ after))
    (hbefore : Blank before) :
    several (l.map part) (before ++ (separator.intercalate (l.map write)).toList ++ after) := by
  induction l generalizing before with
  | nil => exact absurd rfl hne
  | cons a l ih =>
    obtain ⟨ha, hl⟩ := List.forall_mem_cons.1 hl
    cases l with
    | nil =>
      rw [List.map_singleton, List.map_singleton, String.intercalate_singleton]
      exact hone (ha before after hbefore hafter)
    | cons a' l =>
      have hrest := hmore (ha before [] hbefore blank_nil) (ih (List.cons_ne_nil _ _) hl hbetween)
      have htext : separator.intercalate ((a :: a' :: l).map write) =
          write a ++ separator ++ separator.intercalate ((a' :: l).map write) := String.intercalate_cons_cons
      rw [htext]
      simp only [String.toList_append, hseparator, List.append_nil, List.append_assoc, List.cons_append] at hrest ⊢
      exact hrest

theorem setEntry_of_notMem {key : String} {value : Data} {entries : List (String × Data)}
    (h : key ∉ entries.map Prod.fst) : setEntry key value entries = entries ++ [(key, value)] := by
  induction entries with
  | nil => rfl
  | cons e rest ih =>
    rw [List.map_cons, List.mem_cons, not_or] at h
    rw [setEntry, if_neg (Ne.symm h.1), ih h.2, List.cons_append]

/-- Members with distinct keys are the entries of a mapping. -/
theorem ofEntries_of_nodup {entries : List (String × Data)} (h : (entries.map Prod.fst).Nodup) :
    ofEntries [] entries = mapping entries := by
  have hdone : ∀ (entries done : List (String × Data)), (done.map Prod.fst ++ entries.map Prod.fst).Nodup →
      ofEntries done entries = mapping (done ++ entries) := by
    intro entries
    induction entries with
    | nil => exact fun done _ => by rw [List.append_nil]; rfl
    | cons e rest ih =>
      intro done hnodup
      have hkey : e.1 ∉ done.map Prod.fst := fun hmem => List.disjoint_of_nodup_append hnodup hmem List.mem_cons_self
      have hrest := ih (done ++ [e]) (by rwa [List.map_append, List.append_assoc])
      rw [List.append_assoc, List.singleton_append, ← setEntry_of_notMem hkey] at hrest
      exact hrest
  exact hdone entries [] h

section Layout

variable {write : Data → String} {separator : String} {before between after : List Char}
  (hseparator : separator.toList = ',' :: between) (hbefore : Blank before) (hbetween : Blank between)
  (hafter : Blank after)

include hseparator hbefore hbetween hafter

/-- A list is written by its items. -/
theorem jsonText_list {items : List Data} (hne : items ≠ [])
    (h : ∀ d ∈ items, JsonText extended standIn (.value d.reread) (write d).toList) :
    JsonText extended standIn (.value (list items).reread)
      ('[' :: (before ++ (separator.intercalate (items.map write)).toList ++ after ++ [']'])) := by
  have hitems := separated (fun d => JsonText extended standIn (.element d))
    (fun items => JsonText extended standIn (.elements items)) reread .oneElement .moreElements hseparator hbetween
    hafter hne
    (fun d hd _ _ hbefore hafter => .element hbefore (h d hd) hafter) hbefore
  rw [reread, rereadItems_eq]
  exact .array hitems

/-- A mapping with distinct keys is written by its entries. -/
theorem jsonText_mapping {entries : List (String × Data)} (hnodup : (entries.map Prod.fst).Nodup) (hne : entries ≠ [])
    (h : ∀ e ∈ entries, JsonText extended standIn (.value e.2.reread) (write e.2).toList) :
    JsonText extended standIn (.value (mapping entries).reread) ('\x7b' ::
      (before ++ (separator.intercalate (entries.map fun e => jsonEntry e.1 (write e.2))).toList ++ after ++
        ['\x7d'])) := by
  have hmember : ∀ e ∈ entries, ∀ before after, Blank before → Blank after →
      JsonText extended standIn (.member e.1 e.2.reread) (before ++ (jsonEntry e.1 (write e.2)).toList ++ after) := by
    intro e he before after hbefore hafter
    have hspace : Blank [' '] := List.forall_mem_singleton.2 (by decide)
    have helement := JsonText.member hbefore (quoted_flatMap e.1.toList) blank_nil (.element hspace (h e he) hafter)
    rw [String.ofList_toList] at helement
    rw [jsonEntry]
    simp only [String.toList_append, toList_jsonString, List.append_assoc, List.cons_append, List.nil_append]
      at helement ⊢
    exact helement
  have hentries := separated (fun e : String × Data => JsonText extended standIn (.member e.1 e.2))
    (fun entries => JsonText extended standIn (.members entries)) (fun e : String × Data => (e.1, e.2.reread))
    .oneMember .moreMembers hseparator hbetween hafter hne hmember hbefore
  have hkeys : ((entries.map fun e => (e.1, e.2.reread)).map Prod.fst).Nodup := by
    rw [List.map_map]
    exact hnodup
  rw [reread, rereadEntries_eq, ← ofEntries_of_nodup hkeys]
  exact .object hentries

end Layout

/-! ## Texts -/

/-- **Data is written on one line as a JSON text**, in the sense of RFC 8259 if its floats are finite. -/
theorem jsonText_json {d : Data} (h : d.Keyed) (hfinite : extended = false → d.Finite) :
    JsonText extended standIn (.value d.reread) d.json.toList := by
  have hseparator : ", ".toList = [',', ' '] := by decide
  have hspace : Blank [' '] := List.forall_mem_singleton.2 (by decide)
  induction h with
  | null => exact .null
  | bool b => exact .bool b
  | int n => exact jsonText_int n
  | float x => exact jsonText_float fun he => (hfinite he).of_float
  | text s => exact jsonText_text s
  | @list items hkeyed ih =>
    rw [toList_json_list, jsonItems_eq]
    by_cases hne : items = []
    · rw [hne]
      exact .emptyArray blank_nil
    · have hlist := jsonText_list hseparator blank_nil hspace blank_nil hne fun d hd =>
        ih d hd fun he => (hfinite he).of_list d hd
      rwa [List.nil_append, List.append_nil] at hlist
  | @mapping entries hnodup hkeyed ih =>
    rw [toList_json_mapping, jsonEntries_eq]
    by_cases hne : entries = []
    · rw [hne]
      exact .emptyObject blank_nil
    · have hmapping := jsonText_mapping hseparator blank_nil hspace blank_nil hnodup hne fun e he =>
        ih e he fun hx => (hfinite hx).of_mapping e he
      rwa [List.nil_append, List.append_nil] at hmapping

/-- **So it is with a part to a line.** -/
theorem jsonText_jsonLinesAt {d : Data} (h : d.Keyed) (hfinite : extended = false → d.Finite) (level : Nat) :
    JsonText extended standIn (.value d.reread) (d.jsonLinesAt level).toList := by
  have hseparator : ∀ level, ("," ++ lineBreak level).toList = ',' :: (lineBreak level).toList := fun level => by
    rw [String.toList_append]
    rfl
  induction h generalizing level with
  | null => exact .null
  | bool b => exact .bool b
  | int n => exact jsonText_int n
  | float x => exact jsonText_float fun he => (hfinite he).of_float
  | text s => exact jsonText_text s
  | @list items hkeyed ih =>
    cases items with
    | nil =>
      have htext : (jsonLinesAt level (list [])).toList = '[' :: ([] ++ [']']) := by
        rw [jsonLinesAt.eq_3 _ _ (fun _ _ h => by cases h) fun _ _ h => by cases h]
        rfl
      rw [htext]
      exact .emptyArray blank_nil
    | cons d rest =>
      rw [toList_jsonLinesAt_list]
      exact jsonText_list (hseparator _) (blank_lineBreak _) (blank_lineBreak _) (blank_lineBreak _)
        (List.cons_ne_nil _ _) fun d hd => ih d hd (fun he => (hfinite he).of_list d hd) _
  | @mapping entries hnodup hkeyed ih =>
    cases entries with
    | nil =>
      have htext : (jsonLinesAt level (mapping [])).toList = '\x7b' :: ([] ++ ['\x7d']) := by
        rw [jsonLinesAt.eq_3 _ _ (fun _ _ h => by cases h) fun _ _ h => by cases h]
        rfl
      rw [htext]
      exact .emptyObject blank_nil
    | cons e rest =>
      rw [toList_jsonLinesAt_mapping]
      exact jsonText_mapping (hseparator _) (blank_lineBreak _) (blank_lineBreak _) (blank_lineBreak _) hnodup
        (List.cons_ne_nil _ _) fun e he => ih e he (fun hx => (hfinite hx).of_mapping e he) _

end Grammar

/-- The text of data starts with a character that is no blank and closes nothing. -/
theorem json_head {d : Data} (h : d.Keyed) : ∃ c cs, d.json.toList = c :: cs ∧ Opens c := by
  have hvalue : JsonText true replacement (.value d.reread) d.json.toList := jsonText_json h nofun
  exact hvalue.value_head

/-- **Data is read back from its JSON text**, with the floats that their texts denote. -/
theorem readJson_json {d : Data} (h : d.Keyed) (standIn : Nat → Char) :
    readJson (.free standIn) d.json.toList = .ok d.reread := by
  have hvalue : JsonText true standIn (.value d.reread) d.json.toList := jsonText_json h nofun
  have helement := JsonText.element blank_nil hvalue blank_nil
  rw [List.nil_append, List.append_nil] at helement
  exact helement.readJson

/-- **Data is written over lines as a JSON text**, which may be followed by blanks. -/
theorem jsonText_jsonLines {extended : Bool} {standIn : Nat → Char} {d : Data} (h : d.Keyed)
    (hfinite : extended = false → d.Finite) {after : List Char} (hafter : Blank after) :
    JsonText extended standIn (.element d.reread) (d.jsonLines.toList ++ after) := by
  have hvalue : JsonText extended standIn (.value d.reread) d.jsonLines.toList := jsonText_jsonLinesAt h hfinite 0
  exact .element blank_nil hvalue hafter

/-- **If its floats are finite**, this is JSON in the sense of RFC 8259 and denotes the data as it is. -/
theorem isJson_jsonLines {d : Data} (h : d.Keyed) (hfinite : d.Finite) {after : List Char} (hafter : Blank after) :
    IsJson (d.jsonLines.toList ++ after) d := by
  have htext : JsonText false replacement (.element d.reread) (d.jsonLines.toList ++ after) :=
    jsonText_jsonLines h (fun _ => hfinite) hafter
  rwa [hfinite.reread_eq] at htext

/-! ## Characters -/

/-- A printable character of ASCII. -/
def Printable (c : Char) : Prop :=
  0x20 ≤ c.toNat ∧ c.toNat < 0x7F

instance (c : Char) : Decidable (Printable c) :=
  inferInstanceAs (Decidable (_ ∧ _))

theorem printable_digitChar : ∀ k < 16, Printable (Nat.digitChar k) := by decide

theorem printable_unitEscape {n : Nat} (h : n < 0x10000) : ∀ c ∈ unitEscape n, Printable c := by
  rw [unitEscape, hex_four h]
  simp only [List.forall_mem_cons]
  exact ⟨by decide, by decide, printable_digitChar _ (by omega), printable_digitChar _ (by omega),
    printable_digitChar _ (by omega), printable_digitChar _ (by omega), List.forall_mem_nil _⟩

theorem printable_jsonChar (c : Char) : ∀ e ∈ jsonChar c, Printable e := by
  have hvalid := toNat_valid c
  unfold jsonChar
  split_ifs with hself hfeed hreturn htab hback hform hplain hunit
  · rcases (by simpa using hself : c = '"' ∨ c = '\\') with rfl | rfl <;>
      exact forall_mem_of_all (by decide)
  · exact forall_mem_of_all (by decide)
  · exact forall_mem_of_all (by decide)
  · exact forall_mem_of_all (by decide)
  · exact forall_mem_of_all (by decide)
  · exact forall_mem_of_all (by decide)
  · simpa [Printable] using hplain
  · exact printable_unitEscape hunit
  · exact List.forall_mem_append.2 ⟨printable_unitEscape (by omega), printable_unitEscape (by omega)⟩

theorem printable_jsonString (s : String) : ∀ c ∈ (jsonString s).toList, Printable c := by
  rw [toList_jsonString, List.forall_mem_cons, List.forall_mem_append]
  refine ⟨by decide, fun e he => ?_, forall_mem_of_all (by decide)⟩
  obtain ⟨c, -, hc⟩ := List.mem_flatMap.1 he
  exact printable_jsonChar c e hc

theorem printable_intercalate {l : List String} (h : ∀ x ∈ l, ∀ c ∈ x.toList, Printable c) :
    ∀ c ∈ (", ".intercalate l).toList, Printable c := by
  induction l with
  | nil => exact List.forall_mem_nil _
  | cons x l ih =>
    obtain ⟨hx, hl⟩ := List.forall_mem_cons.1 h
    cases l with
    | nil =>
      rw [String.intercalate_singleton]
      exact hx
    | cons y l =>
      rw [String.intercalate_cons_cons, String.toList_append, String.toList_append, List.forall_mem_append,
        List.forall_mem_append]
      exact ⟨⟨hx, forall_mem_of_all (by decide)⟩, ih hl⟩

theorem printable_of_isAsciiDigit {c : Char} (h : Text.isAsciiDigit c = true) : Printable c := by
  have hrange := Decimal.toNat_of_isAsciiDigit h
  exact ⟨by omega, by omega⟩

theorem printable_number (negative : Bool) {n : Decimal.Numeral} (h : n.Tidy) :
    ∀ c ∈ minus negative ++ n.chars, Printable c := by
  refine List.forall_mem_append.2 ⟨?_, fun c hc => ?_⟩
  · cases negative <;> exact forall_mem_of_all (by decide)
  · rcases Decimal.Numeral.mem_chars h.inOrder hc with hdigit | hmark
    · exact printable_of_isAsciiDigit hdigit
    · exact forall_mem_of_all (by decide) c hmark

/-- **The JSON text of data is printable ASCII.** -/
theorem printable_json {d : Data} (h : d.Keyed) : ∀ c ∈ d.json.toList, Printable c := by
  induction h with
  | null => exact forall_mem_of_all (by decide)
  | bool b => cases b <;> exact forall_mem_of_all (by decide)
  | int n =>
    obtain ⟨numeral, negative, htidy, htext, -⟩ := toList_json_int n
    rw [htext]
    exact printable_number negative htidy
  | float x =>
    rcases toList_json_float x with ⟨-, htext, -⟩ | ⟨negative, -, htext, -⟩ | ⟨n, negative, -, hn, htext, -⟩
    · rw [htext]
      exact forall_mem_of_all (by decide)
    · rw [htext]
      cases negative <;> exact forall_mem_of_all (by decide)
    · rw [htext]
      exact printable_number negative hn.toTidy
  | text s => exact printable_jsonString s
  | list hkeyed ih =>
    rw [toList_json_list, List.forall_mem_cons, List.forall_mem_append, jsonItems_eq]
    refine ⟨by decide, printable_intercalate fun x hx => ?_, forall_mem_of_all (by decide)⟩
    obtain ⟨d, hd, rfl⟩ := List.mem_map.1 hx
    exact ih d hd
  | mapping hnodup hkeyed ih =>
    rw [toList_json_mapping, List.forall_mem_cons, List.forall_mem_append, jsonEntries_eq]
    refine ⟨by decide, printable_intercalate fun x hx => ?_, forall_mem_of_all (by decide)⟩
    obtain ⟨e, he, rfl⟩ := List.mem_map.1 hx
    rw [jsonEntry, String.toList_append, String.toList_append, List.forall_mem_append, List.forall_mem_append]
    exact ⟨⟨printable_jsonString e.1, forall_mem_of_all (by decide)⟩, ih e he⟩

end GameSheet.Data
