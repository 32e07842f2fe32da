import GameSheet.Options.Document
import GameSheet.Proofs.Basics

/-!
# Options that are heeded

A file is merged over the defaults, and its block `settings` over its other entries, before names and values are looked
at (`Options.Merges`). So an entry outside of the block is refused if it names no option or has a value that does not
fit, but what the merge drops is never looked at: a block that is no mapping, entries of the block that name no option,
and an entry that the block gives again. The options of an accepted file heed all of its entries exactly if none of
these is there (**`Options.heeds_of_load`**).
-/

namespace GameSheet

/-! ## What entries say -/

/-- The keys in the block `settings`, and the options that they name. -/
def settingsKeys : List (String × String) :=
  [("sheet", "settings_sheet"), ("key_column", "settings_key_column"), ("value_column", "settings_value_column")]

/-- What the block `settings` gives for an option. -/
def nested? (entries : List (String × Data)) (name : String) : Option Data :=
  (settingsKeys.find? (·.2 == name)).bind fun key => (entries.lookup "settings").bind (·.get? key.1)

/-- The default options as entries. -/
def defaultEntries : List (String × Data) := [
  ("max_depth", .int 64), ("allow_infinity", .bool false), ("settings_sheet", .text "Settings"),
  ("settings_key_column", .null), ("settings_value_column", .null), ("log_dir", .null)]

namespace Options

/-- The option of the name is what the data stands for. -/
def Follows (o : Options) (name : String) (d : Data) : Prop :=
  match name with
  | "max_depth" => depthOfData? d = some ⟨o.maxDepth, o.maxDepth_pos⟩
  | "allow_infinity" => truthOfData? d = some o.allowInfinity
  | "settings_sheet" => optionText? d = some o.settingsSheet
  | "settings_key_column" => optionalText? d = some o.settingsKeyColumn
  | "settings_value_column" => optionalText? d = some o.settingsValueColumn
  | "log_dir" => optionalText? d = some o.logDirectory
  | _ => False

/-- The options are the defaults with the entries merged over them, and with the block `settings` over these. -/
structure Merges (o : Options) (entries : List (String × Data)) : Prop where
  known : ∀ name d, name ≠ "settings" → entries.lookup name = some d → name ∈ optionNames
  followed : ∀ e ∈ defaultEntries, o.Follows e.1 (((nested? entries e.1).or (entries.lookup e.1)).getD e.2)

/-- Every entry has determined the option that it names, outside of the block `settings` and inside. -/
structure Heeds (o : Options) (entries : List (String × Data)) : Prop where
  outside : ∀ name d, name ≠ "settings" → entries.lookup name = some d → o.Follows name d
  block : ∀ d, entries.lookup "settings" = some d → ∃ inside, d = .mapping inside ∧
    ∀ key value, inside.lookup key = some value → ∃ name, (key, name) ∈ settingsKeys ∧ o.Follows name value

end Options

/-- The block `settings` is a mapping, each of its keys names an option, and no option has another value outside. -/
structure Unmistakable (entries : List (String × Data)) : Prop where
  mapping : ∀ d, entries.lookup "settings" = some d → ∃ inside, d = .mapping inside
  known : ∀ inside, entries.lookup "settings" = some (.mapping inside) →
    ∀ key value, inside.lookup key = some value → key ∈ settingsKeys.map Prod.fst
  agree : ∀ name d value, nested? entries name = some value → entries.lookup name = some d → d = value

/-! ## Merging -/

section Merging

variable {entries : List (String × Data)} {name : String} {o : Options}

theorem lookup_liftEntry (block : Data) (entries : List (String × Data)) (key : String × String) (name : String) :
    (liftEntry block entries key).lookup name =
      if key.2 = name then (block.get? key.1).or (entries.lookup name) else entries.lookup name := by
  unfold liftEntry
  cases hget : block.get? key.1 with
  | none => simp
  | some value =>
    by_cases h : key.2 = name
    · rw [if_pos h, ← h, Option.some_or]
      exact lookup_setEntry_self key.2 value entries
    · rw [if_neg h]
      exact lookup_setEntry_of_ne (Ne.symm h) value entries

/-- The entries that are lifted out of a block are found in front of the others. -/
theorem lookup_liftEntries (block : Data) {keys : List (String × String)} (h : (keys.map Prod.snd).Nodup)
    (entries : List (String × Data)) (name : String) :
    (keys.foldl (liftEntry block) entries).lookup name =
      ((keys.find? (·.2 == name)).bind fun key => block.get? key.1).or (entries.lookup name) := by
  induction keys generalizing entries with
  | nil => rfl
  | cons key keys ih =>
    obtain ⟨hkey, hkeys⟩ := List.nodup_cons.1 h
    rw [List.foldl_cons, ih hkeys, lookup_liftEntry, List.find?_cons]
    by_cases hname : key.2 = name
    · have hnone : keys.find? (·.2 == name) = none := by
        refine List.find?_eq_none.2 fun other hother he => hkey ?_
        rw [hname, ← beq_iff_eq.1 he]
        exact List.mem_map_of_mem hother
      simp [hname, hnone]
    · have hne : (key.2 == name) = false := by simpa using hname
      rw [if_neg hname, hne]

theorem lookup_outside (entries : List (String × Data)) (name : String) :
    (entries.filter (·.1 != "settings")).lookup name = if name = "settings" then none else entries.lookup name := by
  induction entries with
  | nil => simp
  | cons e rest ih =>
    obtain ⟨key, d⟩ := e
    by_cases hkey : key = "settings"
    · rw [List.filter_cons_of_neg (by simpa using hkey), ih, hkey, List.lookup_cons]
      by_cases hname : name = "settings"
      · simp [hname]
      · have hne : (name == "settings") = false := by simpa using hname
        rw [if_neg hname, if_neg hname, hne]
    · rw [List.filter_cons_of_pos (by simpa using hkey), List.lookup_cons, List.lookup_cons, ih]
      by_cases hname : name = "settings"
      · have hne : ("settings" == key) = false := by simpa using Ne.symm hkey
        simp [hname, hne]
      · simp [hname]

theorem flattenSettings_eq (entries : List (String × Data)) :
    flattenSettings entries = settingsKeys.foldl (liftEntry ((entries.lookup "settings").getD .null))
      (entries.filter (·.1 != "settings")) := by
  unfold flattenSettings
  split
  case h_1 block hblock => rw [hblock]; rfl
  case h_2 hother =>
    cases hblock : entries.lookup "settings" with
    | none => rfl
    | some d =>
      cases d with
      | mapping block => exact absurd hblock (hother block)
      | _ => rfl

/-- The merged entries are those of the block, and otherwise those outside of it. -/
theorem lookup_flattenSettings (entries : List (String × Data)) (name : String) :
    (flattenSettings entries).lookup name =
      (nested? entries name).or (if name = "settings" then none else entries.lookup name) := by
  rw [flattenSettings_eq, lookup_liftEntries _ (by decide), lookup_outside, nested?]
  cases entries.lookup "settings" with
  | none => cases settingsKeys.find? (·.2 == name) <;> rfl
  | some d => rfl

theorem nested?_eq_some_iff {value : Data} : nested? entries name = some value ↔
    ∃ key inside, (key, name) ∈ settingsKeys ∧ entries.lookup "settings" = some (.mapping inside) ∧
      inside.lookup key = some value := by
  have hfind : ∀ e, settingsKeys.find? (·.2 == name) = some e ↔ e ∈ settingsKeys ∧ e.2 = name := fun e =>
    find?_eq_some_iff_of_nodup (by decide)
  simp only [nested?, Option.bind_eq_some_iff, hfind]
  constructor
  · rintro ⟨⟨key, _⟩, ⟨hkey, rfl⟩, block, hblock, hvalue⟩
    cases block with
    | mapping inside => exact ⟨key, inside, hkey, hblock, hvalue⟩
    | _ => cases hvalue
  · rintro ⟨key, inside, hkey, hblock, hvalue⟩
    exact ⟨(key, name), ⟨hkey, rfl⟩, .mapping inside, hblock, hvalue⟩

theorem mem_optionNames_of_mem {key : String} (h : (key, name) ∈ settingsKeys) : name ∈ optionNames := by
  have hall : ∀ e ∈ settingsKeys, e.2 ∈ optionNames := by decide
  exact hall _ h

theorem mem_keys_iff : name ∈ entries.map Prod.fst ↔ ∃ d, entries.lookup name = some d := by
  constructor
  · intro h
    cases hl : entries.lookup name with
    | some d => exact ⟨d, rfl⟩
    | none =>
      obtain ⟨e, he, rfl⟩ := List.mem_map.1 h
      exact absurd (List.lookup_eq_none_iff.1 hl e he) (by simp)
  · rintro ⟨d, h⟩
    exact List.mem_map_of_mem (mem_of_lookup h)

/-- The value of an option is read from its entry, or else from the entry of its default. -/
theorem optionValue_eq {α : Type} (entries : List (String × Data)) (name : String) {read : Data → Option α}
    {default : α} {d : Data} (h : read d = some default) :
    optionValue entries name read default = read ((entries.lookup name).getD d) := by
  unfold optionValue
  cases entries.lookup name with
  | none => exact h.symm
  | some e => rfl

/-- Options that follow the entries and the defaults are the values of these. -/
theorem follows_iff (entries : List (String × Data)) (o : Options) :
    (∀ e ∈ defaultEntries, o.Follows e.1 ((entries.lookup e.1).getD e.2)) ↔
      optionValue entries "max_depth" depthOfData? ⟨64, Nat.succ_pos _⟩ = some ⟨o.maxDepth, o.maxDepth_pos⟩ ∧
      optionValue entries "allow_infinity" truthOfData? false = some o.allowInfinity ∧
      optionValue entries "settings_sheet" optionText? "Settings" = some o.settingsSheet ∧
      optionValue entries "settings_key_column" optionalText? none = some o.settingsKeyColumn ∧
      optionValue entries "settings_value_column" optionalText? none = some o.settingsValueColumn ∧
      optionValue entries "log_dir" optionalText? none = some o.logDirectory := by
  have hdepth : depthOfData? (.int 64) = some ⟨64, Nat.succ_pos _⟩ := rfl
  have hinfinity : truthOfData? (.bool false) = some false := rfl
  have hsheet : optionText? (.text "Settings") = some "Settings" := rfl
  have hnone : optionalText? .null = some none := rfl
  rw [optionValue_eq _ _ hdepth, optionValue_eq _ _ hinfinity, optionValue_eq _ _ hsheet, optionValue_eq _ _ hnone,
    optionValue_eq _ _ hnone, optionValue_eq _ _ hnone]
  simp only [defaultEntries, List.forall_mem_cons, List.not_mem_nil, false_imp_iff, implies_true, and_true]
  exact Iff.rfl

/-- Entries give options exactly if they name nothing else, and then the options follow the entries and the defaults. -/
theorem ofEntries_eq_ok_iff : Options.ofEntries entries = .ok o ↔
    (∀ name ∈ entries.map Prod.fst, name ∈ optionNames) ∧
      ∀ e ∈ defaultEntries, o.Follows e.1 ((entries.lookup e.1).getD e.2) := by
  have hunknown : (entries.map (·.1)).filter (fun name => !optionNames.contains name) = [] ↔
      ∀ name ∈ entries.map Prod.fst, name ∈ optionNames := by simp [List.filter_eq_nil_iff]
  rw [← hunknown, follows_iff]
  constructor
  · intro h
    unfold Options.ofEntries at h
    dsimp only at h
    split at h
    case h_1 hnone h₁ h₂ h₃ h₄ h₅ h₆ =>
      obtain rfl := Except.ok.inj h
      exact ⟨hnone, h₁, h₂, h₃, h₄, h₅, h₆⟩
    case h_2 => cases h
  · rintro ⟨hnone, h₁, h₂, h₃, h₄, h₅, h₆⟩
    simp only [Options.ofEntries, hnone, h₁, h₂, h₃, h₄, h₅, h₆]

/-- **What a file gives** are the defaults with its entries merged over them, if all of these fit. -/
theorem ofEntries_flattenSettings : Options.ofEntries (flattenSettings entries) = .ok o ↔ o.Merges entries := by
  have hdefaults : ∀ name ∈ defaultEntries.map Prod.fst, name ≠ "settings" := by
    simp only [defaultEntries, List.map_cons]
    decide
  have hlookup : ∀ e ∈ defaultEntries, (flattenSettings entries).lookup e.1 =
      (nested? entries e.1).or (entries.lookup e.1) := fun e he => by
    rw [lookup_flattenSettings, if_neg (hdefaults _ (List.mem_map_of_mem he))]
  rw [ofEntries_eq_ok_iff]
  constructor
  · rintro ⟨hknown, hfollowed⟩
    refine ⟨fun name d hname hd => hknown name (mem_keys_iff.2 ?_), fun e he => hlookup e he ▸ hfollowed e he⟩
    rw [lookup_flattenSettings, if_neg hname, hd]
    cases nested? entries name with
    | none => exact ⟨d, rfl⟩
    | some value => exact ⟨value, rfl⟩
  · rintro ⟨hknown, hfollowed⟩
    refine ⟨fun name hname => ?_, fun e he => (hlookup e he).symm ▸ hfollowed e he⟩
    obtain ⟨d, hd⟩ := mem_keys_iff.1 hname
    rw [lookup_flattenSettings, Option.or_eq_some_iff] at hd
    rcases hd with hnested | ⟨-, houtside⟩
    · obtain ⟨key, inside, hkey, -⟩ := nested?_eq_some_iff.1 hnested
      exact mem_optionNames_of_mem hkey
    · split at houtside
      case isTrue => cases houtside
      case isFalse hne => exact hknown name d hne houtside

end Merging

/-! ## Heeding -/

namespace Options

variable {o : Options} {entries : List (String × Data)} {name : String} {d value : Data}

theorem optionText?_inj {s : String} (h : optionText? d = some s) : d = .text s := by
  cases d <;> simp_all [optionText?]

theorem optionalText?_inj {s : Option String} (h : optionalText? d = some s) : d = s.elim .null .text := by
  cases d <;> simp_all [optionalText?] <;> simp [← h]

/-- An option of the block stands for one value only. -/
theorem Follows.eq {key : String} (hkey : (key, name) ∈ settingsKeys) (h : o.Follows name d)
    (hvalue : o.Follows name value) : d = value := by
  simp only [settingsKeys, List.mem_cons, List.not_mem_nil, or_false, Prod.mk.injEq] at hkey
  rcases hkey with ⟨-, rfl⟩ | ⟨-, rfl⟩ | ⟨-, rfl⟩
  · exact (optionText?_inj h).trans (optionText?_inj hvalue).symm
  · exact (optionalText?_inj h).trans (optionalText?_inj hvalue).symm
  · exact (optionalText?_inj h).trans (optionalText?_inj hvalue).symm

/-- What stands for an option is followed, by the block before what stands outside. -/
theorem Merges.follows (h : o.Merges entries) (hname : name ∈ optionNames)
    (hd : (nested? entries name).or (entries.lookup name) = some d) : o.Follows name d := by
  have hdefault : name ∈ defaultEntries.map Prod.fst := hname
  obtain ⟨e, he, rfl⟩ := List.mem_map.1 hdefault
  have hfollowed := h.followed e he
  rwa [hd] at hfollowed

/-- **The options heed all entries exactly if none is dropped.** -/
theorem Merges.heeds_iff (h : o.Merges entries) : o.Heeds entries ↔ Unmistakable entries := by
  constructor
  · rintro ⟨houtside, hblock⟩
    refine ⟨fun d hd => ?_, fun inside hinside key value hvalue => ?_, fun name d value hnested hd => ?_⟩
    · obtain ⟨inside, rfl, -⟩ := hblock d hd
      exact ⟨inside, rfl⟩
    · obtain ⟨_, hsame, hall⟩ := hblock _ hinside
      cases hsame
      obtain ⟨name, hkey, -⟩ := hall key value hvalue
      exact List.mem_map_of_mem hkey
    · obtain ⟨key, inside, hkey, -⟩ := nested?_eq_some_iff.1 hnested
      have hne : name ≠ "settings" := by
        rintro rfl
        exact absurd (mem_optionNames_of_mem hkey) (by decide)
      have hfollows : o.Follows name value := h.follows (mem_optionNames_of_mem hkey) (by rw [hnested, Option.some_or])
      exact (houtside name d hne hd).eq hkey hfollows
  · rintro ⟨hmapping, hknown, hagree⟩
    refine ⟨fun name d hne hd => ?_, fun d hd => ?_⟩
    · refine h.follows (h.known name d hne hd) ?_
      cases hnested : nested? entries name with
      | none => rw [Option.none_or, hd]
      | some value => rw [Option.some_or, hagree name d value hnested hd]
    · obtain ⟨inside, rfl⟩ := hmapping d hd
      refine ⟨inside, rfl, fun key value hvalue => ?_⟩
      obtain ⟨⟨_, name⟩, hkey, rfl⟩ := List.mem_map.1 (hknown inside hd key value hvalue)
      have hnested : nested? entries name = some value := nested?_eq_some_iff.2 ⟨_, inside, hkey, hd, hvalue⟩
      exact ⟨name, hkey, h.follows (mem_optionNames_of_mem hkey) (by rw [hnested, Option.some_or])⟩

theorem ofEntries_error {fault : OptionsFault} (h : Options.ofEntries entries = .error fault) :
    ∃ names, fault = .badOptions names := by
  unfold Options.ofEntries at h
  dsimp only at h
  split at h
  case h_1 => cases h
  case h_2 => exact ⟨_, (Except.error.inj h).symm⟩

/-- The file of a mapping gives what its entries give. -/
theorem load_eq {files : Files} {path text : String} (htext : files.text? (optionsFile files path) = some text)
    (hdoc : files.formats.document text = some (.mapping entries)) :
    (Options.load files (some path)).1 = Options.ofEntries (flattenSettings entries) := by
  simp only [Options.load, htext, Options.ofText, hdoc]

/-- **A file is refused, or it gives options that heed all of its entries exactly if none is dropped**, whatever reads
the mapping in its text. It is refused exactly if nothing comes of its entries merged over the defaults. -/
theorem heeds_of_load {files : Files} {path text : String} (htext : files.text? (optionsFile files path) = some text)
    (hdoc : files.formats.document text = some (.mapping entries)) :
    ((∃ names, (Options.load files (some path)).1 = .error (.badOptions names)) ∧ ∀ o : Options, ¬o.Merges entries) ∨
      ∃ o, (Options.load files (some path)).1 = .ok o ∧ o.Merges entries ∧
        (o.Heeds entries ↔ Unmistakable entries) := by
  rw [load_eq htext hdoc]
  cases hentries : Options.ofEntries (flattenSettings entries) with
  | error fault =>
    obtain ⟨names, rfl⟩ := ofEntries_error hentries
    refine .inl ⟨⟨names, rfl⟩, fun o ho => ?_⟩
    rw [ofEntries_flattenSettings.2 ho] at hentries
    cases hentries
  | ok o =>
    have hmerges := ofEntries_flattenSettings.1 hentries
    exact .inr ⟨o, rfl, hmerges, hmerges.heeds_iff⟩

end Options

/-! ## Files of options -/

/-- A file of options in the directory of a run, and a reader for which its text holds a mapping. -/
def writtenOptions (text : String) (entries : List (String × Data)) : Files where
  entries := [(optionsFileName, text)]
  formats := { Formats.plain with document := fun t => if t = text then some (.mapping entries) else none }

section Written

variable (text : String) (entries : List (String × Data))

theorem text?_writtenOptions :
    (writtenOptions text entries).text? (optionsFile (writtenOptions text entries) optionsFileName) = some text := by
  have hplace : Path.place optionsFileName = [optionsFileName] := by decide
  have hplain : Path.plain optionsFileName = optionsFileName := by decide
  have hdirectory : (writtenOptions text entries).isDirectory optionsFileName = false := by
    simp [Files.isDirectory, writtenOptions, hplace]
  have hfile : optionsFile (writtenOptions text entries) optionsFileName = optionsFileName := by
    rw [optionsFile, hdirectory, if_neg Bool.false_ne_true, hplain]
  rw [hfile]
  simp [Files.text?, writtenOptions]

theorem document_writtenOptions :
    (writtenOptions text entries).formats.document text = some (.mapping entries) :=
  if_pos rfl

end Written

/-- A text with a depth and a block. -/
def blockText : String :=
  "max_depth: 16\nsettings:\n  sheet: Tuning\n"

/-- The entries of the text. -/
def blockEntries : List (String × Data) :=
  [("max_depth", .int 16), ("settings", .mapping [("sheet", .text "Tuning")])]

namespace Options

/-- The block is heeded, and so is the depth outside of it. -/
theorem heeds_of_load_block : ∃ o,
    (Options.load (writtenOptions blockText blockEntries) (some optionsFileName)).1 = .ok o ∧ o.Heeds blockEntries := by
  have htext := text?_writtenOptions blockText blockEntries
  have hdoc := document_writtenOptions blockText blockEntries
  have hblock : blockEntries.lookup "settings" = some (.mapping [("sheet", .text "Tuning")]) := rfl
  have hunmistakable : Unmistakable blockEntries := by
    refine ⟨fun d hd => ?_, fun inside hinside key value hvalue => ?_, fun name d value hvalue hd => ?_⟩
    · exact ⟨_, (Option.some.inj (hblock.symm.trans hd)).symm⟩
    · cases hblock.symm.trans hinside
      cases List.mem_singleton.1 (mem_of_lookup hvalue)
      decide
    · obtain ⟨key, inside, hkey, -⟩ := nested?_eq_some_iff.1 hvalue
      simp only [settingsKeys, List.mem_cons, List.not_mem_nil, or_false, Prod.mk.injEq] at hkey
      rcases hkey with ⟨-, rfl⟩ | ⟨-, rfl⟩ | ⟨-, rfl⟩ <;> cases hd
  rcases heeds_of_load htext hdoc with ⟨⟨names, herror⟩, -⟩ | ⟨o, hload, -, hheeds⟩
  · rw [load_eq htext hdoc] at herror
    cases herror
  · exact ⟨o, hload, hheeds.2 hunmistakable⟩

/-- A file whose text holds the entries is loaded, and one of them is not heeded. -/
def Drops (text : String) (entries : List (String × Data)) : Prop :=
  ∃ o, (Options.load (writtenOptions text entries) (some optionsFileName)).1 = .ok o ∧ ¬o.Heeds entries

theorem drops_of_ofEntries {text : String} {entries : List (String × Data)} {o : Options}
    (hentries : Options.ofEntries (flattenSettings entries) = .ok o) (h : ¬o.Heeds entries) : Drops text entries :=
  ⟨o, (load_eq (text?_writtenOptions text entries) (document_writtenOptions text entries)).trans hentries, h⟩

/-- **Nothing says that something was dropped**: a block that is no mapping, a key in it that names nothing, an option
that is given twice. -/
theorem not_heeds_of_load :
    Drops "settings: 5\n" [("settings", .int 5)] ∧
      Drops "settings:\n  sheeet: Tuning\n" [("settings", .mapping [("sheeet", .text "Tuning")])] ∧
      Drops "settings_sheet: A\nsettings:\n  sheet: B\n"
        [("settings_sheet", .text "A"), ("settings", .mapping [("sheet", .text "B")])] := by
  refine ⟨drops_of_ofEntries rfl fun h => ?_, drops_of_ofEntries rfl fun h => ?_, drops_of_ofEntries rfl fun h => ?_⟩
  · obtain ⟨inside, hinside, -⟩ := h.block _ rfl
    cases hinside
  · obtain ⟨inside, hinside, hall⟩ := h.block _ rfl
    cases hinside
    obtain ⟨name, hname, -⟩ := hall "sheeet" _ rfl
    simp [settingsKeys] at hname
  · have hsheet : optionText? (.text "A") = some "B" := h.outside "settings_sheet" _ (by decide) rfl
    exact absurd hsheet (by decide)

end Options

end GameSheet
