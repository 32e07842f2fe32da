import GameSheet.Proofs.Journal.Reading

/-!
# What clipping leaves

A place in a context is reached by keys, from mapping to mapping (`Data.at?`). What stands there after clipping is what
stood there before, clipped (`Data.at?_clipData`). So a clipped context has the places of the whole one, and only long
texts differ (`Data.Trims`).

A clipped text is too long itself, by its marker. Clipping it once more changes nothing, because its first part is that
of the text it was made of (`clip_clip`). So clipping a context again changes nothing either
(**`clipEntries_trims`**).
-/

namespace GameSheet

/-! ## Texts -/

theorem clip_of_le {s : String} (h : s.length ≤ clipLimit) : clip s = s := by
  rw [clip, if_neg (Nat.not_lt.2 h)]

theorem clip_of_lt {s : String} (h : clipLimit < s.length) :
    clip s = String.ofList (s.toList.take clipLimit) ++ clipMarker := by
  rw [clip, if_pos h]

/-- A clipped text stays as it is. -/
theorem clip_clip (s : String) : clip (clip s) = clip s := by
  by_cases h : clipLimit < s.length
  · have hlength : (s.toList.take clipLimit).length = clipLimit := by
      rw [List.length_take, String.length_toList]
      omega
    have hchars : (clip s).toList = s.toList.take clipLimit ++ clipMarker.toList := by
      rw [clip_of_lt h, String.toList_append, String.toList_ofList]
    have hmarker : 0 < clipMarker.toList.length := by decide
    have hlong : clipLimit < (clip s).length := by
      rw [← String.length_toList, hchars, List.length_append, hlength]
      omega
    rw [clip_of_lt hlong, hchars, List.take_left' hlength, ← clip_of_lt h]
  · rw [clip_of_le (Nat.not_lt.1 h)]
    exact clip_of_le (Nat.not_lt.1 h)

/-! ## Data -/

mutual

theorem clipData_clipData (d : Data) : clipData (clipData d) = clipData d := by
  cases d with
  | text s => rw [clipData, clipData, clip_clip]
  | mapping entries => rw [clipData, clipData, clipEntries_clipEntries entries]
  | _ => rfl

theorem clipEntries_clipEntries (entries : List (String × Data)) :
    clipEntries (clipEntries entries) = clipEntries entries := by
  cases entries with
  | nil => rfl
  | cons e rest =>
    rw [clipEntries, clipEntries, clipData_clipData e.2, clipEntries_clipEntries rest]

end

namespace Data

/-- What is reached from data by keys, one mapping after the other. -/
def at? : List String → Data → Option Data
  | [], d => some d
  | key :: path, d => (d.get? key).bind (at? path)

theorem get?_clipData (d : Data) (key : String) : (clipData d).get? key = (d.get? key).map clipData := by
  cases d with
  | mapping entries =>
    rw [clipData, get?, get?, clipEntries_eq]
    exact lookup_map_snd clipData entries key
  | _ => rfl

/-- The same keys lead through clipped data, to what they lead to without clipping. -/
theorem at?_clipData (path : List String) (d : Data) : (clipData d).at? path = (d.at? path).map clipData := by
  induction path generalizing d with
  | nil => rfl
  | cons key path ih =>
    rw [at?, at?, get?_clipData, Option.bind_map, Option.map_bind]
    exact Option.bind_congr fun next _ => ih next

/-- Data, and the data that it becomes: the same places are reached by keys, the mappings there have the same keys in
the same order, texts of at most 256 characters and all that is neither a text nor a mapping is the same, and of a
longer text the first 256 characters are left, with the marker after them. -/
structure Trims (before after : Data) : Prop where
  missing : ∀ path, before.at? path = none → after.at? path = none
  mapping : ∀ path entries, before.at? path = some (.mapping entries) →
    ∃ entries', after.at? path = some (.mapping entries') ∧ entries'.map Prod.fst = entries.map Prod.fst
  other : ∀ path d, before.at? path = some d → (∀ s, d ≠ .text s) → (∀ entries, d ≠ .mapping entries) →
    after.at? path = some d
  short : ∀ path s, before.at? path = some (.text s) → s.length ≤ 256 → after.at? path = some (.text s)
  long : ∀ path s, before.at? path = some (.text s) → 256 < s.length →
    after.at? path = some (.text (String.ofList (s.toList.take 256) ++ "...[truncated]"))

theorem clipData_trims (d : Data) : d.Trims (clipData d) where
  missing path h := by rw [at?_clipData, h, Option.map_none]
  mapping path entries h := by
    refine ⟨clipEntries entries, ?_, ?_⟩
    · rw [at?_clipData, h, Option.map_some, clipData]
    · rw [clipEntries_eq, List.map_map]
      rfl
  other path d h htext hmapping := by
    rw [at?_clipData, h, Option.map_some]
    cases d with
    | text s => exact absurd rfl (htext s)
    | mapping entries => exact absurd rfl (hmapping entries)
    | _ => rfl
  short path s h hshort := by rw [at?_clipData, h, Option.map_some, clipData, clip_of_le hshort]
  long path s h hlong := by
    rw [at?_clipData, h, Option.map_some, clipData, clip_of_lt hlong]
    rfl

end Data

/-- **Clipping a context** twice is clipping it once, and nothing but its long texts is changed. -/
theorem clipEntries_trims (context : List (String × Data)) :
    clipEntries (clipEntries context) = clipEntries context ∧
      (Data.mapping context).Trims (.mapping (clipEntries context)) :=
  ⟨clipEntries_clipEntries context, Data.clipData_trims (.mapping context)⟩

end GameSheet
