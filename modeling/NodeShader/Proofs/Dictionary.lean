import Mathlib.Logic.Basic
import NodeShader.Dictionary

/-!
# Entries of dictionaries

The dictionary of a list has the keys of the list (`Dictionary.mem_keys_ofList`) and no entry that
is not in it (`Dictionary.mem_entries_ofList`). Where the keys of the list are distinct, each finds
its own value (`Dictionary.get?_ofList`); where they ascend, the list is kept as it is
(`Dictionary.ofList_entries`).
-/

namespace NodeShader.Dictionary

variable {α : Type}

/-! ## Keys and entries -/

theorem mem_keys_insertEntry {key other : String} {value : α} {entries : List (String × α)} :
    other ∈ (insertEntry key value entries).map Prod.fst ↔
      other = key ∨ other ∈ entries.map Prod.fst := by
  induction entries with
  | nil => simp [insertEntry]
  | cons entry rest ih =>
    simp only [insertEntry]
    split
    · simp
    · split
      next same => simp [same]
      next =>
        rw [List.map_cons, List.mem_cons, ih, List.map_cons, List.mem_cons]
        exact or_left_comm

theorem mem_keys_ofList {key : String} {entries : List (String × α)} :
    key ∈ (ofList entries).entries.map Prod.fst ↔ key ∈ entries.map Prod.fst := by
  have hfold (d : Dictionary α) :
      key ∈ (entries.foldl (fun d e => d.insert e.1 e.2) d).entries.map Prod.fst ↔
        key ∈ d.entries.map Prod.fst ∨ key ∈ entries.map Prod.fst := by
    induction entries generalizing d with
    | nil => simp
    | cons e rest ih =>
      rw [List.foldl_cons, ih, insert, mem_keys_insertEntry, List.map_cons, List.mem_cons, or_assoc,
        or_left_comm]
  rw [ofList, hfold]
  exact or_iff_right (by rintro ⟨⟩)

theorem mem_entries_foldl_insert {d : Dictionary α} {entries : List (String × α)} {e : String × α}
    (h : e ∈ (entries.foldl (fun d e => d.insert e.1 e.2) d).entries) :
    e ∈ entries ∨ e ∈ d.entries := by
  induction entries generalizing d with
  | nil => exact .inr h
  | cons first rest ih =>
    rcases ih h with h | h
    · exact .inl (List.mem_cons_of_mem _ h)
    · rcases mem_insertEntry h with rfl | h
      · exact .inl List.mem_cons_self
      · exact .inr h

/-- What is in a dictionary was put into it. -/
theorem mem_entries_ofList {entries : List (String × α)} {e : String × α}
    (h : e ∈ (ofList entries).entries) : e ∈ entries := by
  refine (mem_entries_foldl_insert h).resolve_right ?_
  rintro ⟨⟩

/-! ## Looking up -/

theorem find?_insertEntry (key other : String) (value : α) (entries : List (String × α)) :
    (insertEntry key value entries).find? (fun e => e.1 == other) =
      if key = other then some (key, value) else entries.find? (fun e => e.1 == other) := by
  induction entries with
  | nil => by_cases h : key = other <;> simp [insertEntry, h]
  | cons entry rest ih =>
    simp only [insertEntry]
    split
    · by_cases h : key = other <;> simp [h]
    · split
      next same => by_cases h : key = other <;> simp [← same, h]
      next different =>
        by_cases h : entry.1 = other
        · have hkey : key ≠ other := fun heq => different (heq.trans h.symm)
          simp [h, hkey]
        · simp [h, ih]

theorem get?_insert (d : Dictionary α) (key other : String) (value : α) :
    (d.insert key value).get? other = if key = other then some value else d.get? other := by
  rw [get?, insert, find?_insertEntry]
  split <;> rfl

theorem get?_foldl_insert {d : Dictionary α} {entries : List (String × α)} {key : String}
    (h : key ∉ entries.map Prod.fst) :
    (entries.foldl (fun d e => d.insert e.1 e.2) d).get? key = d.get? key := by
  induction entries generalizing d with
  | nil => rfl
  | cons e rest ih =>
    rw [List.map_cons, List.mem_cons, not_or] at h
    rw [List.foldl_cons, ih h.2, get?_insert, if_neg (Ne.symm h.1)]

/-- Where keys are distinct, each finds its own entry. -/
theorem get?_ofList {entries : List (String × α)} (hd : (entries.map Prod.fst).Nodup)
    {key : String} {value : α} (h : (key, value) ∈ entries) :
    (ofList entries).get? key = some value := by
  rw [ofList]
  generalize (∅ : Dictionary α) = d
  induction entries generalizing d with
  | nil => cases h
  | cons e rest ih =>
    rw [List.map_cons, List.nodup_cons] at hd
    rw [List.foldl_cons]
    rcases List.mem_cons.mp h with rfl | h
    · rw [get?_foldl_insert hd.1, get?_insert, if_pos rfl]
    · exact ih hd.2 h _

/-- What is found after entries are put in is one of them or was there before. -/
theorem mem_of_get?_foldl_insert {d : Dictionary α} {entries : List (String × α)} {key : String}
    {value : α} (h : (entries.foldl (fun d e => d.insert e.1 e.2) d).get? key = some value) :
    (key, value) ∈ entries ∨ d.get? key = some value := by
  induction entries generalizing d with
  | nil => exact .inr h
  | cons e rest ih =>
    rcases ih h with h | h
    · exact .inl (List.mem_cons_of_mem _ h)
    · rw [get?_insert] at h
      split at h
      next heq =>
        cases h
        exact .inl (heq ▸ List.mem_cons_self)
      next => exact .inr h

theorem mem_of_get?_ofList {entries : List (String × α)} {key : String} {value : α}
    (h : (ofList entries).get? key = some value) : (key, value) ∈ entries := by
  refine (mem_of_get?_foldl_insert h).resolve_right ?_
  rintro ⟨⟩

theorem exists_get?_ofList {entries : List (String × α)} {key : String}
    (h : key ∈ entries.map Prod.fst) : ∃ value, (ofList entries).get? key = some value := by
  obtain ⟨e, he, rfl⟩ := List.mem_map.mp (mem_keys_ofList.mpr h)
  have hfound : ((ofList entries).entries.find? fun x => x.1 == e.1).isSome :=
    List.find?_isSome.mpr ⟨e, he, by simp⟩
  obtain ⟨x, hx⟩ := Option.isSome_iff_exists.mp hfound
  exact ⟨x.2, by rw [get?, hx]; rfl⟩

/-! ## Entries in order -/

theorem insertEntry_of_lt {key : String} (value : α)
    {entries : List (String × α)} (h : ∀ e ∈ entries, e.1 < key) :
    insertEntry key value entries = entries ++ [(key, value)] := by
  induction entries with
  | nil => rfl
  | cons entry rest ih =>
    have hentry : entry.1 < key := h entry List.mem_cons_self
    rw [insertEntry, if_neg (String.lt_asymm hentry), if_neg (Std.ne_of_lt hentry).symm,
      ih fun e he => h e (List.mem_cons_of_mem _ he), List.cons_append]

/-- Entries whose keys ascend are appended one after the other. -/
theorem entries_foldl_insert {entries : List (String × α)}
    {d : Dictionary α} (h : Ascending (d.entries ++ entries)) :
    (entries.foldl (fun d e => d.insert e.1 e.2) d).entries = d.entries ++ entries := by
  induction entries generalizing d with
  | nil => rw [List.foldl_nil, List.append_nil]
  | cons e rest ih =>
    have hbelow : ∀ a ∈ d.entries, a.1 < e.1 := fun a ha =>
      (List.pairwise_append.mp h).2.2 a ha e List.mem_cons_self
    have hinsert : (d.insert e.1 e.2).entries = d.entries ++ [e] := insertEntry_of_lt e.2 hbelow
    have hrest : (d.insert e.1 e.2).entries ++ rest = d.entries ++ e :: rest := by
      rw [hinsert, List.append_assoc, List.singleton_append]
    rw [List.foldl_cons, ih (hrest ▸ h), hrest]

theorem ofList_entries (d : Dictionary α) : ofList d.entries = d :=
  Dictionary.ext (entries_foldl_insert (d := ∅) d.ascending)

end NodeShader.Dictionary
