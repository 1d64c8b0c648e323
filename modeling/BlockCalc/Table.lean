/-! Tables from keys to values that remember the order in which their keys first came.
Storing under a key that is present replaces the value where it stands; every other key keeps its
value and its place. So no key ever comes twice, and a table carries that with its entries. -/
namespace BlockCalc

/-- The entries of a table, oldest key first. -/
@[ext]
structure Table (κ α : Type) where
  entries : List (κ × α)
  distinct : (entries.map Prod.fst).Nodup
  deriving DecidableEq, Repr

namespace Table
variable {κ α β : Type}

def empty : Table κ α := ⟨[], .nil⟩

def keys (t : Table κ α) : List κ := t.entries.map Prod.fst

def filter (p : κ → Bool) (t : Table κ α) : Table κ α where
  entries := t.entries.filter fun entry => p entry.1
  distinct := t.distinct.sublist (List.filter_sublist.map Prod.fst)

theorem map_fst_mapValues (f : α → β) (entries : List (κ × α)) :
    (entries.map fun entry => (entry.1, f entry.2)).map Prod.fst = entries.map Prod.fst :=
  List.map_map

def mapValues (f : α → β) (t : Table κ α) : Table κ β where
  entries := t.entries.map fun entry => (entry.1, f entry.2)
  distinct := by
    rw [map_fst_mapValues]
    exact t.distinct

theorem keys_mapValues (f : α → β) (t : Table κ α) : (t.mapValues f).keys = t.keys :=
  map_fst_mapValues f t.entries

theorem oldest_new {t : Table κ α} {key : κ} {value : α} {rest : List (κ × α)}
    (oldest : t.entries = (key, value) :: rest) : key ∉ rest.map Prod.fst := by
  have distinct := t.distinct
  rw [oldest] at distinct
  exact (List.nodup_cons.mp distinct).1

/-- A key further behind is not among those before it. -/
theorem new_of_append {t later : Table κ α} {key : κ} {value : α} {rest : List (κ × α)}
    (behind : later.entries = t.entries ++ (key, value) :: rest) : key ∉ t.keys := by
  have distinct := later.distinct
  rw [behind, List.map_append] at distinct
  intro member
  exact (List.pairwise_append.mp distinct).2.2 key member key List.mem_cons_self rfl

section
variable [DecidableEq κ]

/-- Replaces the first entry of `key`, or adds one at the end. -/
def insertEntry (key : κ) (value : α) : List (κ × α) → List (κ × α)
  | [] => [(key, value)]
  | (k, v) :: rest => if k = key then (key, value) :: rest else (k, v) :: insertEntry key value rest

/-- A key that is present keeps its place, a new one goes to the end. -/
theorem map_fst_insertEntry (key : κ) (value : α) (entries : List (κ × α)) :
    (insertEntry key value entries).map Prod.fst =
      if key ∈ entries.map Prod.fst then entries.map Prod.fst
      else entries.map Prod.fst ++ [key] := by
  induction entries with
  | nil => rfl
  | cons entry rest ih =>
    rcases entry with ⟨k, v⟩
    by_cases here : k = key
    · simp only [insertEntry, here, if_true, List.map_cons, List.mem_cons, true_or]
    · simp only [insertEntry, here, if_false, List.map_cons, ih, List.mem_cons,
        (Ne.symm here : key ≠ k), false_or]
      by_cases present : key ∈ rest.map Prod.fst
      · simp only [present, if_true]
      · simp only [present, if_false, List.cons_append]

def insert (t : Table κ α) (key : κ) (value : α) : Table κ α where
  entries := insertEntry key value t.entries
  distinct := by
    rw [map_fst_insertEntry]
    split
    · exact t.distinct
    · next new =>
      refine List.nodup_append.mpr ⟨t.distinct, List.pairwise_singleton _ _, ?_⟩
      rintro k member _ here rfl
      exact new (List.mem_singleton.mp here ▸ member)

def findEntry (key : κ) : List (κ × α) → Option α
  | [] => none
  | (k, v) :: rest => if k = key then some v else findEntry key rest

def find? (t : Table κ α) (key : κ) : Option α := findEntry key t.entries

def contains (t : Table κ α) (key : κ) : Bool := (t.find? key).isSome

def erase (t : Table κ α) (key : κ) : Table κ α := t.filter fun k => k ≠ key

/-! ## Storing -/

theorem keys_insert (t : Table κ α) (key : κ) (value : α) :
    (t.insert key value).keys = if key ∈ t.keys then t.keys else t.keys ++ [key] :=
  map_fst_insertEntry key value t.entries

theorem insertEntry_of_new {key : κ} {entries : List (κ × α)} (new : key ∉ entries.map Prod.fst)
    (value : α) : insertEntry key value entries = entries ++ [(key, value)] := by
  induction entries with
  | nil => rfl
  | cons entry rest ih =>
    rcases entry with ⟨k, v⟩
    obtain ⟨other, new⟩ := not_or.mp (mt List.mem_cons.mpr new)
    rw [insertEntry, if_neg (Ne.symm other), ih new, List.cons_append]

theorem entries_insert_of_new {t : Table κ α} {key : κ} (new : key ∉ t.keys) (value : α) :
    (t.insert key value).entries = t.entries ++ [(key, value)] := insertEntry_of_new new value

theorem insertEntry_insertEntry (key : κ) (first value : α) (entries : List (κ × α)) :
    insertEntry key value (insertEntry key first entries) = insertEntry key value entries := by
  induction entries with
  | nil => exact if_pos rfl
  | cons entry rest ih =>
    rcases entry with ⟨k, v⟩
    by_cases here : k = key
    · simp only [insertEntry, here, if_true]
    · simp only [insertEntry, here, if_false, ih]

/-- Of two values stored under a key the later one stays. -/
theorem insert_insert (t : Table κ α) (key : κ) (first value : α) :
    (t.insert key first).insert key value = t.insert key value :=
  Table.ext (insertEntry_insertEntry key first value t.entries)

theorem mem_insertEntry {key : κ} {value : α} {entries : List (κ × α)} {entry : κ × α}
    (h : entry ∈ insertEntry key value entries) : entry = (key, value) ∨ entry ∈ entries := by
  induction entries with
  | nil => exact .inl (List.mem_singleton.mp h)
  | cons first rest ih =>
      rw [insertEntry] at h
      split at h
      · rcases List.mem_cons.mp h with here | later
        · exact .inl here
        · exact .inr (List.mem_cons_of_mem first later)
      · rcases List.mem_cons.mp h with rfl | later
        · exact .inr List.mem_cons_self
        · exact (ih later).imp_right (List.mem_cons_of_mem first)

/-! ## Finding -/

@[simp] theorem find?_empty (key : κ) : (empty : Table κ α).find? key = none := rfl

theorem findEntry_insertEntry (key other : κ) (value : α) (entries : List (κ × α)) :
    findEntry other (insertEntry key value entries) =
      if key = other then some value else findEntry other entries := by
  induction entries with
  | nil => rfl
  | cons entry rest ih =>
    rcases entry with ⟨k, v⟩
    by_cases here : k = key
    · simp only [insertEntry, here, if_true, findEntry]
      split <;> rfl
    · simp only [insertEntry, here, if_false, findEntry, ih]
      by_cases same : k = other
      · simp only [same, if_true, (same ▸ Ne.symm here : key ≠ other), if_false]
      · simp only [same, if_false]

/-- Storing under a key is seen under that key and under no other. -/
theorem find?_insert (t : Table κ α) (key other : κ) (value : α) :
    (t.insert key value).find? other = if key = other then some value else t.find? other :=
  findEntry_insertEntry key other value t.entries

theorem findEntry_mapValues (f : α → β) (key : κ) (entries : List (κ × α)) :
    findEntry key (entries.map fun entry => (entry.1, f entry.2)) =
      (findEntry key entries).map f := by
  induction entries with
  | nil => rfl
  | cons entry rest ih =>
    rcases entry with ⟨k, v⟩
    by_cases here : k = key
    · simp only [List.map_cons, findEntry, here, if_true, Option.map_some]
    · simp only [List.map_cons, findEntry, here, if_false, ih]

theorem find?_mapValues (f : α → β) (t : Table κ α) (key : κ) :
    (t.mapValues f).find? key = (t.find? key).map f := findEntry_mapValues f key t.entries

theorem mem_of_findEntry {key : κ} {value : α} {entries : List (κ × α)}
    (h : findEntry key entries = some value) : (key, value) ∈ entries := by
  induction entries with
  | nil => cases h
  | cons first rest ih =>
      obtain ⟨k, v⟩ := first
      rw [findEntry] at h
      split at h
      · next same =>
          cases h
          rw [same]
          exact List.mem_cons_self
      · exact List.mem_cons_of_mem _ (ih h)

theorem findEntry_of_mem {key : κ} {value : α} {entries : List (κ × α)}
    (distinct : (entries.map Prod.fst).Nodup) (member : (key, value) ∈ entries) :
    findEntry key entries = some value := by
  induction entries with
  | nil => cases member
  | cons entry rest ih =>
      obtain ⟨new, distinct⟩ := List.nodup_cons.mp distinct
      rw [findEntry]
      rcases List.mem_cons.mp member with rfl | later
      · exact if_pos rfl
      · have different : entry.1 ≠ key := by
          rintro rfl
          exact new (List.mem_map.mpr ⟨_, later, rfl⟩)
        rw [if_neg different, ih distinct later]

/-- What is found under a key is its entry. -/
theorem find?_eq_some_iff_mem {t : Table κ α} {key : κ} {value : α} :
    t.find? key = some value ↔ (key, value) ∈ t.entries :=
  ⟨mem_of_findEntry, findEntry_of_mem t.distinct⟩

/-! ## Erasing -/

theorem entries_erase (t : Table κ α) (key : κ) :
    (t.erase key).entries = t.entries.filter fun entry => entry.1 ≠ key := rfl

theorem filter_ne_of_new {key : κ} {entries : List (κ × α)} (new : key ∉ entries.map Prod.fst) :
    entries.filter (fun entry => entry.1 ≠ key) = entries := by
  refine List.filter_eq_self.mpr fun entry member => decide_eq_true fun same => new ?_
  exact List.mem_map.mpr ⟨entry, member, same⟩

theorem filter_ne_cons_self (key : κ) (value : α) (rest : List (κ × α)) :
    ((key, value) :: rest).filter (fun entry => entry.1 ≠ key) =
      rest.filter fun entry => entry.1 ≠ key :=
  List.filter_cons_of_neg fun other => of_decide_eq_true other rfl

/-- Without its oldest entry a table is the rest. -/
theorem entries_erase_oldest {t : Table κ α} {key : κ} {value : α} {rest : List (κ × α)}
    (oldest : t.entries = (key, value) :: rest) : (t.erase key).entries = rest := by
  rw [entries_erase, oldest, filter_ne_cons_self]
  exact filter_ne_of_new (oldest_new oldest)

theorem erase_insert_of_new {t : Table κ α} {key : κ} (new : key ∉ t.keys) (value : α) :
    (t.insert key value).erase key = t := by
  refine Table.ext ?_
  rw [entries_erase, entries_insert_of_new new, List.filter_append, filter_ne_of_new new,
    filter_ne_cons_self, List.filter_nil, List.append_nil]

/-- Induction on a table, from its oldest entry on. -/
@[elab_as_elim]
theorem oldest_induction {motive : Table κ α → Prop} (empty : motive empty)
    (oldest : ∀ (t : Table κ α) key value,
      t.entries = (key, value) :: (t.erase key).entries → motive (t.erase key) → motive t)
    (t : Table κ α) : motive t := by
  generalize size : t.entries = entries
  induction entries generalizing t with
  | nil =>
    obtain rfl : t = .empty := Table.ext size
    exact empty
  | cons entry rest ih =>
    have erased := entries_erase_oldest size
    refine oldest t entry.1 entry.2 ?_ (ih _ erased)
    rw [erased]
    exact size

end

end Table
end BlockCalc
