/-!
# Maps in insertion order

A map keeps its keys in the order in which they were first inserted.  Inserting a key again
replaces its value and keeps its place; erasing it and inserting it again puts it last.
-/
set_option autoImplicit false

namespace ParenCalc

/-- Keys, each once, with their values. -/
structure OrderedMap (κ ν : Type) where
  entries : List (κ × ν)
  nodup : (entries.map Prod.fst).Nodup

namespace OrderedMap

variable {κ ν : Type} [DecidableEq κ]

def empty : OrderedMap κ ν := ⟨[], List.Pairwise.nil⟩

def keys (m : OrderedMap κ ν) : List κ := m.entries.map Prod.fst

def size (m : OrderedMap κ ν) : Nat := m.entries.length

/-- Replaces the value of a key in place, or appends the key. -/
def put (k : κ) (v : ν) : List (κ × ν) → List (κ × ν)
  | [] => [(k, v)]
  | entry :: rest => if entry.1 = k then (k, v) :: rest else entry :: put k v rest

theorem map_fst_put (k : κ) (v : ν) (entries : List (κ × ν)) :
    (put k v entries).map Prod.fst =
      if k ∈ entries.map Prod.fst then entries.map Prod.fst else entries.map Prod.fst ++ [k] := by
  induction entries with
  | nil => simp [put]
  | cons entry rest ih =>
      unfold put
      by_cases h : entry.1 = k
      · simp [h]
      · have h' : ¬ k = entry.1 := fun e => h e.symm
        by_cases hm : k ∈ rest.map Prod.fst
        · simp only [if_neg h, List.map_cons, ih, List.mem_cons, hm, or_true, if_true]
        · simp only [if_neg h, List.map_cons, ih, List.mem_cons, hm, h', or_self, if_false,
            List.cons_append]

def get? (m : OrderedMap κ ν) (k : κ) : Option ν :=
  (m.entries.find? fun entry => entry.1 = k).map Prod.snd

def contains (m : OrderedMap κ ν) (k : κ) : Bool := m.entries.any fun entry => entry.1 = k

def insert (m : OrderedMap κ ν) (k : κ) (v : ν) : OrderedMap κ ν where
  entries := put k v m.entries
  nodup := by
    rw [map_fst_put]
    split
    · exact m.nodup
    · rename_i h
      rw [List.nodup_append]
      refine ⟨m.nodup, by simp, ?_⟩
      intro a ha b hb e
      rw [List.mem_singleton] at hb
      exact h (hb ▸ e ▸ ha)

def filter (p : κ → ν → Bool) (m : OrderedMap κ ν) : OrderedMap κ ν where
  entries := m.entries.filter fun entry => p entry.1 entry.2
  nodup := List.Nodup.sublist (List.Sublist.map Prod.fst List.filter_sublist) m.nodup

def erase (m : OrderedMap κ ν) (k : κ) : OrderedMap κ ν := m.filter fun key _ => key ≠ k

def ofList (entries : List (κ × ν)) : OrderedMap κ ν :=
  entries.foldl (fun m entry => m.insert entry.1 entry.2) empty

theorem keys_insert (m : OrderedMap κ ν) (k : κ) (v : ν) :
    (m.insert k v).keys = if k ∈ m.keys then m.keys else m.keys ++ [k] :=
  map_fst_put k v m.entries

theorem contains_iff_mem_keys (m : OrderedMap κ ν) (k : κ) :
    m.contains k = true ↔ k ∈ m.keys := by
  simp [contains, keys]

theorem get?_eq_some_iff (m : OrderedMap κ ν) (k : κ) (v : ν) :
    m.get? k = some v ↔ (k, v) ∈ m.entries := by
  obtain ⟨entries, nodup⟩ := m
  simp only [get?]
  induction entries with
  | nil => simp
  | cons entry rest ih =>
      obtain ⟨a, b⟩ := entry
      simp only [List.map_cons, List.nodup_cons] at nodup
      by_cases h : a = k
      · subst h
        simp only [List.find?_cons, decide_true, Option.map_some, Option.some.injEq,
          List.mem_cons, Prod.mk.injEq, true_and]
        constructor
        · intro e
          exact .inl e.symm
        · rintro (e | hm)
          · exact e.symm
          · exact absurd (List.mem_map_of_mem hm) nodup.1
      · have h' : ¬ k = a := fun e => h e.symm
        simp only [List.find?_cons, decide_eq_false h, List.mem_cons, Prod.mk.injEq, h',
          false_and, false_or]
        exact ih nodup.2

theorem find?_put (k : κ) (v : ν) (key : κ) (entries : List (κ × ν)) :
    ((put k v entries).find? fun entry => entry.1 = key).map Prod.snd =
      if k = key then some v else (entries.find? fun entry => entry.1 = key).map Prod.snd := by
  induction entries with
  | nil => by_cases h : k = key <;> simp [put, h]
  | cons entry rest ih =>
      unfold put
      by_cases same : entry.1 = k
      · by_cases h : k = key <;> simp [same, h]
      · rw [if_neg same, List.find?_cons, List.find?_cons]
        by_cases hit : entry.1 = key
        · have h : ¬ k = key := fun e => same (hit.trans e.symm)
          simp [hit, h]
        · simpa [hit] using ih

@[simp]
theorem get?_insert (m : OrderedMap κ ν) (k : κ) (v : ν) (key : κ) :
    (m.insert k v).get? key = if k = key then some v else m.get? key :=
  find?_put k v key m.entries

omit [DecidableEq κ] in
@[simp]
theorem keys_filter (m : OrderedMap κ ν) (p : κ → Bool) :
    (m.filter fun key _ => p key).keys = m.keys.filter p := by
  simp [keys, filter, List.filter_map, Function.comp_def]

theorem keys_erase (m : OrderedMap κ ν) (k : κ) :
    (m.erase k).keys = m.keys.filter fun key => key ≠ k :=
  keys_filter m fun key => key ≠ k

theorem get?_erase (m : OrderedMap κ ν) (k key : κ) :
    (m.erase k).get? key = if k = key then none else m.get? key := by
  apply Option.ext
  intro v
  rw [get?_eq_some_iff]
  by_cases h : k = key
  · simp [erase, filter, h]
  · have h' : ¬ key = k := fun e => h e.symm
    rw [if_neg h, get?_eq_some_iff]
    simp [erase, filter, h']

@[simp]
theorem get?_filter (m : OrderedMap κ ν) (p : κ → ν → Bool) (key : κ) :
    (m.filter p).get? key = (m.get? key).filter (p key) := by
  apply Option.ext
  intro v
  rw [get?_eq_some_iff, Option.filter_eq_some_iff, get?_eq_some_iff]
  simp [filter]

theorem mem_keys_iff (m : OrderedMap κ ν) (key : κ) :
    key ∈ m.keys ↔ ∃ value, m.get? key = some value := by
  simp only [get?_eq_some_iff]
  simp [keys]

@[simp]
theorem get?_empty (key : κ) : (empty : OrderedMap κ ν).get? key = none := rfl

theorem put_of_not_mem (k : κ) (v : ν) (entries : List (κ × ν))
    (new : k ∉ entries.map Prod.fst) : put k v entries = entries ++ [(k, v)] := by
  induction entries with
  | nil => rfl
  | cons entry rest ih =>
      rw [List.map_cons, List.mem_cons, not_or] at new
      have other : ¬ entry.1 = k := fun same => new.1 same.symm
      rw [put, if_neg other, ih new.2, List.cons_append]

theorem entries_insert_of_not_mem (m : OrderedMap κ ν) (k : κ) (v : ν) (new : k ∉ m.keys) :
    (m.insert k v).entries = m.entries ++ [(k, v)] :=
  put_of_not_mem k v m.entries new

/-- New keys are put behind those that are there, in their order. -/
theorem entries_foldl_insert (m : OrderedMap κ ν) (entries : List (κ × ν))
    (distinct : ((m.entries ++ entries).map Prod.fst).Nodup) :
    (entries.foldl (fun m entry => m.insert entry.1 entry.2) m).entries = m.entries ++ entries := by
  induction entries generalizing m with
  | nil => exact (List.append_nil m.entries).symm
  | cons entry rest ih =>
      have new : entry.1 ∉ m.keys := by
        rw [List.map_append, List.map_cons, List.nodup_append] at distinct
        intro old
        exact distinct.2.2 entry.1 old entry.1 List.mem_cons_self rfl
      have inserted := m.entries_insert_of_not_mem entry.1 entry.2 new
      have whole : (m.insert entry.1 entry.2).entries ++ rest = m.entries ++ entry :: rest := by
        rw [inserted, List.append_assoc]
        rfl
      rw [List.foldl_cons, ih _ (by rwa [whole]), whole]

theorem entries_ofList (entries : List (κ × ν)) (distinct : (entries.map Prod.fst).Nodup) :
    (ofList entries).entries = entries :=
  entries_foldl_insert empty entries distinct

/-- Nothing is in a map but what was put into it. -/
theorem mem_foldl_insert (m : OrderedMap κ ν) (entries : List (κ × ν)) (entry : κ × ν)
    (member : entry ∈ (entries.foldl (fun m entry => m.insert entry.1 entry.2) m).entries) :
    entry ∈ m.entries ∨ entry ∈ entries := by
  induction entries generalizing m with
  | nil => exact .inl member
  | cons first rest ih =>
      rcases ih (m.insert first.1 first.2) member with before | later
      · have found := ((m.insert first.1 first.2).get?_eq_some_iff entry.1 entry.2).mpr before
        rw [get?_insert] at found
        split at found
        · rename_i same
          rw [List.mem_cons]
          exact .inr (.inl (Prod.ext same.symm (Option.some.inj found).symm))
        · exact .inl ((m.get?_eq_some_iff entry.1 entry.2).mp found)
      · exact .inr (List.mem_cons_of_mem first later)

theorem mem_ofList (entries : List (κ × ν)) (entry : κ × ν)
    (member : entry ∈ (ofList entries).entries) : entry ∈ entries :=
  (mem_foldl_insert empty entries entry member).resolve_left List.not_mem_nil

/-- The keys that a filter of entries lets pass, when a test of keys says the same of every entry. -/
theorem keys_filter_eq (m : OrderedMap κ ν) (p : κ → ν → Bool) (q : κ → Bool)
    (same : ∀ key value, m.get? key = some value → p key value = q key) :
    (m.filter p).keys = m.keys.filter q := by
  unfold keys
  rw [List.filter_map]
  congr 1
  apply List.filter_congr
  rintro ⟨key, value⟩ member
  exact same key value ((m.get?_eq_some_iff key value).mpr member)

/-- The keys that a filter lets pass are those that it does not hold back. -/
theorem keys_filter_not (m : OrderedMap κ ν) (p : κ → ν → Bool) :
    (m.filter fun key value => !p key value).keys =
      m.keys.filter fun key => key ∉ (m.filter p).keys := by
  apply m.keys_filter_eq
  intro key value bound
  have held : key ∈ (m.filter p).keys ↔ p key value = true := by
    rw [mem_keys_iff, get?_filter, bound]
    cases passes : p key value <;> simp [passes]
  simp [held]

omit [DecidableEq κ] in
theorem eq_of_entries (m other : OrderedMap κ ν) (same : m.entries = other.entries) :
    m = other := by
  cases m
  cases other
  simpa using same

theorem erase_of_not_mem (m : OrderedMap κ ν) (k : κ) (absent : k ∉ m.keys) : m.erase k = m := by
  apply eq_of_entries
  show m.entries.filter (fun entry => decide (entry.1 ≠ k)) = m.entries
  rw [List.filter_eq_self]
  intro entry member
  rw [decide_eq_true_eq]
  intro hit
  exact absent (hit ▸ List.mem_map_of_mem member)

end OrderedMap

end ParenCalc
