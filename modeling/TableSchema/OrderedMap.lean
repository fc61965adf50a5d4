/-!
# Ordered maps

Maps from names to values that remember an order. Inserting a name that is already there replaces
its value and moves it to the end, so the order is that of the last insertions, and every name
occurs once.
-/

namespace TableSchema

/-- A map from names to values, in the order of the last insertions. -/
structure OrderedMap (α : Type) where
  /-- the names with their values -/
  entries : List (String × α)
  /-- every name occurs once -/
  nodup_keys : (entries.map Prod.fst).Nodup
  deriving DecidableEq, Repr

namespace OrderedMap

variable {α : Type}

/-- The map without names. -/
def empty : OrderedMap α := ⟨[], List.nodup_nil⟩

instance : Inhabited (OrderedMap α) := ⟨empty⟩

/-- The names, in order. -/
def keys (m : OrderedMap α) : List String := m.entries.map Prod.fst

/-- The values, in the order of their names. -/
def values (m : OrderedMap α) : List α := m.entries.map Prod.snd

/-- The number of names. -/
def size (m : OrderedMap α) : Nat := m.entries.length

/-- The value of a name. -/
def get? (m : OrderedMap α) (key : String) : Option α := m.entries.lookup key

/-- The map without a name. -/
def erase (m : OrderedMap α) (key : String) : OrderedMap α where
  entries := m.entries.filter fun e => e.1 != key
  nodup_keys := m.nodup_keys.sublist (List.filter_sublist.map _)

theorem key_not_mem_erase (m : OrderedMap α) (key : String) : key ∉ (m.erase key).keys := by
  simp [erase, keys]

/-- The map with a name last, whatever its value and place were before. -/
def insert (m : OrderedMap α) (key : String) (value : α) : OrderedMap α where
  entries := (m.erase key).entries ++ [(key, value)]
  nodup_keys := by
    rw [List.map_append, List.nodup_append]
    refine ⟨(m.erase key).nodup_keys, by simp, ?_⟩
    rintro a ha b hb rfl
    obtain rfl : a = key := by simpa using hb
    exact m.key_not_mem_erase a ha

/-- Inserts names one after the other. -/
def insertAll (m : OrderedMap α) (entries : List (String × α)) : OrderedMap α :=
  entries.foldl (fun m e => m.insert e.1 e.2) m

/-- The map that inserting names one after the other makes. -/
def ofList (entries : List (String × α)) : OrderedMap α := empty.insertAll entries

/-- Whether two maps give every name the same value, in whatever order. -/
def sameEntries [BEq α] (m m' : OrderedMap α) : Bool :=
  m.size == m'.size && m.entries.all fun e => m'.get? e.1 == some e.2

@[simp] theorem entries_empty : (empty : OrderedMap α).entries = [] := rfl

@[simp] theorem keys_insert (m : OrderedMap α) (key : String) (value : α) :
    (m.insert key value).keys = m.keys.filter (· != key) ++ [key] := by
  simp [insert, erase, keys, List.filter_map, Function.comp_def]

theorem get?_erase (m : OrderedMap α) (key other : String) :
    (m.erase key).get? other = if other = key then none else m.get? other := by
  simp only [erase, get?]
  induction m.entries with
  | nil => simp
  | cons e es ih =>
    obtain ⟨k, v⟩ := e
    by_cases hk : k = key
    · subst hk
      by_cases ho : other = k
      · simpa [ho] using ih
      · have hb : (other == k) = false := by simpa using ho
        simpa [List.lookup_cons, ho, hb] using ih
    · by_cases hok : other = k
      · simp [hok, hk]
      · have hb : (other == k) = false := by simpa using hok
        simpa [List.lookup_cons, hk, hb] using ih

@[simp] theorem get?_insert (m : OrderedMap α) (key other : String) (value : α) :
    (m.insert key value).get? other = if other = key then some value else m.get? other := by
  have h := m.get?_erase key other
  simp only [insert, get?, List.lookup_append] at h ⊢
  rw [h]
  by_cases ho : other = key
  · simp [ho]
  · have hb : (other == key) = false := by simpa using ho
    simp [ho, hb, List.lookup_cons]

/-- A name has the value it stands with. -/
theorem get?_eq_some_iff {m : OrderedMap α} {key : String} {value : α} :
    m.get? key = some value ↔ (key, value) ∈ m.entries := by
  rw [get?, List.lookup_eq_some_iff]
  refine ⟨?_, fun h => ?_⟩
  · rintro ⟨before, after, hsplit, -⟩
    simp [hsplit]
  · obtain ⟨before, after, hsplit⟩ := List.append_of_mem h
    refine ⟨before, after, hsplit, fun e he => ?_⟩
    -- the name occurs once, so not in front of the place found
    have hnodup := m.nodup_keys
    rw [hsplit, List.map_append, List.nodup_append] at hnodup
    exact bne_iff_ne.mpr
      (hnodup.2.2 e.1 (List.mem_map_of_mem he) key List.mem_cons_self).symm

theorem get?_eq_none_iff {m : OrderedMap α} {key : String} : m.get? key = none ↔ key ∉ m.keys := by
  rw [get?, List.lookup_eq_none_iff, keys, List.mem_map]
  refine ⟨?_, ?_⟩
  · rintro h ⟨e, he, rfl⟩
    exact bne_iff_ne.mp (h e he) rfl
  · exact fun h e he => bne_iff_ne.mpr fun heq => h ⟨e, he, heq.symm⟩

end OrderedMap

end TableSchema
