import Mathlib.Data.List.Nodup
import TableSchema.OrderedMap

/-!
# Ordered maps from lists

Inserting the names of a list one after the other leaves of each name its last occurrence, in the
order of these. A map is what its own entries make.

The values do not depend on the order: a map whose entries are inserted in another order gives every
name the same value, and two maps that do so have the same entries up to their order.
-/

namespace TableSchema.OrderedMap

variable {α : Type}

theorem eq_of_entries_eq {m m' : OrderedMap α} (h : m.entries = m'.entries) : m = m' := by
  obtain ⟨entries, _⟩ := m
  obtain rfl : entries = m'.entries := h
  rfl

/-- Names that are inserted later leave the others where they are. -/
theorem entries_insertAll (m : OrderedMap α) (es : List (String × α)) :
    (m.insertAll es).entries =
      m.entries.filter (fun e => decide (e.1 ∉ es.map Prod.fst)) ++ (ofList es).entries := by
  induction es generalizing m with
  | nil =>
    have hall : m.entries.filter (fun e => decide (e.1 ∉ ([] : List (String × α)).map Prod.fst)) =
        m.entries := List.filter_eq_self.mpr (by simp)
    rw [hall]
    exact (List.append_nil _).symm
  | cons e es ih =>
    have hm : (m.insertAll (e :: es)).entries = ((m.insert e.1 e.2).insertAll es).entries := rfl
    have hempty : (ofList (e :: es)).entries = ((empty.insert e.1 e.2).insertAll es).entries := rfl
    rw [hm, hempty, ih, ih (empty.insert e.1 e.2)]
    have hboth : ∀ x : String × α, (decide (x.1 ∉ es.map Prod.fst) && x.1 != e.1) =
        decide (x.1 ∉ (e :: es).map Prod.fst) := by
      intro x
      rw [Bool.eq_iff_iff]
      simp [and_comm]
    simp only [insert, erase, entries_empty, List.filter_append, List.filter_filter, hboth,
      List.filter_nil, List.nil_append, List.append_assoc]

/-- A name that comes again later counts only there. -/
theorem entries_ofList_cons (e : String × α) (es : List (String × α)) :
    (ofList (e :: es)).entries =
      if e.1 ∈ es.map Prod.fst then (ofList es).entries else e :: (ofList es).entries := by
  have hinsert : (ofList (e :: es)).entries = ((empty.insert e.1 e.2).insertAll es).entries := rfl
  rw [hinsert, entries_insertAll]
  split <;> simp_all [insert, erase]

/-- What a map is made of are the last occurrences of the names. -/
theorem mem_entries_ofList_iff {es : List (String × α)} {key : String} {value : α} :
    (key, value) ∈ (ofList es).entries ↔
      ∃ front back, es = front ++ (key, value) :: back ∧ key ∉ back.map Prod.fst := by
  induction es with
  | nil => simp [ofList, insertAll]
  | cons e es ih =>
    have hcons : (key, value) ∈ (ofList (e :: es)).entries ↔
        (key, value) = e ∧ e.1 ∉ es.map Prod.fst ∨ (key, value) ∈ (ofList es).entries := by
      rw [entries_ofList_cons]
      split <;> simp_all
    rw [hcons, ih]
    refine ⟨?_, ?_⟩
    · rintro (⟨rfl, hlast⟩ | ⟨front, back, rfl, hlast⟩)
      · exact ⟨[], es, rfl, hlast⟩
      · exact ⟨e :: front, back, rfl, hlast⟩
    · rintro ⟨_ | ⟨d, front⟩, back, hsplit, hlast⟩
      · obtain ⟨rfl, rfl⟩ := List.cons.inj hsplit
        exact .inl ⟨rfl, hlast⟩
      · obtain ⟨rfl, rfl⟩ := List.cons.inj hsplit
        exact .inr ⟨front, back, rfl, hlast⟩

theorem mem_keys_ofList_iff {es : List (String × α)} {key : String} :
    key ∈ (ofList es).keys ↔ key ∈ es.map Prod.fst := by
  induction es with
  | nil => simp [ofList, insertAll, keys]
  | cons e es ih =>
    rw [keys] at ih ⊢
    rw [entries_ofList_cons]
    split <;> simp_all

/-- A map is made of its own entries. -/
theorem ofList_entries (m : OrderedMap α) : ofList m.entries = m := by
  have hself : ∀ es : List (String × α), (es.map Prod.fst).Nodup → (ofList es).entries = es := by
    intro es
    induction es with
    | nil => intro _; rfl
    | cons e es ih =>
      intro hnodup
      rw [List.map_cons, List.nodup_cons] at hnodup
      rw [entries_ofList_cons, if_neg hnodup.1, ih hnodup.2]
  exact eq_of_entries_eq (hself m.entries m.nodup_keys)

/-! ## Values -/

/-- What is inserted comes before what was there. -/
theorem get?_insertAll (m : OrderedMap α) (es : List (String × α)) (key : String) :
    (m.insertAll es).get? key = ((ofList es).get? key).or (m.get? key) := by
  induction es generalizing m with
  | nil => rfl
  | cons e es ih =>
    have hm : (m.insertAll (e :: es)).get? key = ((m.insert e.1 e.2).insertAll es).get? key := rfl
    have hempty : (ofList (e :: es)).get? key = ((empty.insert e.1 e.2).insertAll es).get? key :=
      rfl
    rw [hm, hempty, ih, ih (empty.insert e.1 e.2), Option.or_assoc, get?_insert, get?_insert]
    split <;> rfl

/-- The entries of a map have the same values in whatever order they are inserted. -/
theorem get?_ofList_of_perm {m : OrderedMap α} {es : List (String × α)} (h : es.Perm m.entries)
    (key : String) : (ofList es).get? key = m.get? key := by
  let m' : OrderedMap α := ⟨es, (h.map Prod.fst).nodup_iff.mpr m.nodup_keys⟩
  have hself : ofList es = m' := ofList_entries m'
  ext value
  rw [hself, get?_eq_some_iff, get?_eq_some_iff]
  exact h.mem_iff

/-- Maps that give every name the same value have the same entries up to their order. -/
theorem perm_of_get?_eq {m m' : OrderedMap α} (h : ∀ key, m.get? key = m'.get? key) :
    m.entries.Perm m'.entries := by
  rw [List.perm_ext_iff_of_nodup (m.nodup_keys.of_map _) (m'.nodup_keys.of_map _)]
  rintro ⟨key, value⟩
  rw [← get?_eq_some_iff, ← get?_eq_some_iff, h]

theorem sameEntries_of_get?_eq [BEq α] [LawfulBEq α] {m m' : OrderedMap α}
    (h : ∀ key, m.get? key = m'.get? key) : m.sameEntries m' = true := by
  rw [sameEntries, Bool.and_eq_true, beq_iff_eq, List.all_eq_true]
  refine ⟨(perm_of_get?_eq h).length_eq, fun e he => ?_⟩
  rw [beq_iff_eq, ← h, get?_eq_some_iff]
  exact he

/-! ## Some of the names -/

/-- The map with those names only that are kept. -/
def restrict (m : OrderedMap α) (keep : String → Bool) : OrderedMap α where
  entries := m.entries.filter fun e => keep e.1
  nodup_keys := m.nodup_keys.sublist (List.filter_sublist.map _)

theorem restrict_insert (m : OrderedMap α) (keep : String → Bool) (key : String) (value : α) :
    (m.insert key value).restrict keep =
      if keep key then (m.restrict keep).insert key value else m.restrict keep := by
  refine eq_of_entries_eq ?_
  have hcomm : ∀ es : List (String × α),
      (es.filter fun e => e.1 != key).filter (fun e => keep e.1) =
        (es.filter fun e => keep e.1).filter fun e => e.1 != key := by
    intro es
    rw [List.filter_filter, List.filter_filter]
    exact List.filter_congr fun e _ => Bool.and_comm _ _
  cases hkeep : keep key with
  | true =>
    simp [restrict, insert, erase, hcomm, hkeep]
  | false =>
    -- a name that is dropped is not there to be erased
    have hself : ((m.entries.filter fun e => keep e.1).filter fun e => e.1 != key) =
        m.entries.filter fun e => keep e.1 := by
      refine List.filter_eq_self.mpr fun e he => bne_iff_ne.mpr ?_
      rintro rfl
      simp [hkeep] at he
    simp [restrict, insert, erase, hcomm, hkeep, hself]

/-- Names that are dropped need not be inserted. -/
theorem restrict_insertAll (m : OrderedMap α) (keep : String → Bool) (es : List (String × α)) :
    (m.insertAll es).restrict keep = (m.restrict keep).insertAll (es.filter fun e => keep e.1) := by
  induction es generalizing m with
  | nil => rfl
  | cons e es ih =>
    have hcons : (m.insertAll (e :: es)).restrict keep =
        ((m.insert e.1 e.2).insertAll es).restrict keep := rfl
    rw [hcons, ih, restrict_insert, List.filter_cons]
    cases keep e.1 <;> rfl

theorem restrict_ofList (keep : String → Bool) (es : List (String × α)) :
    (ofList es).restrict keep = ofList (es.filter fun e => keep e.1) :=
  restrict_insertAll empty keep es

end TableSchema.OrderedMap
