import Mathlib.Data.List.Sort
import ChatRelay.Json.Value

namespace ChatRelay.Table

variable {α β : Type}

theorem mem_of_lookupIn {key : String} {value : α} {entries : List (String × α)}
    (h : lookupIn key entries = some value) : (key, value) ∈ entries := by
  induction entries with
  | nil => simp [lookupIn] at h
  | cons e rest ih =>
    obtain ⟨k, v⟩ := e
    simp only [lookupIn] at h
    split at h
    · next heq =>
      obtain rfl := Option.some.inj h
      exact heq ▸ List.mem_cons_self
    · exact List.mem_cons_of_mem _ (ih h)

-- Where no key occurs twice, looking up and being listed are one.
theorem lookupIn_eq_some_iff {key : String} {value : α} {entries : List (String × α)}
    (hnodup : (entries.map (·.1)).Nodup) :
    lookupIn key entries = some value ↔ (key, value) ∈ entries := by
  refine ⟨mem_of_lookupIn, fun hm => ?_⟩
  induction entries with
  | nil => simp at hm
  | cons e rest ih =>
    obtain ⟨k, v⟩ := e
    obtain ⟨hk, hrest⟩ := List.nodup_cons.mp hnodup
    rcases List.mem_cons.mp hm with he | hin
    · obtain ⟨rfl, rfl⟩ := Prod.mk.inj he
      simp [lookupIn]
    · have hne : key ≠ k := by
        rintro rfl
        exact hk (List.mem_map.mpr ⟨_, hin, rfl⟩)
      simp [lookupIn, hne, ih hrest hin]

theorem lookupIn_append (key : String) (xs ys : List (String × α)) :
    lookupIn key (xs ++ ys) = (lookupIn key xs).or (lookupIn key ys) := by
  induction xs with
  | nil => simp [lookupIn]
  | cons e rest ih =>
    by_cases h : key = e.1 <;> simp [lookupIn, h, ih]

theorem keys_nodup (t : Table α) : (t.entries.map (·.1)).Nodup := by
  have h : (t.entries.map (·.1)).Pairwise (· < ·) := List.pairwise_map.mpr t.ascending
  exact h.imp fun {a b} hlt heq => by subst heq; exact String.lt_irrefl _ hlt

theorem get?_eq_some_iff {t : Table α} {key : String} {value : α} :
    t.get? key = some value ↔ (key, value) ∈ t.entries :=
  lookupIn_eq_some_iff t.keys_nodup

theorem mem_values_iff {t : Table α} {value : α} :
    value ∈ t.values ↔ ∃ key, t.get? key = some value := by
  simp only [values, List.mem_map, get?_eq_some_iff, Prod.exists, exists_eq_right]

theorem get?_foldl_insert (t : Table α) (bindings : List (String × α)) (key : String) :
    (bindings.foldl (fun t b => t.insert b.1 b.2) t).get? key =
      (lookupIn key bindings.reverse).or (t.get? key) := by
  induction bindings generalizing t with
  | nil => simp [lookupIn]
  | cons b rest ih =>
    rw [List.foldl_cons, ih, List.reverse_cons, lookupIn_append, get?_insert]
    by_cases h : key = b.1 <;> simp [lookupIn, h]

theorem get?_ofList (bindings : List (String × α)) (key : String) :
    (ofList bindings).get? key = lookupIn key bindings.reverse := by
  simp [ofList, get?_foldl_insert]

theorem mem_of_get?_ofList {bindings : List (String × α)} {key : String} {value : α}
    (h : (ofList bindings).get? key = some value) : (key, value) ∈ bindings := by
  rw [get?_ofList] at h
  exact List.mem_reverse.mp (mem_of_lookupIn h)

theorem get?_ofList_eq_none_iff {bindings : List (String × α)} {key : String} :
    (ofList bindings).get? key = none ↔ ∀ b ∈ bindings, b.1 ≠ key := by
  have hnone : ∀ xs : List (String × α), lookupIn key xs = none ↔ ∀ b ∈ xs, b.1 ≠ key := by
    intro xs
    induction xs with
    | nil => simp [lookupIn]
    | cons x xs ih =>
      by_cases h : key = x.1
      · simp [lookupIn, h]
      · simp [lookupIn, h, ih, Ne.symm h]
  rw [get?_ofList, hnone]
  simp only [List.mem_reverse]

theorem get?_ofList_of_nodup {bindings : List (String × α)} {key : String} {value : α}
    (hnodup : (bindings.map (·.1)).Nodup) (hm : (key, value) ∈ bindings) :
    (ofList bindings).get? key = some value := by
  rw [get?_ofList, lookupIn_eq_some_iff]
  · exact List.mem_reverse.mpr hm
  · rw [List.map_reverse]
    exact List.pairwise_reverse.mpr (hnodup.imp Ne.symm)

theorem get?_filter (t : Table α) (p : String → α → Bool) (key : String) :
    (t.filter p).get? key = (t.get? key).filter (p key) := by
  ext value
  simp only [get?_eq_some_iff, Option.filter_eq_some_iff, filter, List.mem_filter]

theorem get?_map (t : Table α) (f : String → α → β) (key : String) :
    (t.map f).get? key = (t.get? key).map (f key) := by
  ext value
  simp only [get?_eq_some_iff, Option.map_eq_some_iff, map, List.mem_map, Prod.mk.injEq]
  constructor
  · rintro ⟨⟨k, v⟩, hm, rfl, rfl⟩
    exact ⟨v, hm, rfl⟩
  · rintro ⟨v, hm, rfl⟩
    exact ⟨(key, v), hm, rfl, rfl⟩

theorem get?_modify (t : Table α) (key : String) (f : α → α) (other : String) :
    (t.modify key f).get? other = if other = key then (t.get? other).map f else t.get? other := by
  rw [modify, get?_map]
  by_cases h : other = key <;> simp [h]

-- Both lists are in the one possible order.
theorem entries_ext {xs ys : List (String × α)} (hx : xs.Pairwise fun a b => a.1 < b.1)
    (hy : ys.Pairwise fun a b => a.1 < b.1) (h : ∀ e, e ∈ xs ↔ e ∈ ys) : xs = ys := by
  have hnodup : ∀ {zs : List (String × α)}, zs.Pairwise (fun a b => a.1 < b.1) → zs.Nodup :=
    fun hz => hz.imp fun {a b} hlt heq => by subst heq; exact String.lt_irrefl _ hlt
  have hperm : xs.Perm ys := by
    rw [List.perm_ext_iff_of_nodup (hnodup hx) (hnodup hy)]
    exact h
  refine hperm.eq_of_pairwise (fun a b _ _ hab hba => ?_) hx hy
  exact absurd (String.lt_trans hab hba) (String.lt_irrefl _)

theorem ext_get? {t u : Table α} (h : ∀ key, t.get? key = u.get? key) : t = u := by
  have he : t.entries = u.entries := by
    refine entries_ext t.ascending u.ascending fun e => ?_
    rw [← get?_eq_some_iff, ← get?_eq_some_iff, h]
  cases t
  cases u
  simpa using he

theorem eq_empty_of_isEmpty {t : Table α} (h : t.isEmpty = true) : t = ∅ := by
  refine ext_get? fun key => ?_
  rw [get?, List.isEmpty_iff.mp h]
  rfl

-- Reading a table in its own order builds it again.
theorem ofList_entries (t : Table α) : ofList t.entries = t := by
  refine ext_get? fun key => Option.ext fun value => ?_
  rw [get?_ofList, lookupIn_eq_some_iff, List.mem_reverse, get?_eq_some_iff]
  rw [List.map_reverse]
  exact List.pairwise_reverse.mpr (t.keys_nodup.imp Ne.symm)

theorem map_insert (t : Table α) (key : String) (value : α) (f : String → α → β) :
    (t.insert key value).map f = (t.map f).insert key (f key value) := by
  refine ext_get? fun other => ?_
  rw [get?_map, get?_insert, get?_insert, get?_map]
  by_cases h : other = key
  · subst h
    simp
  · simp [h]

theorem map_filter (t : Table α) (p : String → β → Bool) (f : String → α → β) :
    (t.filter fun key value => p key (f key value)).map f = (t.map f).filter p := by
  refine ext_get? fun key => ?_
  rw [get?_map, get?_filter, get?_filter, get?_map, Option.filter_map]
  rfl

end ChatRelay.Table

namespace ChatRelay.IdSet

theorem toList_injective {s t : IdSet} (h : s.toList = t.toList) : s = t := by
  cases s
  cases t
  simpa using h

theorem ext_mem {s t : IdSet} (h : ∀ id, id ∈ s ↔ id ∈ t) : s = t :=
  toList_injective (s.ascending.eq_of_mem_iff t.ascending h)

theorem not_mem_empty (id : String) : id ∉ (∅ : IdSet) := fun h => nomatch h

theorem isEmpty_iff {s : IdSet} : s.isEmpty = true ↔ s = ∅ := by
  rw [isEmpty, List.isEmpty_iff]
  exact ⟨fun h => toList_injective h, fun h => h ▸ rfl⟩

theorem ne_empty_iff {s : IdSet} : s ≠ ∅ ↔ ∃ id, id ∈ s := by
  rw [ne_eq, ← isEmpty_iff, isEmpty, List.isEmpty_iff, List.eq_nil_iff_forall_not_mem, not_forall]
  simp only [not_not, mem_toList]

theorem mem_ofList {ids : List String} {id : String} : id ∈ ofList ids ↔ id ∈ ids := by
  have hfold : ∀ (ids : List String) (s : IdSet), id ∈ ids.foldl insert s ↔ id ∈ s ∨ id ∈ ids := by
    intro ids
    induction ids with
    | nil => simp
    | cons x ids ih =>
      intro s
      rw [List.foldl_cons, ih, mem_insert, List.mem_cons, or_assoc, or_left_comm]
  rw [ofList, hfold]
  simp [not_mem_empty]

theorem mem_diff {s other : IdSet} {id : String} : id ∈ s.diff other ↔ id ∈ s ∧ id ∉ other := by
  rw [← contains_iff_mem (s := other), Bool.not_eq_true, ← Bool.not_eq_true']
  exact List.mem_filter

end ChatRelay.IdSet

namespace ChatRelay.Json

-- Every member was given.
theorem mem_of_get?_mkSome {members : List (String × Option Json)} {name : String} {value : Json}
    (h : (mkSome members).get? name = some value) : (name, some value) ∈ members := by
  obtain ⟨⟨n, v⟩, hgiven, hsome⟩ := List.mem_filterMap.mp (Table.mem_of_get?_ofList h)
  obtain ⟨v, rfl, hv⟩ := Option.map_eq_some_iff.mp hsome
  obtain ⟨rfl, rfl⟩ := Prod.mk.inj hv
  exact hgiven

-- A member has the value that it was given, if any, provided that no name was given twice.
theorem get?_mkSome {members : List (String × Option Json)} {name : String} {value : Option Json}
    (hnodup : (members.map (·.1)).Nodup) (hm : (name, value) ∈ members) :
    (mkSome members).get? name = value := by
  cases value with
  | none =>
    refine Option.eq_none_iff_forall_ne_some.mpr fun v hget => ?_
    have hnone := (Table.lookupIn_eq_some_iff hnodup).mpr hm
    have hsome := (Table.lookupIn_eq_some_iff hnodup).mpr (mem_of_get?_mkSome hget)
    cases hnone.symm.trans hsome
  | some value =>
    refine Table.get?_ofList_of_nodup ?_ ?_
    · rw [List.map_filterMap]
      have hsub : (members.filterMap fun e => (e.2.map (e.1, ·)).map (·.1)).Sublist
          (members.map (·.1)) := by
        clear hnodup hm
        induction members with
        | nil => simp
        | cons e rest ih =>
          obtain ⟨n, v⟩ := e
          cases v with
          | none => exact ih.cons _
          | some v => exact ih.cons_cons _
      exact hsub.nodup hnodup
    · exact List.mem_filterMap.mpr ⟨_, hm, rfl⟩

theorem stringAt?_mkSome {members : List (String × Option Json)} {name s : String}
    (hnodup : (members.map (·.1)).Nodup) (hm : (name, some (.string s)) ∈ members) :
    (mkSome members).stringAt? [name] = some s := by
  simp [stringAt?, at?, get?_mkSome hnodup hm, string?]

end ChatRelay.Json
