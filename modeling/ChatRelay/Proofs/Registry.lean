import ChatRelay.Connection.Registry

namespace ChatRelay

namespace Subscription

-- The ordered search behind a subscription finds exactly the chats that were asked for.
theorem covers_iff {s : Subscription} {chatId : String} :
    s.covers chatId = true ↔ s = .everything ∨ ∃ ids, s = .chats ids ∧ chatId ∈ ids := by
  cases s with
  | nothing => simp [covers]
  | everything => simp [covers]
  | chats ids => simp [covers, IdSet.contains_iff_mem]

end Subscription

namespace Registry

theorem lookupIn_eq_some_iff {id : ConnectionId} {s : Subscription}
    {entries : List (ConnectionId × Subscription)} (hnodup : (entries.map (·.1)).Nodup) :
    lookupIn id entries = some s ↔ (id, s) ∈ entries := by
  induction entries with
  | nil => simp [lookupIn]
  | cons e rest ih =>
    obtain ⟨k, v⟩ := e
    obtain ⟨hk, hrest⟩ := List.nodup_cons.mp hnodup
    by_cases h : id = k
    · subst h
      have hnot : (id, s) ∉ rest := fun hm => hk (List.mem_map.mpr ⟨_, hm, rfl⟩)
      simp [lookupIn, hnot, eq_comm]
    · simp [lookupIn, h, ih hrest]

theorem subscription?_eq_some_iff {r : Registry} {id : ConnectionId} {s : Subscription} :
    r.subscription? id = some s ↔ (id, s) ∈ r.entries :=
  lookupIn_eq_some_iff r.nodup

theorem mem_matching_iff {r : Registry} {id : ConnectionId} {chatId : String} :
    id ∈ r.matching chatId ↔ ∃ s, r.subscription? id = some s ∧ s.covers chatId = true := by
  simp only [matching, List.mem_map, List.mem_filter, subscription?_eq_some_iff]
  constructor
  · rintro ⟨⟨_, s⟩, ⟨hm, hc⟩, rfl⟩
    exact ⟨s, hm, hc⟩
  · rintro ⟨s, hm, hc⟩
    exact ⟨(id, s), ⟨hm, hc⟩, rfl⟩

theorem matching_nodup (r : Registry) (chatId : String) : (r.matching chatId).Nodup :=
  (List.filter_sublist.map _).nodup r.nodup

theorem mem_ids_iff {r : Registry} {id : ConnectionId} :
    id ∈ r.ids ↔ r.contains id = true := by
  simp only [ids, contains, Option.isSome_iff_exists, subscription?_eq_some_iff, List.mem_map]
  constructor
  · rintro ⟨⟨_, s⟩, hm, rfl⟩
    exact ⟨s, hm⟩
  · rintro ⟨s, hm⟩
    exact ⟨(id, s), hm, rfl⟩

theorem contains_of_mem_matching {r : Registry} {id : ConnectionId} {chatId : String}
    (h : id ∈ r.matching chatId) : r.contains id = true := by
  obtain ⟨s, hs, -⟩ := mem_matching_iff.mp h
  simp [contains, hs]

theorem lookupIn_append (id : ConnectionId) (xs ys : List (ConnectionId × Subscription)) :
    lookupIn id (xs ++ ys) = (lookupIn id xs).or (lookupIn id ys) := by
  induction xs with
  | nil => simp [lookupIn]
  | cons e rest ih =>
    by_cases h : id = e.1 <;> simp [lookupIn, h, ih]

theorem subscription?_register (r : Registry) (id other : ConnectionId) :
    (r.register id).subscription? other =
      if other = id then some .nothing else r.subscription? other := by
  have h : (r.register id).subscription? other =
      ((r.unregister id).subscription? other).or (lookupIn other [(id, .nothing)]) :=
    lookupIn_append other _ _
  rw [h, subscription?_unregister]
  by_cases ho : other = id <;> simp [lookupIn, ho]

-- Takes several connections out.
def unregisterAll (r : Registry) (ids : List ConnectionId) : Registry := ids.foldl unregister r

theorem subscription?_unregisterAll (r : Registry) (ids : List ConnectionId)
    (other : ConnectionId) :
    (r.unregisterAll ids).subscription? other =
      if other ∈ ids then none else r.subscription? other := by
  induction ids generalizing r with
  | nil => simp [unregisterAll]
  | cons id rest ih =>
    have h := ih (r.unregister id)
    simp only [unregisterAll, List.foldl_cons] at h ⊢
    rw [h, subscription?_unregister]
    by_cases ho : other = id <;> by_cases hr : other ∈ rest <;> simp [ho, hr]

end Registry

namespace Sequences

-- Each time that a connection is listed it gets one number.
theorem current_foldl_advance (s : Sequences) (ids : List ConnectionId) (other : ConnectionId) :
    (ids.foldl advance s).current other = s.current other + ids.count other := by
  induction ids generalizing s with
  | nil => simp
  | cons id rest ih =>
    rw [List.foldl_cons, ih, current_advance, List.count_cons]
    by_cases h : other = id
    · subst h
      simp
      omega
    · simp [h, Ne.symm h]

end Sequences

end ChatRelay
