import ChatRelay.Connection.Id
import ChatRelay.Subscription

namespace ChatRelay

-- Which connections there are, each once, and what each of them wants to hear about.
structure Registry where
  entries : List (ConnectionId × Subscription)
  nodup : (entries.map (·.1)).Nodup

namespace Registry

instance : EmptyCollection Registry := ⟨[], .nil⟩
instance : Inhabited Registry := ⟨∅⟩

def ids (r : Registry) : List ConnectionId := r.entries.map (·.1)

def size (r : Registry) : Nat := r.entries.length

def isEmpty (r : Registry) : Bool := r.entries.isEmpty

def lookupIn (id : ConnectionId) : List (ConnectionId × Subscription) → Option Subscription
  | [] => none
  | (other, s) :: rest => if id = other then some s else lookupIn id rest

def subscription? (r : Registry) (id : ConnectionId) : Option Subscription := lookupIn id r.entries

def contains (r : Registry) (id : ConnectionId) : Bool := (r.subscription? id).isSome

-- Takes a connection out; one that is not registered changes nothing.
def unregister (r : Registry) (id : ConnectionId) : Registry where
  entries := r.entries.filter (·.1 ≠ id)
  nodup := by
    have h : ((r.entries.filter (·.1 ≠ id)).map (·.1)).Sublist (r.entries.map (·.1)) :=
      List.filter_sublist.map _
    exact h.nodup r.nodup

theorem not_mem_ids_unregister (r : Registry) (id : ConnectionId) : id ∉ (r.unregister id).ids := by
  simp [ids, unregister]

-- Adds a connection that does not want to hear about anything yet.
def register (r : Registry) (id : ConnectionId) : Registry where
  entries := (r.unregister id).entries ++ [(id, .nothing)]
  nodup := by
    have h : id ∉ (r.unregister id).entries.map (·.1) := r.not_mem_ids_unregister id
    rw [List.map_append, List.nodup_append]
    refine ⟨(r.unregister id).nodup, by simp, fun a ha b hb => ?_⟩
    obtain rfl : b = id := by simpa using hb
    rintro rfl
    exact h ha

-- Replaces what a connection wants to hear about, if it is registered.
def setSubscription (r : Registry) (id : ConnectionId) (s : Subscription) : Registry where
  entries := r.entries.map fun e => if e.1 = id then (e.1, s) else e
  nodup := by
    have h : ∀ e : ConnectionId × Subscription, (if e.1 = id then (e.1, s) else e).1 = e.1 := by
      intro e; split <;> rfl
    simpa [List.map_map, Function.comp_def, h] using r.nodup

def matching (r : Registry) (chatId : String) : List ConnectionId :=
  (r.entries.filter fun e => e.2.covers chatId).map (·.1)

theorem lookupIn_map_set (id other : ConnectionId) (s : Subscription)
    (entries : List (ConnectionId × Subscription)) :
    lookupIn other (entries.map fun e => if e.1 = id then (e.1, s) else e) =
      if other = id then (lookupIn other entries).map fun _ => s else lookupIn other entries := by
  induction entries with
  | nil => simp [lookupIn]
  | cons e rest ih =>
    obtain ⟨k, v⟩ := e
    by_cases hk : k = id <;> by_cases ho : other = k <;> simp_all [lookupIn]

theorem subscription?_setSubscription (r : Registry) (id other : ConnectionId) (s : Subscription) :
    (r.setSubscription id s).subscription? other =
      if other = id then (r.subscription? other).map fun _ => s else r.subscription? other :=
  lookupIn_map_set id other s r.entries

theorem subscription?_unregister (r : Registry) (id other : ConnectionId) :
    (r.unregister id).subscription? other =
      if other = id then none else r.subscription? other := by
  show lookupIn other (r.entries.filter _) = if other = id then none else lookupIn other r.entries
  induction r.entries with
  | nil => simp [lookupIn]
  | cons e rest ih =>
    obtain ⟨k, v⟩ := e
    by_cases hk : k = id <;> by_cases ho : other = k <;> simp_all [lookupIn]

end Registry

-- How many changes each connection was offered; the next one has the number after that.
structure Sequences where
  counts : List (ConnectionId × Nat) := []
deriving DecidableEq, Inhabited

namespace Sequences

def lookupIn (id : ConnectionId) : List (ConnectionId × Nat) → Nat
  | [] => 0
  | (other, n) :: rest => if id = other then n else lookupIn id rest

-- The last number that the connection was given; zero before the first one.
def current (s : Sequences) (id : ConnectionId) : Nat := lookupIn id s.counts

-- Gives the connection its next number.
def advance (s : Sequences) (id : ConnectionId) : Sequences :=
  ⟨(id, s.current id + 1) :: s.counts.filter (·.1 ≠ id)⟩

theorem lookupIn_filter {id other : ConnectionId} (h : other ≠ id)
    (counts : List (ConnectionId × Nat)) :
    lookupIn other (counts.filter (·.1 ≠ id)) = lookupIn other counts := by
  induction counts with
  | nil => rfl
  | cons e rest ih =>
    obtain ⟨k, n⟩ := e
    by_cases hk : k = id <;> by_cases ho : other = k <;> simp_all [lookupIn]

theorem current_advance (s : Sequences) (id other : ConnectionId) :
    (s.advance id).current other = if other = id then s.current id + 1 else s.current other := by
  by_cases h : other = id
  · simp [advance, current, lookupIn, h]
  · simp only [advance, current, lookupIn, h, if_false]
    exact lookupIn_filter h s.counts

end Sequences

end ChatRelay
