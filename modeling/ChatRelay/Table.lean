namespace ChatRelay

-- An association from texts to values. As the keys ascend and none occurs twice, two tables with
-- the same lookups are the same table, and reading one out needs no sorting.
structure Table (α : Type) where
  entries : List (String × α)
  ascending : entries.Pairwise fun a b => a.1 < b.1

namespace Table

variable {α β : Type}

instance : EmptyCollection (Table α) := ⟨[], .nil⟩
instance : Inhabited (Table α) := ⟨∅⟩

instance [DecidableEq α] : DecidableEq (Table α) := fun t u =>
  decidable_of_iff (t.entries = u.entries) (by cases t; cases u; simp)

def size (t : Table α) : Nat := t.entries.length

def isEmpty (t : Table α) : Bool := t.entries.isEmpty

def keys (t : Table α) : List String := t.entries.map (·.1)

def values (t : Table α) : List α := t.entries.map (·.2)

def lookupIn (key : String) : List (String × α) → Option α
  | [] => none
  | (k, v) :: rest => if key = k then some v else lookupIn key rest

def get? (t : Table α) (key : String) : Option α := lookupIn key t.entries

def contains (t : Table α) (key : String) : Bool := (t.get? key).isSome

def insertInto (key : String) (value : α) : List (String × α) → List (String × α)
  | [] => [(key, value)]
  | (k, v) :: rest =>
    if key < k then (key, value) :: (k, v) :: rest
    else if key = k then (key, value) :: rest
    else (k, v) :: insertInto key value rest

theorem mem_insertInto {key : String} {value : α} {entries : List (String × α)}
    {e : String × α} (h : e ∈ insertInto key value entries) :
    e = (key, value) ∨ e ∈ entries := by
  induction entries with
  | nil => simpa [insertInto] using h
  | cons head rest ih =>
    obtain ⟨k, v⟩ := head
    simp only [insertInto] at h
    split at h
    · simpa using h
    · split at h
      · rcases List.mem_cons.mp h with rfl | h
        · exact .inl rfl
        · exact .inr (List.mem_cons_of_mem _ h)
      · rcases List.mem_cons.mp h with rfl | h
        · exact .inr List.mem_cons_self
        · exact (ih h).imp_right (List.mem_cons_of_mem _)

theorem lt_of_not_lt_of_ne {a b : String} (h : ¬a < b) (hne : a ≠ b) : b < a := by
  rcases Decidable.em (b < a) with hlt | hlt
  · exact hlt
  · exact absurd (String.le_antisymm (String.not_lt.mp hlt) (String.not_lt.mp h)) hne

theorem insertInto_ascending {key : String} {value : α} {entries : List (String × α)}
    (h : entries.Pairwise fun a b => a.1 < b.1) :
    (insertInto key value entries).Pairwise fun a b => a.1 < b.1 := by
  induction entries with
  | nil => simp [insertInto]
  | cons head rest ih =>
    obtain ⟨k, v⟩ := head
    obtain ⟨hhead, hrest⟩ := List.pairwise_cons.mp h
    simp only [insertInto]
    split
    · next hlt =>
      refine List.pairwise_cons.mpr ⟨fun e he => ?_, h⟩
      rcases List.mem_cons.mp he with rfl | he
      · exact hlt
      · exact String.lt_trans hlt (hhead e he)
    · next hlt =>
      split
      · next heq => exact List.pairwise_cons.mpr ⟨fun e he => heq ▸ hhead e he, hrest⟩
      · next hne =>
        refine List.pairwise_cons.mpr ⟨fun e he => ?_, ih hrest⟩
        rcases mem_insertInto he with rfl | he
        · exact lt_of_not_lt_of_ne hlt hne
        · exact hhead e he

-- Binds the key to the value; an older binding of the key is replaced.
def insert (t : Table α) (key : String) (value : α) : Table α :=
  ⟨insertInto key value t.entries, insertInto_ascending t.ascending⟩

def filter (t : Table α) (p : String → α → Bool) : Table α :=
  ⟨t.entries.filter fun e => p e.1 e.2, t.ascending.filter _⟩

def erase (t : Table α) (key : String) : Table α := t.filter fun k _ => k ≠ key

def map (t : Table α) (f : String → α → β) : Table β :=
  ⟨t.entries.map fun e => (e.1, f e.1 e.2), List.pairwise_map.mpr t.ascending⟩

def modify (t : Table α) (key : String) (f : α → α) : Table α :=
  t.map fun k v => if k = key then f v else v

-- The table of a list of bindings, the last binding of each key winning.
def ofList (bindings : List (String × α)) : Table α :=
  bindings.foldl (fun t b => t.insert b.1 b.2) ∅

@[simp] theorem get?_empty (key : String) : (∅ : Table α).get? key = none := rfl

theorem lookupIn_insertInto (key other : String) (value : α) (entries : List (String × α)) :
    lookupIn other (insertInto key value entries) =
      if other = key then some value else lookupIn other entries := by
  induction entries with
  | nil => simp [insertInto, lookupIn]
  | cons head rest ih =>
    obtain ⟨k, v⟩ := head
    simp only [insertInto]
    split
    · simp [lookupIn]
    · split
      · next heq => subst heq; simp only [lookupIn]; split <;> rfl
      · next hne =>
        simp only [lookupIn, ih]
        by_cases hk : other = k
        · subst hk; simp [Ne.symm hne]
        · simp [hk]

theorem get?_insert (t : Table α) (key other : String) (value : α) :
    (t.insert key value).get? other = if other = key then some value else t.get? other :=
  lookupIn_insertInto key other value t.entries

theorem get?_erase (t : Table α) (key other : String) :
    (t.erase key).get? other = if other = key then none else t.get? other := by
  show lookupIn other (t.entries.filter _) = if other = key then none else lookupIn other t.entries
  induction t.entries with
  | nil => simp [lookupIn]
  | cons head rest ih =>
    obtain ⟨k, v⟩ := head
    by_cases hk : k = key
    · subst hk
      by_cases ho : other = k <;> simp_all [lookupIn]
    · by_cases ho : other = k
      · subst ho; simp [lookupIn, hk]
      · simp_all [lookupIn]

end Table

-- A set of texts, read out in ascending order.
structure IdSet where
  toList : List String
  ascending : toList.Pairwise (· < ·)
deriving DecidableEq

namespace IdSet

instance : EmptyCollection IdSet := ⟨[], .nil⟩
instance : Inhabited IdSet := ⟨∅⟩

def insertInto (id : String) : List String → List String
  | [] => [id]
  | head :: rest =>
    if id < head then id :: head :: rest
    else if id = head then head :: rest
    else head :: insertInto id rest

theorem mem_insertInto {id x : String} {ids : List String} :
    x ∈ insertInto id ids ↔ x = id ∨ x ∈ ids := by
  induction ids with
  | nil => simp [insertInto]
  | cons head rest ih =>
    simp only [insertInto]
    split
    · simp
    · split
      · next heq => subst heq; simp
      · simp only [List.mem_cons, ih]
        constructor
        · rintro (h | h | h)
          · exact .inr (.inl h)
          · exact .inl h
          · exact .inr (.inr h)
        · rintro (h | h | h)
          · exact .inr (.inl h)
          · exact .inl h
          · exact .inr (.inr h)

theorem insertInto_ascending {id : String} {ids : List String} (h : ids.Pairwise (· < ·)) :
    (insertInto id ids).Pairwise (· < ·) := by
  induction ids with
  | nil => simp [insertInto]
  | cons head rest ih =>
    obtain ⟨hhead, hrest⟩ := List.pairwise_cons.mp h
    simp only [insertInto]
    split
    · next hlt =>
      refine List.pairwise_cons.mpr ⟨fun x hx => ?_, h⟩
      rcases List.mem_cons.mp hx with rfl | hx
      · exact hlt
      · exact String.lt_trans hlt (hhead x hx)
    · next hlt =>
      split
      · exact h
      · next hne =>
        refine List.pairwise_cons.mpr ⟨fun x hx => ?_, ih hrest⟩
        rcases mem_insertInto.mp hx with rfl | hx
        · exact Table.lt_of_not_lt_of_ne hlt hne
        · exact hhead x hx

def insert (s : IdSet) (id : String) : IdSet :=
  ⟨insertInto id s.toList, insertInto_ascending s.ascending⟩

def ofList (ids : List String) : IdSet := ids.foldl insert ∅

-- Looks the text up in the ascending list, stopping at the first greater one.
def search (id : String) : List String → Bool
  | [] => false
  | head :: rest => if id < head then false else id == head || search id rest

def contains (s : IdSet) (id : String) : Bool := search id s.toList

def isEmpty (s : IdSet) : Bool := s.toList.isEmpty

def filter (s : IdSet) (p : String → Bool) : IdSet :=
  ⟨s.toList.filter p, s.ascending.filter _⟩

def diff (s other : IdSet) : IdSet := s.filter fun id => !other.contains id

instance : Membership String IdSet := ⟨fun s id => id ∈ s.toList⟩

@[simp] theorem mem_toList {s : IdSet} {id : String} : id ∈ s.toList ↔ id ∈ s := .rfl

theorem mem_insert {s : IdSet} {id x : String} : x ∈ s.insert id ↔ x = id ∨ x ∈ s :=
  mem_insertInto

theorem search_eq_true_iff {id : String} {ids : List String} (h : ids.Pairwise (· < ·)) :
    search id ids = true ↔ id ∈ ids := by
  induction ids with
  | nil => simp [search]
  | cons head rest ih =>
    obtain ⟨hhead, hrest⟩ := List.pairwise_cons.mp h
    simp only [search]
    split
    · next hlt =>
      simp only [Bool.false_eq_true, false_iff]
      intro hmem
      rcases List.mem_cons.mp hmem with rfl | hmem
      · exact String.lt_irrefl _ hlt
      · exact String.lt_irrefl _ (String.lt_trans hlt (hhead _ hmem))
    · simp [ih hrest]

-- The ordered search finds exactly the members.
theorem contains_iff_mem {s : IdSet} {id : String} : s.contains id = true ↔ id ∈ s :=
  search_eq_true_iff s.ascending

end IdSet

end ChatRelay
