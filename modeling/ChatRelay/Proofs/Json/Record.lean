import ChatRelay.Json.Record
import ChatRelay.Proofs.Table

namespace ChatRelay.Json

variable {α : Type}

-- Reading and writing agree: whatever is read is read back from what is written for it, and so are all
-- writable values, whether they were ever read or not.
structure ReadsBack (read : Json → Option α) (write : α → Json) (writable : α → Prop) : Prop where
  again : ∀ v x, read v = some x → read (write x) = some x
  iff_writable : ∀ x, read (write x) = some x ↔ writable x

theorem ReadsBack.of_writable {read : Json → Option α} {write : α → Json} {writable : α → Prop}
    (hread : ∀ {v x}, read v = some x → writable x)
    (hwrite : ∀ {x}, writable x → read (write x) = some x) : ReadsBack read write writable where
  again _ _ h := hwrite (hread h)
  iff_writable _ := ⟨hread, hwrite⟩

def IsSigned64 (n : Int) : Prop := least64 ≤ n ∧ n ≤ greatestSigned64

def IsUnsigned64 (n : Nat) : Prop := (n : Int) ≤ greatestUnsigned64

theorem isSigned64_zero : IsSigned64 0 := by
  constructor <;> decide

theorem isUnsigned64_zero : IsUnsigned64 0 := by
  unfold IsUnsigned64
  decide

theorem isSigned64_of_signed? {v : Json} {n : Int} (h : v.signed? = some n) : IsSigned64 n := by
  unfold signed? at h
  split at h
  · split at h
    · next hrange => exact Option.some.inj h ▸ hrange
    · cases h
  · cases h

theorem isUnsigned64_of_unsigned? {v : Json} {n : Nat} (h : v.unsigned? = some n) :
    IsUnsigned64 n := by
  unfold unsigned? at h
  split at h
  · next m =>
    split at h
    · next hrange =>
      obtain rfl := Option.some.inj h
      exact (Int.toNat_of_nonneg hrange.1).symm ▸ hrange.2
    · cases h
  · cases h

theorem signed?_int {n : Int} (h : IsSigned64 n) : (int n).signed? = some n := if_pos h

theorem unsigned?_nat {n : Nat} (h : IsUnsigned64 n) : (nat n).unsigned? = some n :=
  if_pos ⟨Int.natCast_nonneg n, h⟩

theorem exists_of_mapM_eq_some {β : Type} {f : α → Option β} {xs : List α} {ys : List β}
    (h : xs.mapM f = some ys) {y : β} (hy : y ∈ ys) : ∃ x ∈ xs, f x = some y := by
  induction xs generalizing ys with
  | nil =>
    cases h
    cases hy
  | cons x xs ih =>
    rw [List.mapM_cons] at h
    obtain ⟨first, hfirst, h⟩ := Option.bind_eq_some_iff.mp h
    obtain ⟨rest, hrest, h⟩ := Option.bind_eq_some_iff.mp h
    obtain rfl := Option.some.inj h
    rcases List.mem_cons.mp hy with rfl | hy
    · exact ⟨x, List.mem_cons_self, hfirst⟩
    · obtain ⟨w, hw, hread⟩ := ih hrest hy
      exact ⟨w, List.mem_cons_of_mem _ hw, hread⟩

theorem mapM_map_eq_some {β : Type} {f : β → Option α} {g : α → β} {xs : List α}
    (h : ∀ x ∈ xs, f (g x) = some x) : (xs.map g).mapM f = some xs := by
  induction xs with
  | nil => rfl
  | cons x xs ih =>
    have hrest := ih fun y hy => h y (List.mem_cons_of_mem _ hy)
    rw [List.map_cons, List.mapM_cons, h x List.mem_cons_self, hrest]
    rfl

theorem exists_of_mem_listOf {read : Json → Option α} {v : Json} {xs : List α}
    (h : listOf read v = some xs) {x : α} (hx : x ∈ xs) : ∃ w, read w = some x := by
  obtain ⟨items, -, hitems⟩ := Option.bind_eq_some_iff.mp h
  obtain ⟨w, -, hw⟩ := exists_of_mapM_eq_some hitems hx
  exact ⟨w, hw⟩

theorem listOf_array_map {read : Json → Option α} {write : α → Json} {xs : List α}
    (h : ∀ x ∈ xs, read (write x) = some x) : listOf read (.array (xs.map write)) = some xs :=
  mapM_map_eq_some h

theorem strings?_strings (texts : List String) : (strings texts).strings? = some texts :=
  mapM_map_eq_some fun _ _ => rfl

theorem exists_of_mem_tableOf {read : Json → Option α} {v : Json} {t : Table α}
    (h : tableOf read v = some t) {e : String × α} (he : e ∈ t.entries) :
    ∃ w, read w = some e.2 := by
  obtain ⟨members, -, hmembers⟩ := Option.bind_eq_some_iff.mp h
  obtain ⟨bindings, hbindings, rfl⟩ := Option.map_eq_some_iff.mp hmembers
  have hmem := Table.mem_of_get?_ofList (Table.get?_eq_some_iff.mpr he)
  obtain ⟨m, -, hm⟩ := exists_of_mapM_eq_some hbindings hmem
  obtain ⟨x, hx, heq⟩ := Option.map_eq_some_iff.mp hm
  exact ⟨m.2, (Prod.mk.inj heq).2 ▸ hx⟩

theorem tableOf_ofTable_map {read : Json → Option α} {write : α → Json} {t : Table α}
    (h : ∀ e ∈ t.entries, read (write e.2) = some e.2) :
    tableOf read (.ofTable (t.map fun _ x => write x)) = some t := by
  have hmapM : (t.entries.map fun e => (e.1, write e.2)).mapM
      (fun m => (read m.2).map (m.1, ·)) = some t.entries :=
    mapM_map_eq_some fun e he => by rw [h e he]; rfl
  rw [tableOf, ofTable, object?, Option.bind_some, Table.map, hmapM, Option.map_some,
    Table.ofList_entries]

theorem tableOf_ofTable (t : Table Json) : tableOf some (.ofTable t) = some t := by
  have h : tableOf some (.ofTable (t.map fun _ v => id v)) = some t :=
    tableOf_ofTable_map fun _ _ => rfl
  simpa [Table.map] using h

-- Reading goes on with the field that was read.
theorem bind_of_eq_some {β : Type} {x : Option α} {a : α} {f : α → Option β} {y : Option β}
    (h : x = some a) (hf : f a = y) : (x >>= f) = y := by
  rw [h]
  exact hf

-- A record that was written has each member that it was written with, and no member that was left out.
theorem fields?_mkSome (layout : Layout) {v : Json} {members : List (String × Option Json)}
    (h : v = mkSome members) (hnodup : (members.map (·.1)).Nodup) :
    ∃ fields, layout.fields? v = some fields ∧ ∀ m ∈ members, Table.lookupIn m.1 fields = m.2 :=
  ⟨_, congrArg layout.fields? h, fun _ hm => get?_mkSome hnodup hm⟩

theorem mk_eq_mkSome (members : List (String × Json)) :
    mk members = mkSome (members.map fun m => (m.1, some m.2)) := by
  rw [mkSome, List.filterMap_map]
  exact congrArg mk List.filterMap_some.symm

namespace Fields

variable {fields : Fields} {name : String} {read : Json → Option α} {write : α → Json}

theorem required_of {v : Json} {x : α} (h : Table.lookupIn name fields = some v)
    (hread : read v = some x) : required fields name read = some x := by
  rw [required, h, Option.bind_some, hread]

theorem withDefault_of {v : Json} {default x : α} (h : Table.lookupIn name fields = some v)
    (hread : read v = some x) : withDefault fields name default read = some x := by
  rw [withDefault, h]
  exact hread

theorem required_string {s : String} (h : Table.lookupIn name fields = some (.string s)) :
    required fields name string? = some s := required_of h rfl

theorem required_bool {b : Bool} (h : Table.lookupIn name fields = some (.bool b)) :
    required fields name bool? = some b := required_of h rfl

theorem withDefault_string {s default : String}
    (h : Table.lookupIn name fields = some (.string s)) :
    withDefault fields name default string? = some s := withDefault_of h rfl

-- What is left out is the default.
theorem withDefault_of_left_out {p : Prop} [Decidable p] {v : Json} {default x : α}
    (h : Table.lookupIn name fields = if p then none else some v) (hdefault : p → x = default)
    (hread : read v = some x) : withDefault fields name default read = some x := by
  split at h
  · next hp => rw [withDefault, h, hdefault hp]
  · exact withDefault_of h hread

theorem withDefault_list {xs : List α}
    (h : Table.lookupIn name fields =
      if xs.isEmpty then none else some (.array (xs.map write)))
    (hread : ∀ x ∈ xs, read (write x) = some x) :
    withDefault fields name [] (listOf read) = some xs :=
  withDefault_of_left_out h List.isEmpty_iff.mp (listOf_array_map hread)

theorem withDefault_table {t : Table Json}
    (h : Table.lookupIn name fields = if t.isEmpty then none else some (.ofTable t)) :
    withDefault fields name ∅ (tableOf some) = some t :=
  withDefault_of_left_out h Table.eq_empty_of_isEmpty (tableOf_ofTable t)

theorem withDefault_flag {b : Bool}
    (h : Table.lookupIn name fields = if b then some (.bool true) else none) :
    withDefault fields name false bool? = some b := by
  cases b with
  | false => rw [withDefault, h]; rfl
  | true => exact withDefault_of h rfl

-- A value is read back from its field, unless it is written like no value.
theorem optional_of {x : Option α} (h : Table.lookupIn name fields = x.map write)
    (hread : ∀ y, x = some y → write y ≠ .null ∧ read (write y) = some y) :
    optional fields name read = some x := by
  cases x with
  | none => rw [optional, h]; rfl
  | some y =>
    obtain ⟨hnull, hy⟩ := hread y rfl
    have hpresent : Table.lookupIn name fields = some (write y) := h
    rw [optional, hpresent]
    split
    · next heq => cases heq
    · next heq => exact absurd (Option.some.inj heq) hnull
    · next v _ heq => rw [← Option.some.inj heq, hy, Option.map_some]

theorem optional_string {x : Option String} (h : Table.lookupIn name fields = x.map .string) :
    optional fields name string? = some x :=
  optional_of h fun _ _ => ⟨nofun, rfl⟩

-- A value of any kind is read back as it is, except for null.
theorem optional_value {x : Option Json} (h : Table.lookupIn name fields = x)
    (hne : x ≠ some .null) : optional fields name some = some x := by
  have hmap : Table.lookupIn name fields = x.map id := h.trans Option.map_id_apply.symm
  refine optional_of hmap fun v hv => ⟨?_, rfl⟩
  rintro rfl
  exact hne hv

theorem eq_default_or_read {default x : α} (h : withDefault fields name default read = some x) :
    x = default ∨ ∃ v, read v = some x := by
  unfold withDefault at h
  split at h
  · exact .inl (Option.some.inj h).symm
  · exact .inr ⟨_, h⟩

theorem exists_of_mem_list {xs : List α} (h : withDefault fields name [] (listOf read) = some xs)
    {x : α} (hx : x ∈ xs) : ∃ w, read w = some x := by
  rcases eq_default_or_read h with rfl | ⟨v, hv⟩
  · cases hx
  · exact exists_of_mem_listOf hv hx

theorem exists_of_mem_table {t : Table α} (h : withDefault fields name ∅ (tableOf read) = some t)
    {e : String × α} (he : e ∈ t.entries) : ∃ w, read w = some e.2 := by
  rcases eq_default_or_read h with rfl | ⟨v, hv⟩
  · cases he
  · exact exists_of_mem_tableOf hv he

theorem isSigned64_of_withDefault {n : Int} (h : withDefault fields name 0 signed? = some n) :
    IsSigned64 n := by
  rcases eq_default_or_read h with rfl | ⟨v, hv⟩
  · exact isSigned64_zero
  · exact isSigned64_of_signed? hv

theorem isUnsigned64_of_required {n : Nat} (h : required fields name unsigned? = some n) :
    IsUnsigned64 n := by
  obtain ⟨v, -, hv⟩ := Option.bind_eq_some_iff.mp h
  exact isUnsigned64_of_unsigned? hv

theorem exists_of_optional {x : α} (h : optional fields name read = some (some x)) :
    ∃ v, v ≠ .null ∧ read v = some x := by
  unfold optional at h
  split at h
  · cases h
  · cases h
  · next v hnull _ =>
    obtain ⟨y, hy, hsome⟩ := Option.map_eq_some_iff.mp h
    exact ⟨v, hnull, Option.some.inj hsome ▸ hy⟩

theorem ne_null_of_optional {v : Json} (h : optional fields name some = some (some v)) :
    v ≠ .null := by
  obtain ⟨w, hne, hw⟩ := exists_of_optional h
  exact Option.some.inj hw ▸ hne

end Fields

end ChatRelay.Json
