import Mathlib.Data.List.Forall2
import ChatRelay.Proofs.Change.Fingerprint

namespace ChatRelay

namespace Json

-- The member of an object, read as a map. Of several members with one name the last counts.
def member? (name : String) (members : List (String × Json)) : Option Json :=
  (Table.ofList members).get? name

-- Equality of values. Numbers are equal if they have the same text.
inductive Same : Json → Json → Prop where
  | null : Same .null .null
  | bool (b : Bool) : Same (.bool b) (.bool b)
  | number {m n : Number} (text : m.write = n.write) : Same (.number m) (.number n)
  | string (s : String) : Same (.string s) (.string s)
  | array {vs ws : List Json} (items : List.Forall₂ Same vs ws) : Same (.array vs) (.array ws)
  | object {ms ns : List (String × Json)}
      (members : ∀ name, Option.Rel Same (member? name ms) (member? name ns)) :
      Same (.object ms) (.object ns)

def carriesTime (name : String) : Bool := name == "ts" || name == "timestamp"

mutual

-- The value without the members that carry times, at any depth. The others stay in their order.
def withoutTimes : Json → Json
  | .object members => .object (membersWithoutTimes members)
  | .array items => .array (itemsWithoutTimes items)
  | v => v

def itemsWithoutTimes : List Json → List Json
  | [] => []
  | v :: rest => withoutTimes v :: itemsWithoutTimes rest

def membersWithoutTimes : List (String × Json) → List (String × Json)
  | [] => []
  | (name, v) :: rest =>
    if carriesTime name then membersWithoutTimes rest
    else (name, withoutTimes v) :: membersWithoutTimes rest

end

-- The members that stay, each with a value made of its own.
theorem member?_kept (keep : String → Bool) (f : Json → Json) (members : List (String × Json))
    (name : String) :
    member? name ((members.filter fun m => keep m.1).map fun m => (m.1, f m.2)) =
      if keep name then (member? name members).map f else none := by
  have hlookup (ms : List (String × Json)) :
      Table.lookupIn name ((ms.filter fun m => keep m.1).map fun m => (m.1, f m.2)) =
        if keep name then (Table.lookupIn name ms).map f else none := by
    induction ms with
    | nil => simp [Table.lookupIn]
    | cons m ms ih =>
      by_cases hname : name = m.1
      · subst hname
        cases hkeep : keep m.1 <;> simp_all [Table.lookupIn]
      · cases hkeep : keep m.1 <;> simp_all [Table.lookupIn]
  rw [member?, Table.get?_ofList, ← List.map_reverse, ← List.filter_reverse, hlookup, member?,
    Table.get?_ofList]

theorem stableMembers_eq (members : List (String × Json)) :
    stableMembers members =
      (members.filter fun m => !carriesTime m.1).map fun m => (m.1, m.2.stable) := by
  induction members with
  | nil => rfl
  | cons m rest ih =>
    obtain ⟨name, v⟩ := m
    have hvolatile : name ∈ volatileNames ↔ carriesTime name = true := by
      simp [volatileNames, carriesTime]
    rw [stableMembers]
    simp only [hvolatile]
    cases h : carriesTime name <;> simp [h, ih]

theorem membersWithoutTimes_eq (members : List (String × Json)) :
    membersWithoutTimes members =
      (members.filter fun m => !carriesTime m.1).map fun m => (m.1, m.2.withoutTimes) := by
  induction members with
  | nil => rfl
  | cons m rest ih =>
    obtain ⟨name, v⟩ := m
    rw [membersWithoutTimes]
    cases h : carriesTime name <;> simp [h, ih]

theorem itemsWithoutTimes_eq (items : List Json) :
    itemsWithoutTimes items = items.map withoutTimes := by
  induction items with
  | nil => rfl
  | cons v rest ih => rw [itemsWithoutTimes, ih, List.map_cons]

-- Members that stand in order are alike, one by one, if they are alike as maps.
theorem alikeMembers_of_lookupIn {ms ns : List (String × Json)}
    (hm : ms.Pairwise fun a b => a.1 < b.1) (hn : ns.Pairwise fun a b => a.1 < b.1)
    (h : ∀ name, Option.Rel Alike (Table.lookupIn name ms) (Table.lookupIn name ns)) :
    AlikeMembers ms ns := by
  induction ms generalizing ns with
  | nil =>
    cases ns with
    | nil => trivial
    | cons n ns =>
      have hfirst := h n.1
      simp only [Table.lookupIn, if_true] at hfirst
      cases hfirst
  | cons m ms ih =>
    obtain ⟨m, v⟩ := m
    cases ns with
    | nil =>
      have hfirst := h m
      simp only [Table.lookupIn, if_true] at hfirst
      cases hfirst
    | cons n ns =>
      obtain ⟨n, w⟩ := n
      obtain ⟨hmfirst, hmrest⟩ := List.pairwise_cons.mp hm
      obtain ⟨hnfirst, hnrest⟩ := List.pairwise_cons.mp hn
      have habsent {name : String} {rest : List (String × Json)} (hrest : ∀ e ∈ rest, name < e.1) :
          Table.lookupIn name rest = none := by
        refine Option.eq_none_iff_forall_ne_some.mpr fun x hx => ?_
        exact String.lt_irrefl _ (hrest _ (Table.mem_of_lookupIn hx))
      -- Each of the two first names is one of the other list, so neither comes before the other.
      have hname : m = n := by
        by_contra hne
        have hleft := h m
        have hright := h n
        simp only [Table.lookupIn, if_true, if_neg hne, if_neg (Ne.symm hne)] at hleft hright
        cases hfound : Table.lookupIn m ns with
        | none =>
          rw [hfound] at hleft
          cases hleft
        | some x =>
          have hlt : n < m := hnfirst _ (Table.mem_of_lookupIn hfound)
          rw [habsent fun e he => String.lt_trans hlt (hmfirst e he)] at hright
          cases hright
      subst hname
      have hvalue : Alike v w := by
        have hfirst := h m
        simp only [Table.lookupIn, if_true] at hfirst
        cases hfirst with
        | some halike => exact halike
      refine ⟨rfl, hvalue, ih hmrest hnrest fun name => ?_⟩
      by_cases heq : name = m
      · subst heq
        rw [habsent hmfirst, habsent hnfirst]
        exact .none
      · have hrest := h name
        simpa only [Table.lookupIn, if_neg heq] using hrest

theorem alike_mk_iff {ms ns : List (String × Json)} :
    Alike (.mk ms) (.mk ns) ↔ ∀ name, Option.Rel Alike (member? name ms) (member? name ns) :=
  ⟨fun h name => alike_lookupIn h name,
    fun h => alikeMembers_of_lookupIn (Table.ofList ms).ascending (Table.ofList ns).ascending h⟩

section

variable {vs : List Json} {ms : List (String × Json)}

theorem alikeItems_stable_iff (ws : List Json)
    (hitems : ∀ v ∈ vs, ∀ w : Json, Alike v.stable w.stable ↔ Same v.withoutTimes w.withoutTimes) :
    AlikeItems (stableItems vs) (stableItems ws) ↔
      List.Forall₂ Same (vs.map withoutTimes) (ws.map withoutTimes) := by
  induction vs generalizing ws with
  | nil =>
    cases ws with
    | nil => exact ⟨fun _ => .nil, fun _ => trivial⟩
    | cons w ws => exact ⟨fun h => h.elim, fun h => (nomatch h)⟩
  | cons v vs ih =>
    cases ws with
    | nil => exact ⟨fun h => h.elim, fun h => (nomatch h)⟩
    | cons w ws =>
      have hfirst := hitems v List.mem_cons_self w
      have hrest := ih ws fun v hv => hitems v (List.mem_cons_of_mem _ hv)
      rw [List.map_cons, List.map_cons, List.forall₂_cons, ← hfirst, ← hrest]
      rfl

theorem alike_stable_object_iff (ns : List (String × Json))
    (hmembers : ∀ m ∈ ms, ∀ w : Json,
      Alike m.2.stable w.stable ↔ Same m.2.withoutTimes w.withoutTimes) :
    Alike (stable (.object ms)) (stable (.object ns)) ↔
      Same (withoutTimes (.object ms)) (withoutTimes (.object ns)) := by
  have hsame : Same (withoutTimes (.object ms)) (withoutTimes (.object ns)) ↔
      ∀ name, Option.Rel Same (member? name (membersWithoutTimes ms))
        (member? name (membersWithoutTimes ns)) := by
    rw [withoutTimes, withoutTimes]
    exact ⟨fun h => by cases h with | object h => exact h, .object⟩
  rw [hsame, stable, stable, alike_mk_iff]
  refine forall_congr' fun name => ?_
  rw [stableMembers_eq, stableMembers_eq, membersWithoutTimes_eq, membersWithoutTimes_eq]
  simp only [member?_kept (fun name => !carriesTime name)]
  cases carriesTime name with
  | true => exact ⟨fun _ => .none, fun _ => .none⟩
  | false =>
    cases hv : member? name ms with
    | none =>
      cases member? name ns with
      | none => exact ⟨fun _ => .none, fun _ => .none⟩
      | some w => exact ⟨fun h => (nomatch h), fun h => (nomatch h)⟩
    | some v =>
      cases member? name ns with
      | none => exact ⟨fun h => (nomatch h), fun h => (nomatch h)⟩
      | some w =>
        have hvalue := hmembers _ (Table.mem_of_get?_ofList hv) w
        exact ⟨fun | .some h => .some (hvalue.mp h), fun | .some h => .some (hvalue.mpr h)⟩

end

-- By induction on the first value, for all its items and members at once.
theorem alike_stable_iff (v w : Json) :
    Alike v.stable w.stable ↔ Same v.withoutTimes w.withoutTimes := by
  match v with
  | .null =>
    cases w with
    | null => exact ⟨fun _ => .null, fun _ => trivial⟩
    | bool | number | string | array | object =>
      exact ⟨fun h => (nomatch h), fun h => (nomatch h)⟩
  | .bool a =>
    cases w with
    | bool b =>
      constructor
      · intro h
        rw [show a = b from h]
        exact .bool b
      · rintro ⟨⟩
        rfl
    | null | number | string | array | object =>
      exact ⟨fun h => (nomatch h), fun h => (nomatch h)⟩
  | .number m =>
    cases w with
    | number n => exact ⟨.number, fun | .number h => h⟩
    | null | bool | string | array | object =>
      exact ⟨fun h => (nomatch h), fun h => (nomatch h)⟩
  | .string s =>
    cases w with
    | string t =>
      constructor
      · intro h
        rw [show s = t from h]
        exact .string t
      · rintro ⟨⟩
        rfl
    | null | bool | number | array | object =>
      exact ⟨fun h => (nomatch h), fun h => (nomatch h)⟩
  | .array vs =>
    cases w with
    | array ws =>
      have hitems : ∀ v ∈ vs, ∀ w : Json,
          Alike v.stable w.stable ↔ Same v.withoutTimes w.withoutTimes := by
        intro v hv w
        have hin := List.sizeOf_lt_of_mem hv
        exact alike_stable_iff v w
      rw [withoutTimes, withoutTimes, itemsWithoutTimes_eq, itemsWithoutTimes_eq]
      exact (alikeItems_stable_iff ws hitems).trans ⟨.array, fun | .array h => h⟩
    | null | bool | number | string | object =>
      exact ⟨fun h => (nomatch h), fun h => (nomatch h)⟩
  | .object ms =>
    cases w with
    | object ns =>
      refine alike_stable_object_iff ns fun m hm w => ?_
      have hin := List.sizeOf_lt_of_mem hm
      have hvalue : sizeOf m.2 < sizeOf m := by
        obtain ⟨name, v⟩ := m
        simp only [Prod.mk.sizeOf_spec]
        omega
      exact alike_stable_iff m.2 w
    | null | bool | number | string | array =>
      exact ⟨fun h => (nomatch h), fun h => (nomatch h)⟩
termination_by sizeOf v
decreasing_by
  · simp only [Json.array.sizeOf_spec]
    omega
  · simp only [Json.object.sizeOf_spec]
    omega

theorem alike_refl (v : Json) : Alike v v := compact_eq_iff.mp rfl

theorem alikeMembers_insertInto {name : String} {v w : Json} {ms ns : List (String × Json)}
    (hvalue : Alike v w) (h : AlikeMembers ms ns) :
    AlikeMembers (Table.insertInto name v ms) (Table.insertInto name w ns) := by
  induction ms generalizing ns with
  | nil =>
    cases ns with
    | nil => exact ⟨rfl, hvalue, trivial⟩
    | cons n ns => cases h
  | cons m ms ih =>
    cases ns with
    | nil => cases h
    | cons n ns =>
      obtain ⟨m, x⟩ := m
      obtain ⟨n, y⟩ := n
      obtain ⟨rfl, hfirst, hrest⟩ := h
      simp only [Table.insertInto]
      split
      · exact ⟨rfl, hvalue, rfl, hfirst, hrest⟩
      · split
        · exact ⟨rfl, hvalue, hrest⟩
        · exact ⟨rfl, hfirst, ih hrest⟩

end Json

namespace Change

variable {c d : Change} {es fs : List Json}

theorem sameEntries_iff :
    SameEntries es fs ↔
      List.Forall₂ Json.Same (es.map Json.withoutTimes) (fs.map Json.withoutTimes) :=
  Json.alikeItems_stable_iff fs fun v _ => Json.alike_stable_iff v

theorem preimage_eq_of_same (h : SameEntries es fs) : c.preimage es = c.preimage fs := by
  refine Json.compact_eq_iff.mpr ?_
  cases es with
  | nil =>
    cases fs with
    | nil => exact Json.alike_refl _
    | cons f fs => cases h
  | cons e es =>
    cases fs with
    | nil => cases h
    | cons f fs => exact Json.alikeMembers_insertInto h (Json.alike_refl (.object _))

-- The text under a fingerprint says which change it is and what its entries are, and nothing else.
theorem preimage_eq_iff :
    c.preimage es = d.preimage fs ↔
      c.kind = d.kind ∧ c.chatId = d.chatId ∧ c.ids.toList = d.ids.toList ∧
        List.Forall₂ Json.Same (es.map Json.withoutTimes) (fs.map Json.withoutTimes) := by
  rw [← sameEntries_iff]
  constructor
  · intro h
    obtain ⟨rfl, hsame⟩ := same_of_preimage_eq h
    exact ⟨rfl, rfl, rfl, hsame⟩
  · rintro ⟨hkind, hchat, hids, hsame⟩
    have hchange : c = d := by
      have hids := IdSet.toList_injective hids
      cases c
      cases d
      simp_all
    rw [hchange]
    exact preimage_eq_of_same hsame

end Change

end ChatRelay
