import ChatRelay.Change.Fingerprint
import ChatRelay.Proofs.Json.Print
import ChatRelay.Proofs.Table

namespace ChatRelay

namespace Json

theorem alike_lookupIn {ms ns : List (String × Json)} (h : AlikeMembers ms ns) (name : String) :
    Option.Rel Alike (Table.lookupIn name ms) (Table.lookupIn name ns) := by
  induction ms generalizing ns with
  | nil =>
    cases ns with
    | nil => exact .none
    | cons n ns => cases h
  | cons m ms ih =>
    cases ns with
    | nil => cases h
    | cons n ns =>
      obtain ⟨m, v⟩ := m
      obtain ⟨n, w⟩ := n
      obtain ⟨rfl, hfirst, hrest⟩ := h
      simp only [Table.lookupIn]
      split
      · exact .some hfirst
      · exact ih hrest

theorem alike_get? {v w : Json} (h : Alike v w) (name : String) :
    Option.Rel Alike (v.get? name) (w.get? name) := by
  cases v with
  | object ms =>
    cases w with
    | object ns => exact alike_lookupIn h name
    | null | bool | number | string | array => cases h
  | null | bool | number | string | array =>
    cases w with
    | object ns => cases h
    | null | bool | number | string | array => exact .none

theorem eq_of_alike_strings {ss ts : List String}
    (h : AlikeItems (ss.map .string) (ts.map .string)) : ss = ts := by
  induction ss generalizing ts with
  | nil =>
    cases ts with
    | nil => rfl
    | cons t ts => cases h
  | cons s ss ih =>
    cases ts with
    | nil => cases h
    | cons t ts =>
      obtain ⟨rfl, hrest⟩ := h
      rw [ih hrest]

theorem alike_stringAt? {v w : Json} (h : Alike v w) (name : String) :
    v.stringAt? [name] = w.stringAt? [name] := by
  have hget := alike_get? h name
  simp only [stringAt?, at?]
  cases hv : v.get? name with
  | none =>
    cases hw : w.get? name with
    | none => rfl
    | some y =>
      rw [hv, hw] at hget
      cases hget
  | some x =>
    cases hw : w.get? name with
    | none =>
      rw [hv, hw] at hget
      cases hget
    | some y =>
      rw [hv, hw] at hget
      cases hget with
      | some hxy =>
        cases x with
        | string s =>
          cases y with
          | string t => rw [show s = t from hxy]
          | null | bool | number | array | object => cases hxy
        | null | bool | number | array | object =>
          cases y with
          | string t => cases hxy
          | null | bool | number | array | object => rfl

theorem lookupIn_stableMembers (ms : List (String × Json)) (name : String) :
    Table.lookupIn name (stableMembers ms) =
      if name ∈ volatileNames then none else (Table.lookupIn name ms).map stable := by
  induction ms with
  | nil => simp [stableMembers, Table.lookupIn]
  | cons m ms ih =>
    obtain ⟨n, v⟩ := m
    by_cases hn : n ∈ volatileNames
    · rw [stableMembers, if_pos hn, ih, Table.lookupIn]
      by_cases hname : name ∈ volatileNames
      · simp [hname]
      · have hne : name ≠ n := fun heq => hname (heq ▸ hn)
        simp [hname, hne]
    · rw [stableMembers, if_neg hn, Table.lookupIn, ih, Table.lookupIn]
      by_cases heq : name = n
      · subst heq
        simp [hn]
      · simp [heq]

theorem stableMembers_names_sublist (ms : List (String × Json)) :
    ((stableMembers ms).map (·.1)).Sublist (ms.map (·.1)) := by
  induction ms with
  | nil => exact List.nil_sublist _
  | cons m ms ih =>
    obtain ⟨n, v⟩ := m
    rw [stableMembers]
    split
    · exact ih.cons _
    · exact ih.cons_cons _

theorem get?_stable {ms : List (String × Json)} (hnodup : (ms.map (·.1)).Nodup) (name : String) :
    (stable (.object ms)).get? name =
      if name ∈ volatileNames then none else (Table.lookupIn name ms).map stable := by
  have hstable := (stableMembers_names_sublist ms).nodup hnodup
  rw [← lookupIn_stableMembers]
  ext v
  show (Table.ofList (stableMembers ms)).get? name = some v ↔ _
  rw [Table.lookupIn_eq_some_iff hstable]
  exact ⟨Table.mem_of_get?_ofList, Table.get?_ofList_of_nodup hstable⟩

theorem stringAt?_stable {ms : List (String × Json)} (hnodup : (ms.map (·.1)).Nodup)
    {name s : String} (hname : name ∉ volatileNames)
    (h : (Json.object ms).stringAt? [name] = some s) :
    (stable (.object ms)).stringAt? [name] = some s := by
  obtain ⟨v, hv, hs⟩ := Option.bind_eq_some_iff.mp h
  obtain ⟨w, hw, hv⟩ := Option.bind_eq_some_iff.mp hv
  obtain rfl : w = v := Option.some.inj hv
  cases w with
  | string t =>
    have hget : (stable (.object ms)).get? name = some (.string t) := by
      rw [get?_stable hnodup, if_neg hname, show Table.lookupIn name ms = _ from hw]
      rfl
    simpa [stringAt?, at?, hget, string?] using hs
  | null | bool | number | array | object => cases hs

end Json

theorem ChangeKind.name_injective {k l : ChangeKind} (h : k.name = l.name) : k = l := by
  cases k <;> cases l <;> first | rfl | (simp [name] at h)

namespace Change

-- Whether two lists of entries are the same for everybody who does not look at times.
def SameEntries (es fs : List Json) : Prop :=
  Json.AlikeItems (Json.stableItems es) (Json.stableItems fs)

instance (es fs : List Json) : Decidable (SameEntries es fs) :=
  inferInstanceAs (Decidable (Json.AlikeItems (Json.stableItems es) (Json.stableItems fs)))

theorem SameEntries.symm {es fs : List Json} (h : SameEntries es fs) : SameEntries fs es := by
  have hcompact := Json.compact_eq_iff.mpr
    (show Json.Alike (.array (Json.stableItems es)) (.array (Json.stableItems fs)) from h)
  exact Json.compact_eq_iff.mp hcompact.symm

-- A member that does not carry a time is the same in entries that are.
theorem SameEntries.stringAt?_eq {ms ns : List (String × Json)} {name s t : String}
    (h : SameEntries [.mk ms] [.mk ns]) (hname : name ∉ Json.volatileNames)
    (hs : (Json.mk ms).stringAt? [name] = some s) (ht : (Json.mk ns).stringAt? [name] = some t) :
    s = t := by
  have hsame := Json.alike_stringAt? h.1 name
  rw [Json.mk, Json.mk, Json.stringAt?_stable (Table.keys_nodup _) hname hs,
    Json.stringAt?_stable (Table.keys_nodup _) hname ht] at hsame
  exact Option.some.inj hsame

theorem document_names : ["type", "chatID", "ids", "entries"].Nodup := by decide

theorem document_type (c : Change) (es : List Json) :
    (c.document es).get? "type" = some (.string c.kind.name) :=
  Json.get?_mkSome document_names (by simp)

theorem document_chatId (c : Change) (es : List Json) :
    (c.document es).get? "chatID" = some (.string c.chatId) :=
  Json.get?_mkSome document_names (by simp)

theorem document_ids (c : Change) (es : List Json) :
    (c.document es).get? "ids" = some (.strings c.ids.toList) :=
  Json.get?_mkSome document_names (by simp)

theorem document_entries (c : Change) (es : List Json) :
    (c.document es).get? "entries" =
      if es.isEmpty then none else some (.array (Json.stableItems es)) :=
  Json.get?_mkSome document_names (by simp)

theorem same_of_preimage_eq {c d : Change} {es fs : List Json}
    (h : c.preimage es = d.preimage fs) : c = d ∧ SameEntries es fs := by
  have hget (name : String) := Json.alike_get? (Json.compact_eq_iff.mp h) name
  have hkind := hget "type"
  have hchat := hget "chatID"
  have hids := hget "ids"
  have hentries := hget "entries"
  rw [document_type, document_type] at hkind
  rw [document_chatId, document_chatId] at hchat
  rw [document_ids, document_ids] at hids
  rw [document_entries, document_entries] at hentries
  refine ⟨?_, ?_⟩
  · cases hkind with
    | some hkind =>
      cases hchat with
      | some hchat =>
        cases hids with
        | some hids =>
          have hk : c.kind = d.kind := ChangeKind.name_injective hkind
          have hc : c.chatId = d.chatId := hchat
          have hi : c.ids = d.ids := IdSet.toList_injective (Json.eq_of_alike_strings hids)
          cases c
          cases d
          simp_all
  · cases es with
    | nil =>
      cases fs with
      | nil => trivial
      | cons f fs => cases hentries
    | cons e es =>
      cases fs with
      | nil => cases hentries
      | cons f fs =>
        cases hentries with
        | some hentries => exact hentries

end Change

end ChatRelay
