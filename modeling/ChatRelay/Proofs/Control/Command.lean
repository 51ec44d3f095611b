import ChatRelay.Control.Command
import ChatRelay.Proofs.Json.Record
import ChatRelay.Proofs.Subscription

namespace ChatRelay

namespace Json

theorem string?_eq_some_iff {v : Json} {s : String} : v.string? = some s ↔ v = .string s := by
  cases v <;> simp [string?]

theorem strings?_eq_some_iff {v : Json} {texts : List String} :
    v.strings? = some texts ↔ v = .strings texts := by
  constructor
  · intro h
    obtain ⟨items, hitems, hread⟩ := Option.bind_eq_some_iff.mp h
    have harray : v = .array items := by
      cases v <;> simp_all [array?]
    rw [harray, strings]
    refine congrArg array ?_
    clear h hitems harray
    induction items generalizing texts with
    | nil =>
      obtain rfl := Option.some.inj hread
      rfl
    | cons item items ih =>
      rw [List.mapM_cons] at hread
      obtain ⟨s, hs, hrest⟩ := Option.bind_eq_some_iff.mp hread
      obtain ⟨rest, hmore, heq⟩ := Option.bind_eq_some_iff.mp hrest
      obtain rfl := Option.some.inj heq
      rw [List.map_cons, ← ih hmore, string?_eq_some_iff.mp hs]
  · rintro rfl
    exact strings?_strings texts

theorem strings_injective : Function.Injective strings := by
  intro texts others h
  have hread := strings?_strings others
  rw [← h, strings?_strings] at hread
  exact Option.some.inj hread

theorem stringAt?_eq_some_iff {v : Json} {name s : String} :
    v.stringAt? [name] = some s ↔ v.get? name = some (.string s) := by
  simp only [stringAt?, at?, Option.bind_some, Option.bind_assoc, Option.bind_eq_some_iff,
    string?_eq_some_iff, exists_eq_right]

theorem get?_eq_map_stringAt? {v : Json} {name : String}
    (h : ∀ w, v.get? name = some w → ∃ s, w = .string s) :
    v.get? name = (v.stringAt? [name]).map .string := by
  cases hget : v.get? name with
  | none => rw [stringAt?, at?, hget]; rfl
  | some w =>
    obtain ⟨s, rfl⟩ := h w hget
    rw [stringAt?_eq_some_iff.mpr hget]
    rfl

end Json

namespace Subscription

-- A list of chats that are all blank asks for nothing, one with the wildcard and nothing else for
-- every chat, and any other one for the chats in it.
def Selects (ids : List String) : Subscription → Prop
  | nothing => ∀ asked ∈ ids, Text.trim asked = ""
  | everything =>
    (∃ asked ∈ ids, Text.trim asked = "*") ∧
      ∀ asked ∈ ids, Text.trim asked = "" ∨ Text.trim asked = "*"
  | chats set =>
    set ≠ ∅ ∧ "*" ∉ set ∧ ∀ id, id ∈ set ↔ id ≠ "" ∧ ∃ asked ∈ ids, Text.trim asked = id

-- The wildcard stands beside a chat.
def Mixes (ids : List String) : Prop :=
  (∃ asked ∈ ids, Text.trim asked = "*") ∧
    ∃ asked ∈ ids, Text.trim asked ≠ "" ∧ Text.trim asked ≠ "*"

theorem requested_eq_empty_iff {ids : List String} :
    requested ids = ∅ ↔ Selects ids .nothing := by
  constructor
  · intro h asked hm
    by_contra hne
    have hin : Text.trim asked ∈ requested ids := mem_requested_iff_trim.mpr ⟨hne, asked, hm, rfl⟩
    rw [h] at hin
    exact IdSet.not_mem_empty _ hin
  · intro h
    refine IdSet.ext_mem fun id => iff_of_false (fun hin => ?_) (IdSet.not_mem_empty id)
    obtain ⟨hne, asked, hm, rfl⟩ := mem_requested_iff_trim.mp hin
    exact hne (h asked hm)

theorem requested_toList_eq_wildcard_iff {ids : List String} :
    (requested ids).toList = [wildcard] ↔ Selects ids .everything := by
  constructor
  · intro h
    have hmem : ∀ id, id ∈ requested ids ↔ id = "*" := by
      intro id
      rw [← IdSet.mem_toList, h, List.mem_singleton, wildcard]
    refine ⟨(mem_requested_iff_trim.mp ((hmem "*").mpr rfl)).2, fun asked hm => ?_⟩
    by_cases hne : Text.trim asked = ""
    · exact .inl hne
    · exact .inr ((hmem _).mp (mem_requested_iff_trim.mpr ⟨hne, asked, hm, rfl⟩))
  · rintro ⟨⟨star, hstar, hsays⟩, hall⟩
    have hsame : requested ids = IdSet.ofList [wildcard] := by
      refine IdSet.ext_mem fun id => ?_
      rw [mem_requested_iff_trim, IdSet.mem_ofList, List.mem_singleton]
      constructor
      · rintro ⟨hne, asked, hm, rfl⟩
        exact (hall asked hm).resolve_left hne
      · rintro rfl
        exact ⟨by decide, star, hstar, hsays⟩
    rw [hsame]
    rfl

theorem ofChatIds_eq_ok_iff {ids : List String} {s : Subscription} :
    ofChatIds ids = .ok s ↔ Selects ids s := by
  constructor
  · intro h
    simp only [ofChatIds] at h
    split at h
    · split at h
      · next honly =>
        obtain rfl := Except.ok.inj h
        exact requested_toList_eq_wildcard_iff.mp honly
      · cases h
    · next hwild =>
      split at h
      · next hempty =>
        obtain rfl := Except.ok.inj h
        exact requested_eq_empty_iff.mp (IdSet.isEmpty_iff.mp hempty)
      · next hsome =>
        obtain rfl := Except.ok.inj h
        refine ⟨mt IdSet.isEmpty_iff.mpr hsome, mt IdSet.contains_iff_mem.mpr hwild, ?_⟩
        exact fun id => mem_requested_iff_trim
  · intro h
    cases s with
    | nothing =>
      rw [ofChatIds, requested_eq_empty_iff.mpr h]
      rfl
    | everything =>
      have honly := requested_toList_eq_wildcard_iff.mpr h
      have hwild : wildcard ∈ requested ids := by
        rw [← IdSet.mem_toList, honly]
        exact List.mem_singleton_self _
      simp only [ofChatIds, IdSet.contains_iff_mem.mpr hwild, honly, if_true]
    | chats set =>
      obtain ⟨hne, hstar, hmem⟩ := h
      obtain rfl : set = requested ids :=
        IdSet.ext_mem fun id => (hmem id).trans mem_requested_iff_trim.symm
      have hwild : ¬(requested ids).contains wildcard = true := mt IdSet.contains_iff_mem.mp hstar
      simp only [ofChatIds]
      rw [if_neg hwild, if_neg (mt IdSet.isEmpty_iff.mp hne)]

theorem mixes_iff {ids : List String} :
    Mixes ids ↔ wildcard ∈ requested ids ∧ ¬Selects ids .everything := by
  have hwild : wildcard ∈ requested ids ↔ ∃ asked ∈ ids, Text.trim asked = "*" := by
    rw [mem_requested_iff_trim]
    exact and_iff_right (by decide)
  rw [hwild]
  refine and_congr_right fun hstar => ?_
  simp only [Selects, hstar, true_and, not_forall, not_or, exists_prop]

theorem ofChatIds_eq_error_iff {ids : List String} {refusal : Refusal} :
    ofChatIds ids = .error refusal ↔ Mixes ids := by
  rw [mixes_iff, ← requested_toList_eq_wildcard_iff]
  constructor
  · intro h
    simp only [ofChatIds] at h
    split at h
    · next hwild =>
      split at h
      · cases h
      · next hmore => exact ⟨IdSet.contains_iff_mem.mp hwild, hmore⟩
    · split at h <;> cases h
  · rintro ⟨hwild, hmore⟩
    simp only [ofChatIds]
    rw [if_pos (IdSet.contains_iff_mem.mpr hwild), if_neg hmore]

end Subscription

-- No two reasons are answered with the same fault.
theorem Rejection.Reason.fault_injective : Function.Injective Rejection.Reason.fault := by
  intro a b h
  have hcode : a.fault.code = b.fault.code := congrArg Fault.code h
  have htext : a.message = b.message := by
    cases a <;> cases b <;> exact congrArg Fault.message h
  rcases a with _ | _ | type | _ | _ | _ | ⟨⟨⟩⟩ <;>
    rcases b with _ | _ | other | _ | _ | _ | ⟨⟨⟩⟩
  case unknownCommand.unknownCommand =>
    exact congrArg unknownCommand ((String.append_right_inj _).mp htext)
  all_goals first
    | rfl
    | exact absurd htext (by decide)
    | cases hcode

namespace Command

-- A member of what a text says, where it says an object.
def given (v : Option Json) (name : String) : Option Json := v.bind (·.get? name)

-- What is checked.
inductive Check where
  | json
  | object
  | type
  | command
  | members
  | requestId
  | chatIds
  | wildcard
deriving DecidableEq

namespace Check

-- The place of a check among the others.
def place : Check → Nat
  | json => 0
  | object => 1
  | type => 2
  | command => 3
  | members => 4
  | requestId => 5
  | chatIds => 6
  | wildcard => 7

-- What a text has to say to pass a check.
def Passes (v : Option Json) : Check → Prop
  | json => v ≠ none
  | object => ∃ members, v = some (.object members)
  | type => ∃ type, given v "type" = some (.string type)
  | command => given v "type" = some (.string "subscriptions.set")
  | members =>
    ∀ members, v = some (.object members) →
      ∀ m ∈ members, m.1 ∈ ["type", "requestID", "chatIDs"]
  | requestId => ∀ w, given v "requestID" = some w → ∃ requestId, w = .string requestId
  | chatIds => ∃ ids, given v "chatIDs" = some (.strings ids)
  | wildcard => ∀ ids, given v "chatIDs" = some (.strings ids) → ¬Subscription.Mixes ids

-- The fault that a check names. A text without a type never gets as far as its command.
def fault (v : Option Json) : Check → Fault
  | json => .invalidPayload "Invalid JSON payload"
  | object => .invalidPayload "Payload must be an object with a type field"
  | type => .invalidPayload "Payload must be an object with a type field"
  | command =>
    .invalidCommand ("Unsupported command type: " ++ ((given v "type").bind (·.string?)).getD "")
  | members => .invalidPayload "Invalid subscriptions payload"
  | requestId => .invalidPayload "requestID must be a string"
  | chatIds => .invalidPayload "chatIDs must be an array of strings"
  | wildcard => .invalidPayload "chatIDs cannot combine '*' with specific IDs"

-- All checks before a place are passed.
def PassesUpTo (v : Option Json) (n : Nat) : Prop := ∀ c : Check, c.place < n → c.Passes v

def FailsFirst (v : Option Json) (c : Check) : Prop := PassesUpTo v c.place ∧ ¬c.Passes v

variable {v : Option Json}

theorem place_injective : Function.Injective place := by
  intro a b h
  cases a <;> cases b <;> first | rfl | cases h

theorem PassesUpTo.next {c : Check} (h : PassesUpTo v c.place) (hpass : c.Passes v) :
    PassesUpTo v (c.place + 1) := by
  intro other hother
  by_cases hlt : other.place < c.place
  · exact h other hlt
  · obtain rfl : other = c := place_injective (by omega)
    exact hpass

theorem PassesUpTo.all (h : PassesUpTo v 8) (c : Check) : c.Passes v := by
  refine h c ?_
  cases c <;> decide

theorem FailsFirst.unique {a b : Check} (ha : FailsFirst v a) (hb : FailsFirst v b) : a = b := by
  rcases Nat.lt_trichotomy a.place b.place with hlt | heq | hlt
  · exact absurd (hb.1 a hlt) ha.2
  · exact place_injective heq
  · exact absurd (ha.1 b hlt) hb.2

end Check

-- A text that passes every check is a command, and this is what it asks for.
structure Asks (v : Option Json) (c : Command) : Prop where
  passes : ∀ check : Check, check.Passes v
  requestId : given v "requestID" = c.requestId.map .string
  chatIds : ∃ ids, given v "chatIDs" = some (.strings ids) ∧ Subscription.Selects ids c.subscription

-- A text that fails some check is refused for the first one. The identifier of the request comes
-- back if it is a text.
structure Refused (v : Option Json) (r : Rejection) : Prop where
  fault : ∃ check, Check.FailsFirst v check ∧ r.fault = check.fault v
  requestId : ∀ id, r.requestId = some id ↔ given v "requestID" = some (.string id)

theorem Asks.unique {v : Option Json} {c d : Command} (hc : Asks v c) (hd : Asks v d) : c = d := by
  obtain ⟨ids, hids, hselects⟩ := hc.chatIds
  obtain ⟨others, hothers, hselected⟩ := hd.chatIds
  obtain rfl := Json.strings_injective (Option.some.inj (hids.symm.trans hothers))
  have hsubscription : c.subscription = d.subscription := by
    have hok := Subscription.ofChatIds_eq_ok_iff.mpr hselects
    rw [Subscription.ofChatIds_eq_ok_iff.mpr hselected] at hok
    exact (Except.ok.inj hok).symm
  have hrequest : c.requestId = d.requestId :=
    Option.map_injective (fun _ _ => Json.string.inj) (hc.requestId.symm.trans hd.requestId)
  cases c
  cases d
  simp_all

theorem Refused.unique {v : Option Json} {r s : Rejection} (hr : Refused v r) (hs : Refused v s) :
    r = s := by
  obtain ⟨a, ha, hfault⟩ := hr.fault
  obtain ⟨b, hb, hnamed⟩ := hs.fault
  obtain rfl := ha.unique hb
  have hreason : r.reason = s.reason :=
    Rejection.Reason.fault_injective (hfault.trans hnamed.symm)
  have hrequest : r.requestId = s.requestId :=
    Option.ext fun id => (hr.requestId id).trans (hs.requestId id).symm
  cases r
  cases s
  simp_all

theorem Asks.not_refused {v : Option Json} {c : Command} {r : Rejection} (hc : Asks v c) :
    ¬Refused v r := by
  intro hr
  obtain ⟨check, hfails, -⟩ := hr.fault
  exact hfails.2 (hc.passes check)

-- What the checks of an object come to.
def Judged (v : Option Json) : Except Rejection.Reason Subscription → Prop
  | .ok s => (∀ c : Check, c.Passes v) ∧
      ∃ ids, given v "chatIDs" = some (.strings ids) ∧ Subscription.Selects ids s
  | .error reason => ∃ c, Check.FailsFirst v c ∧ reason.fault = c.fault v

theorem judged_of_guard {v : Option Json} (c : Check) {p : Prop} [Decidable p]
    {reason : Rejection.Reason} {next : Except Rejection.Reason Subscription}
    (h : Check.PassesUpTo v c.place) (hp : p ↔ ¬c.Passes v) (hfault : reason.fault = c.fault v)
    (hnext : Check.PassesUpTo v (c.place + 1) → Judged v next) :
    Judged v (if p then .error reason else next) := by
  split
  · next hfails => exact ⟨c, ⟨h, hp.mp hfails⟩, hfault⟩
  · next hpass => exact hnext (h.next (not_not.mp (mt hp.mpr hpass)))

theorem passesUpTo_object (v : Json) : Check.PassesUpTo (some v) Check.object.place := by
  intro c hc
  cases c with
  | json => exact Option.some_ne_none v
  | _ => exact absurd hc (by decide)

theorem passes_wildcard_iff {v : Option Json} {ids : List String}
    (h : given v "chatIDs" = some (.strings ids)) :
    Check.wildcard.Passes v ↔ ¬Subscription.Mixes ids := by
  refine ⟨fun hpass => hpass ids h, fun hpure others hothers => ?_⟩
  obtain rfl := Json.strings_injective (Option.some.inj (h.symm.trans hothers))
  exact hpure

section Object

variable {members : List (String × Json)}

theorem passes_members_iff :
    Check.members.Passes (some (.object members)) ↔
      members.any (·.1 ∉ memberNames) = false := by
  simp only [Check.Passes, Option.some.injEq, Json.object.injEq, forall_eq', List.any_eq_false,
    decide_eq_true_eq, not_not]
  rfl

theorem passes_requestId_iff :
    Check.requestId.Passes (some (.object members)) ↔
      ((Json.object members).get? "requestID").any (·.string?.isNone) = false := by
  simp only [Check.Passes, given, Option.bind_some]
  cases (Json.object members).get? "requestID" with
  | none => simp
  | some w =>
    simp only [Option.some.injEq, forall_eq', Option.any_some, Option.isNone_eq_false_iff,
      Option.isSome_iff_exists, Json.string?_eq_some_iff]

theorem given_chatIds_iff {ids : List String} :
    given (some (.object members)) "chatIDs" = some (.strings ids) ↔
      ((Json.object members).get? "chatIDs").bind Json.strings? = some ids := by
  simp only [given, Option.bind_some, Option.bind_eq_some_iff, Json.strings?_eq_some_iff,
    exists_eq_right]

-- Each check that is passed leaves the rest to those after it.
theorem judged_check (members : List (String × Json)) :
    Judged (some (.object members)) (check (.object members) members) := by
  let v : Option Json := some (.object members)
  have htyped : Check.PassesUpTo v Check.type.place :=
    (passesUpTo_object (.object members)).next (c := .object) ⟨members, rfl⟩
  unfold check
  cases htype : (Json.object members).stringAt? ["type"] with
  | none =>
    refine ⟨.type, ⟨htyped, ?_⟩, rfl⟩
    rintro ⟨type, hgiven⟩
    rw [(Json.stringAt?_eq_some_iff (v := .object members)).mpr hgiven] at htype
    cases htype
  | some type =>
    have hgiven : given v "type" = some (.string type) := Json.stringAt?_eq_some_iff.mp htype
    have hcommand : Check.PassesUpTo v Check.command.place :=
      htyped.next (c := .type) ⟨type, hgiven⟩
    simp only
    refine judged_of_guard .command hcommand ?_ ?_ fun hmembers => ?_
    · rw [Check.Passes, hgiven, Option.some.injEq, Json.string.injEq]
      rfl
    · rw [Check.fault, hgiven]
      rfl
    refine judged_of_guard .members hmembers ?_ rfl fun hrequest => ?_
    · rw [passes_members_iff, Bool.not_eq_false]
    refine judged_of_guard .requestId hrequest ?_ rfl fun hchats => ?_
    · rw [passes_requestId_iff, Bool.not_eq_false]
    cases hids : ((Json.object members).get? "chatIDs").bind Json.strings? with
    | none =>
      refine ⟨.chatIds, ⟨hchats, ?_⟩, rfl⟩
      rintro ⟨ids, hgiven⟩
      rw [given_chatIds_iff.mp hgiven] at hids
      cases hids
    | some ids =>
      have hgiven : given v "chatIDs" = some (.strings ids) := given_chatIds_iff.mpr hids
      have hwildcard : Check.PassesUpTo v Check.wildcard.place :=
        hchats.next (c := .chatIds) ⟨ids, hgiven⟩
      have honly := passes_wildcard_iff hgiven
      simp only
      cases hs : Subscription.ofChatIds ids with
      | error refusal =>
        have hmixes := Subscription.ofChatIds_eq_error_iff.mp hs
        exact ⟨.wildcard, ⟨hwildcard, fun h => honly.mp h hmixes⟩, rfl⟩
      | ok s =>
        have hall : Check.PassesUpTo v 8 := by
          refine hwildcard.next (c := .wildcard) (honly.mpr fun hmixes => ?_)
          have herror : Subscription.ofChatIds ids = .error .wildcardCombined :=
            Subscription.ofChatIds_eq_error_iff.mpr hmixes
          cases hs.symm.trans herror
        exact ⟨hall.all, ids, hgiven, Subscription.ofChatIds_eq_ok_iff.mp hs⟩

end Object

theorem asks_of_parse {text : String} {c : Command} (h : parse text = .ok c) :
    Asks (Json.parse? text) c := by
  unfold parse at h
  split at h
  · cases h
  · next members hread =>
    have hjudged := judged_check members
    simp only at h
    split at h
    · next s hcheck =>
      obtain rfl := Except.ok.inj h
      rw [hcheck] at hjudged
      obtain ⟨hall, hids⟩ := hjudged
      rw [hread]
      exact ⟨hall, Json.get?_eq_map_stringAt? (v := .object members) (hall .requestId), hids⟩
    · cases h
  · cases h

theorem refused_of_parse {text : String} {r : Rejection} (h : parse text = .error r) :
    Refused (Json.parse? text) r := by
  unfold parse at h
  split at h
  · next hread =>
    obtain rfl := Except.error.inj h
    rw [hread]
    refine ⟨⟨.json, ⟨fun c hc => absurd hc (Nat.not_lt_zero _), fun h => h rfl⟩, rfl⟩, fun id => ?_⟩
    exact iff_of_false nofun nofun
  · next members hread =>
    have hjudged := judged_check members
    simp only at h
    split at h
    · cases h
    · next reason hcheck =>
      obtain rfl := Except.error.inj h
      rw [hcheck] at hjudged
      rw [hread]
      exact ⟨hjudged, fun id => Json.stringAt?_eq_some_iff⟩
  · next v hnone hread =>
    obtain rfl := Except.error.inj h
    rw [hread]
    have hother : ¬Check.object.Passes (some v) := by
      rintro ⟨members, hv⟩
      exact hnone members (Option.some.inj hv)
    refine ⟨⟨.object, ⟨passesUpTo_object v, hother⟩, rfl⟩, fun id => iff_of_false nofun ?_⟩
    cases v with
    | object members => exact absurd rfl (hnone members)
    | _ => nofun

-- The result of reading a text is the one that the checks call for, in both directions.
theorem parse_by_checks (text : String) :
    (∀ c, parse text = .ok c ↔ Asks (Json.parse? text) c) ∧
      ∀ r, parse text = .error r ↔ Refused (Json.parse? text) r := by
  cases hparse : parse text with
  | ok d =>
    have hasks := asks_of_parse hparse
    refine ⟨fun c => ⟨?_, fun hc => congrArg _ (hasks.unique hc)⟩, fun r => ?_⟩
    · rintro ⟨⟩
      exact hasks
    · exact iff_of_false nofun hasks.not_refused
  | error s =>
    have hrefused := refused_of_parse hparse
    refine ⟨fun c => iff_of_false nofun fun hc => hc.not_refused hrefused, fun r => ⟨?_, ?_⟩⟩
    · rintro ⟨⟩
      exact hrefused
    · exact fun hr => congrArg _ (hrefused.unique hr)

end Command

end ChatRelay
