import ChatRelay.Proofs.Control.Reply
import ChatRelay.Proofs.Json.Reading

namespace ChatRelay

namespace Subscription

-- The same chats stand in both lists, in whatever order, however often and with any white space
-- around them.
def SameChats (ids others : List String) : Prop :=
  ∀ id, id ≠ "" → ((∃ asked ∈ ids, Text.trim asked = id) ↔ ∃ asked ∈ others, Text.trim asked = id)

theorem requested_eq_iff {ids others : List String} :
    requested ids = requested others ↔ SameChats ids others := by
  constructor
  · intro h id hne
    have hmem : id ∈ requested ids ↔ id ∈ requested others := by rw [h]
    rw [mem_requested_iff_trim, mem_requested_iff_trim] at hmem
    rwa [and_iff_right hne, and_iff_right hne] at hmem
  · intro h
    refine IdSet.ext_mem fun id => ?_
    rw [mem_requested_iff_trim, mem_requested_iff_trim]
    exact and_congr_right (h id)

-- A subscription lists all that counts in what was asked for.
theorem toList_requested {ids : List String} {s : Subscription} (h : ofChatIds ids = .ok s) :
    (requested ids).toList = s.chatIds := by
  have hselects := ofChatIds_eq_ok_iff.mp h
  cases s with
  | nothing => rw [requested_eq_empty_iff.mpr hselects]; rfl
  | everything => exact requested_toList_eq_wildcard_iff.mpr hselects
  | chats set =>
    obtain ⟨-, -, hmem⟩ := hselects
    obtain rfl : set = requested ids :=
      IdSet.ext_mem fun id => (hmem id).trans mem_requested_iff_trim.symm
    rfl

theorem ofChatIds_eq_iff {ids others : List String} :
    ofChatIds ids = ofChatIds others ↔ SameChats ids others ∨ Mixes ids ∧ Mixes others := by
  rw [← requested_eq_iff]
  constructor
  · intro h
    cases hids : ofChatIds ids with
    | ok s =>
      have hothers : ofChatIds others = .ok s := h.symm.trans hids
      refine .inl (IdSet.toList_injective ?_)
      rw [toList_requested hids, toList_requested hothers]
    | error refusal =>
      have hothers : ofChatIds others = .error refusal := h.symm.trans hids
      exact .inr ⟨ofChatIds_eq_error_iff.mp hids, ofChatIds_eq_error_iff.mp hothers⟩
  · rintro (h | ⟨hids, hothers⟩)
    · simp only [ofChatIds, h]
    · have herror {list : List String} (h : Mixes list) :
          ofChatIds list = .error .wildcardCombined := ofChatIds_eq_error_iff.mpr h
      rw [herror hids, herror hothers]

end Subscription

-- A message of a type with a list of chats, which may tell what request it belongs to.
def listing (type : String) (requestId : Option String) (chatIds : List String) : Json :=
  .mkSome [
    ("type", some (.string type)),
    ("requestID", requestId.map .string),
    ("chatIDs", some (.strings chatIds))]

section Listing

variable {type : String} {requestId : Option String} {chatIds : List String}

theorem get?_listing {name : String} {value : Option Json}
    (h : (name, value) ∈ [("type", some (.string type)), ("requestID", requestId.map Json.string),
      ("chatIDs", some (.strings chatIds))]) :
    (listing type requestId chatIds).get? name = value :=
  Json.get?_mkSome (by simp) h

theorem mem_listing {members : List (String × Json)} {m : String × Json}
    (h : listing type requestId chatIds = .object members) (hm : m ∈ members) :
    (m.1, some m.2) ∈ [("type", some (.string type)), ("requestID", requestId.map Json.string),
      ("chatIDs", some (.strings chatIds))] := by
  obtain rfl := Json.object.inj h
  exact Json.mem_of_get?_mkSome (Table.get?_eq_some_iff.mpr hm)

theorem plain_listing : Json.Plain Json.maxDepth (listing type requestId chatIds) := by
  refine ⟨(Table.ofList _).ascending, Json.plainMembers_of_forall fun m hm => ?_⟩
  have hgiven := mem_listing rfl hm
  simp only [List.mem_cons, List.not_mem_nil, or_false, Prod.mk.injEq, Option.some.injEq] at hgiven
  rcases hgiven with ⟨-, hvalue⟩ | ⟨-, hvalue⟩ | ⟨-, hvalue⟩
  · rw [hvalue]
    trivial
  · obtain ⟨id, -, hid⟩ := Option.map_eq_some_iff.mp hvalue.symm
    rw [← hid]
    trivial
  · rw [hvalue]
    refine Json.plainItems_of_forall fun v hv => ?_
    obtain ⟨id, -, rfl⟩ := List.mem_map.mp hv
    trivial

end Listing

namespace Command

theorem parse_of_asks {text : String} {c : Command} (h : Asks (Json.parse? text) c) :
    parse text = .ok c := by
  cases hparse : parse text with
  | ok d => rw [(asks_of_parse hparse).unique h]
  | error r => exact absurd (refused_of_parse hparse) h.not_refused

-- A message with the list of a subscription asks for that subscription.
theorem asks_listing {requestId : Option String} {s : Subscription}
    (h : Subscription.ofChatIds s.chatIds = .ok s) :
    Asks (some (listing "subscriptions.set" requestId s.chatIds))
      { requestId, subscription := s } := by
  have htype : given (some (listing "subscriptions.set" requestId s.chatIds)) "type" =
      some (.string "subscriptions.set") := get?_listing (by simp)
  have hrequest : given (some (listing "subscriptions.set" requestId s.chatIds)) "requestID" =
      requestId.map .string := get?_listing (by simp)
  have hchats : given (some (listing "subscriptions.set" requestId s.chatIds)) "chatIDs" =
      some (.strings s.chatIds) := get?_listing (by simp)
  have hselects := Subscription.ofChatIds_eq_ok_iff.mp h
  refine ⟨fun check => ?_, hrequest, s.chatIds, hchats, hselects⟩
  cases check with
  | json => exact Option.some_ne_none _
  | object => exact ⟨_, rfl⟩
  | type => exact ⟨_, htype⟩
  | command => exact htype
  | members =>
    intro members hobject m hm
    have hgiven := mem_listing (Option.some.inj hobject) hm
    exact List.mem_map_of_mem (f := Prod.fst) hgiven
  | requestId =>
    intro w hw
    rw [hrequest] at hw
    obtain ⟨id, -, hid⟩ := Option.map_eq_some_iff.mp hw
    exact ⟨id, hid.symm⟩
  | chatIds => exact ⟨_, hchats⟩
  | wildcard =>
    rw [passes_wildcard_iff hchats]
    intro hmixes
    have herror : Subscription.ofChatIds s.chatIds = .error .wildcardCombined :=
      Subscription.ofChatIds_eq_error_iff.mpr hmixes
    cases h.symm.trans herror

end Command

namespace Subscription

-- The list of a subscription can be sent; whoever sends it asks for that subscription, and the
-- acknowledgement gives the same list back.
structure Settled (s : Subscription) (requestId : Option String) : Prop where
  sent : Json.parse? (listing "subscriptions.set" requestId s.chatIds).compact =
    some (listing "subscriptions.set" requestId s.chatIds)
  accepted : ∀ text, Json.parse? text = some (listing "subscriptions.set" requestId s.chatIds) →
    Command.parse text = .ok { requestId, subscription := s }
  echoed : (Command.reply { requestId, subscription := s }).frame =
    .text (listing "subscriptions.updated" requestId s.chatIds).compact
  received : Json.parse? (listing "subscriptions.updated" requestId s.chatIds).compact =
    some (listing "subscriptions.updated" requestId s.chatIds)

-- Lists ask for the same exactly if the same chats stand in them, or if both are refused, which
-- happens only where the wildcard stands beside a chat. What is made of a list settles.
theorem normal_form (ids others : List String) :
    (ofChatIds ids = ofChatIds others ↔ SameChats ids others ∨ Mixes ids ∧ Mixes others) ∧
      ((∃ refusal, ofChatIds ids = .error refusal) ↔ Mixes ids) ∧
      ∀ s, ofChatIds ids = .ok s → ∀ requestId, s.Settled requestId := by
  refine ⟨ofChatIds_eq_iff, ?_, fun s hs requestId => ?_⟩
  · constructor
    · rintro ⟨refusal, hrefused⟩
      exact ofChatIds_eq_error_iff.mp hrefused
    · exact fun hmixes => ⟨.wildcardCombined, ofChatIds_eq_error_iff.mpr hmixes⟩
  · have hagain := ofChatIds_chatIds hs
    exact
      { sent := Json.parse?_compact plain_listing
        accepted := fun text htext => Command.parse_of_asks (htext ▸ Command.asks_listing hagain)
        echoed := rfl
        received := Json.parse?_compact plain_listing }

-- Who asks for two chats, one of them twice, hears of both in order, and may ask so again.
theorem repeated_chat_settled :
    ∃ s, ofChatIds [" !b", "!a", "", "!b\t"] = .ok s ∧ s.chatIds = ["!a", "!b"] ∧
      s.Settled (some "1") := by
  have hs : ofChatIds [" !b", "!a", "", "!b\t"] =
      .ok (.chats (requested [" !b", "!a", "", "!b\t"])) := by decide +kernel
  exact ⟨_, hs, by decide +kernel, (normal_form _ []).2.2 _ hs (some "1")⟩

end Subscription

end ChatRelay
