import ChatRelay.Proofs.Change.Fingerprint
import ChatRelay.Proofs.Control.Command
import ChatRelay.Session

namespace ChatRelay

namespace Subscription

theorem requested_toList (chatIds : List String) :
    requested (requested chatIds).toList = requested chatIds := by
  refine IdSet.ext_mem fun id => ?_
  simp only [requested, IdSet.mem_ofList, IdSet.mem_toList, List.mem_filterMap]
  constructor
  · rintro ⟨x, ⟨asked, hasked, hx⟩, hid⟩
    refine ⟨asked, hasked, ?_⟩
    rw [Text.nonBlank?_eq_some_iff] at hid
    rw [hx, hid.1, Text.trim_of_nonBlank? hx]
  · rintro ⟨asked, hasked, hid⟩
    refine ⟨id, ⟨asked, hasked, hid⟩, ?_⟩
    have hne := (Text.nonBlank?_eq_some_iff.mp hid).2
    exact Text.nonBlank?_eq_some_iff.mpr ⟨(Text.trim_of_nonBlank? hid).symm, hne⟩

theorem ofChatIds_chatIds {chatIds : List String} {s : Subscription}
    (h : ofChatIds chatIds = .ok s) : ofChatIds s.chatIds = .ok s := by
  simp only [ofChatIds] at h
  split at h
  · split at h
    · obtain rfl := Except.ok.inj h
      decide
    · cases h
  · next hwild =>
    split at h
    · obtain rfl := Except.ok.inj h
      decide
    · next hsome =>
      obtain rfl := Except.ok.inj h
      simp only [ofChatIds, Subscription.chatIds, requested_toList]
      rw [if_neg hwild, if_neg hsome]

end Subscription

namespace Command

-- What a command asks for is what some list of chats asks for.
theorem ofChatIds_of_parse {text : String} {c : Command} (h : parse text = .ok c) :
    Subscription.ofChatIds c.subscription.chatIds = .ok c.subscription := by
  obtain ⟨chatIds, -, hselects⟩ := (asks_of_parse h).chatIds
  exact Subscription.ofChatIds_chatIds (Subscription.ofChatIds_eq_ok_iff.mpr hselects)

end Command

-- The list of an acknowledgement is what its text says.
theorem Reply.updated_of_frame_eq {requestId : Option String} {s : Subscription} {r : Reply}
    (h : r.frame = (Reply.updated requestId s).frame) :
    ∃ requestId' s', r = .updated requestId' s' ∧ s'.chatIds = s.chatIds := by
  have halike : Json.Alike r.toJson (Reply.updated requestId s).toJson :=
    Json.compact_eq_iff.mp (Frame.text.inj h)
  have hnodup : ["type", "requestID", "chatIDs"].Nodup := by decide
  have htype : (Reply.updated requestId s).toJson.stringAt? ["type"] =
      some "subscriptions.updated" :=
    Json.stringAt?_mkSome hnodup List.mem_cons_self
  have hchats : ∀ requestId s, (Reply.updated requestId s).toJson.get? "chatIDs" =
      some (.strings s.chatIds) := by
    intro requestId s
    exact Json.get?_mkSome hnodup (by simp)
  rw [← Json.alike_stringAt? halike "type"] at htype
  cases r with
  | ready => exact absurd htype (by decide)
  | rejected requestId' fault =>
    have hother : (Reply.rejected requestId' fault).toJson.stringAt? ["type"] = some "error" :=
      Json.stringAt?_mkSome (by simp only [List.map_cons, List.map_nil]; decide) List.mem_cons_self
    rw [hother] at htype
    exact absurd htype (by decide)
  | updated requestId' s' =>
    refine ⟨requestId', s', rfl, ?_⟩
    have hlists := Json.alike_get? halike "chatIDs"
    rw [hchats, hchats] at hlists
    cases hlists with
    | some hlist => exact Json.eq_of_alike_strings hlist

end ChatRelay
