import ChatRelay.Proofs.Table
import ChatRelay.Proofs.Text
import ChatRelay.Subscription

namespace ChatRelay

namespace IdSet

-- Looks a text up in an ascending list. Each step leaves one half of the list: the one that begins
-- in the middle, unless the text comes before the middle.
def bisect (id : String) (ids : List String) : Bool :=
  if hshort : ids.length < 2 then ids == [id]
  else
    have hhalf : ids.length / 2 < ids.length := by omega
    if id < ids[ids.length / 2] then bisect id (ids.take (ids.length / 2))
    else bisect id (ids.drop (ids.length / 2))
termination_by ids.length
decreasing_by all_goals simp only [List.length_take, List.length_drop]; omega

theorem bisect_eq_true_iff {id : String} {ids : List String} (h : ids.Pairwise (· < ·)) :
    bisect id ids = true ↔ id ∈ ids := by
  have hsplit (ids : List String) :
      id ∈ ids ↔ id ∈ ids.take (ids.length / 2) ∨ id ∈ ids.drop (ids.length / 2) := by
    rw [← List.mem_append, List.take_append_drop]
  fun_induction bisect id ids with
  | case1 ids hshort =>
    rw [beq_iff_eq]
    match ids, hshort with
    | [], _ => simp
    | [only], _ => simp [eq_comm]
  | case2 ids hshort hhalf hlt ih =>
    refine (ih (h.sublist (List.take_sublist _ _))).trans ?_
    rw [hsplit ids]
    -- All texts from the middle on come after the one that is looked up.
    have hright := h.sublist (List.drop_sublist (ids.length / 2) ids)
    rw [List.drop_eq_getElem_cons hhalf] at hright ⊢
    have hnot : id ∉ ids[ids.length / 2] :: ids.drop (ids.length / 2 + 1) := by
      intro hm
      rcases List.mem_cons.mp hm with heq | hm
      · exact String.lt_irrefl _ (heq ▸ hlt)
      · exact String.lt_asymm hlt ((List.pairwise_cons.mp hright).1 id hm)
    simp only [hnot, or_false]
  | case3 ids hshort hhalf hlt ih =>
    refine (ih (h.sublist (List.drop_sublist _ _))).trans ?_
    rw [hsplit ids]
    have hnot : id ∉ ids.take (ids.length / 2) := by
      intro hm
      rw [← List.take_append_drop (ids.length / 2) ids] at h
      have hmiddle : ids[ids.length / 2] ∈ ids.drop (ids.length / 2) := by
        rw [List.drop_eq_getElem_cons hhalf]
        exact List.mem_cons_self
      exact hlt ((List.pairwise_append.mp h).2.2 id hm _ hmiddle)
    simp only [hnot, false_or]

end IdSet

namespace Subscription

theorem mem_requested {chatIds : List String} {id : String} :
    id ∈ requested chatIds ↔ ∃ asked ∈ chatIds, Text.nonBlank? asked = some id := by
  rw [requested, IdSet.mem_ofList, List.mem_filterMap]

theorem mem_requested_iff_trim {chatIds : List String} {id : String} :
    id ∈ requested chatIds ↔ id ≠ "" ∧ ∃ asked ∈ chatIds, Text.trim asked = id := by
  rw [mem_requested]
  constructor
  · rintro ⟨asked, hm, hasked⟩
    obtain ⟨rfl, hne⟩ := Text.nonBlank?_eq_some_iff.mp hasked
    exact ⟨hne, asked, hm, rfl⟩
  · rintro ⟨hne, asked, hm, rfl⟩
    exact ⟨asked, hm, Text.nonBlank?_eq_some_iff.mpr ⟨rfl, hne⟩⟩

-- A set of chats is never empty, and all that it lists are trimmed and neither blank nor the wildcard.
structure IsNormal (ids : IdSet) : Prop where
  ne_nil : ids.toList ≠ []
  listed : ∀ id ∈ ids, Text.trim id = id ∧ id ≠ "" ∧ id ≠ wildcard

-- What a list of chats can ask for.
theorem ofChatIds_cases {chatIds : List String} {s : Subscription} (h : ofChatIds chatIds = .ok s) :
    (s = .everything ∧ ∀ id, id ∈ requested chatIds ↔ id = wildcard) ∨
      (s = .nothing ∧ ∀ id, id ∉ requested chatIds) ∨
      (s = .chats (requested chatIds) ∧ IsNormal (requested chatIds)) := by
  simp only [ofChatIds] at h
  split at h
  · split at h
    · next honly =>
      refine .inl ⟨(Except.ok.inj h).symm, fun id => ?_⟩
      rw [← IdSet.mem_toList, honly, List.mem_singleton]
    · cases h
  · next hwild =>
    split at h
    · next hempty =>
      refine .inr (.inl ⟨(Except.ok.inj h).symm, fun id hm => ?_⟩)
      rw [← IdSet.mem_toList, List.isEmpty_iff.mp hempty] at hm
      cases hm
    · next hsome =>
      refine .inr (.inr ⟨(Except.ok.inj h).symm, mt List.isEmpty_iff.mpr hsome, fun id hm => ?_⟩)
      obtain ⟨asked, -, hasked⟩ := mem_requested.mp hm
      refine ⟨Text.trim_of_nonBlank? hasked, (Text.nonBlank?_eq_some_iff.mp hasked).2, ?_⟩
      rintro rfl
      exact hwild (IdSet.contains_iff_mem.mpr hm)

-- A chat is covered exactly if it was asked for, by its name or by the wildcard.
theorem covers_iff_asked {chatIds : List String} {s : Subscription}
    (h : ofChatIds chatIds = .ok s) {chatId : String} (hne : chatId ≠ "") :
    s.covers chatId = true ↔
      ∃ asked ∈ chatIds, Text.trim asked = chatId ∨ Text.trim asked = wildcard := by
  have hasked {id : String} (hid : id ≠ "") :
      id ∈ requested chatIds ↔ ∃ asked ∈ chatIds, Text.trim asked = id := by
    rw [mem_requested_iff_trim, and_iff_right hid]
  have hwild : wildcard ≠ "" := by decide
  have hright : (∃ asked ∈ chatIds, Text.trim asked = chatId ∨ Text.trim asked = wildcard) ↔
      chatId ∈ requested chatIds ∨ wildcard ∈ requested chatIds := by
    rw [hasked hne, hasked hwild]
    simp only [and_or_left, exists_or]
  rw [hright]
  rcases ofChatIds_cases h with ⟨rfl, hall⟩ | ⟨rfl, hnone⟩ | ⟨rfl, hnormal⟩
  · simp [covers, hall]
  · simp [covers, hnone]
  · have hnot : wildcard ∉ requested chatIds := fun hm => (hnormal.listed _ hm).2.2 rfl
    simp [covers, IdSet.contains_iff_mem, hnot]

end Subscription

end ChatRelay
