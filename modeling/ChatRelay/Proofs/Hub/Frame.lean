import ChatRelay.Hub.Announcement
import ChatRelay.Proofs.Table

namespace ChatRelay

-- An object with the members of a pushed change and no others. Only messages come with entries.
structure Json.Carries (v : Json) (m : ChangeMessage) : Prop where
  type : v.get? "type" = some (.string m.change.kind.name)
  seq : v.get? "seq" = some (.nat m.sequence)
  ts : v.get? "ts" = some (.int m.time)
  chatId : v.get? "chatID" = some (.string m.change.chatId)
  ids : v.get? "ids" = some (.strings m.change.ids.toList)
  entries : v.get? "entries" = m.entries.map .array
  others : ∀ name, name ∉ ["type", "seq", "ts", "chatID", "ids", "entries"] → v.get? name = none

-- The text of the frame is that of such an object.
def Frame.Carries (f : Frame) (m : ChangeMessage) : Prop :=
  ∃ v : Json, f = .text v.compact ∧ v.Carries m

namespace ChangeMessage

theorem toJson_carries (m : ChangeMessage) : m.toJson.Carries m := by
  have hget {name : String} {value : Option Json}
      (hm : (name, value) ∈ [
        ("type", some (.string m.change.kind.name)),
        ("seq", some (.nat m.sequence)),
        ("ts", some (.int m.time)),
        ("chatID", some (.string m.change.chatId)),
        ("ids", some (.strings m.change.ids.toList)),
        ("entries", m.entries.map .array)]) : m.toJson.get? name = value := by
    refine Json.get?_mkSome ?_ hm
    simp only [List.map_cons, List.map_nil]
    decide
  refine ⟨hget (by simp), hget (by simp), hget (by simp), hget (by simp), hget (by simp),
    hget (by simp), fun name hname => Option.eq_none_iff_forall_ne_some.mpr fun value hvalue => ?_⟩
  have hmem := List.mem_map_of_mem (f := Prod.fst) (Json.mem_of_get?_mkSome hvalue)
  exact hname hmem

theorem frame_carries (m : ChangeMessage) : m.frame.Carries m := ⟨m.toJson, rfl, m.toJson_carries⟩

end ChangeMessage

end ChatRelay
