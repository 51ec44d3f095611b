import ChatRelay.Proofs.Change.Preimage
import ChatRelay.Proofs.Message.Lookup

namespace ChatRelay

namespace Json

theorem stable_mk (members : List (String × Json)) :
    stable (.mk members) = .mk (stableMembers members) := by
  have hmember (name : String) :
      member? name (stableMembers (Table.ofList members).entries) =
        member? name (stableMembers members) := by
    have hentries : member? name (Table.ofList members).entries = member? name members := by
      rw [member?, Table.ofList_entries, member?]
    rw [stableMembers_eq, stableMembers_eq, member?_kept (fun name => !carriesTime name),
      member?_kept (fun name => !carriesTime name), hentries]
  rw [mk, stable, mk, Table.ext_get? hmember, mk]

-- What a member that carries a time is does not matter.
theorem stable_mkSome_of_carriesTime {name : String} (hname : carriesTime name = true)
    (before after : List (String × Option Json)) (v w : Option Json) :
    stable (mkSome (before ++ (name, v) :: after)) =
      stable (mkSome (before ++ (name, w) :: after)) := by
  have hleft (v : Option Json) :
      stableMembers ((before ++ (name, v) :: after).filterMap fun m => m.2.map (m.1, ·)) =
        stableMembers ((before ++ after).filterMap fun m => m.2.map (m.1, ·)) := by
    cases v <;> simp [stableMembers_eq, hname]
  rw [mkSome, mkSome, stable_mk, stable_mk, hleft, hleft]

end Json

namespace Message

theorem toJson_sortKey (m : Message) : m.toJson.stringAt? ["sortKey"] = some m.sortKey := by
  refine Json.stringAt?_mkSome ?_ (by simp)
  simp only [List.map_cons, List.map_nil]
  decide

theorem stable_toJson_timestamp (m : Message) (timestamp : String) :
    { m with timestamp }.toJson.stable = m.toJson.stable :=
  Json.stable_mkSome_of_carriesTime rfl [_, _, _, _, _] _ _ _

end Message

-- Numbers with the same decimal text are the same: `Int.repr_inj`, which no part of Mathlib imports.
namespace Decimal

theorem eq_of_repr_eq {m n : Nat} (h : m.repr = n.repr) : m = n := by
  have hdigits : Nat.toDigits 10 m = Nat.toDigits 10 n := by
    rw [← Nat.toList_repr, h, Nat.toList_repr]
  calc
    m = Nat.ofDigitChars 10 (Nat.toDigits 10 m) 0 := Nat.ofDigitChars_ten_toDigits.symm
    _ = Nat.ofDigitChars 10 (Nat.toDigits 10 n) 0 := by rw [hdigits]
    _ = n := Nat.ofDigitChars_ten_toDigits

theorem repr_ne_minus (m : Nat) (rest : String) : m.repr ≠ "-" ++ rest := by
  intro h
  have hminus : '-' ∈ Nat.toDigits 10 m := by
    rw [← Nat.toList_repr, h, String.toList_append]
    exact List.mem_cons_self
  exact absurd (Nat.isDigit_of_mem_toDigits (by decide) (by decide) hminus) (by decide)

theorem repr_eq_iff {t u : Int} : t.repr = u.repr ↔ t = u := by
  refine ⟨fun h => ?_, congrArg Int.repr⟩
  cases t with
  | ofNat m =>
    cases u with
    | ofNat n => exact congrArg Int.ofNat (eq_of_repr_eq h)
    | negSucc n => exact absurd h (repr_ne_minus m _)
  | negSucc m =>
    cases u with
    | ofNat n => exact absurd h.symm (repr_ne_minus n _)
    | negSucc n =>
      have hdigits : (m + 1).repr = (n + 1).repr := (String.append_right_inj "-").mp h
      exact congrArg Int.negSucc (Nat.succ.inj (eq_of_repr_eq hdigits))

end Decimal

namespace Event

-- The event as if it had come at this time.
def timed (e : Event) (time : Int) : Event := { e with timestamp := time }

-- Whether the client has a row for the event.
def HasRow (e : Event) : Prop := e.timelineRowId ≠ 0 ∨ e.rowId ≠ 0

theorem sortKey_timed_eq_iff {e : Event} {t u : Int} :
    (e.timed t).sortKey = (e.timed u).sortKey ↔ e.HasRow ∨ t = u := by
  unfold HasRow
  by_cases htimeline : e.timelineRowId = 0
  · by_cases hrow : e.rowId = 0
    · have hkey (time : Int) : (e.timed time).sortKey = time.repr := by
        simp [sortKey, timed, htimeline, hrow, Int.toString_eq_repr]
      rw [hkey, hkey, Decimal.repr_eq_iff]
      simp [htimeline, hrow]
    · simp [sortKey, timed, htimeline, hrow]
  · simp [sortKey, timed, htimeline]

-- A message has the time of its event in two places.
theorem render?_timed (e : Event) (time : Int) (context : ChatContext) :
    (e.timed time).render? context = (e.render? context).map fun m =>
      { m with
        timestamp := (Timestamp.ofMillis time).toRfc3339
        sortKey := (e.timed time).sortKey } := by
  unfold render?
  rw [apply_ite (Option.map _), apply_ite (Option.map _), apply_ite (Option.map _)]
  rfl

theorem sortKey_of_render? {e : Event} {context : ChatContext} {m : Message}
    (h : e.render? context = some m) : m.sortKey = e.sortKey := by
  have hagain := e.render?_timed e.timestamp context
  rw [h] at hagain
  exact congrArg Message.sortKey (Option.some.inj (h.symm.trans hagain))

end Event

namespace Change

theorem sameEntries_timed_iff {m : Message} {timestamp sortKey : String} :
    SameEntries [m.toJson] [{ m with timestamp, sortKey }.toJson] ↔ m.sortKey = sortKey := by
  constructor
  · intro h
    exact h.stringAt?_eq (by decide) m.toJson_sortKey (Message.toJson_sortKey _)
  · rintro rfl
    have hstable := m.stable_toJson_timestamp timestamp
    refine ⟨?_, trivial⟩
    rw [hstable]
    exact Json.alike_refl _

-- If an event has a message at one time, it has one at every other time, too. The fingerprints of a
-- change with the one and with the other are made from one text exactly if the event has a row or
-- the two times are one.
theorem fingerprint_timed (c : Change) {e : Event} {context : ChatContext} {t : Int} (u : Int)
    {m : Message} (hm : (e.timed t).render? context = some m) :
    ∃ n, (e.timed u).render? context = some n ∧
      (c.preimage [m.toJson] = c.preimage [n.toJson] ↔ e.HasRow ∨ t = u) ∧
      (e.HasRow → c.fingerprint [m.toJson] = c.fingerprint [n.toJson]) := by
  let n : Message :=
    { m with timestamp := (Timestamp.ofMillis u).toRfc3339, sortKey := (e.timed u).sortKey }
  have hn : (e.timed u).render? context = some n := by
    have hagain := (e.timed t).render?_timed u context
    rwa [hm] at hagain
  have htext : c.preimage [m.toJson] = c.preimage [n.toJson] ↔ e.HasRow ∨ t = u := by
    rw [← Event.sortKey_timed_eq_iff, ← Event.sortKey_of_render? hm, ← sameEntries_timed_iff]
    exact ⟨fun h => (same_of_preimage_eq h).2, preimage_eq_of_same⟩
  refine ⟨n, hn, htext, fun hrow => ?_⟩
  rw [fingerprint, fingerprint, htext.mpr (.inl hrow)]

-- A message of the chat !a, without a row and with one, and the change that announces it.
def unplaced : Event :=
  { roomId := "!a", eventId := "$1", sender := "@x:s", type := EventType.message
    content := .object [("body", .string "one")] }

def placed : Event := { unplaced with rowId := 7 }

def shown (e : Event) (time : Int) : Message := (e.timed time).contentMessage default

def arrival : Change := .ofMessages .messageUpserted "!a" (.ofList ["$1"])

theorem placed_fingerprint_timed :
    (placed.timed 1000).render? default = some (shown placed 1000) ∧ placed.HasRow ∧
      (shown placed 1000).timestamp ≠ (shown placed 2000).timestamp ∧
      arrival.fingerprint [(shown placed 1000).toJson] =
        arrival.fingerprint [(shown placed 2000).toJson] := by
  have hm : (placed.timed 1000).render? default = some (shown placed 1000) := rfl
  have hrow : placed.HasRow := .inr (by decide)
  obtain ⟨n, hn, -, hsame⟩ := fingerprint_timed arrival 2000 hm
  obtain rfl : shown placed 2000 = n := Option.some.inj hn
  exact ⟨hm, hrow, by decide, hsame hrow⟩

-- Without a row the message is another one at another time, and so is its digest.
theorem time_can_reach_fingerprint :
    ¬∀ (c : Change) (e : Event) (context : ChatContext) (t u : Int) (m n : Message),
      c.kind = .messageUpserted → (e.timed t).render? context = some m →
      (e.timed u).render? context = some n →
      c.fingerprint [m.toJson] = c.fingerprint [n.toJson] := by
  intro h
  have hsame : arrival.fingerprint [(shown unplaced 1000).toJson] =
      arrival.fingerprint [(shown unplaced 2000).toJson] :=
    h arrival unplaced default 1000 2000 _ _ rfl rfl rfl
  exact absurd hsame (by decide +kernel)

end Change

end ChatRelay
