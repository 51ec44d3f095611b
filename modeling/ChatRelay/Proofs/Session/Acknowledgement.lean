import Mathlib.Data.List.Permutation
import ChatRelay.Proofs.Change.Sightings
import ChatRelay.Proofs.Control.Reply
import ChatRelay.Proofs.Session.Run

namespace ChatRelay.Talk

open Hub (sentTo)

-- A talk whose connection was not taken out of the hub. What is acknowledged is in force.
structure Standing (t : Talk) : Prop where
  registered : t.stage = .reading ∨ t.stage = .replying → t.subscription?.isSome = true
  acknowledged : ∀ requestId s, t.writing = some (Reply.updated requestId s).frame →
    t.stage = .replying ∧ ∃ held,
      Subscription.ofChatIds s.chatIds = .ok held ∧ t.subscription? = some held

-- Nothing is acknowledged by what is written while the session does not reply.
theorem standing_of_quiet {t : Talk}
    (hregistered : t.stage = .reading ∨ t.stage = .replying → t.subscription?.isSome = true)
    (hquiet : ∀ requestId s, t.writing ≠ some (Reply.updated requestId s).frame) : t.Standing :=
  ⟨hregistered, fun requestId s h => absurd h (hquiet requestId s)⟩

theorem frame_ne_close (r : Reply) : some Frame.close ≠ some r.frame := by
  intro h
  cases h

theorem standing_leave (t : Talk) : (t.take (Session.leave t.id t.relay.hub)).Standing := by
  unfold Session.leave
  split
  · exact standing_of_quiet (by rintro (h | h) <;> cases h) fun _ _ => frame_ne_close _
  · exact standing_of_quiet (by rintro (h | h) <;> cases h) fun _ _ h => by cases h

theorem Standing.reject {t : Talk} (hs : t.Standing) (hstage : t.stage = .reading)
    (r : Rejection) : (t.take (Session.reply r.reply t.relay.hub)).Standing := by
  refine standing_of_quiet (fun _ => hs.registered (.inl hstage)) fun requestId s h => ?_
  obtain ⟨_, _, hreply, -⟩ := Reply.updated_of_frame_eq (Option.some.inj h)
  cases hreply

theorem Standing.update {t : Talk} (hs : t.Standing) (hstage : t.stage = .reading)
    {text : String} {c : Command} (hc : Command.parse text = .ok c) :
    (t.take (Session.reply c.reply (t.relay.hub.setSubscription t.id c.subscription).1)).Standing := by
  obtain ⟨before, hbefore⟩ := Option.isSome_iff_exists.mp (hs.registered (.inl hstage))
  have hheld : (t.take (Session.reply c.reply
      (t.relay.hub.setSubscription t.id c.subscription).1)).subscription? =
        some c.subscription := by
    have hset := t.relay.hub.registry.subscription?_setSubscription t.id t.id c.subscription
    rw [if_pos rfl] at hset
    refine hset.trans ?_
    rw [show t.relay.hub.registry.subscription? t.id = some before from hbefore]
    rfl
  refine ⟨fun _ => by rw [hheld]; rfl, fun requestId s h => ⟨rfl, c.subscription, ?_, hheld⟩⟩
  obtain ⟨_, s', hreply, hchats⟩ := Reply.updated_of_frame_eq (Option.some.inj h)
  obtain ⟨-, rfl⟩ := Reply.updated.inj hreply
  rw [← hchats]
  exact Command.ofChatIds_of_parse hc

theorem Standing.hear {t : Talk} (hs : t.Standing) (hstage : t.stage = .reading) (m : Inbound) :
    (t.take (Session.hear t.id m t.relay.hub)).Standing := by
  cases m with
  | text content =>
    simp only [Session.hear]
    cases hparse : Command.parse content with
    | ok c => exact hs.update hstage hparse
    | error rejection => exact hs.reject hstage rejection
  | binary content => exact hs.reject hstage Rejection.ofBinary
  | ping | pong =>
    exact standing_of_quiet (fun _ => hs.registered (.inl hstage)) fun _ _ h => by cases h
  | close | failure => exact standing_leave t

theorem Standing.written {t : Talk} (hs : t.Standing) (ok : Bool) :
    (t.take (Session.written t.id ok t.stage t.relay.hub)).Standing := by
  have hnone : ∀ {stage}, (t.stage = stage) → (stage = .reading ∨ stage = .replying →
      t.subscription?.isSome = true) := fun h => h ▸ hs.registered
  cases hstage : t.stage with
  | greeting =>
    cases ok with
    | true =>
      refine standing_of_quiet (fun _ => ?_) fun _ _ h => by cases h
      have hregister := t.relay.hub.registry.subscription?_register t.id t.id
      rw [if_pos rfl] at hregister
      exact Option.isSome_iff_exists.mpr ⟨_, hregister⟩
    | false =>
      exact standing_of_quiet (by rintro (h | h) <;> cases h) fun _ _ => frame_ne_close _
  | replying =>
    cases ok with
    | true =>
      exact standing_of_quiet (fun _ => hs.registered (.inr hstage)) fun _ _ h => by cases h
    | false => exact standing_leave t
  | closing =>
    exact standing_of_quiet (by rintro (h | h) <;> cases h) fun _ _ h => by cases h
  | fresh | reading | ended => exact standing_of_quiet (hnone hstage) fun _ _ h => by cases h

theorem Standing.greet {t : Talk} : (t.take (Session.greet t.relay.hub)).Standing := by
  refine standing_of_quiet (by rintro (h | h) <;> cases h) fun requestId s h => ?_
  obtain ⟨_, _, hreply, -⟩ := Reply.updated_of_frame_eq (Option.some.inj h)
  cases hreply

theorem Standing.other {t : Talk} (hs : t.Standing) {a : Relay.Action}
    (hforeign : (Move.other a).isForeign t.id = true) (hdrops : t.drops (.other a) = false) :
    (t.perform (.other a)).Standing := by
  refine ⟨fun hstage => ?_, fun requestId s hwriting => ?_⟩
  · obtain ⟨held, hheld⟩ := Option.isSome_iff_exists.mp (hs.registered hstage)
    rw [subscription?_of_not_drops (perform_other hforeign) hheld hdrops]
    rfl
  · obtain ⟨hstage, held, hchats, hheld⟩ := hs.acknowledged requestId s hwriting
    exact ⟨hstage, held, hchats, subscription?_of_not_drops (perform_other hforeign) hheld hdrops⟩

theorem Standing.perform {t : Talk} (hs : t.Standing) {m : Move}
    (hforeign : m.isForeign t.id = true) (hdrops : t.drops m = false) :
    (t.perform m).Standing := by
  cases m with
  | other a => exact hs.other hforeign hdrops
  | greet =>
    simp only [Talk.perform]
    split
    · exact Standing.greet
    · exact hs
  | hear m =>
    simp only [Talk.perform]
    split
    · next hstage => exact hs.hear hstage m
    · exact hs
  | written ok =>
    simp only [Talk.perform]
    split
    · exact hs.written ok
    · exact hs

theorem Standing.run {t : Talk} (hs : t.Standing) {moves : List Move}
    (hforeign : ∀ m ∈ moves, m.isForeign t.id = true) (hkept : t.isDropped moves = false) :
    (t.run moves).Standing := by
  induction moves generalizing t with
  | nil => exact hs
  | cons m moves ih =>
    obtain ⟨hm, hrest⟩ := Bool.or_eq_false_iff.mp hkept
    refine ih (hs.perform (hforeign m List.mem_cons_self) hm) (fun x hx => ?_) hrest
    rw [perform_id]
    exact hforeign x (List.mem_cons_of_mem m hx)

end ChatRelay.Talk
