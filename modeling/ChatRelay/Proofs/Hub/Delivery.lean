import ChatRelay.Proofs.Hub.Run

namespace ChatRelay.Hub

-- The changes that were announced and those that are still to be announced are the changes of
-- the batches that the dispatcher turned to, in their order.
theorem dispatches_changes (h : Hub) (steps : List Step) :
    (h.dispatches steps).map Dispatch.change ++ (h.run steps).pending =
      h.pending ++ (h.taken steps).flatMap Batch.changes := by
  induction steps generalizing h with
  | nil => simp [dispatches, taken, run_nil]
  | cons s steps ih =>
    have hstep : (h.dispatch? s).toList.map Dispatch.change ++ (h.perform s).1.pending =
        h.pending ++ (h.taken? s).toList.flatMap Batch.changes := by
      cases hd : h.dispatch? s with
      | some d =>
        obtain ⟨hhub, rfl⟩ := dispatch?_hub hd
        rw [perform_of_dispatch? hd, hhub]
        simp [taken?]
      | none =>
        cases s with
        | publish e => cases he : e.batch? <;> simp [perform, receive, he, taken?]
        | take =>
          cases hp : h.pending with
          | cons c rest => simp [perform, taken?, hp]
          | nil =>
            cases hw : h.intake.waiting with
            | nil => simp [perform, taken?, hp, nextBatch?, Intake.next?, hw]
            | cons b rest => simp [perform, taken?, hp, nextBatch?, Intake.next?, hw]
        | dispatch o => simp [perform_of_dispatch?_none hd, taken?]
        | register | subscribe => simp [perform, register, setSubscription, taken?]
        | disconnect other => simp [perform_disconnect, taken?]
        | keepalive write => simp [perform_keepalive, taken?]
    simp only [dispatches, taken, run_cons, List.map_append, List.flatMap_append,
      List.append_assoc]
    rw [ih, ← List.append_assoc, hstep, List.append_assoc]

theorem accepted_sentIn (h : Hub) (s : Step) (id : ConnectionId) :
    (h.sentIn id s).filterMap Sent.accepted? =
      ((h.dispatch? s).toList.filter (·.reaches id)).map (·.message id) := by
  cases s with
  | publish | take | register | subscribe => rfl
  | dispatch o =>
    simp only [sentIn]
    cases h.dispatch? (.dispatch o) with
    | none => rfl
    | some d =>
      by_cases ho : d.offers id = true <;> by_cases hw : d.succeeds id = true <;>
        simp [ho, hw, Dispatch.reaches, Sent.accepted?]
  | disconnect other =>
    simp only [sentIn, dispatch?]
    split <;> rfl
  | keepalive write =>
    simp only [sentIn, dispatch?]
    split
    · split <;> rfl
    · rfl

-- Whatever else happens, the frames that a sink took are those of the changes that reached it.
theorem accepted_log (h : Hub) (steps : List Step) (id : ConnectionId) :
    accepted id (h.log steps) =
      ((h.dispatches steps).filter (·.reaches id)).map (·.message id) := by
  induction steps generalizing h with
  | nil => rfl
  | cons s steps ih =>
    have ih := ih (h.perform s).1
    simp only [accepted] at ih ⊢
    rw [sentTo_log_cons, List.filterMap_append, ih, accepted_sentIn, dispatches,
      List.filter_append, List.map_append]

structure ComesOnce (h : Hub) (id : ConnectionId) (steps : List Step) : Prop where
  once : steps.countP (Step.registers id) ≤ 1
  notAgain : h.registry.contains id = true → steps.countP (Step.registers id) = 0

theorem contains_perform {h : Hub} {s : Step} {id : ConnectionId}
    (hs : s.registers id = false) (hc : (h.perform s).1.registry.contains id = true) :
    h.registry.contains id = true := by
  simp only [Registry.contains, perform_subscription?] at hc ⊢
  cases s with
  | publish | take => exact hc
  | dispatch o =>
    simp only [subscriptionAfter] at hc
    split at hc
    · split at hc
      · simp at hc
      · exact hc
    · exact hc
  | register other =>
    have hne : id ≠ other := by simpa [Step.registers, eq_comm] using hs
    simpa [subscriptionAfter, hne] using hc
  | subscribe other sub =>
    simp only [subscriptionAfter] at hc
    split at hc
    · simpa using hc
    · exact hc
  | disconnect other =>
    simp only [subscriptionAfter] at hc
    split at hc
    · simp at hc
    · exact hc
  | keepalive write =>
    simp only [subscriptionAfter] at hc
    split at hc
    · exact hc
    · simp at hc

theorem ComesOnce.next {h : Hub} {id : ConnectionId} {s : Step} {steps : List Step}
    (hc : ComesOnce h id (s :: steps)) : ComesOnce (h.perform s).1 id steps := by
  have honce := hc.once
  rw [List.countP_cons] at honce
  refine ⟨by omega, fun hafter => ?_⟩
  by_cases hs : s.registers id = true
  · simp only [hs, if_true] at honce
    omega
  · have hbefore := contains_perform (by simpa using hs) hafter
    have hnone := hc.notAgain hbefore
    rw [List.countP_cons] at hnone
    omega

-- A connection that is not there, and will not come, is sent nothing.
theorem sentTo_log_of_absent {h : Hub} {id : ConnectionId} {steps : List Step}
    (habsent : h.registry.contains id = false)
    (hcome : steps.countP (Step.registers id) = 0) : sentTo id (h.log steps) = [] := by
  induction steps generalizing h with
  | nil => rfl
  | cons s steps ih =>
    rw [List.countP_cons] at hcome
    have hs : s.registers id = false :=
      Bool.eq_false_iff.mpr fun hs => by simp [hs] at hcome
    have hnext : (h.perform s).1.registry.contains id = false :=
      Bool.eq_false_iff.mpr fun hn => by simp [contains_perform hs hn] at habsent
    have hsent : h.sentIn id s = [] := by
      cases s with
      | publish | take | register | subscribe => rfl
      | dispatch o =>
        simp only [sentIn]
        cases hd : h.dispatch? (.dispatch o) with
        | none => rfl
        | some d =>
          have hr : d.hub.registry.subscription? id = none := by
            rw [(dispatch?_hub hd).1] at habsent
            simpa [Registry.contains] using habsent
          simp [Dispatch.offers, Dispatch.listens, hr]
      | disconnect other => simp [sentIn, habsent]
      | keepalive write => simp [sentIn, habsent]
    rw [sentTo_log_cons, hsent, ih hnext (by omega)]
    rfl

-- What a step sends is one thing that was taken, or one that failed and the close after it.
theorem sentIn_cases (h : Hub) (s : Step) (id : ConnectionId) :
    h.sentIn id s = [] ∨ (∃ x, h.sentIn id s = [x] ∧ x.failed = false) ∨
      ∃ x, h.sentIn id s = [x, .close] ∧ (h.perform s).1.registry.contains id = false ∧
        h.registry.contains id = true := by
  simp only [Registry.contains, perform_subscription?]
  cases s with
  | publish | take | register | subscribe => exact .inl rfl
  | dispatch o =>
    simp only [sentIn, subscriptionAfter]
    cases hd : h.dispatch? (.dispatch o) with
    | none => exact .inl rfl
    | some d =>
      by_cases ho : d.offers id = true
      · by_cases hw : d.succeeds id = true
        · exact .inr (.inl ⟨.change (d.message id) true, by simp [ho, hw], rfl⟩)
        · have hl := Dispatch.mem_targets_iff.mpr (Dispatch.listens_of_offers ho)
          have hs : h.registry.contains id = true := by
            rw [(dispatch?_hub hd).1]
            exact Registry.contains_of_mem_matching hl
          exact .inr (.inr ⟨.change (d.message id) false, by simp [ho, hw],
            by simp [Dispatch.loses, ho, hw], hs⟩)
      · exact .inl (by simp [ho])
  | disconnect other =>
    simp only [sentIn]
    split
    · exact .inr (.inl ⟨_, rfl, rfl⟩)
    · exact .inl rfl
  | keepalive write =>
    simp only [sentIn, subscriptionAfter, Registry.contains]
    by_cases hc : (h.registry.subscription? id).isSome = true
    · by_cases hw : (write id .ping).toBool = true
      · exact .inr (.inl ⟨.ping true, by simp [hc, hw], rfl⟩)
      · exact .inr (.inr ⟨.ping false, by simp [hc, hw], by simp [hw], hc⟩)
    · exact .inl (by simp [hc])

theorem close_after_failure {h : Hub} {id : ConnectionId} {steps : List Step}
    (honce : ComesOnce h id steps) {before after : List Sent} {x : Sent}
    (hsent : sentTo id (h.log steps) = before ++ x :: after) (hx : x.failed = true) :
    after = [.close] := by
  induction steps generalizing h before with
  | nil => simp [log, sentTo] at hsent
  | cons s steps ih =>
    rw [sentTo_log_cons] at hsent
    rcases h.sentIn_cases s id with hs | ⟨y, hs, hy⟩ | ⟨y, hs, hlost, hhere⟩
    · rw [hs, List.nil_append] at hsent
      exact ih honce.next hsent
    · rw [hs, List.singleton_append] at hsent
      cases before with
      | nil =>
        obtain ⟨rfl, -⟩ := List.cons.inj hsent
        simp [hy] at hx
      | cons z before => exact ih honce.next (List.cons.inj hsent).2
    · have hcome := honce.notAgain hhere
      rw [List.countP_cons] at hcome
      rw [hs, sentTo_log_of_absent hlost (by omega), List.append_nil] at hsent
      cases before with
      | nil => exact (List.cons.inj hsent).2.symm
      | cons z before =>
        cases before with
        | nil =>
          obtain ⟨rfl, -⟩ := List.cons.inj (List.cons.inj hsent).2
          simp [Sent.failed] at hx
        | cons w before => simp at hsent

-- A number that was given for nothing was given to a connection that is lost.
theorem accepted_sequences {h : Hub} {id : ConnectionId} {steps : List Step}
    (honce : ComesOnce h id steps) :
    (accepted id (h.log steps)).map (·.sequence) =
      List.range' (h.sequences.current id + 1) (accepted id (h.log steps)).length := by
  induction steps generalizing h with
  | nil => rfl
  | cons s steps ih =>
    have ih := ih honce.next
    have hcurrent := h.perform_current s id
    have hsplit : accepted id (h.log (s :: steps)) =
        ((h.dispatch? s).toList.filter (·.reaches id)).map (·.message id) ++
          accepted id ((h.perform s).1.log steps) := by
      rw [accepted, sentTo_log_cons, List.filterMap_append, accepted_sentIn]
      rfl
    rw [hsplit]
    cases hd : h.dispatch? s with
    | none => simpa [hd, hcurrent] using ih
    | some d =>
      have hd' : d.hub.sequences = h.sequences := by rw [(dispatch?_hub hd).1]
      simp only [hd, Option.any_some] at hcurrent
      by_cases ho : d.offers id = true
      · by_cases hw : d.succeeds id = true
        · have hr : d.reaches id = true := by simp [Dispatch.reaches, ho, hw]
          simp only [ho, if_true] at hcurrent
          rw [hcurrent] at ih
          simp [hr, ih, Dispatch.message, hd', List.range'_succ]
        · have hl : d.loses id = true := by simp [Dispatch.loses, ho, hw]
          have hr : d.reaches id = false := by simp [Dispatch.reaches, hw]
          have hlost : (h.perform s).1.registry.contains id = false := by
            rw [perform_of_dispatch? hd]
            simp [Registry.contains, Dispatch.result_subscription?, hl]
          have hhere : h.registry.contains id = true := by
            rw [(dispatch?_hub hd).1]
            exact Registry.contains_of_mem_matching
              (Dispatch.mem_targets_iff.mpr (Dispatch.listens_of_offers ho))
          have hcome := honce.notAgain hhere
          rw [List.countP_cons] at hcome
          have hnothing : sentTo id ((h.perform s).1.log steps) = [] :=
            sentTo_log_of_absent hlost (by omega)
          simp [hr, accepted, hnothing]
      · have hr : d.reaches id = false := by simp [Dispatch.reaches, ho]
        simp only [ho] at hcurrent
        simpa [hr, hcurrent] using ih

theorem map_eq_zipIdx_map {α : Type} {xs : List α} {f : α → ChangeMessage} {first : Nat}
    (h : (xs.map f).map (·.sequence) = List.range' first (xs.map f).length) :
    xs.map f = (xs.zipIdx first).map fun (x, k) => { f x with sequence := k } := by
  induction xs generalizing first with
  | nil => rfl
  | cons x xs ih =>
    simp only [List.map_cons, List.length_cons, List.range'_succ, List.cons.injEq] at h
    rw [List.map_cons, List.zipIdx_cons, List.map_cons, ih h.2, ← h.1]

-- Of a started hub: the announced changes are those of the batches that the dispatcher turned to,
-- in their order. The frames that a connection's sink took are, one for one, the changes at which
-- the connection was registered and listening, which had content, were not suppressed, and whose
-- write succeeded; they are numbered from one, and each says its change under its number. After a
-- failed write nothing but the close follows.
theorem delivered_in_order_without_gap (settings : HubSettings) (steps : List Step)
    (id : ConnectionId) (honce : steps.countP (Step.registers id) ≤ 1) :
    ((started settings).dispatches steps).map Dispatch.change ++
        ((started settings).run steps).pending =
      ((started settings).taken steps).flatMap Batch.changes ∧
    accepted id ((started settings).log steps) =
      ((((started settings).dispatches steps).filter (·.reaches id)).zipIdx 1).map
        (fun (d, k) => ({ change := d.change, sequence := k, time := d.occasion.time,
                          entries := d.entries } : ChangeMessage)) ∧
    (∀ m ∈ accepted id ((started settings).log steps), m.frame.Carries m) ∧
    ∀ before x after, sentTo id ((started settings).log steps) = before ++ x :: after →
      x.failed = true → after = [.close] := by
  have habsent : (started settings).registry.contains id = false := rfl
  have hcomes : ComesOnce (started settings) id steps :=
    ⟨honce, fun hc => by rw [habsent] at hc; cases hc⟩
  refine ⟨?_, ?_, fun m _ => m.frame_carries, fun before x after => close_after_failure hcomes⟩
  · exact dispatches_changes (started settings) steps
  · have hseq := accepted_sequences hcomes
    rw [accepted_log] at hseq ⊢
    exact map_eq_zipIdx_map hseq

-- Three chats are left while one connection listens, and its sink refuses the second frame.
def refusal : List Step :=
  let occasion (result : Except WriteError Unit) : Occasion :=
    { lookup := fun _ _ => .ok [], now := 0, time := 0, write := fun _ _ => result }
  [.register ⟨1⟩, .subscribe ⟨1⟩ .everything,
    .publish (.synced { leftRooms := ["!a", "!b", "!c"] }), .take,
    .dispatch (occasion (.ok ())), .dispatch (occasion (.error (.sink .closed))),
    .dispatch (occasion (.ok ())), .disconnect ⟨1⟩]

theorem refusal_delivered_in_order :
    refusal.countP (Step.registers ⟨1⟩) ≤ 1 ∧
    ((started {}).dispatches refusal).map Dispatch.change ++ ((started {}).run refusal).pending =
      ((started {}).taken refusal).flatMap Batch.changes ∧
    accepted ⟨1⟩ ((started {}).log refusal) =
      ((((started {}).dispatches refusal).filter (·.reaches ⟨1⟩)).zipIdx 1).map
        (fun (d, k) => ({ change := d.change, sequence := k, time := d.occasion.time,
                          entries := d.entries } : ChangeMessage)) ∧
    (∀ m ∈ accepted ⟨1⟩ ((started {}).log refusal), m.frame.Carries m) ∧
    ∀ before x after, sentTo ⟨1⟩ ((started {}).log refusal) = before ++ x :: after →
      x.failed = true → after = [.close] :=
  ⟨by decide, delivered_in_order_without_gap {} refusal ⟨1⟩ (by decide)⟩

end ChatRelay.Hub
