import Mathlib.Data.List.Induction
import ChatRelay.Proofs.Registry
import ChatRelay.Proofs.Subscription

namespace ChatRelay.Registry

-- A list of chats that was accepted, with what it asks for.
structure Request where
  chatIds : List String
  subscription : Subscription
  accepted : Subscription.ofChatIds chatIds = .ok subscription
deriving DecidableEq

inductive Op where
  | register (id : ConnectionId)
  | unregister (id : ConnectionId)
  | subscribe (id : ConnectionId) (request : Request)
  | drain
deriving DecidableEq

inductive Answer where
  | done
  -- Whether the connection was registered.
  | found (b : Bool)
  | drained (ids : List ConnectionId)
deriving DecidableEq

def perform (r : Registry) : Op → Registry × Answer
  | .register id => (r.register id, .done)
  | .unregister id => (r.unregister id, .found (r.contains id))
  | .subscribe id request => (r.setSubscription id request.subscription, .found (r.contains id))
  | .drain => (∅, .drained r.ids)

-- The registry after a history that begins with nobody registered.
def run (ops : List Op) : Registry := ops.foldl (fun r op => (r.perform op).1) ∅

theorem run_concat (ops : List Op) (op : Op) : run (ops ++ [op]) = ((run ops).perform op).1 := by
  rw [run, List.foldl_append]
  rfl

namespace Op

-- Whether an operation takes a connection in or out.
def moves (id : ConnectionId) : Op → Bool
  | register other | unregister other => other == id
  | subscribe _ _ => false
  | drain => true

-- What a connection asks for by an operation.
def request? (id : ConnectionId) : Op → Option Request
  | subscribe other request => if other = id then some request else none
  | register _ | unregister _ | drain => none

end Op

-- What was done since a connection was registered, if it was not registered again or taken out.
structure Since (id : ConnectionId) (ops after : List Op) : Prop where
  registered : ∃ before, ops = before ++ .register id :: after
  stays : ∀ op ∈ after, op.moves id = false

def lastRequest? (id : ConnectionId) (after : List Op) : Option Request :=
  (after.filterMap (Op.request? id)).getLast?

-- What those operations leave a connection with; at first it does not want to hear about anything.
def lastSubscription (id : ConnectionId) (after : List Op) : Subscription :=
  ((lastRequest? id after).map (·.subscription)).getD .nothing

theorem lastSubscription_concat (id : ConnectionId) (after : List Op) (op : Op) :
    lastSubscription id (after ++ [op]) =
      ((op.request? id).map (·.subscription)).getD (lastSubscription id after) := by
  have hlast : lastRequest? id (after ++ [op]) = (op.request? id).or (lastRequest? id after) := by
    cases h : op.request? id <;> simp [lastRequest?, h]
  cases h : op.request? id <;> simp [lastSubscription, hlast, h]

-- What one operation does to one connection.
theorem subscription?_perform (r : Registry) (op : Op) (id : ConnectionId) :
    (r.perform op).1.subscription? id =
      if op = .register id then some .nothing
      else if op.moves id then none
      else (r.subscription? id).map fun s => ((op.request? id).map (·.subscription)).getD s := by
  cases op with
  | register other =>
    by_cases h : other = id
    · simp [perform, subscription?_register, h]
    · simp [perform, subscription?_register, Op.moves, Op.request?, h, Ne.symm h]
  | unregister other =>
    by_cases h : other = id
    · simp [perform, subscription?_unregister, Op.moves, h]
    · simp [perform, subscription?_unregister, Op.moves, Op.request?, h, Ne.symm h]
  | subscribe other request =>
    by_cases h : other = id
    · simp [perform, subscription?_setSubscription, Op.moves, Op.request?, h]
    · simp [perform, subscription?_setSubscription, Op.moves, Op.request?, h, Ne.symm h]
  | drain => rfl

theorem Since.concat_iff {id : ConnectionId} {ops after : List Op} {op : Op} :
    Since id (ops ++ [op]) after ↔
      (op = .register id ∧ after = []) ∨
        (op.moves id = false ∧ ∃ earlier, after = earlier ++ [op] ∧ Since id ops earlier) := by
  constructor
  · rintro ⟨⟨before, hops⟩, hstays⟩
    rcases after.eq_nil_or_concat with rfl | ⟨earlier, last, hafter⟩
    · exact .inl ⟨List.singleton_inj.mp (List.append_inj' hops rfl).2, rfl⟩
    · obtain rfl : after = earlier ++ [last] := by simpa using hafter
      have hparts : ops ++ [op] = (before ++ .register id :: earlier) ++ [last] := by
        rw [hops, List.append_assoc, List.cons_append]
      obtain ⟨rfl, hlast⟩ := List.append_inj' hparts rfl
      obtain rfl := List.singleton_inj.mp hlast
      refine .inr ⟨hstays op (by simp), earlier, rfl, ⟨before, rfl⟩, fun o ho => ?_⟩
      exact hstays o (List.mem_append_left _ ho)
  · rintro (⟨rfl, rfl⟩ | ⟨hmoves, earlier, rfl, ⟨before, rfl⟩, hstays⟩)
    · exact ⟨⟨ops, rfl⟩, fun o ho => nomatch ho⟩
    · refine ⟨⟨before, by simp⟩, fun o ho => ?_⟩
      rcases List.mem_append.mp ho with ho | ho
      · exact hstays o ho
      · exact List.mem_singleton.mp ho ▸ hmoves

-- By induction on the history, one operation after the other.
theorem subscription?_run_iff {ops : List Op} {id : ConnectionId} {s : Subscription} :
    (run ops).subscription? id = some s ↔
      ∃ after, Since id ops after ∧ lastSubscription id after = s := by
  induction ops using List.reverseRecOn generalizing s with
  | nil =>
    have hnever (after : List Op) : ¬Since id [] after := by
      rintro ⟨⟨before, h⟩, -⟩
      simp at h
    have hnone : (run []).subscription? id = none := rfl
    simp [hnone, hnever]
  | append_singleton ops op ih =>
    rw [run_concat, subscription?_perform]
    simp only [Since.concat_iff]
    by_cases hregister : op = .register id
    · subst hregister
      have hmoves : (Op.register id).moves id = true := by simp [Op.moves]
      have hfresh : lastSubscription id [] = .nothing := rfl
      simp [hmoves, hfresh]
    · cases hmoves : op.moves id with
      | true => simp [hregister]
      | false =>
        simp only [hregister, Bool.false_eq_true, if_false, Option.map_eq_some_iff, ih, false_and,
          false_or, true_and]
        constructor
        · rintro ⟨-, ⟨earlier, hsince, rfl⟩, rfl⟩
          exact ⟨_, ⟨earlier, rfl, hsince⟩, lastSubscription_concat id earlier op⟩
        · rintro ⟨-, ⟨earlier, rfl, hsince⟩, rfl⟩
          exact ⟨_, ⟨earlier, hsince, rfl⟩, (lastSubscription_concat id earlier op).symm⟩

theorem contains_run_iff {ops : List Op} {id : ConnectionId} :
    (run ops).contains id = true ↔ ∃ after, Since id ops after := by
  simp [contains, Option.isSome_iff_exists, subscription?_run_iff]

-- What a connection wants to hear about was asked for by a list that was accepted.
theorem isNormal_of_subscription?_run {ops : List Op} {id : ConnectionId} {ids : IdSet}
    (h : (run ops).subscription? id = some (.chats ids)) : Subscription.IsNormal ids := by
  obtain ⟨after, -, hlast⟩ := subscription?_run_iff.mp h
  rw [lastSubscription] at hlast
  cases hrequest : lastRequest? id after with
  | none => simp [hrequest] at hlast
  | some request =>
    have haccepted : Subscription.ofChatIds request.chatIds = .ok (.chats ids) := by
      have hchats : request.subscription = .chats ids := by simpa [hrequest] using hlast
      exact hchats ▸ request.accepted
    rcases Subscription.ofChatIds_cases haccepted with ⟨hall, -⟩ | ⟨hnone, -⟩ | ⟨hset, hnormal⟩
    · cases hall
    · cases hnone
    · cases hset
      exact hnormal

-- No entry is that of a connection that is not registered.
theorem ne_of_not_contains {r : Registry} {id : ConnectionId} (h : r.contains id = false) :
    ∀ e ∈ r.entries, e.1 ≠ id := by
  rintro ⟨other, s⟩ hm rfl
  simp [contains, subscription?_eq_some_iff.mpr hm] at h

theorem unregister_of_not_contains {r : Registry} {id : ConnectionId} (h : r.contains id = false) :
    r.unregister id = r := by
  have hentries : (r.unregister id).entries = r.entries :=
    List.filter_eq_self.mpr fun e he => decide_eq_true (ne_of_not_contains h e he)
  cases r
  simpa [unregister] using hentries

theorem setSubscription_of_not_contains {r : Registry} {id : ConnectionId} (s : Subscription)
    (h : r.contains id = false) : r.setSubscription id s = r := by
  have hentries : (r.setSubscription id s).entries = r.entries :=
    (List.map_congr_left fun e he => if_neg (ne_of_not_contains h e he)).trans (List.map_id _)
  cases r
  simpa [setSubscription] using hentries

-- A chat is matched by the list that a connection asked with last.
theorem mem_matching_run_iff {ops : List Op} {id : ConnectionId} {chatId : String}
    (hne : chatId ≠ "") :
    id ∈ (run ops).matching chatId ↔
      ∃ after request, Since id ops after ∧ lastRequest? id after = some request ∧
        ∃ asked ∈ request.chatIds,
          Text.trim asked = chatId ∨ Text.trim asked = Subscription.wildcard := by
  simp only [mem_matching_iff, subscription?_run_iff]
  constructor
  · rintro ⟨-, ⟨after, hsince, rfl⟩, hcovers⟩
    cases hrequest : lastRequest? id after with
    | none => simp [lastSubscription, hrequest, Subscription.covers] at hcovers
    | some request =>
      have hlast : lastSubscription id after = request.subscription := by
        simp [lastSubscription, hrequest]
      rw [hlast] at hcovers
      exact ⟨after, request, hsince, hrequest,
        (Subscription.covers_iff_asked request.accepted hne).mp hcovers⟩
  · rintro ⟨after, request, hsince, hrequest, hasked⟩
    have hlast : lastSubscription id after = request.subscription := by
      simp [lastSubscription, hrequest]
    exact ⟨_, ⟨after, hsince, hlast⟩, (Subscription.covers_iff_asked request.accepted hne).mpr hasked⟩

-- What a history decides: whom a chat is matched with, each of them once; who is registered, and that
-- taking out or subscribing anybody else says so and changes nothing; that registering starts afresh;
-- and that each set of chats is in the form in which halving it finds exactly its members.
theorem routed_by_history (ops : List Op) :
    (∀ chatId, chatId ≠ "" →
      ((run ops).matching chatId).Nodup ∧
      ∀ id, id ∈ (run ops).matching chatId ↔
        ∃ after request, Since id ops after ∧ lastRequest? id after = some request ∧
          ∃ asked ∈ request.chatIds,
            Text.trim asked = chatId ∨ Text.trim asked = Subscription.wildcard) ∧
    (∀ id, (run ops).contains id = true ↔ ∃ after, Since id ops after) ∧
    (∀ id, (run ops).contains id = false →
      (run ops).perform (.unregister id) = (run ops, .found false) ∧
      ∀ request, (run ops).perform (.subscribe id request) = (run ops, .found false)) ∧
    (∀ id, ((run ops).perform (.register id)).1.subscription? id = some .nothing) ∧
    (∀ id ids, (run ops).subscription? id = some (.chats ids) →
      Subscription.IsNormal ids ∧ ids.toList.Pairwise (· < ·) ∧
      ∀ chatId, (Subscription.chats ids).covers chatId = IdSet.bisect chatId ids.toList ∧
        (IdSet.bisect chatId ids.toList = true ↔ chatId ∈ ids.toList)) := by
  refine ⟨fun chatId hne => ⟨matching_nodup _ chatId, fun id => mem_matching_run_iff hne⟩,
    fun id => contains_run_iff, fun id hout => ⟨?_, fun request => ?_⟩, fun id => ?_,
    fun id ids hset => ⟨isNormal_of_subscription?_run hset, ids.ascending, fun chatId => ?_⟩⟩
  · rw [perform, unregister_of_not_contains hout, hout]
  · rw [perform, setSubscription_of_not_contains _ hout, hout]
  · simp [perform, subscription?_register]
  · have hbisect : IdSet.bisect chatId ids.toList = true ↔ chatId ∈ ids.toList :=
      IdSet.bisect_eq_true_iff ids.ascending
    refine ⟨?_, hbisect⟩
    rw [Bool.eq_iff_iff, hbisect]
    exact IdSet.contains_iff_mem

-- The first connection asked for every chat, but was registered again after that.
def reconnection : List Op :=
  [.register ⟨1⟩, .subscribe ⟨1⟩ ⟨["*"], .everything, by decide +kernel⟩, .register ⟨2⟩,
   .subscribe ⟨2⟩ ⟨["!b", " !a "], .chats (.ofList ["!a", "!b"]), by decide +kernel⟩, .register ⟨1⟩]

theorem reconnection_routed :
    (run reconnection).matching "!a" = [⟨2⟩] ∧
    (∃ after request, Since ⟨2⟩ reconnection after ∧ lastRequest? ⟨2⟩ after = some request ∧
      ∃ asked ∈ request.chatIds, Text.trim asked = "!a" ∨ Text.trim asked = Subscription.wildcard) ∧
    (¬∃ after, Since ⟨3⟩ reconnection after) ∧
    (run reconnection).perform (.unregister ⟨3⟩) = (run reconnection, .found false) ∧
    Subscription.IsNormal (.ofList ["!a", "!b"]) := by
  obtain ⟨hmatching, hregistered, hout, -, hnormal⟩ := routed_by_history reconnection
  have hone : (run reconnection).matching "!a" = [⟨2⟩] := by decide +kernel
  have hthird : (run reconnection).contains ⟨3⟩ = false := by decide +kernel
  have hset : (run reconnection).subscription? ⟨2⟩ = some (.chats (.ofList ["!a", "!b"])) := by
    decide +kernel
  refine ⟨hone, ((hmatching "!a" (by decide)).2 ⟨2⟩).mp (by simp [hone]), fun hsince => ?_,
    (hout ⟨3⟩ hthird).1, (hnormal ⟨2⟩ _ hset).1⟩
  rw [← hregistered, hthird] at hsince
  cases hsince

end ChatRelay.Registry
