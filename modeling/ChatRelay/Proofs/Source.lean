import ChatRelay.Source
import Mathlib.Data.List.Dedup
import Mathlib.Data.List.Induction

namespace ChatRelay.Source

variable {κ : Type}

-- What anybody may do with a source. Holds are numbered in the order in which they were given out.
inductive Act (κ : Type) where
  | subscribe (subscriber : κ)
  | unsubscribe (hold : Nat)
  | drop (hold : Nat)
  | fail (e : SourceError)

inductive Happening (κ : Type) where
  | subscribed (handle : Nat) (subscriber : κ)
  | refused (subscriber : κ) (e : SourceError)
  -- Somebody unsubscribed with the hold of the handle, or let go of it.
  | released (handle : Nat)
  | failed (e : SourceError)
  | called (subscriber : Nat × κ) (e : ClientEvent)

namespace Happening

def given? : Happening κ → Option (Nat × κ)
  | subscribed handle subscriber => some (handle, subscriber)
  | refused .. | released _ | failed _ | called .. => none

def released? : Happening κ → Option Nat
  | released handle => some handle
  | subscribed .. | refused .. | failed _ | called .. => none

def failure? : Happening κ → Option SourceError
  | failed e => some e
  | subscribed .. | refused .. | released _ | called .. => none

def call? : Happening κ → Option ((Nat × κ) × ClientEvent)
  | called subscriber e => some (subscriber, e)
  | subscribed .. | refused .. | released _ | failed _ => none

def isAttempt : Happening κ → Bool
  | subscribed .. | refused .. => true
  | released _ | failed _ | called .. => false

end Happening

-- The source with the holds on it, and everything that happened so far with the source right after
-- it.
structure Scene (κ : Type) where
  source : Source κ := {}
  holds : List Hold := []
  past : List (Happening κ × Source κ) := []

-- The order in which one publication reaches the subscribers.
structure Order (κ : Type) where
  arrange : List (Nat × κ) → List (Nat × κ)
  perm : ∀ subscribers, (arrange subscribers).Perm subscribers

inductive Step (κ : Type) where
  | act (a : Act κ)
  | publish (e : ClientEvent) (order : Order κ)

namespace Scene

def happened (scene : Scene κ) : List (Happening κ) := scene.past.map (·.1)

def note (what : Happening κ) (scene : Scene κ) : Scene κ :=
  { scene with past := scene.past ++ [(what, scene.source)] }

-- A hold that was never given out cannot be released.
def release (route : Hold → Source κ → Hold × Source κ) (k : Nat) (scene : Scene κ) : Scene κ :=
  match scene.holds[k]? with
  | some hold =>
    let (hold, source) := route hold scene.source
    { scene with source, holds := scene.holds.set k hold }.note (.released k)
  | none => scene

def act (scene : Scene κ) : Act κ → Scene κ
  | .subscribe subscriber =>
    match scene.source.subscribe subscriber with
    | (source, .ok handle) =>
      { scene with source, holds := scene.holds ++ [Hold.mk (some handle)] }.note
        (.subscribed handle subscriber)
    | (source, .error e) => { scene with source }.note (.refused subscriber e)
  | .unsubscribe k => scene.release Hold.unsubscribe k
  | .drop k => scene.release Hold.drop k
  | .fail e => { scene with source := scene.source.failWith e }.note (.failed e)

end Scene

-- What a subscriber does when it is called; this may depend on all that happened before.
abbrev Reaction (κ : Type) := Nat × κ → ClientEvent → Scene κ → List (Act κ)

namespace Scene

variable (react : Reaction κ)

def call (e : ClientEvent) (subscriber : Nat × κ) (scene : Scene κ) : Scene κ :=
  let scene := scene.note (.called subscriber e)
  (react subscriber e scene).foldl act scene

def publish (e : ClientEvent) (order : Order κ) (scene : Scene κ) : Scene κ × Nat :=
  let source : Source κ :=
    { scene.source with subscribers := order.arrange scene.source.subscribers }
  source.publish (call react e) scene

def step (scene : Scene κ) : Step κ → Scene κ
  | .act a => scene.act a
  | .publish e order => (scene.publish react e order).1

def run (steps : List (Step κ)) : Scene κ := steps.foldl (step react) ({} : Scene κ)

theorem run_concat (steps : List (Step κ)) (s : Step κ) :
    run react (steps ++ [s]) = (run react steps).step react s := by
  rw [run, List.foldl_append]
  rfl

end Scene

def given (past : List (Happening κ)) : List (Nat × κ) := past.filterMap Happening.given?

def released (past : List (Happening κ)) : List Nat := past.filterMap Happening.released?

def failures (past : List (Happening κ)) : List SourceError := past.filterMap Happening.failure?

def calls (past : List (Happening κ)) : List ((Nat × κ) × ClientEvent) :=
  past.filterMap Happening.call?

-- The subscribers that came and whose holds are not released, in the order in which they came.
def live (past : List (Happening κ)) : List (Nat × κ) :=
  (given past).filter fun subscriber => subscriber.1 ∉ released past

-- What comes of an act, as far as the past tells.
def Act.outcome (past : List (Happening κ)) : Act κ → List (Happening κ)
  | .subscribe subscriber =>
    match (failures past).getLast? with
    | some e => [.refused subscriber e]
    | none => [.subscribed (given past).length subscriber]
  | .unsubscribe k | .drop k => if k < (given past).length then [.released k] else []
  | .fail e => [.failed e]

-- The source that a past leads to.
structure Follows (past : List (Happening κ)) (s : Source κ) : Prop where
  subscribers : s.subscribers = live past
  -- Every subscriber gets a handle of its own.
  handles : (given past).map (·.1) = List.range s.nextHandle
  releases : ∀ k ∈ released past, k < s.nextHandle
  attempts : s.attempts = past.countP Happening.isAttempt
  failure : s.failure = (failures past).getLast?
  -- Nobody gets in after a failure.
  shut : past.Pairwise fun earlier later => earlier.failure?.isSome → later.given? = none

-- A source that a past leads to loses exactly the subscribers whose holds are released.
structure Lawful (past : List (Happening κ)) (s : Source κ) : Prop extends Follows past s where
  conserved : s.size + (released past).dedup.length = (given past).length

section Concat

variable (past : List (Happening κ)) (what : Happening κ)

@[simp] theorem given_concat : given (past ++ [what]) = given past ++ what.given?.toList := by
  cases h : what.given? <;> simp [given, h]

@[simp] theorem released_concat :
    released (past ++ [what]) = released past ++ what.released?.toList := by
  cases h : what.released? <;> simp [released, h]

@[simp] theorem failures_concat :
    failures (past ++ [what]) = failures past ++ what.failure?.toList := by
  cases h : what.failure? <;> simp [failures, h]

@[simp] theorem calls_concat : calls (past ++ [what]) = calls past ++ what.call?.toList := by
  cases h : what.call? <;> simp [calls, h]

end Concat

-- The source once somebody has got in.
def entered (s : Source κ) (subscriber : κ) : Source κ :=
  { s with
    subscribers := s.subscribers ++ [(s.nextHandle, subscriber)]
    nextHandle := s.nextHandle + 1
    attempts := s.attempts + 1 }

theorem subscribe_of_open {s : Source κ} (hopen : s.failure = none) (subscriber : κ) :
    s.subscribe subscriber = (s.entered subscriber, .ok s.nextHandle) := by
  simp only [subscribe, hopen, entered]

theorem subscribe_of_failed {s : Source κ} {e : SourceError} (hfailed : s.failure = some e)
    (subscriber : κ) :
    s.subscribe subscriber = ({ s with attempts := s.attempts + 1 }, .error e) := by
  simp only [subscribe, hfailed]

namespace Follows

variable {past : List (Happening κ)} {s t : Source κ}

theorem start : Follows ([] : List (Happening κ)) ({} : Source κ) where
  subscribers := rfl
  handles := rfl
  releases := by simp [released]
  attempts := rfl
  failure := rfl
  shut := .nil

theorem length_given (hs : Follows past s) : (given past).length = s.nextHandle := by
  simpa using congrArg List.length hs.handles

-- A past leads to one source only.
theorem unique (hs : Follows past s) (ht : Follows past t) : s = t := by
  have hnext : s.nextHandle = t.nextHandle := hs.length_given.symm.trans ht.length_given
  cases s
  cases t
  simp only [Source.mk.injEq]
  exact ⟨hs.subscribers.trans ht.subscribers.symm, hnext, hs.attempts.trans ht.attempts.symm,
    hs.failure.trans ht.failure.symm⟩

-- The handles of those who are gone are the released ones, each counted once.
theorem conserved (hs : Follows past s) :
    s.size + (released past).dedup.length = (given past).length := by
  have hgone : (((given past).filter fun x => x.1 ∈ released past).map (·.1)).Perm
      (released past).dedup := by
    have hnodup : ((given past).map (·.1)).Nodup := hs.handles ▸ List.nodup_range
    refine (List.perm_ext_iff_of_nodup
      (hnodup.sublist (List.filter_sublist.map _)) (List.nodup_dedup _)).mpr fun k => ?_
    simp only [List.mem_map, List.mem_filter, decide_eq_true_eq, List.mem_dedup]
    constructor
    · rintro ⟨subscriber, ⟨-, hreleased⟩, rfl⟩
      exact hreleased
    · intro hreleased
      have hgiven : k ∈ (given past).map (·.1) := by
        rw [hs.handles, List.mem_range]
        exact hs.releases k hreleased
      obtain ⟨subscriber, hmem, rfl⟩ := List.mem_map.mp hgiven
      exact ⟨subscriber, ⟨hmem, hreleased⟩, rfl⟩
  have hlength := hgone.length_eq
  rw [List.length_map] at hlength
  have hsplit := List.length_eq_length_filter_add (l := given past) fun x =>
    decide (x.1 ∈ released past)
  rw [size, hs.subscribers, live, ← hlength]
  simp only [decide_not]
  omega

theorem lawful (hs : Follows past s) : Lawful past s := { hs with conserved := hs.conserved }

-- A handle that was released before has no subscriber any more.
theorem release_again (hs : Follows past s) {k : Nat} (hk : k ∈ released past) :
    s.release k = s := by
  have hsame : s.subscribers.filter (·.1 ≠ k) = s.subscribers := by
    refine List.filter_eq_self.mpr fun subscriber hmem => ?_
    rw [hs.subscribers, live, List.mem_filter] at hmem
    have hnot : subscriber.1 ∉ released past := by simpa using hmem.2
    simpa using fun heq : subscriber.1 = k => hnot (heq ▸ hk)
  rw [release, hsame]

theorem shut_concat (hs : Follows past s) {what : Happening κ}
    (h : what.given? = none ∨ s.failure = none) :
    (past ++ [what]).Pairwise fun earlier later =>
      earlier.failure?.isSome → later.given? = none := by
  refine List.pairwise_append.mpr ⟨hs.shut, List.pairwise_singleton .., ?_⟩
  intro earlier hearlier later hlater hfailure
  obtain rfl := List.mem_singleton.mp hlater
  rcases h with hgiven | hopen
  · exact hgiven
  · obtain ⟨e, he⟩ := Option.isSome_iff_exists.mp hfailure
    have hmem : e ∈ failures past := List.mem_filterMap.mpr ⟨earlier, hearlier, he⟩
    have hnone : failures past = [] := by simpa [hs.failure] using hopen
    rw [hnone] at hmem
    cases hmem

theorem subscribed (hs : Follows past s) (hopen : s.failure = none) (subscriber : κ) :
    Follows (past ++ [.subscribed s.nextHandle subscriber]) (s.entered subscriber) where
  subscribers := by
    have hnew : s.nextHandle ∉ released past := fun hmem => Nat.lt_irrefl _ (hs.releases _ hmem)
    simp [entered, live, Happening.given?, Happening.released?, hnew, hs.subscribers]
  handles := by simp [entered, Happening.given?, hs.handles, List.range_succ]
  releases k hk :=
    Nat.lt_succ_of_lt (hs.releases k (by simpa [Happening.released?] using hk))
  attempts := by simp [entered, Happening.isAttempt, hs.attempts]
  failure := by simp [entered, Happening.failure?, hs.failure]
  shut := hs.shut_concat (.inr hopen)

theorem released (hs : Follows past s) {k : Nat} (hk : k < s.nextHandle) :
    Follows (past ++ [.released k]) (s.release k) where
  subscribers := by
    simp only [release, hs.subscribers, live, given_concat, released_concat, Happening.given?,
      Happening.released?, Option.toList_none, Option.toList_some, List.append_nil,
      List.filter_filter, List.mem_append, List.mem_singleton, not_or, Bool.decide_and,
      Bool.and_comm]
  handles := by simp [release, Happening.given?, hs.handles]
  releases j hj := by
    have hj : j ∈ Source.released past ∨ j = k := by simpa [Happening.released?] using hj
    rcases hj with hj | rfl
    · exact hs.releases j hj
    · exact hk
  attempts := by simp [release, Happening.isAttempt, hs.attempts]
  failure := by simp [release, Happening.failure?, hs.failure]
  shut := hs.shut_concat (.inl rfl)

theorem failed (hs : Follows past s) (e : SourceError) :
    Follows (past ++ [.failed e]) (s.failWith e) where
  subscribers := by
    simp [failWith, live, Happening.given?, Happening.released?, hs.subscribers]
  handles := by simp [failWith, Happening.given?, hs.handles]
  releases k hk := hs.releases k (by simpa [Happening.released?] using hk)
  attempts := by simp [failWith, Happening.isAttempt, hs.attempts]
  failure := by simp [failWith, Happening.failure?]
  shut := hs.shut_concat (.inl rfl)

-- Who is refused or called changes nothing, but attempts are counted.
theorem noted (hs : Follows past s) (what : Happening κ) (hgiven : what.given? = none)
    (hreleased : what.released? = none) (hfailure : what.failure? = none) :
    Follows (past ++ [what]) { s with attempts := s.attempts + what.isAttempt.toNat } where
  subscribers := by simp [live, hgiven, hreleased, hs.subscribers]
  handles := by simp [hgiven, hs.handles]
  releases k hk := hs.releases k (by simpa [hreleased] using hk)
  attempts := by cases hattempt : what.isAttempt <;> simp [hattempt, hs.attempts]
  failure := by simp [hfailure, hs.failure]
  shut := hs.shut_concat (.inl hgiven)

end Follows

-- Either way of releasing a hold has the same effect.
theorem Hold.unsubscribe_eq_drop (hold : Hold) (s : Source κ) :
    hold.unsubscribe s = hold.drop s := by
  cases hold with
  | mk handle => cases handle <;> rfl

theorem Hold.drop_eq {hold : Hold} {s : Source κ} {k : Nat}
    (h : hold.handle = some k ∨ hold.handle = none ∧ s.release k = s) :
    hold.drop s = ({ handle := none }, s.release k) := by
  obtain ⟨handle⟩ := hold
  rcases h with rfl | ⟨rfl, hsame⟩
  · rfl
  · rw [hsame]
    rfl

namespace Scene

variable {scene : Scene κ} {react : Reaction κ}

theorem happened_note (what : Happening κ) (scene : Scene κ) :
    (scene.note what).happened = scene.happened ++ [what] := by
  simp [happened, note]

-- The hold of a number after a past, if so many were given out.
def holdAt? (past : List (Happening κ)) (k : Nat) : Option Hold :=
  if k < (given past).length then some { handle := if k ∈ released past then none else some k }
  else none

-- The past tells the source at every moment, and which holds are not released by now.
structure Sound (scene : Scene κ) : Prop where
  follows : Follows scene.happened scene.source
  moments : ∀ past what s, past ++ [(what, s)] <+: scene.past → Follows (past.map (·.1) ++ [what]) s
  holds : ∀ k, scene.holds[k]? = holdAt? scene.happened k

namespace Sound

theorem start : ({} : Scene κ).Sound where
  follows := .start
  moments past what s hmoment := by
    have hnil := List.prefix_nil.mp hmoment
    simp at hnil
  holds k := rfl

theorem concat (hscene : scene.Sound) {what : Happening κ} {source : Source κ} {holds : List Hold}
    (hfollows : Follows (scene.happened ++ [what]) source)
    (hholds : ∀ k, holds[k]? = holdAt? (scene.happened ++ [what]) k) :
    ({ scene with source, holds }.note what).Sound where
  follows := by
    rw [happened_note]
    exact hfollows
  moments past now s hmoment := by
    rcases List.prefix_concat_iff.mp hmoment with hlast | hearlier
    · obtain ⟨rfl, hsame⟩ := List.append_inj' hlast rfl
      obtain ⟨rfl, rfl⟩ := Prod.mk.inj (List.singleton_inj.mp hsame)
      exact hfollows
    · exact hscene.moments past now s hearlier
  holds k := by
    rw [happened_note]
    exact hholds k

theorem noted (hscene : scene.Sound) (what : Happening κ) (hgiven : what.given? = none)
    (hreleased : what.released? = none) (hfailure : what.failure? = none) :
    ({ scene with
      source.attempts := scene.source.attempts + what.isAttempt.toNat }.note what).Sound := by
  refine hscene.concat (hscene.follows.noted what hgiven hreleased hfailure) fun k => ?_
  simpa [holdAt?, hgiven, hreleased] using hscene.holds k

theorem drop (hscene : scene.Sound) (k : Nat) : (scene.release Hold.drop k).Sound := by
  unfold release
  split
  · next hold hhold =>
    obtain ⟨hk, hhandle⟩ := Option.ite_none_right_eq_some.mp ((hscene.holds k).symm.trans hhold)
    have hstate : hold.handle = some k ∨
        hold.handle = none ∧ scene.source.release k = scene.source := by
      obtain rfl := Option.some.inj hhandle
      by_cases hmem : k ∈ released scene.happened
      · exact .inr ⟨if_pos hmem, hscene.follows.release_again hmem⟩
      · exact .inl (if_neg hmem)
    have hlength : k < scene.holds.length := (List.getElem?_eq_some_iff.mp hhold).1
    rw [Hold.drop_eq hstate]
    refine hscene.concat (hscene.follows.released (hscene.follows.length_given ▸ hk)) fun j => ?_
    rw [List.getElem?_set]
    by_cases hj : k = j
    · subst hj
      simp [holdAt?, Happening.given?, Happening.released?, hlength, hk]
    · rw [if_neg hj, hscene.holds j]
      simp [holdAt?, Happening.given?, Happening.released?, Ne.symm hj]
  · exact hscene

theorem length_holds (hscene : scene.Sound) :
    scene.holds.length = (given scene.happened).length := by
  refine Nat.le_antisymm ?_ (Nat.le_of_not_lt fun hlt => ?_)
  · apply List.getElem?_eq_none_iff.mp
    rw [hscene.holds, holdAt?, if_neg (Nat.lt_irrefl _)]
  · have hlast := hscene.holds scene.holds.length
    simp [holdAt?, hlt] at hlast

theorem subscribe (hscene : scene.Sound) (subscriber : κ) :
    (scene.act (.subscribe subscriber)).Sound := by
  cases hfailure : scene.source.failure with
  | some e =>
    simp only [Scene.act, subscribe_of_failed hfailure]
    exact hscene.noted (.refused subscriber e) rfl rfl rfl
  | none =>
    simp only [Scene.act, subscribe_of_open hfailure]
    refine hscene.concat (hscene.follows.subscribed hfailure subscriber) fun k => ?_
    have hlength := hscene.length_holds
    have hnext := hscene.follows.length_given
    have hnew : scene.source.nextHandle ∉ released scene.happened := fun hmem =>
      Nat.lt_irrefl _ (hscene.follows.releases _ hmem)
    rcases Nat.lt_trichotomy k scene.source.nextHandle with hlt | rfl | hgt
    · rw [List.getElem?_append_left (by omega), hscene.holds k]
      simp [holdAt?, Happening.given?, Happening.released?, hnext, hlt, Nat.lt_succ_of_lt hlt]
    · rw [← hnext, ← hlength, List.getElem?_concat_length, hlength, hnext]
      simp [holdAt?, Happening.given?, Happening.released?, hnext, hnew]
    · rw [List.getElem?_eq_none (by simp; omega), holdAt?, if_neg]
      simp [Happening.given?]
      omega

theorem fail (hscene : scene.Sound) (e : SourceError) : (scene.act (.fail e)).Sound := by
  refine hscene.concat (hscene.follows.failed e) fun k => ?_
  simpa [holdAt?, Happening.given?, Happening.released?] using hscene.holds k

theorem act (hscene : scene.Sound) (a : Act κ) : (scene.act a).Sound := by
  cases a with
  | subscribe subscriber => exact hscene.subscribe subscriber
  | unsubscribe k =>
    have hroute : @Hold.unsubscribe κ = Hold.drop := by
      funext hold s
      exact hold.unsubscribe_eq_drop s
    simp only [Scene.act, hroute]
    exact hscene.drop k
  | drop k => exact hscene.drop k
  | fail e => exact hscene.fail e

theorem call (hscene : scene.Sound) (e : ClientEvent) (subscriber : Nat × κ) :
    (scene.call react e subscriber).Sound := by
  have hacts (acts : List (Act κ)) {scene : Scene κ} (hscene : scene.Sound) :
      (acts.foldl Scene.act scene).Sound := by
    induction acts generalizing scene with
    | nil => exact hscene
    | cons a rest ih => exact ih (hscene.act a)
  exact hacts _ (hscene.noted (.called subscriber e) rfl rfl rfl)

theorem publish (hscene : scene.Sound) (e : ClientEvent) (order : Order κ) :
    (scene.publish react e order).1.Sound := by
  have hcalls (subscribers : List (Nat × κ)) {scene : Scene κ} (hscene : scene.Sound) :
      (subscribers.foldl (fun scene subscriber => scene.call react e subscriber) scene).Sound := by
    induction subscribers generalizing scene with
    | nil => exact hscene
    | cons subscriber rest ih => exact ih (hscene.call e subscriber)
  exact hcalls _ hscene

theorem run (react : Reaction κ) (steps : List (Step κ)) : (Scene.run react steps).Sound := by
  induction steps using List.reverseRecOn with
  | nil => exact start
  | append_singleton steps s ih =>
    rw [run_concat]
    cases s with
    | act a => exact ih.act a
    | publish e order => exact ih.publish e order

end Sound

theorem happened_act (hscene : scene.Sound) (a : Act κ) :
    (scene.act a).happened = scene.happened ++ a.outcome scene.happened := by
  have hrelease (route : Hold → Source κ → Hold × Source κ) (k : Nat) :
      (scene.release route k).happened =
        scene.happened ++ if k < (given scene.happened).length then [.released k] else [] := by
    rw [release, hscene.holds k, holdAt?]
    by_cases hk : k < (given scene.happened).length
    · rw [if_pos hk, if_pos hk]
      exact happened_note ..
    · rw [if_neg hk, if_neg hk]
      exact (List.append_nil _).symm
  cases a with
  | subscribe subscriber =>
    simp only [Act.outcome, ← hscene.follows.failure, hscene.follows.length_given]
    cases hfailure : scene.source.failure with
    | some e =>
      simp only [act, subscribe_of_failed hfailure]
      exact happened_note ..
    | none =>
      simp only [act, subscribe_of_open hfailure]
      exact happened_note ..
  | unsubscribe k => exact hrelease Hold.unsubscribe k
  | drop k => exact hrelease Hold.drop k
  | fail e => exact happened_note ..

-- Nobody is called by an act.
theorem calls_act (hscene : scene.Sound) (a : Act κ) :
    calls (scene.act a).happened = calls scene.happened := by
  have hquiet : calls (a.outcome scene.happened) = [] := by
    cases a with
    | subscribe subscriber =>
      simp only [Act.outcome]
      split <;> rfl
    | unsubscribe k | drop k =>
      simp only [Act.outcome]
      split <;> rfl
    | fail e => rfl
  rw [happened_act hscene, calls, List.filterMap_append, ← calls, ← calls, hquiet, List.append_nil]

theorem calls_call (hscene : scene.Sound) (e : ClientEvent) (subscriber : Nat × κ) :
    calls (scene.call react e subscriber).happened =
      calls scene.happened ++ [(subscriber, e)] := by
  have hacts (acts : List (Act κ)) {scene : Scene κ} (hscene : scene.Sound) :
      calls (acts.foldl act scene).happened = calls scene.happened := by
    induction acts generalizing scene with
    | nil => rfl
    | cons a rest ih => exact (ih (hscene.act a)).trans (calls_act hscene a)
  have hnoted : (scene.note (.called subscriber e)).Sound :=
    hscene.noted (.called subscriber e) rfl rfl rfl
  rw [call, hacts _ hnoted, happened_note, calls_concat]
  rfl

theorem calls_publish (hscene : scene.Sound) (e : ClientEvent) (order : Order κ) :
    calls (scene.publish react e order).1.happened =
      calls scene.happened ++ (order.arrange scene.source.subscribers).map (·, e) := by
  have hcalls (subscribers : List (Nat × κ)) {scene : Scene κ} (hscene : scene.Sound) :
      calls (subscribers.foldl (fun scene subscriber => scene.call react e subscriber)
        scene).happened = calls scene.happened ++ subscribers.map (·, e) := by
    induction subscribers generalizing scene with
    | nil => simp
    | cons subscriber rest ih =>
      rw [List.foldl_cons, ih (hscene.call e subscriber), calls_call hscene, List.append_assoc]
      rfl
  exact hcalls _ hscene

-- What a source promises, given what happened there and what subscribers do when they are called.
structure Faithful (react : Reaction κ) (scene : Scene κ) : Prop where
  now : Lawful scene.happened scene.source
  -- This holds at every moment, also while subscribers are called.
  always : ∀ past what s, past ++ [(what, s)] <+: scene.past →
    Lawful (past.map (·.1) ++ [what]) s
  -- A release takes out the subscriber of the handle and nobody else, and only once.
  releases : ∀ past what s k t, past ++ [(what, s), (.released k, t)] <+: scene.past →
    t = { s with subscribers := s.subscribers.filter (·.1 ≠ k) } ∧
      (k ∈ released (past.map (·.1) ++ [what]) → t = s)
  acts : ∀ a, (scene.act a).happened = scene.happened ++ a.outcome scene.happened
  publishes : ∀ e order, ∃ reached : List (Nat × κ), reached.Perm (live scene.happened) ∧
    (scene.publish react e order).2 = reached.length ∧
      calls (scene.publish react e order).1.happened =
        calls scene.happened ++ reached.map (·, e)

-- Whatever is done with a source, also by subscribers while they are called, it keeps its promises.
theorem run_faithful (react : Reaction κ) (steps : List (Step κ)) :
    (run react steps).Faithful react := by
  have hscene := Sound.run react steps
  constructor
  case now => exact hscene.follows.lawful
  case always =>
    intro past what s hmoment
    exact (hscene.moments past what s hmoment).lawful
  case releases =>
    intro past what s k t hmoment
    have hbefore : Follows (past.map (·.1) ++ [what]) s := by
      refine hscene.moments past what s (List.IsPrefix.trans ?_ hmoment)
      exact ⟨[(.released k, t)], by simp⟩
    have hafter : Follows (past.map (·.1) ++ [what] ++ [.released k]) t := by
      simpa using hscene.moments (past ++ [(what, s)]) (.released k) t (by simpa using hmoment)
    have hk : k < s.nextHandle := by
      have hnext : t.nextHandle = s.nextHandle := by
        rw [← hafter.length_given, ← hbefore.length_given, given_concat, Happening.given?,
          Option.toList_none, List.append_nil]
      have hmem : k ∈ released (past.map (·.1) ++ [what] ++ [.released k]) := by
        rw [released_concat]
        exact List.mem_append_right _ (List.mem_singleton_self k)
      exact hnext ▸ hafter.releases k hmem
    have hrelease : t = s.release k := hafter.unique (hbefore.released hk)
    exact ⟨hrelease, fun hagain => hrelease.trans (hbefore.release_again hagain)⟩
  case acts => exact happened_act hscene
  case publishes =>
    intro e order
    have hperm := order.perm (run react steps).source.subscribers
    rw [hscene.follows.subscribers] at hperm
    refine ⟨order.arrange (run react steps).source.subscribers, ?_, rfl,
      calls_publish hscene e order⟩
    rwa [hscene.follows.subscribers]

-- Everybody is called even if the first one who is called ends all subscriptions.
example :
    let react : Reaction Bool := fun subscriber _ _ =>
      if subscriber.2 then [.unsubscribe 0, .drop 1, .drop 0] else []
    let scene := run react [.act (.subscribe true), .act (.subscribe false)]
    let (after, reached) := scene.publish react (.other "sync") ⟨id, fun _ => .refl _⟩
    reached = 2 ∧ (calls after.happened).length = 2 ∧ after.source.size = 0 := by
  decide

end Scene

end ChatRelay.Source
