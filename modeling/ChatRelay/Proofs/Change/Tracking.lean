import ChatRelay.Proofs.Change.Debounce

namespace ChatRelay.Sightings

variable {limits : SightingLimits} {now : Nat} {s : Sightings} {fingerprint : String}

-- What is tracked, seen from the moment of the last pruning: it cannot be long ago, and what was too
-- old then is gone. What came in later is younger still.
structure PrunedAt (limits : SightingLimits) (now moment : Nat) (s : Sightings) : Prop where
  lastPruned : s.lastPruned = some moment
  past : moment ≤ now
  recent : now ≤ moment + limits.pruneInterval
  kept : ∀ key sighted, s.latest.get? key = some sighted → moment ≤ sighted + limits.retention

-- Either it is too early to prune, or everything that is too old goes.
theorem prune_cases (limits : SightingLimits) (now : Nat) (s : Sightings) :
    (∃ moment, s.lastPruned = some moment ∧ now - moment < limits.pruneInterval ∧
        s.prune limits now = s) ∨
      (s.prune limits now).lastPruned = some now ∧
        ∀ key sighted, (s.prune limits now).latest.get? key = some sighted →
          now ≤ sighted + limits.retention := by
  unfold prune
  split
  · next hearly =>
    obtain ⟨moment, hmoment, hshort⟩ := (Option.any_eq_true _ _).mp hearly
    exact .inl ⟨moment, hmoment, by simpa using hshort, rfl⟩
  · refine .inr ⟨rfl, fun key sighted hget => ?_⟩
    rw [Table.get?_filter, Option.filter_eq_some_iff, decide_eq_true_eq] at hget
    omega

-- A pruning that is due makes this the moment; until the next one only younger entries come in.
theorem prunedAt_sight (hbefore : ∀ moment, s.lastPruned = some moment →
    ∃ earlier ≤ now, PrunedAt limits earlier moment s) :
    ∃ moment, PrunedAt limits now moment (s.sight limits now fingerprint).1 := by
  rcases prune_cases limits now { s with latest := s.latest.insert fingerprint now } with
    ⟨moment, hlast, hshort, hsame⟩ | ⟨hlast, hkept⟩
  · obtain ⟨earlier, hearlier, hpruned⟩ := hbefore moment hlast
    have hpast : moment ≤ now := Nat.le_trans hpruned.past hearlier
    refine ⟨moment, ?_, hpast, by omega, fun key sighted hget => ?_⟩
    · rw [sight, hsame]
      exact hlast
    · rw [sight, hsame, Table.get?_insert] at hget
      split at hget
      · obtain rfl := Option.some.inj hget
        omega
      · exact hpruned.kept key sighted hget
  · exact ⟨now, hlast, Nat.le_refl now, Nat.le_add_right .., hkept⟩

-- By induction on the queries before the last one, which the clock has not passed.
theorem prunedAt_remembered (limits : SightingLimits) {before : List Query} {q : Query}
    (hclock : Clocked (before ++ [q])) :
    ∃ moment, PrunedAt limits q.now moment (remembered limits (before ++ [q])) := by
  induction before using List.reverseRecOn generalizing q with
  | nil => exact prunedAt_sight fun moment hlast => nomatch hlast
  | append_singleton before p ih =>
    obtain ⟨hearlier, -, hlater⟩ := List.pairwise_append.mp hclock
    obtain ⟨moment, hpruned⟩ := ih hearlier
    rw [remembered_concat limits (before ++ [p])]
    refine prunedAt_sight fun moment' hlast => ⟨p.now, hlater p (by simp) q (by simp), ?_⟩
    obtain rfl : moment = moment' := Option.some.inj (hpruned.lastPruned.symm.trans hlast)
    exact hpruned

section

variable {queries : List Query} {p q : Query}

-- Of the queries for one fingerprint the last one is the latest one.
theorem exists_last?_of_mem (hclock : Clocked queries) (hp : p ∈ queries) :
    ∃ last, last? p.fingerprint queries = some last ∧ p.now ≤ last.now := by
  induction queries using List.reverseRecOn with
  | nil => cases hp
  | append_singleton queries q ih =>
    obtain ⟨hearlier, -, hlater⟩ := List.pairwise_append.mp hclock
    rw [last?_concat]
    by_cases hq : q.fingerprint = p.fingerprint
    · rw [if_pos hq]
      refine ⟨q, rfl, ?_⟩
      rcases List.mem_append.mp hp with hp | hp
      · exact hlater p hp q (by simp)
      · rw [List.mem_singleton.mp hp]
    · rw [if_neg hq]
      rcases List.mem_append.mp hp with hp | hp
      · exact ih hearlier hp
      · exact absurd (congrArg Query.fingerprint (List.mem_singleton.mp hp).symm) hq

theorem last?_of_get?_remembered {sighted : Nat}
    (hget : (remembered limits queries).latest.get? fingerprint = some sighted) :
    ∃ last, last? fingerprint queries = some last ∧ last.now = sighted := by
  rcases get?_remembered limits queries fingerprint with hlatest | ⟨hnone, -⟩
  · exact Option.map_eq_some_iff.mp (hlatest.symm.trans hget)
  · cases hnone.symm.trans hget

-- Only what no query was for within the retention is forgotten.
theorem get?_remembered_of_recent (hclock : Clocked queries) (hnow : ∀ x ∈ queries, x.now ≤ now)
    (hp : p ∈ queries) (hrecent : now ≤ p.now + limits.retention) :
    ∃ sighted, (remembered limits queries).latest.get? p.fingerprint = some sighted := by
  obtain ⟨last, hlast, hlate⟩ := exists_last?_of_mem hclock hp
  rcases get?_remembered limits queries p.fingerprint with hlatest | ⟨-, last', hlast', x, hx, hold⟩
  · exact ⟨last.now, by rw [hlatest, hlast]; rfl⟩
  · obtain rfl : last = last' := Option.some.inj (hlast.symm.trans hlast')
    have hx : x.now ≤ now := hnow x hx
    omega

theorem le_of_clocked {before : List Query} (hclock : Clocked (before ++ [q])) :
    ∀ x ∈ before ++ [q], x.now ≤ q.now := by
  intro x hx
  rcases List.mem_append.mp hx with hx | hx
  · exact (List.pairwise_append.mp hclock).2.2 x hx q (by simp)
  · rw [List.mem_singleton.mp hx]

end

theorem mem_keys_latest_iff :
    fingerprint ∈ s.latest.keys ↔ ∃ sighted, s.latest.get? fingerprint = some sighted := by
  simp only [Table.keys, List.mem_map, Table.get?_eq_some_iff, Prod.exists, exists_and_right,
    exists_eq_right]

-- What is tracked after a query of a sequence, whatever the limits are. Every tracked fingerprint
-- has a last query, which cannot be long ago, and everything lately asked for is tracked.
theorem tracked_within (limits : SightingLimits) {before : List Query} {q : Query}
    (hclock : Clocked (before ++ [q])) :
    let s := remembered limits (before ++ [q])
    s.size = s.latest.keys.length ∧ s.latest.keys.Nodup ∧
      (∀ fingerprint ∈ s.latest.keys, ∃ earlier last later,
        before ++ [q] = earlier ++ last :: later ∧ last.fingerprint = fingerprint ∧
          (∀ p ∈ later, p.fingerprint ≠ fingerprint) ∧
          q.now ≤ last.now + limits.retention + limits.pruneInterval) ∧
      (∀ p ∈ before ++ [q], q.now ≤ p.now + limits.retention → p.fingerprint ∈ s.latest.keys) ∧
      q.fingerprint ∈ s.latest.keys := by
  have hrecent : ∀ p ∈ before ++ [q], q.now ≤ p.now + limits.retention →
      p.fingerprint ∈ (remembered limits (before ++ [q])).latest.keys := fun p hp hage =>
    mem_keys_latest_iff.mpr (get?_remembered_of_recent hclock (le_of_clocked hclock) hp hage)
  refine ⟨by simp [size, Table.size, Table.keys], Table.keys_nodup _, ?_, hrecent,
    hrecent q (by simp) (Nat.le_add_right ..)⟩
  intro fingerprint hmem
  obtain ⟨sighted, hget⟩ := mem_keys_latest_iff.mp hmem
  obtain ⟨last, hlast, rfl⟩ := last?_of_get?_remembered hget
  obtain ⟨earlier, later, hsplit, hof, hlater⟩ := last?_eq_some_iff.mp hlast
  obtain ⟨moment, hpruned⟩ := prunedAt_remembered limits hclock
  have hkept : moment ≤ last.now + limits.retention := hpruned.kept _ _ hget
  have hage : q.now ≤ moment + limits.pruneInterval := hpruned.recent
  exact ⟨earlier, last, later, hsplit, hof, hlater, by omega⟩

-- The pruning at 5000 only just keeps what was sighted at 4990, and nothing is pruned after that.
def lingering : List Query := [⟨"x", 0⟩, ⟨"a", 4990⟩, ⟨"b", 5000⟩, ⟨"c", 9999⟩]

theorem lingering_tracked_within :
    let limits : SightingLimits := { retention := 10 }
    Clocked lingering ∧ (remembered limits lingering).latest.keys = ["a", "b", "c"] ∧
      (remembered limits lingering).size = 3 ∧
      (∃ earlier last later, lingering = earlier ++ last :: later ∧ last.fingerprint = "a" ∧
        (∀ p ∈ later, p.fingerprint ≠ "a") ∧
        9999 ≤ last.now + limits.retention + limits.pruneInterval) := by
  intro limits
  have hclock : Clocked lingering := by decide
  have hkeys : (remembered limits lingering).latest.keys = ["a", "b", "c"] := by decide +kernel
  obtain ⟨hsize, -, hage, -, -⟩ := @tracked_within limits (lingering.take 3) ⟨"c", 9999⟩ hclock
  have hmem : "a" ∈ (remembered limits lingering).latest.keys := by
    rw [hkeys]
    exact List.mem_cons_self
  exact ⟨hclock, hkeys, hsize.trans (congrArg List.length hkeys), hage "a" hmem⟩

end ChatRelay.Sightings
