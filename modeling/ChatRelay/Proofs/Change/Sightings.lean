import ChatRelay.Change.Sightings
import ChatRelay.Proofs.Table

namespace ChatRelay.Sightings

variable {limits : SightingLimits} {now : Nat} {s : Sightings}

theorem isRepeat_iff {fingerprint : String} :
    s.isRepeat limits now fingerprint = true ↔
      ∃ sighted, s.latest.get? fingerprint = some sighted ∧ now - sighted < limits.debounce := by
  simp [isRepeat, Option.any_eq_true]

theorem get?_prune (limits : SightingLimits) (now : Nat) (s : Sightings) (key : String) :
    (s.prune limits now).latest.get? key = s.latest.get? key ∨
      (s.prune limits now).latest.get? key = none ∧
        ∃ sighted, s.latest.get? key = some sighted ∧ limits.retention < now - sighted := by
  unfold prune
  split
  · exact .inl rfl
  · simp only [Table.get?_filter]
    cases s.latest.get? key with
    | none => exact .inl rfl
    | some sighted =>
      simp only [Option.filter_some, decide_eq_true_eq]
      by_cases hold : now - sighted ≤ limits.retention
      · exact .inl (if_pos hold)
      · exact .inr ⟨if_neg hold, sighted, rfl, by omega⟩

theorem get?_sight_self (fingerprint : String) :
    (s.sight limits now fingerprint).1.latest.get? fingerprint = some now := by
  have hinsert : (s.latest.insert fingerprint now).get? fingerprint = some now := by
    rw [Table.get?_insert, if_pos rfl]
  rcases get?_prune limits now { s with latest := s.latest.insert fingerprint now } fingerprint
    with hkept | ⟨-, t, ht, hold⟩
  · exact hkept.trans hinsert
  · obtain rfl : now = t := Option.some.inj (hinsert.symm.trans ht)
    omega

theorem get?_sight_of_ne {fingerprint key : String} (hne : key ≠ fingerprint) :
    (s.sight limits now fingerprint).1.latest.get? key = s.latest.get? key ∨
      (s.sight limits now fingerprint).1.latest.get? key = none ∧
        ∃ sighted, s.latest.get? key = some sighted ∧ limits.retention < now - sighted := by
  have hinsert : (s.latest.insert fingerprint now).get? key = s.latest.get? key := by
    rw [Table.get?_insert, if_neg hne]
  have hprune := get?_prune limits now { s with latest := s.latest.insert fingerprint now } key
  rwa [hinsert] at hprune

end ChatRelay.Sightings
