import Mathlib.Data.List.Induction
import ChatRelay.Proofs.Change.Sightings

namespace ChatRelay.Sightings

-- A fingerprint, and the moment at which somebody asks whether it is a repeat.
structure Query where
  fingerprint : String
  now : Nat
deriving DecidableEq

-- What is remembered after the queries, if nothing was before.
def remembered (limits : SightingLimits) (queries : List Query) : Sightings :=
  queries.foldl (fun s q => (s.sight limits q.now q.fingerprint).1) {}

-- The answers to the queries, in their order.
def answers (limits : SightingLimits) (s : Sightings) : List Query → List Bool
  | [] => []
  | q :: rest =>
    let (s, isRepeated) := s.sight limits q.now q.fingerprint
    isRepeated :: answers limits s rest

-- The clock does not go back from one query to a later one.
def Clocked (queries : List Query) : Prop := queries.Pairwise fun p q => p.now ≤ q.now

instance (queries : List Query) : Decidable (Clocked queries) :=
  inferInstanceAs (Decidable (queries.Pairwise _))

-- The last query for a fingerprint was less than the debounce time ago.
def Repeats (debounce : Nat) (before : List Query) (q : Query) : Prop :=
  ∃ earlier last later, before = earlier ++ last :: later ∧
    last.fingerprint = q.fingerprint ∧ (∀ p ∈ later, p.fingerprint ≠ q.fingerprint) ∧
    q.now - last.now < debounce

-- The last query for a fingerprint.
def last? (fingerprint : String) (queries : List Query) : Option Query :=
  queries.reverse.find? (·.fingerprint = fingerprint)

theorem last?_concat (fingerprint : String) (queries : List Query) (q : Query) :
    last? fingerprint (queries ++ [q]) =
      if q.fingerprint = fingerprint then some q else last? fingerprint queries := by
  by_cases hq : q.fingerprint = fingerprint <;> simp [last?, hq]

theorem last?_eq_some_iff {fingerprint : String} {queries : List Query} {last : Query} :
    last? fingerprint queries = some last ↔
      ∃ earlier later, queries = earlier ++ last :: later ∧ last.fingerprint = fingerprint ∧
        ∀ p ∈ later, p.fingerprint ≠ fingerprint := by
  rw [last?, List.find?_eq_some_iff_append]
  simp only [decide_eq_true_eq, Bool.not_eq_true', decide_eq_false_iff_not]
  constructor
  · rintro ⟨hlast, newer, older, hsplit, hnewer⟩
    refine ⟨older.reverse, newer.reverse, ?_, hlast, fun p hp => hnewer p (List.mem_reverse.mp hp)⟩
    rw [← List.reverse_reverse queries, hsplit, List.reverse_append, List.reverse_cons,
      List.append_assoc, List.singleton_append]
  · rintro ⟨earlier, later, rfl, hlast, hlater⟩
    exact ⟨hlast, later.reverse, earlier.reverse, by simp,
      fun p hp => hlater p (List.mem_reverse.mp hp)⟩

theorem repeats_iff {debounce : Nat} {before : List Query} {q : Query} :
    Repeats debounce before q ↔
      ∃ last, last? q.fingerprint before = some last ∧ q.now - last.now < debounce := by
  simp only [Repeats, last?_eq_some_iff]
  constructor
  · rintro ⟨earlier, last, later, hsplit, hlast, hlater, hshort⟩
    exact ⟨last, ⟨earlier, later, hsplit, hlast, hlater⟩, hshort⟩
  · rintro ⟨last, ⟨earlier, later, hsplit, hlast, hlater⟩, hshort⟩
    exact ⟨earlier, last, later, hsplit, hlast, hlater, hshort⟩

theorem remembered_concat (limits : SightingLimits) (queries : List Query) (q : Query) :
    remembered limits (queries ++ [q]) =
      ((remembered limits queries).sight limits q.now q.fingerprint).1 := by
  simp [remembered]

-- By induction on the queries. What is remembered of a fingerprint is its last query; if that was
-- forgotten, one of the queries came when it was older than the retention.
theorem get?_remembered (limits : SightingLimits) (queries : List Query) (fingerprint : String) :
    (remembered limits queries).latest.get? fingerprint =
        (last? fingerprint queries).map (·.now) ∨
      (remembered limits queries).latest.get? fingerprint = none ∧
        ∃ last, last? fingerprint queries = some last ∧
          ∃ p ∈ queries, limits.retention < p.now - last.now := by
  induction queries using List.reverseRecOn with
  | nil => exact .inl rfl
  | append_singleton queries q ih =>
    rw [remembered_concat, last?_concat]
    by_cases hq : q.fingerprint = fingerprint
    · subst hq
      rw [if_pos rfl, get?_sight_self]
      exact .inl rfl
    · rw [if_neg hq]
      have hsight := @get?_sight_of_ne limits q.now (remembered limits queries) _ _ (Ne.symm hq)
      rcases hsight with hkept | ⟨hgone, sighted, hsighted, hold⟩
      · rw [hkept]
        refine ih.imp_right ?_
        rintro ⟨hnone, last, hlast, p, hp, hpast⟩
        exact ⟨hnone, last, hlast, p, List.mem_append_left _ hp, hpast⟩
      · refine .inr ⟨hgone, ?_⟩
        rcases ih with hlatest | ⟨hnone, -⟩
        · obtain ⟨last, hlast, rfl⟩ := Option.map_eq_some_iff.mp (hlatest.symm.trans hsighted)
          exact ⟨last, hlast, q, by simp, hold⟩
        · cases hnone.symm.trans hsighted

section

variable {limits : SightingLimits} {before : List Query} {q : Query}

-- This does not depend on the clock or on the limits.
theorem repeats_of_isRepeat
    (h : (remembered limits before).isRepeat limits q.now q.fingerprint = true) :
    Repeats limits.debounce before q := by
  obtain ⟨sighted, hsighted, hshort⟩ := isRepeat_iff.mp h
  rcases get?_remembered limits before q.fingerprint with hlatest | ⟨hnone, -⟩
  · obtain ⟨last, hlast, rfl⟩ := Option.map_eq_some_iff.mp (hlatest.symm.trans hsighted)
    exact repeats_iff.mpr ⟨last, hlast, hshort⟩
  · cases hnone.symm.trans hsighted

theorem isRepeat_of_repeats (hlimits : limits.debounce ≤ limits.retention)
    (hclock : Clocked (before ++ [q])) (h : Repeats limits.debounce before q) :
    (remembered limits before).isRepeat limits q.now q.fingerprint = true := by
  obtain ⟨last, hlast, hshort⟩ := repeats_iff.mp h
  rcases get?_remembered limits before q.fingerprint with hlatest | ⟨-, last', hlast', p, hp, hold⟩
  · exact isRepeat_iff.mpr ⟨last.now, by rw [hlatest, hlast]; rfl, hshort⟩
  · obtain rfl := Option.some.inj (hlast.symm.trans hlast')
    have hlate : p.now ≤ q.now := (List.pairwise_append.mp hclock).2.2 p hp q (by simp)
    omega

theorem isRepeat_iff_repeats (hlimits : limits.debounce ≤ limits.retention)
    (hclock : Clocked (before ++ [q])) :
    (remembered limits before).isRepeat limits q.now q.fingerprint = true ↔
      Repeats limits.debounce before q :=
  ⟨repeats_of_isRepeat, isRepeat_of_repeats hlimits hclock⟩

-- Queries for other fingerprints may come and go.
theorem repeats_congr {before' : List Query}
    (h : before'.filter (·.fingerprint = q.fingerprint) =
      before.filter (·.fingerprint = q.fingerprint)) (debounce : Nat) :
    Repeats debounce before' q ↔ Repeats debounce before q := by
  have hlast : last? q.fingerprint before' = last? q.fingerprint before := by
    rw [last?, last?, ← List.head?_filter, ← List.head?_filter, List.filter_reverse,
      List.filter_reverse, h]
  rw [repeats_iff, repeats_iff, hlast]

end

theorem getElem?_answers (limits : SightingLimits) (before : List Query) (q : Query)
    (rest : List Query) :
    (answers limits {} (before ++ q :: rest))[before.length]? =
      some ((remembered limits before).isRepeat limits q.now q.fingerprint) := by
  have hfrom : ∀ (before : List Query) (s : Sightings),
      (answers limits s (before ++ q :: rest))[before.length]? =
        some ((before.foldl (fun s q => (s.sight limits q.now q.fingerprint).1) s).isRepeat limits
          q.now q.fingerprint) := by
    intro before
    induction before with
    | nil => intro s; rfl
    | cons p before ih =>
      intro s
      exact ih (s.sight limits p.now p.fingerprint).1
  exact hfrom before {}

-- One of a sequence of queries, with what came before it and what comes after.
theorem answered_by_history (limits : SightingLimits) (before : List Query) (q : Query)
    (rest : List Query) :
    ∃ answer, (answers limits {} (before ++ q :: rest))[before.length]? = some answer ∧
      (answer = true → Repeats limits.debounce before q) ∧
      (limits.debounce ≤ limits.retention → Clocked (before ++ [q]) →
        (answer = true ↔ Repeats limits.debounce before q) ∧
        ∀ (limits' : SightingLimits) (before' rest' : List Query),
          limits'.debounce = limits.debounce → limits'.debounce ≤ limits'.retention →
          Clocked (before' ++ [q]) →
          before'.filter (·.fingerprint = q.fingerprint) =
            before.filter (·.fingerprint = q.fingerprint) →
          (answers limits' {} (before' ++ q :: rest'))[before'.length]? = some answer) := by
  refine ⟨_, getElem?_answers limits before q rest, repeats_of_isRepeat,
    fun hlimits hclock => ⟨isRepeat_iff_repeats hlimits hclock, ?_⟩⟩
  intro limits' before' rest' hdebounce hlimits' hclock' hsame
  rw [getElem?_answers, Option.some.injEq, Bool.eq_iff_iff, isRepeat_iff_repeats hlimits' hclock',
    isRepeat_iff_repeats hlimits hclock, hdebounce]
  exact repeats_congr hsame limits.debounce

-- Limits under which a fingerprint is soon forgotten, and what is asked meanwhile.
def brief : SightingLimits := { debounce := 250, retention := 300, pruneInterval := 0 }

def asked : List Query := [⟨"a", 0⟩, ⟨"b", 100⟩, ⟨"a", 200⟩, ⟨"c", 600⟩, ⟨"a", 700⟩]

theorem asked_answered_by_history :
    (brief.debounce ≤ brief.retention ∧ Clocked asked) ∧
    answers brief {} asked = [false, false, true, false, false] ∧
    (remembered brief (asked.take 4)).latest.get? "a" = none ∧
    Repeats brief.debounce (asked.take 2) ⟨"a", 200⟩ ∧
    ¬Repeats brief.debounce (asked.take 4) ⟨"a", 700⟩ ∧
    (answers {} {} [⟨"a", 0⟩, ⟨"a", 200⟩])[1]? = some true := by
  have hanswers : answers brief {} asked = [false, false, true, false, false] := by decide +kernel
  obtain ⟨third, hthird, hrepeats, hclocked⟩ :=
    answered_by_history brief (asked.take 2) ⟨"a", 200⟩ (asked.drop 3)
  obtain rfl : true = third := Option.some.inj ((congrArg (·[2]?) hanswers).symm.trans hthird)
  obtain ⟨last, hlast, -, hclocked'⟩ :=
    answered_by_history brief (asked.take 4) ⟨"a", 700⟩ []
  obtain rfl : false = last := Option.some.inj ((congrArg (·[4]?) hanswers).symm.trans hlast)
  refine ⟨⟨by decide, by decide⟩, hanswers, by decide +kernel, hrepeats rfl, fun h => ?_, ?_⟩
  · exact Bool.false_ne_true ((hclocked' (by decide) (by decide)).1.mpr h)
  · exact (hclocked (by decide) (by decide)).2 {} [⟨"a", 0⟩] [] rfl (by decide) (by decide)
      (by decide)

end ChatRelay.Sightings
