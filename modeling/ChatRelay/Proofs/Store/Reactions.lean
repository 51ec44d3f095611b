import Mathlib.Data.List.Basic
import ChatRelay.Reader

namespace ChatRelay

namespace Store

variable {events others : List Event} {roomId target : String}

theorem filter_isReactionTo (events : List Event) (roomId target : String) :
    events.filter (isReactionTo roomId target) =
      (events.filter (·.roomId = roomId)).filter (isReactionTo roomId target) := by
  rw [List.filter_filter]
  refine List.filter_congr fun e _ => ?_
  by_cases h : e.roomId = roomId <;> simp [isReactionTo, h]

-- The events of other rooms do not matter.
theorem reactionsAmong_eq_of_filter
    (h : events.filter (·.roomId = roomId) = others.filter (·.roomId = roomId))
    (ids : List String) : reactionsAmong events roomId ids = reactionsAmong others roomId ids := by
  have hevents (target : String) :
      reactionEvents events roomId target = reactionEvents others roomId target := by
    rw [reactionEvents, reactionEvents, filter_isReactionTo, h, ← filter_isReactionTo]
  simp only [reactionsAmong, hevents]

-- No two of the reactions to one event in the room have one time.
def HasDistinctTimesIn (s : Store) (roomId : String) : Prop :=
  ∀ target, (s.events.values.filter (isReactionTo roomId target)).Pairwise
    fun a b => a.timestamp ≠ b.timestamp

def HasDistinctTimes (s : Store) : Prop :=
  ∀ roomId, s.HasDistinctTimesIn roomId

theorem pairwise_lt_mergeSort
    (hdistinct : events.Pairwise fun a b => a.timestamp ≠ b.timestamp) :
    (events.mergeSort fun a b => a.timestamp ≤ b.timestamp).Pairwise
      fun a b => a.timestamp < b.timestamp := by
  have hle : (events.mergeSort fun a b => a.timestamp ≤ b.timestamp).Pairwise
      fun a b => decide (a.timestamp ≤ b.timestamp) = true := by
    refine List.pairwise_mergeSort (fun a b c hab hbc => ?_) (fun a b => ?_) events
    · simp only [decide_eq_true_eq] at hab hbc ⊢
      omega
    · simp only [Bool.or_eq_true, decide_eq_true_eq]
      omega
  have hne : (events.mergeSort fun a b => a.timestamp ≤ b.timestamp).Pairwise
      fun a b => a.timestamp ≠ b.timestamp :=
    hdistinct.perm (List.mergeSort_perm events _).symm Ne.symm
  refine (hle.and hne).imp fun {a b} h => ?_
  have hab : a.timestamp ≤ b.timestamp := of_decide_eq_true h.1
  have hnab := h.2
  omega

theorem mergeSort_eq_of_perm (hperm : events.Perm others)
    (hdistinct : others.Pairwise fun a b => a.timestamp ≠ b.timestamp) :
    (events.mergeSort fun a b => a.timestamp ≤ b.timestamp) =
      others.mergeSort fun a b => a.timestamp ≤ b.timestamp := by
  have hdistinct' : events.Pairwise fun a b => a.timestamp ≠ b.timestamp :=
    hdistinct.perm hperm.symm Ne.symm
  have hsorted : (events.mergeSort fun a b => a.timestamp ≤ b.timestamp).Perm
      (others.mergeSort fun a b => a.timestamp ≤ b.timestamp) :=
    (List.mergeSort_perm events _).trans (hperm.trans (List.mergeSort_perm others _).symm)
  refine hsorted.eq_of_pairwise (fun a b _ _ hab hba => ?_) (pairwise_lt_mergeSort hdistinct')
    (pairwise_lt_mergeSort hdistinct)
  omega

theorem reactionEvents_of_sorted
    (h : (events.filter (isReactionTo roomId target)).Pairwise fun a b => a.timestamp ≤ b.timestamp) :
    reactionEvents events roomId target = events.filter (isReactionTo roomId target) :=
  List.mergeSort_of_pairwise (by simpa only [decide_eq_true_eq] using h)

-- Where the times are distinct, the order does not matter either.
theorem reactionsAmong_eq_of_perm {ids : List String}
    (h : ∀ id ∈ ids,
      (events.filter (isReactionTo roomId id)).Perm (others.filter (isReactionTo roomId id)) ∧
        (others.filter (isReactionTo roomId id)).Pairwise fun a b => a.timestamp ≠ b.timestamp) :
    reactionsAmong events roomId ids = reactionsAmong others roomId ids := by
  unfold reactionsAmong
  refine congrArg Table.ofList (List.filterMap_congr fun id hid => ?_)
  rw [reactionEvents, mergeSort_eq_of_perm (h id hid).1 (h id hid).2, reactionEvents]

theorem readerAmong_eq {s : Store} (hdistinct : s.HasDistinctTimes)
    (hperm : events.Perm s.events.values) : s.readerAmong events = s.reader := by
  have hreactions : (fun roomId ids => Except.ok (reactionsAmong events roomId ids)) =
      s.reader.reactions := by
    funext roomId ids
    exact congrArg Except.ok
      (reactionsAmong_eq_of_perm fun id _ => ⟨hperm.filter _, hdistinct roomId id⟩)
  rw [readerAmong, hreactions]

end Store

end ChatRelay
