import ChatRelay.Connection.Line

namespace ChatRelay.Line

-- The write that the sink was given and did not finish.
def begun (l : Line) : List Write := l.stalled.toList.map (·.1)

-- What was put on a line and is not over yet.
def queue (l : Line) : List Write := l.begun ++ l.waiting

theorem queue_of_free {l : Line} (h : l.stalled = none) : l.queue = l.waiting := by
  rw [queue, begun, h]
  rfl

theorem queue_of_stalled {l : Line} {w : Write} {due : Nat} (h : l.stalled = some (w, due)) :
    l.queue = w :: l.waiting := by
  rw [queue, begun, h]
  rfl

theorem serve_queue (now : Nat) (sink : Sink) (ws : List Write) :
    (serve now sink ws).2.map (·.write) ++ (serve now sink ws).1.queue = ws := by
  induction ws with
  | nil => rfl
  | cons w ws ih =>
    unfold serve
    split
    · rfl
    · exact congrArg (w :: ·) ih

theorem put_queue (now : Nat) (w : Write) (l : Line) :
    (l.put now w).2.map (·.write) ++ (l.put now w).1.queue = l.queue ++ [w] := by
  unfold put
  cases hstalled : l.stalled with
  | some stalled => simp [queue, begun, hstalled]
  | none =>
    rw [queue_of_free hstalled]
    exact serve_queue now l.sink _

theorem expire_queue (now : Nat) (l : Line) :
    (l.expire now).2.map (·.write) ++ (l.expire now).1.queue = l.queue := by
  unfold expire
  cases hstalled : l.stalled with
  | none => rfl
  | some stalled =>
    obtain ⟨w, due⟩ := stalled
    simp only
    split
    · rw [queue_of_stalled hstalled]
      exact congrArg (w :: ·) (serve_queue now l.sink l.waiting)
    · rfl

theorem abandon_queue (now : Nat) (writer : Writer) (l : Line) :
    (l.abandon now writer).2.map (·.write) ++ (l.abandon now writer).1.queue =
      l.queue.filter (·.writer ≠ writer) := by
  unfold abandon
  cases hstalled : l.stalled with
  | none =>
    rw [queue_of_free hstalled]
    exact serve_queue now l.sink _
  | some stalled =>
    obtain ⟨w, due⟩ := stalled
    rw [queue_of_stalled hstalled]
    by_cases hw : w.writer = writer
    · simp only [hw, if_true, ne_eq, not_true_eq_false, decide_false, Bool.false_eq_true,
        not_false_eq_true, List.filter_cons_of_neg]
      exact serve_queue now l.sink _
    · simp [queue, begun, hw]

end ChatRelay.Line
