import Mathlib.Data.List.Basic

namespace ChatRelay

-- After the first item only those that differ from it matter.
@[elab_as_elim]
theorem eraseDups_induct {α : Type} [BEq α] {motive : List α → Prop} (nil : motive [])
    (cons : ∀ x xs, motive (xs.filter fun y => !y == x) → motive (x :: xs)) (xs : List α) :
    motive xs := by
  match xs with
  | [] => exact nil
  | x :: xs => exact cons x xs (eraseDups_induct nil cons _)
termination_by xs.length
decreasing_by
  have hle := List.length_filter_le (fun y => !y == x) xs
  simp only [List.length_cons]
  omega

theorem eraseDups_sublist {α : Type} [BEq α] (xs : List α) : xs.eraseDups.Sublist xs := by
  induction xs using eraseDups_induct with
  | nil => exact .slnil
  | cons x xs ih =>
    rw [List.eraseDups_cons]
    exact (ih.trans List.filter_sublist).cons_cons x

variable {α β : Type} [BEq α] [LawfulBEq α] [BEq β] [LawfulBEq β]

theorem nodup_eraseDups (xs : List α) : xs.eraseDups.Nodup := by
  induction xs using eraseDups_induct with
  | nil => exact List.nodup_nil
  | cons x xs ih =>
    rw [List.eraseDups_cons, List.nodup_cons]
    refine ⟨fun hin => ?_, ih⟩
    have hne := (List.mem_filter.mp (List.mem_eraseDups.mp hin)).2
    simp at hne

-- What was not seen before, for loops that collect what they saw.
theorem filter_not_mem_cons (x : α) (seen xs : List α) :
    xs.filter (· ∉ x :: seen) = (xs.filter (· ∉ seen)).filter fun y => !y == x := by
  rw [List.filter_filter]
  refine List.filter_congr fun y _ => ?_
  by_cases heq : y = x <;> simp [heq]

theorem filter_eraseDups (p : α → Bool) (xs : List α) :
    xs.eraseDups.filter p = (xs.filter p).eraseDups := by
  induction xs using eraseDups_induct with
  | nil => rfl
  | cons x xs ih =>
    rw [List.eraseDups_cons]
    by_cases hx : p x = true
    · rw [List.filter_cons_of_pos hx, List.filter_cons_of_pos hx, List.eraseDups_cons, ih,
        List.filter_filter, List.filter_filter]
      simp only [Bool.and_comm]
    · have hother : (xs.filter fun y => !y == x).filter p = xs.filter p := by
        rw [List.filter_filter]
        refine List.filter_congr fun y _ => ?_
        by_cases heq : y = x <;> simp [heq, hx]
      rw [List.filter_cons_of_neg hx, List.filter_cons_of_neg hx, ih, hother]

theorem eraseDups_map {f : α → β} {xs : List α}
    (hinj : ∀ x ∈ xs, ∀ y ∈ xs, f x = f y → x = y) :
    (xs.map f).eraseDups = xs.eraseDups.map f := by
  induction xs using eraseDups_induct with
  | nil => rfl
  | cons x xs ih =>
    have hsame : (xs.map f).filter (fun z => !z == f x) = (xs.filter fun y => !y == x).map f := by
      rw [List.filter_map]
      congr 1
      refine List.filter_congr fun y hy => ?_
      by_cases heq : y = x
      · simp [heq]
      · have hne : f y ≠ f x :=
          mt (hinj y (List.mem_cons_of_mem _ hy) x List.mem_cons_self) heq
        simp [heq, hne]
    have hrest := ih fun y hy z hz =>
      hinj y (List.mem_cons_of_mem _ (List.mem_of_mem_filter hy)) z
        (List.mem_cons_of_mem _ (List.mem_of_mem_filter hz))
    rw [List.map_cons, List.eraseDups_cons, List.eraseDups_cons, List.map_cons, hsame, hrest]

end ChatRelay
