import Mathlib.Data.List.TakeWhile
import ChatRelay.Text.Blank

namespace ChatRelay.Text

theorem dropTrailingBlanks_cons (c : Char) (cs : List Char) (hc : isBlank c = false) :
    ∃ rest, dropTrailingBlanks (c :: cs) = c :: rest := by
  simp only [dropTrailingBlanks]
  split
  · exact ⟨[], by simp [hc]⟩
  · exact ⟨_, rfl⟩

theorem dropWhile_trimChars (cs : List Char) : (trimChars cs).dropWhile isBlank = trimChars cs := by
  unfold trimChars
  induction cs with
  | nil => rfl
  | cons c cs ih =>
    by_cases hc : isBlank c = true
    · simpa [List.dropWhile_cons, hc] using ih
    · obtain ⟨rest, hrest⟩ := dropTrailingBlanks_cons c cs (by simpa using hc)
      simp [hc, hrest]

theorem trim_trim (s : String) : trim (trim s) = trim s := by
  have h : trimChars (trimChars s.toList) = trimChars s.toList := by
    rw [trimChars, dropWhile_trimChars]
    exact dropTrailingBlanks_idem _
  simp [trim, h]

theorem trim_of_nonBlank? {s t : String} (h : nonBlank? s = some t) : trim t = t := by
  obtain ⟨rfl, -⟩ := nonBlank?_eq_some_iff.mp h
  exact trim_trim s

-- What stands before characters that are not all white space stays.
theorem dropTrailingBlanks_append (cs : List Char) {ds : List Char}
    (hne : dropTrailingBlanks ds ≠ []) :
    dropTrailingBlanks (cs ++ ds) = cs ++ dropTrailingBlanks ds := by
  induction cs with
  | nil => rfl
  | cons c cs ih =>
    rw [List.cons_append, dropTrailingBlanks, ih, List.cons_append]
    split
    · next h => exact absurd (List.append_eq_nil_iff.mp h).2 hne
    · rfl

theorem dropTrailingBlanks_toList {s : String} (h : trim s = s) :
    dropTrailingBlanks s.toList = s.toList := by
  have hchars : trimChars s.toList = s.toList := by
    simpa [trim] using congrArg String.toList h
  calc dropTrailingBlanks s.toList
      = dropTrailingBlanks (trimChars s.toList) := by rw [hchars]
    _ = trimChars s.toList := dropTrailingBlanks_idem _
    _ = s.toList := hchars

-- A text between a character and a trimmed text has no white space at its ends.
theorem trim_append {s t : String} {c : Char} {cs : List Char} (hs : s.toList = c :: cs)
    (hc : isBlank c = false) (ht : trim t = t) (hne : t ≠ "") : trim (s ++ t) = s ++ t := by
  have hlead : (s ++ t).toList.dropWhile isBlank = s.toList ++ t.toList := by
    simp [hs, hc]
  have hends : dropTrailingBlanks (s.toList ++ t.toList) = s.toList ++ t.toList := by
    have htail := dropTrailingBlanks_toList ht
    have hrest : dropTrailingBlanks t.toList ≠ [] := by
      rw [htail]
      exact mt String.toList_eq_nil_iff.mp hne
    rw [dropTrailingBlanks_append _ hrest, htail]
  rw [trim, trimChars, hlead, hends, ← String.toList_append, String.ofList_toList]

theorem dropTrailingBlanks_eq_nil_iff {cs : List Char} :
    dropTrailingBlanks cs = [] ↔ ∀ c ∈ cs, isBlank c = true := by
  induction cs with
  | nil => simp [dropTrailingBlanks]
  | cons c cs ih =>
    rw [dropTrailingBlanks, List.forall_mem_cons, ← ih]
    split
    · next h => simp [h]
    · next h => simpa using fun _ => h

theorem dropTrailingBlanks_leads (cs : List Char) : dropTrailingBlanks cs <+: cs := by
  induction cs with
  | nil => exact List.prefix_rfl
  | cons c cs ih =>
    rw [dropTrailingBlanks]
    split
    · split
      · exact List.nil_prefix
      · exact (List.prefix_cons_inj c).mpr List.nil_prefix
    · exact (List.prefix_cons_inj c).mpr ih

theorem dropTrailingBlanks_append_of_blank (cs : List Char) {ds : List Char}
    (hblank : ∀ d ∈ ds, isBlank d = true) :
    dropTrailingBlanks (cs ++ ds) = dropTrailingBlanks cs := by
  induction cs with
  | nil => exact dropTrailingBlanks_eq_nil_iff.mpr hblank
  | cons c cs ih => rw [List.cons_append, dropTrailingBlanks, ih, dropTrailingBlanks]

theorem trim_eq_empty_iff {s : String} : trim s = "" ↔ ∀ c ∈ s.toList, isBlank c = true := by
  have hchars : trim s = "" ↔ trimChars s.toList = [] := by
    rw [← String.toList_eq_nil_iff, trim, String.toList_ofList]
  rw [hchars, trimChars, dropTrailingBlanks_eq_nil_iff]
  refine ⟨fun hrest => ?_, fun hall c hc => hall c ((List.dropWhile_sublist _).mem hc)⟩
  -- what is left when the white space in front is gone cannot be white space
  have hnone : s.toList.dropWhile isBlank = [] := by
    have hhead := List.head?_dropWhile_not isBlank s.toList
    cases hcs : s.toList.dropWhile isBlank with
    | nil => rfl
    | cons c cs =>
      rw [hcs] at hhead hrest
      simp [hrest c List.mem_cons_self] at hhead
  exact fun c hc => List.dropWhile_eq_nil_iff.mp hnone c hc

-- Behind white space inside a trimmed text there is something left.
theorem trim_ne_empty_of_append {s t text : String} (htext : trim text = s ++ t)
    (hs : dropTrailingBlanks s.toList ≠ s.toList) : trim t ≠ "" := by
  intro ht
  have hkept := dropTrailingBlanks_toList (trim_trim text)
  rw [htext, String.toList_append,
    dropTrailingBlanks_append_of_blank _ (trim_eq_empty_iff.mp ht)] at hkept
  have hshort : (dropTrailingBlanks s.toList).length ≤ s.toList.length :=
    (dropTrailingBlanks_leads _).length_le
  have hlength := congrArg List.length hkept
  rw [List.length_append] at hlength
  have hnil : t.toList = [] := List.length_eq_zero_iff.mp (by omega)
  exact hs (by rw [hkept, hnil, List.append_nil])

theorem filterMap_nonBlank? (texts : List String) :
    texts.filterMap nonBlank? = (texts.map trim).filter (· ≠ "") := by
  induction texts with
  | nil => rfl
  | cons s rest ih =>
    rw [List.map_cons, List.filter_cons, ← ih]
    by_cases hblank : trim s = "" <;> simp [nonBlank?, hblank]

end ChatRelay.Text
