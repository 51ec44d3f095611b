import Mathlib.Data.List.Forall2
import Mathlib.Data.List.TakeWhile
import ChatRelay.Text.FormQuery

namespace ChatRelay.Text.FormQuery

-- A percent sign with two digits behind it.
def IsEscape (bytes : List UInt8) : Prop :=
  ∃ high low rest, bytes = 0x25 :: high :: low :: rest ∧
    (hexValue? high).isSome = true ∧ (hexValue? low).isSome = true

-- What bytes stand for.
inductive Reads : List UInt8 → List UInt8 → Prop
  | nil : Reads [] []
  | space {rest read : List UInt8} (hrest : Reads rest read) : Reads (0x2B :: rest) (0x20 :: read)
  | escape {high low : UInt8} {h l : Nat} {rest read : List UInt8} (hhigh : hexValue? high = some h)
      (hlow : hexValue? low = some l) (hrest : Reads rest read) :
      Reads (0x25 :: high :: low :: rest) (UInt8.ofNat (h * 16 + l) :: read)
  | plain {b : UInt8} {rest read : List UInt8} (hplus : b ≠ 0x2B) (hescape : ¬IsEscape (b :: rest))
      (hrest : Reads rest read) : Reads (b :: rest) (b :: read)

theorem percentDecode_cons {b : UInt8} {rest : List UInt8} (h : ¬IsEscape (b :: rest)) :
    percentDecode (b :: rest) = b :: percentDecode rest := by
  match rest with
  | [] => simp [percentDecode]
  | [c] => simp [percentDecode]
  | high :: low :: rest =>
    rw [percentDecode]
    split
    · next hhigh hlow =>
      refine if_neg ?_
      rintro rfl
      exact h ⟨high, low, rest, rfl, by simp [hhigh], by simp [hlow]⟩
    · rfl

theorem plusToSpace_cons_of_ne {b : UInt8} (h : b ≠ 0x2B) (rest : List UInt8) :
    plusToSpace (b :: rest) = b :: plusToSpace rest := by
  simp [plusToSpace, h]

-- Neither the plus nor the space is a digit.
theorem ne_plus_of_hexValue? {b : UInt8} (h : (hexValue? b).isSome = true) : b ≠ 0x2B := by
  rintro rfl
  exact absurd h (by decide)

theorem ne_space_of_hexValue? {b : UInt8} (h : (hexValue? b).isSome = true) : b ≠ 0x20 := by
  rintro rfl
  exact absurd h (by decide)

theorem isEscape_of_plusToSpace {bytes : List UInt8} (h : IsEscape (plusToSpace bytes)) :
    IsEscape bytes := by
  obtain ⟨high, low, rest, heq, hhigh, hlow⟩ := h
  have hsame {b c : UInt8} (hc : c ≠ 0x20) (hb : (if b = 0x2B then 0x20 else b) = c) : b = c := by
    split at hb
    · exact absurd hb.symm hc
    · exact hb
  match bytes with
  | [] | [_] | [_, _] => simp [plusToSpace] at heq
  | b :: c :: d :: bytes =>
    simp only [plusToSpace, List.map_cons, List.cons.injEq] at heq
    obtain ⟨hb, hc, hd, -⟩ := heq
    rw [hsame (by decide) hb, hsame (ne_space_of_hexValue? hhigh) hc,
      hsame (ne_space_of_hexValue? hlow) hd]
    exact ⟨high, low, bytes, rfl, hhigh, hlow⟩

theorem Reads.percentDecode_eq {bytes read : List UInt8} (h : Reads bytes read) :
    percentDecode (plusToSpace bytes) = read := by
  induction h with
  | nil => simp [plusToSpace, percentDecode]
  | @space rest read _ ih =>
    have hspace : plusToSpace (0x2B :: rest) = 0x20 :: plusToSpace rest := rfl
    rw [hspace, percentDecode_cons (by rintro ⟨_, _, _, h, -⟩; cases h), ih]
  | @escape high low h l rest read hhigh hlow _ ih =>
    have hhigh' : high ≠ 0x2B := ne_plus_of_hexValue? (by simp [hhigh])
    have hlow' : low ≠ 0x2B := ne_plus_of_hexValue? (by simp [hlow])
    rw [plusToSpace_cons_of_ne (by decide), plusToSpace_cons_of_ne hhigh',
      plusToSpace_cons_of_ne hlow', percentDecode]
    simp [hhigh, hlow, ih]
  | @plain b rest read hplus hescape _ ih =>
    have hbytes := plusToSpace_cons_of_ne hplus rest
    have hescape' := mt isEscape_of_plusToSpace hescape
    rw [hbytes] at hescape' ⊢
    rw [percentDecode_cons hescape', ih]

theorem exists_reads (bytes : List UInt8) : ∃ read, Reads bytes read := by
  match bytes with
  | [] => exact ⟨[], .nil⟩
  | b :: rest =>
    by_cases hplus : b = 0x2B
    · obtain ⟨read, hread⟩ := exists_reads rest
      exact ⟨_, hplus ▸ hread.space⟩
    · by_cases hescape : IsEscape (b :: rest)
      · obtain ⟨high, low, behind, heq, hhigh, hlow⟩ := hescape
        have hshorter : behind.length < (b :: rest).length := by
          rw [heq]
          simp only [List.length_cons]
          omega
        obtain ⟨read, hread⟩ := exists_reads behind
        obtain ⟨h, hh⟩ := Option.isSome_iff_exists.mp hhigh
        obtain ⟨l, hl⟩ := Option.isSome_iff_exists.mp hlow
        exact ⟨_, heq ▸ hread.escape hh hl⟩
      · obtain ⟨read, hread⟩ := exists_reads rest
        exact ⟨_, hread.plain hplus hescape⟩
termination_by bytes.length
decreasing_by all_goals first | exact hshorter | exact Nat.lt_succ_self _

theorem reads_iff {bytes read : List UInt8} :
    Reads bytes read ↔ percentDecode (plusToSpace bytes) = read := by
  refine ⟨Reads.percentDecode_eq, ?_⟩
  rintro rfl
  obtain ⟨read, hread⟩ := exists_reads bytes
  rwa [hread.percentDecode_eq]

-- What bytes say as a text.
def Says (bytes : List UInt8) (text : String) : Prop :=
  ∃ read, Reads bytes read ∧ Utf8.decodeLenient read = text

theorem says_iff {bytes : List UInt8} {text : String} :
    Says bytes text ↔ decodePart bytes = text := by
  simp only [Says, reads_iff, exists_eq_left', decodePart]

-- A part says a name and a value. The value comes after the first equals sign; it may be missing.
def IsField (part : List UInt8) (field : String × String) : Prop :=
  ∃ name value, 0x3D ∉ name ∧ (part = name ++ 0x3D :: value ∨ part = name ∧ value = []) ∧
    Says name field.1 ∧ Says value field.2

theorem splitOnce_eq_iff {part name value : List UInt8} :
    splitOnce 0x3D part = (name, value) ↔
      0x3D ∉ name ∧ (part = name ++ 0x3D :: value ∨ part = name ∧ value = []) := by
  have hplain {bytes : List UInt8} (h : 0x3D ∉ bytes) : ∀ b ∈ bytes, decide (b ≠ 0x3D) = true :=
    fun b hb => decide_eq_true fun heq => h (heq ▸ hb)
  constructor
  · intro h
    obtain ⟨rfl, rfl⟩ := Prod.mk.inj h
    refine ⟨fun hm => absurd (List.mem_takeWhile_imp hm) (by decide), ?_⟩
    have hparts := List.takeWhile_append_dropWhile (p := fun b => decide (b ≠ 0x3D)) (l := part)
    have hhead := List.head?_dropWhile_not (fun b => decide (b ≠ 0x3D)) part
    cases hrest : part.dropWhile (fun b => decide (b ≠ 0x3D)) with
    | nil =>
      rw [hrest, List.append_nil] at hparts
      exact .inr ⟨hparts.symm, rfl⟩
    | cons b rest =>
      rw [hrest] at hparts hhead
      obtain rfl : b = 0x3D := by simpa using hhead
      exact .inl hparts.symm
  · rintro ⟨hname, rfl | ⟨rfl, rfl⟩⟩
    · rw [splitOnce, List.takeWhile_append_of_pos (hplain hname),
        List.dropWhile_append_of_pos (hplain hname)]
      simp
    · rw [splitOnce, List.takeWhile_eq_self_iff.mpr (hplain hname),
        List.dropWhile_eq_nil_iff.mpr (hplain hname)]
      rfl

theorem isField_iff {part : List UInt8} {field : String × String} :
    IsField part field ↔
      (decodePart (splitOnce 0x3D part).1, decodePart (splitOnce 0x3D part).2) = field := by
  simp only [IsField, says_iff]
  constructor
  · rintro ⟨name, value, hname, hpart, hname', hvalue'⟩
    rw [splitOnce_eq_iff.mpr ⟨hname, hpart⟩, hname', hvalue']
  · rintro rfl
    obtain ⟨hname, hpart⟩ := splitOnce_eq_iff.mp (show splitOnce 0x3D part = (_, _) from rfl)
    exact ⟨_, _, hname, hpart, rfl, rfl⟩

-- The fields that a query lists: one for each part between its ampersands that is not empty.
def Lists (query : String) (fields : List (String × String)) : Prop :=
  ∃ parts, [0x26].intercalate parts = query.toUTF8.toList ∧ (∀ part ∈ parts, 0x26 ∉ part) ∧
    List.Forall₂ IsField (parts.filter fun part => !part.isEmpty) fields

theorem splitAt_eq_splitOn (separator : UInt8) (bytes : List UInt8) :
    splitAt separator bytes = bytes.splitOn separator := by
  induction bytes with
  | nil => rfl
  | cons b rest ih =>
    rw [splitAt, ih, List.splitOn_cons_eq_if_modifyHead]
    cases hparts : rest.splitOn separator with
    | nil => exact absurd hparts (List.splitOn_ne_nil _ _)
    | cons part parts =>
      simp only [beq_iff_eq]
      rfl

theorem not_mem_of_mem_splitOn {separator : UInt8} {bytes part : List UInt8}
    (h : part ∈ bytes.splitOn separator) : separator ∉ part := by
  induction bytes generalizing part with
  | nil =>
    obtain rfl := List.mem_singleton.mp h
    exact List.not_mem_nil
  | cons b rest ih =>
    rw [List.splitOn_cons_eq_if_modifyHead] at h
    split at h
    · rcases List.mem_cons.mp h with rfl | h
      · exact List.not_mem_nil
      · exact ih h
    · next hb =>
      cases hparts : rest.splitOn separator with
      | nil => exact absurd hparts (List.splitOn_ne_nil _ _)
      | cons first parts =>
        rw [hparts] at h ih
        rcases List.mem_cons.mp h with rfl | h
        · intro hmem
          rcases List.mem_cons.mp hmem with rfl | hmem
          · exact hb (beq_self_eq_true _)
          · exact ih List.mem_cons_self hmem
        · exact ih (List.mem_cons_of_mem _ h)

theorem lists_iff {query : String} {fields : List (String × String)} :
    Lists query fields ↔ pairs query = fields := by
  let bytes := query.toUTF8.toList
  have hfields {parts : List (List UInt8)} :
      List.Forall₂ IsField (parts.filter fun part => !part.isEmpty) fields ↔
        ((parts.filter fun part => !part.isEmpty).map fun part =>
          (decodePart (splitOnce 0x3D part).1, decodePart (splitOnce 0x3D part).2)) = fields := by
    rw [← List.forall₂_eq_eq_eq (α := String × String), List.forall₂_map_left_iff]
    exact iff_of_eq (congrArg (List.Forall₂ · _ _) (funext₂ fun _ _ => propext isField_iff))
  constructor
  · rintro ⟨parts, hquery, hparts, hlisted⟩
    rw [← hfields.mp hlisted, pairs, ← hquery, splitAt_eq_splitOn]
    by_cases hne : parts = []
    · subst hne
      rfl
    · rw [List.splitOn_intercalate _ hparts hne]
  · intro h
    refine ⟨bytes.splitOn 0x26, List.intercalate_splitOn _, fun part hpart => ?_, ?_⟩
    · exact not_mem_of_mem_splitOn hpart
    · rw [hfields, ← splitAt_eq_splitOn]
      exact h

theorem last?_eq_some_iff {name query value : String} :
    last? name query = some value ↔
      ∃ before after, Lists query (before ++ (name, value) :: after) ∧
        ∀ field ∈ after, field.1 ≠ name := by
  simp only [lists_iff, last?, List.getLast?_filter, Option.map_eq_some_iff,
    List.find?_eq_some_iff_append]
  constructor
  · rintro ⟨field, ⟨hname, after, before, hfields, hafter⟩, rfl⟩
    obtain rfl := of_decide_eq_true hname
    refine ⟨before.reverse, after.reverse, ?_, fun other hother => ?_⟩
    · rw [← List.reverse_reverse (pairs query), hfields]
      simp
    · simpa using hafter other (List.mem_reverse.mp hother)
  · rintro ⟨before, after, hfields, hafter⟩
    refine ⟨(name, value), ⟨by simp, after.reverse, before.reverse, ?_, ?_⟩, rfl⟩
    · rw [hfields]
      simp
    · intro other hother
      simpa using hafter other (List.mem_reverse.mp hother)

end ChatRelay.Text.FormQuery
