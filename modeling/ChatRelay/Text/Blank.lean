namespace ChatRelay.Text

-- First and last code point of every run of characters with the property `White_Space`.
def blankRuns : List (Nat × Nat) :=
  [(0x9, 0xD), (0x20, 0x20), (0x85, 0x85), (0xA0, 0xA0), (0x1680, 0x1680), (0x2000, 0x200A),
   (0x2028, 0x2029), (0x202F, 0x202F), (0x205F, 0x205F), (0x3000, 0x3000)]

-- The Unicode property `White_Space`.
def isBlank (c : Char) : Bool :=
  blankRuns.any fun run => run.1 ≤ c.toNat && c.toNat ≤ run.2

-- The characters up to the last one that is not white space.
def dropTrailingBlanks : List Char → List Char
  | [] => []
  | c :: cs =>
    match dropTrailingBlanks cs with
    | [] => if isBlank c then [] else [c]
    | rest => c :: rest

def trimChars (cs : List Char) : List Char :=
  dropTrailingBlanks (cs.dropWhile isBlank)

def trim (s : String) : String :=
  String.ofList (trimChars s.toList)

-- The trimmed text, unless nothing is left of it.
def nonBlank? (s : String) : Option String :=
  if trim s = "" then none else some (trim s)

theorem dropTrailingBlanks_idem (cs : List Char) :
    dropTrailingBlanks (dropTrailingBlanks cs) = dropTrailingBlanks cs := by
  induction cs with
  | nil => rfl
  | cons c cs ih =>
    simp only [dropTrailingBlanks]
    split
    · split
      · rfl
      · next h => simp [dropTrailingBlanks, h]
    · next hne =>
      rw [dropTrailingBlanks, ih]
      split
      · next hnil => exact absurd hnil hne
      · rfl

theorem nonBlank?_eq_some_iff {s t : String} : nonBlank? s = some t ↔ t = trim s ∧ t ≠ "" := by
  unfold nonBlank?
  split
  · next h =>
    simp only [reduceCtorEq, false_iff, not_and]
    rintro rfl hne
    exact hne h
  · next h =>
    simp only [Option.some.injEq]
    exact ⟨fun e => e ▸ ⟨rfl, h⟩, fun e => e.1.symm⟩

end ChatRelay.Text
