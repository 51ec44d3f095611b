import ChatRelay.Json.Printer
import ChatRelay.Json.Tree

namespace ChatRelay.Json

-- The characters of numbers.
def isNumeric (c : Char) : Bool := c.isDigit || c == '-' || c == '+' || c == '.' || c == 'e'

def Numeric (s : String) : Prop := ∀ c ∈ s.toList, isNumeric c = true

instance (s : String) : Decidable (Numeric s) :=
  decidable_of_iff (s.toList.all isNumeric = true) List.all_eq_true

theorem Numeric.append {s t : String} (hs : Numeric s) (ht : Numeric t) : Numeric (s ++ t) := by
  intro c hc
  rw [String.toList_append] at hc
  rcases List.mem_append.mp hc with hc | hc
  · exact hs c hc
  · exact ht c hc

-- Any part of the digits of a natural.
theorem numeric_digits {n : Nat} {cs : List Char} (h : cs.Sublist (Nat.toDigits 10 n)) :
    Numeric (String.ofList cs) := by
  intro c hc
  rw [String.toList_ofList] at hc
  have hdigit := Nat.isDigit_of_mem_toDigits (by decide) (by decide) (h.subset hc)
  simp [isNumeric, hdigit]

theorem numeric_zeros (n : Nat) : Numeric (DecimalLayout.zeros n) := by
  intro c hc
  simp only [DecimalLayout.zeros, String.toList_ofList, List.mem_replicate] at hc
  rw [hc.2]
  decide

theorem numeric_repr (n : Nat) : Numeric n.repr := by
  rw [Nat.repr_eq_ofList_toDigits]
  exact numeric_digits (List.Sublist.refl _)

theorem numeric_decimal (x : Decimal) : Numeric (numberLayout.write x) := by
  have hdigits := numeric_digits (List.Sublist.refl (Nat.toDigits 10 x.digits))
  have htake (n : Nat) := numeric_digits (List.take_sublist n (Nat.toDigits 10 x.digits))
  have hdrop (n : Nat) := numeric_digits (List.drop_sublist n (Nat.toDigits 10 x.digits))
  have hpoint : Numeric "." := by decide
  simp only [DecimalLayout.write]
  split
  · split
    · exact (hdigits.append (numeric_zeros _)).append (by decide)
    · split
      · exact ((htake _).append hpoint).append (hdrop _)
      · exact ((show Numeric "0." by decide).append (numeric_zeros _)).append hdigits
  · refine ((((htake _).append ?_).append (by decide)).append ?_).append (numeric_repr _)
    · split
      · decide
      · exact hpoint.append (hdrop _)
    · split <;> decide

theorem numeric_write (n : Number) : Numeric n.write := by
  cases n with
  | integer n =>
    simp only [Number.write, Int.toString_eq_repr, Int.repr_eq_if]
    split
    · exact numeric_repr _
    · exact (show Numeric "-" by decide).append (numeric_repr _)
  | real x =>
    have hsign : Numeric (if x.negative then "-" else "") := by
      split <;> decide
    simp only [Number.write, Binary64.write]
    split
    · exact hsign.append (numeric_decimal _)
    · exact hsign.append (numeric_decimal _)

theorem decimal_ne_empty (x : Decimal) : numberLayout.write x ≠ "" := by
  have hdigits : Nat.toDigits 10 x.digits ≠ [] := Nat.toDigits_ne_nil
  simp only [DecimalLayout.write]
  split
  · split
    · simp [hdigits]
    · split <;> simp
  · simp [numberLayout]

theorem write_ne_empty (n : Number) : n.write ≠ "" := by
  cases n with
  | integer n =>
    simp only [Number.write, Int.toString_eq_repr, Int.repr_eq_if]
    split
    · simp [Nat.repr_eq_ofList_toDigits]
    · simp
  | real x =>
    simp only [Number.write, Binary64.write]
    split <;> simp [decimal_ne_empty]

-- Whether a number that stands before the text is over there.
def Stops (xs : List Char) : Prop := ∀ c, xs.head? = some c → isNumeric c = false

theorem stops_nil : Stops [] := fun _ h => by cases h

theorem stops_cons {c : Char} {xs : List Char} (h : isNumeric c = false) : Stops (c :: xs) := by
  intro d hd
  obtain rfl := Option.some.inj hd
  exact h

theorem numeric_append_inj {as bs xs ys : List Char} (ha : ∀ c ∈ as, isNumeric c = true)
    (hb : ∀ c ∈ bs, isNumeric c = true) (hx : Stops xs) (hy : Stops ys)
    (h : as ++ xs = bs ++ ys) : as = bs ∧ xs = ys := by
  induction as generalizing bs with
  | nil =>
    cases bs with
    | nil => exact ⟨rfl, h⟩
    | cons b bs =>
      have hstop := hx b (by simp [show xs = b :: (bs ++ ys) from h])
      simp [hb b List.mem_cons_self] at hstop
  | cons a as ih =>
    cases bs with
    | nil =>
      have hstop := hy a (by simp [show ys = a :: (as ++ xs) from h.symm])
      simp [ha a List.mem_cons_self] at hstop
    | cons b bs =>
      obtain ⟨rfl, hrest⟩ := List.cons.inj h
      obtain ⟨rfl, rfl⟩ := ih (fun c hc => ha c (List.mem_cons_of_mem _ hc))
        (fun c hc => hb c (List.mem_cons_of_mem _ hc)) hrest
      exact ⟨rfl, rfl⟩

-- How a character of a string is read back.
def pieceOf (c : Char) : Piece :=
  if c.toNat < 0x20 ∧ c ∉ ['\x08', '\x0c', '\n', '\r', '\t'] then .unit c.toNat else .char c

theorem pieceOf_injective {c d : Char} (h : pieceOf c = pieceOf d) : c = d := by
  unfold pieceOf at h
  split at h <;> split at h
  · exact Char.toNat_inj.mp (Piece.unit.inj h)
  · cases h
  · cases h
  · exact Piece.char.inj h

theorem value?_digit {n : Nat} (h : n < 16) : Text.Hex.value? (Text.Hex.digit n) = some n := by
  have hall : ∀ n : Fin 16, Text.Hex.value? (Text.Hex.digit n) = some n.val := by decide
  exact hall ⟨n, h⟩

theorem readPieces_escape (found : List Piece) (c : Char) (cs : List Char) :
    Tree.readPieces found (escape c ++ cs) = Tree.readPieces (pieceOf c :: found) cs := by
  by_cases hnamed : c ∈ ['"', '\\', '\x08', '\x0c', '\n', '\r', '\t']
  · simp only [List.mem_cons, List.not_mem_nil, or_false] at hnamed
    rcases hnamed with rfl | rfl | rfl | rfl | rfl | rfl | rfl <;> rfl
  · simp only [List.mem_cons, List.not_mem_nil, or_false, not_or] at hnamed
    obtain ⟨hquote, hslash, hb, hf, hn, hr, ht⟩ := hnamed
    by_cases hlow : c.toNat < 0x20
    · have hpiece : pieceOf c = .unit c.toNat := by simp [pieceOf, hlow, hb, hf, hn, hr, ht]
      have hescape : escape c = ['\\', 'u', '0', '0', Text.Hex.digit (c.toNat / 16),
          Text.Hex.digit (c.toNat % 16)] := by
        simp [escape, hquote, hslash, hb, hf, hn, hr, ht, hlow]
      have hunit : Tree.unit? '0' '0' (Text.Hex.digit (c.toNat / 16))
          (Text.Hex.digit (c.toNat % 16)) = some c.toNat := by
        have hzero : Text.Hex.value? '0' = some 0 := by decide
        have hdiv : c.toNat / 16 < 16 := by omega
        have hmod : c.toNat % 16 < 16 := by omega
        simp only [Tree.unit?, hzero, value?_digit hdiv, value?_digit hmod]
        simp
        omega
      rw [hpiece, hescape]
      simp [Tree.readPieces, hunit]
    · have hpiece : pieceOf c = .char c := by simp [pieceOf, hlow]
      have hescape : escape c = [c] := by
        simp [escape, hquote, hslash, hb, hf, hn, hr, ht, hlow]
      rw [hpiece, hescape]
      simp [Tree.readPieces, hslash, hlow]

theorem readPieces_quoted (found : List Piece) (cs xs : List Char) :
    Tree.readPieces found (cs.flatMap escape ++ '"' :: xs) =
      some (found.reverse ++ cs.map pieceOf, xs) := by
  induction cs generalizing found with
  | nil => simp [Tree.readPieces]
  | cons c cs ih =>
    rw [List.flatMap_cons, List.append_assoc, readPieces_escape, ih]
    simp

theorem quote_append_inj {s t : String} {xs ys : List Char} (h : quote s ++ xs = quote t ++ ys) :
    s = t ∧ xs = ys := by
  have hread (u : String) (zs : List Char) :
      (quote u ++ zs).tail = u.toList.flatMap escape ++ '"' :: zs := by simp [quote]
  have hs := readPieces_quoted [] s.toList xs
  have ht := readPieces_quoted [] t.toList ys
  rw [← hread, h, hread, ht, List.reverse_nil, List.nil_append, List.nil_append] at hs
  obtain ⟨hpieces, rfl⟩ := Prod.mk.inj (Option.some.inj hs)
  have hchars : t.toList = s.toList := (List.map_inj_right fun _ _ => pieceOf_injective).mp hpieces
  exact ⟨(String.toList_injective hchars).symm, rfl⟩

mutual

-- Whether two values are the same up to numbers, which only have to have the same text.
def Alike : Json → Json → Prop
  | .null, .null => True
  | .bool a, .bool b => a = b
  | .number m, .number n => m.write = n.write
  | .string s, .string t => s = t
  | .array vs, .array ws => AlikeItems vs ws
  | .object ms, .object ns => AlikeMembers ms ns
  | _, _ => False

def AlikeItems : List Json → List Json → Prop
  | [], [] => True
  | v :: vs, w :: ws => Alike v w ∧ AlikeItems vs ws
  | _, _ => False

def AlikeMembers : List (String × Json) → List (String × Json) → Prop
  | [], [] => True
  | (m, v) :: ms, (n, w) :: ns => m = n ∧ Alike v w ∧ AlikeMembers ms ns
  | _, _ => False

end

-- The first character of a text tells of which kind the value is.
def kindOf (c : Char) : Nat :=
  if c = 'n' then 0 else if c = 't' then 1 else if c = 'f' then 2 else if c = '"' then 3
  else if c = '[' then 4 else if c = '\x7b' then 5 else if isNumeric c then 6 else 7

def kind : Json → Nat
  | .null => 0
  | .bool true => 1
  | .bool false => 2
  | .string _ => 3
  | .array _ => 4
  | .object _ => 5
  | .number _ => 6

theorem kindOf_numeric {c : Char} (h : isNumeric c = true) : kindOf c = 6 := by
  have hne : ∀ d ∈ ['n', 't', 'f', '"', '[', '\x7b'], c ≠ d := by
    rintro d hd rfl
    simp only [List.mem_cons, List.not_mem_nil, or_false] at hd
    rcases hd with rfl | rfl | rfl | rfl | rfl | rfl <;> exact absurd h (by decide)
  simp only [List.forall_mem_cons] at hne
  simp [kindOf, hne, h]

theorem print_head (v : Json) : ∃ c cs, v.print = c :: cs ∧ kindOf c = v.kind := by
  cases v with
  | null => exact ⟨'n', _, rfl, rfl⟩
  | bool b => cases b <;> exact ⟨_, _, rfl, rfl⟩
  | number n =>
    cases hn : n.write.toList with
    | nil => exact absurd (String.toList_eq_nil_iff.mp hn) (write_ne_empty n)
    | cons c cs =>
      have hc : isNumeric c = true := numeric_write n c (by simp [hn])
      exact ⟨c, cs, by simp [print, hn], kindOf_numeric hc⟩
  | string s => exact ⟨'"', _, rfl, rfl⟩
  | array items => exact ⟨'[', _, by rw [print], rfl⟩
  | object members => exact ⟨'\x7b', _, by rw [print], rfl⟩

theorem kind_eq_of_print {v w : Json} {xs ys : List Char} (h : v.print ++ xs = w.print ++ ys) :
    v.kind = w.kind := by
  obtain ⟨c, cs, hv, hc⟩ := v.print_head
  obtain ⟨d, ds, hw, hd⟩ := w.print_head
  rw [hv, hw, List.cons_append, List.cons_append] at h
  rw [← hc, ← hd, (List.cons.inj h).1]

-- What stands after the first item, or after the first member, up to the end of the text.
def afterItem (rest : List Json) (xs : List Char) : List Char :=
  match rest with
  | [] => ']' :: xs
  | rest => ',' :: (printItems rest ++ ']' :: xs)

def afterMember (rest : List (String × Json)) (xs : List Char) : List Char :=
  match rest with
  | [] => '\x7d' :: xs
  | rest => ',' :: (printMembers rest ++ '\x7d' :: xs)

theorem printItems_cons (v : Json) (rest : List Json) (xs : List Char) :
    printItems (v :: rest) ++ ']' :: xs = v.print ++ afterItem rest xs := by
  cases rest <;> simp [printItems, afterItem]

theorem printMembers_cons (name : String) (v : Json) (rest : List (String × Json))
    (xs : List Char) :
    printMembers ((name, v) :: rest) ++ '\x7d' :: xs =
      quote name ++ ':' :: (v.print ++ afterMember rest xs) := by
  cases rest <;> simp [printMembers, afterMember]

theorem stops_afterItem (rest : List Json) (xs : List Char) : Stops (afterItem rest xs) := by
  cases rest <;> exact stops_cons (by decide)

theorem stops_afterMember (rest : List (String × Json)) (xs : List Char) :
    Stops (afterMember rest xs) := by
  cases rest <;> exact stops_cons (by decide)

-- No value starts with the end of an array.
theorem print_ne_close (v : Json) (xs ys : List Char) : v.print ++ xs ≠ ']' :: ys := by
  intro h
  obtain ⟨c, cs, hv, hc⟩ := v.print_head
  rw [hv] at h
  obtain rfl : c = ']' := (List.cons.inj h).1
  cases v with
  | bool b => cases b <;> cases hc
  | null | number | string | array | object => cases hc

mutual

theorem print_append_inj (v w : Json) {xs ys : List Char} (hx : Stops xs) (hy : Stops ys)
    (h : v.print ++ xs = w.print ++ ys) : Alike v w ∧ xs = ys := by
  have hkind := kind_eq_of_print h
  match v with
  | .null =>
    cases w with
    | null => exact ⟨trivial, List.append_cancel_left h⟩
    | bool b => cases b <;> cases hkind
    | number | string | array | object => cases hkind
  | .bool a =>
    cases w with
    | bool b =>
      have hab : a = b := by cases a <;> cases b <;> first | rfl | cases hkind
      subst hab
      exact ⟨rfl, List.append_cancel_left h⟩
    | null | number | string | array | object => cases a <;> cases hkind
  | .number m =>
    cases w with
    | number n =>
      simp only [print] at h
      obtain ⟨htext, rfl⟩ := numeric_append_inj (numeric_write m) (numeric_write n) hx hy h
      exact ⟨String.toList_injective htext, rfl⟩
    | bool b => cases b <;> cases hkind
    | null | string | array | object => cases hkind
  | .string s =>
    cases w with
    | string t =>
      simp only [print] at h
      exact quote_append_inj h
    | bool b => cases b <;> cases hkind
    | null | number | array | object => cases hkind
  | .array vs =>
    cases w with
    | array ws =>
      simp only [print, List.cons_append, List.append_assoc, List.cons.injEq, true_and,
        List.nil_append] at h
      exact printItems_append_inj vs ws h
    | bool b => cases b <;> cases hkind
    | null | number | string | object => cases hkind
  | .object ms =>
    cases w with
    | object ns =>
      simp only [print, List.cons_append, List.append_assoc, List.cons.injEq, true_and,
        List.nil_append] at h
      exact printMembers_append_inj ms ns h
    | bool b => cases b <;> cases hkind
    | null | number | string | array => cases hkind

theorem printItems_append_inj (vs ws : List Json) {xs ys : List Char}
    (h : printItems vs ++ ']' :: xs = printItems ws ++ ']' :: ys) :
    AlikeItems vs ws ∧ xs = ys := by
  match vs, ws with
  | [], [] => exact ⟨trivial, (List.cons.inj h).2⟩
  | [], w :: ws =>
    rw [printItems_cons] at h
    exact absurd h.symm (w.print_ne_close _ _)
  | v :: vs, [] =>
    rw [printItems_cons] at h
    exact absurd h (v.print_ne_close _ _)
  | v :: vs, w :: ws =>
    rw [printItems_cons, printItems_cons] at h
    obtain ⟨hfirst, hrest⟩ := print_append_inj v w (stops_afterItem _ _) (stops_afterItem _ _) h
    match vs, ws with
    | [], [] => exact ⟨⟨hfirst, trivial⟩, (List.cons.inj hrest).2⟩
    | [], _ :: _ => exact absurd (List.cons.inj hrest).1 (by decide)
    | _ :: _, [] => exact absurd (List.cons.inj hrest).1 (by decide)
    | v' :: vs, w' :: ws =>
      obtain ⟨halike, rfl⟩ := printItems_append_inj (v' :: vs) (w' :: ws) (List.cons.inj hrest).2
      exact ⟨⟨hfirst, halike⟩, rfl⟩

theorem printMembers_append_inj (ms ns : List (String × Json)) {xs ys : List Char}
    (h : printMembers ms ++ '\x7d' :: xs = printMembers ns ++ '\x7d' :: ys) :
    AlikeMembers ms ns ∧ xs = ys := by
  match ms, ns with
  | [], [] => exact ⟨trivial, (List.cons.inj h).2⟩
  | [], (n, w) :: ns =>
    rw [printMembers_cons] at h
    exact absurd (List.cons.inj h).1 (by decide)
  | (m, v) :: ms, [] =>
    rw [printMembers_cons] at h
    exact absurd (List.cons.inj h).1 (by decide)
  | (m, v) :: ms, (n, w) :: ns =>
    rw [printMembers_cons, printMembers_cons] at h
    obtain ⟨hname, hvalue⟩ := quote_append_inj h
    obtain ⟨hfirst, hrest⟩ := print_append_inj v w (stops_afterMember _ _) (stops_afterMember _ _)
      (List.cons.inj hvalue).2
    match ms, ns with
    | [], [] => exact ⟨⟨hname, hfirst, trivial⟩, (List.cons.inj hrest).2⟩
    | [], _ :: _ => exact absurd (List.cons.inj hrest).1 (by decide)
    | _ :: _, [] => exact absurd (List.cons.inj hrest).1 (by decide)
    | m' :: ms, n' :: ns =>
      obtain ⟨halike, rfl⟩ := printMembers_append_inj (m' :: ms) (n' :: ns) (List.cons.inj hrest).2
      exact ⟨⟨hname, hfirst, halike⟩, rfl⟩

end

mutual

theorem print_eq_of_alike (v w : Json) (h : Alike v w) : v.print = w.print := by
  match v with
  | .null =>
    cases w with
    | null => rfl
    | bool | number | string | array | object => cases h
  | .bool a =>
    cases w with
    | bool b => rw [show a = b from h]
    | null | number | string | array | object => cases h
  | .number m =>
    cases w with
    | number n => rw [print, print, show m.write = n.write from h]
    | null | bool | string | array | object => cases h
  | .string s =>
    cases w with
    | string t => rw [show s = t from h]
    | null | bool | number | array | object => cases h
  | .array vs =>
    cases w with
    | array ws => rw [print, print, printItems_eq_of_alike vs ws h]
    | null | bool | number | string | object => cases h
  | .object ms =>
    cases w with
    | object ns => rw [print, print, printMembers_eq_of_alike ms ns h]
    | null | bool | number | string | array => cases h

theorem printItems_eq_of_alike (vs ws : List Json) (h : AlikeItems vs ws) :
    printItems vs = printItems ws := by
  match vs, ws with
  | [], [] => rfl
  | [], _ :: _ => cases h
  | _ :: _, [] => cases h
  | v :: vs, w :: ws =>
    have hfirst := print_eq_of_alike v w h.1
    have hrest := printItems_eq_of_alike vs ws h.2
    cases vs with
    | nil =>
      cases ws with
      | nil => simpa [printItems] using hfirst
      | cons => cases h.2
    | cons =>
      cases ws with
      | nil => cases h.2
      | cons => simp only [printItems, hfirst, hrest]

theorem printMembers_eq_of_alike (ms ns : List (String × Json)) (h : AlikeMembers ms ns) :
    printMembers ms = printMembers ns := by
  match ms, ns with
  | [], [] => rfl
  | [], _ :: _ => cases h
  | _ :: _, [] => cases h
  | (m, v) :: ms, (n, w) :: ns =>
    obtain ⟨rfl, hvalue, hmembers⟩ := h
    have hfirst := print_eq_of_alike v w hvalue
    have hrest := printMembers_eq_of_alike ms ns hmembers
    cases ms with
    | nil =>
      cases ns with
      | nil => simpa [printMembers] using hfirst
      | cons => cases hmembers
    | cons =>
      cases ns with
      | nil => cases hmembers
      | cons => simp only [printMembers, hfirst, hrest]

end

-- Values with one text are those that are the same up to the text of numbers.
theorem compact_eq_iff {v w : Json} : v.compact = w.compact ↔ Alike v w := by
  constructor
  · intro h
    have hprint : v.print = w.print := by
      have hlist := congrArg String.toList h
      rwa [compact, compact, String.toList_ofList, String.toList_ofList] at hlist
    refine (print_append_inj v w stops_nil stops_nil ?_).1
    rw [hprint]
  · intro h
    rw [compact, compact, print_eq_of_alike v w h]

instance (v w : Json) : Decidable (Alike v w) := decidable_of_iff _ compact_eq_iff

instance (vs ws : List Json) : Decidable (AlikeItems vs ws) :=
  inferInstanceAs (Decidable (Alike (.array vs) (.array ws)))

end ChatRelay.Json
