import ChatRelay.Proofs.Json.Print
import ChatRelay.Proofs.Table

namespace ChatRelay.Json

mutual

-- A value as it comes out of a text: nested at most so deep, with the members of each object in the
-- order of their names. Numbers are left out.
def Plain : Nat → Json → Prop
  | _, .null | _, .bool _ | _, .string _ => True
  | _, .number _ => False
  | 0, .array _ | 0, .object _ => False
  | n + 1, .array items => PlainItems n items
  | n + 1, .object members => members.Pairwise (fun a b => a.1 < b.1) ∧ PlainMembers n members

def PlainItems : Nat → List Json → Prop
  | _, [] => True
  | n, v :: rest => Plain n v ∧ PlainItems n rest

def PlainMembers : Nat → List (String × Json) → Prop
  | _, [] => True
  | n, (_, v) :: rest => Plain n v ∧ PlainMembers n rest

end

theorem plainItems_of_forall {n : Nat} {items : List Json} (h : ∀ v ∈ items, Plain n v) :
    PlainItems n items := by
  induction items with
  | nil => trivial
  | cons v rest ih =>
    exact ⟨h v List.mem_cons_self, ih fun w hw => h w (List.mem_cons_of_mem _ hw)⟩

theorem plainMembers_of_forall {n : Nat} {members : List (String × Json)}
    (h : ∀ m ∈ members, Plain n m.2) : PlainMembers n members := by
  induction members with
  | nil => trivial
  | cons m rest ih =>
    exact ⟨h m List.mem_cons_self, ih fun w hw => h w (List.mem_cons_of_mem _ hw)⟩

theorem chars?_pieceOf (c : Char) (pieces : List Piece) :
    Piece.chars? (pieceOf c :: pieces) = (Piece.chars? pieces).map (c :: ·) := by
  unfold pieceOf
  split
  · next h =>
    have hlow : c.toNat < 0xD800 := by omega
    cases pieces with
    | nil => simp [Piece.chars?, Nat.not_le.mpr hlow]
    | cons piece rest =>
      cases piece <;> simp [Piece.chars?, Nat.not_le.mpr hlow, show ¬0xDC00 ≤ c.toNat by omega]
  · rw [Piece.chars?]

theorem text?_pieces (s : String) : Piece.text? (s.toList.map pieceOf) = some s := by
  have hchars (cs : List Char) : Piece.chars? (cs.map pieceOf) = some cs := by
    induction cs with
    | nil => rfl
    | cons c cs ih => rw [List.map_cons, chars?_pieceOf, ih, Option.map_some]
  rw [Piece.text?, hchars, Option.map_some, String.ofList_toList]

-- A value begins with a character that is not passed over.
theorem skipGap_print (v : Json) (xs : List Char) :
    Tree.skipGap (v.print ++ xs) = v.print ++ xs := by
  obtain ⟨c, cs, hprint, hkind⟩ := v.print_head
  have hgap : Tree.isGap c = false := by
    by_contra h
    simp only [Tree.isGap, Bool.not_eq_false, Bool.or_eq_true, decide_eq_true_eq] at h
    have hother : kindOf c = 7 := by
      rcases h with ((rfl | rfl) | rfl) | rfl <;> rfl
    have hknown : v.kind < 7 := by
      cases v with
      | bool b => cases b <;> decide
      | null | number | string | array | object => simp [kind]
    omega
  rw [hprint, List.cons_append, Tree.skipGap, List.dropWhile_cons_of_neg (by simp [hgap])]

section Steps

open ChatRelay.Json.Tree

variable {fuel : Nat} {xs ys : List Char}

theorem readValue_null : readValue (fuel + 1) (null.print ++ xs) = some (.null, xs) := rfl

theorem readValue_bool (b : Bool) :
    readValue (fuel + 1) ((bool b).print ++ xs) = some (.bool b, xs) := by
  cases b <;> rfl

theorem readValue_string (s : String) :
    readValue (fuel + 1) (quote s ++ xs) = some (.string (s.toList.map pieceOf), xs) := by
  have hread : readValue (fuel + 1) (quote s ++ xs) =
      (readPieces [] (s.toList.flatMap escape ++ '"' :: xs)).map fun read =>
        (.string read.1, read.2) := by
    rw [quote, List.cons_append, List.append_assoc]
    rfl
  rw [hread, readPieces_quoted]
  rfl

theorem readValue_array (hgap : skipGap xs = xs) (hopen : ∀ rest, xs ≠ ']' :: rest) :
    readValue (fuel + 1) ('[' :: xs) =
      (readItems fuel xs).map fun (items, rest) => (.array items, rest) := by
  have hbracket : skipGap ('[' :: xs) = '[' :: xs := rfl
  rw [readValue, hbracket]
  simp only [hgap]

theorem readValue_object (name : String) :
    readValue (fuel + 1) ('\x7b' :: (quote name ++ xs)) =
      (readMembers fuel (quote name ++ xs)).map fun (members, rest) => (.object members, rest) :=
  rfl

-- The items after the first are read where it ends.
theorem readItems_of_value {tree : Tree} (h : readValue fuel xs = some (tree, ']' :: ys)) :
    readItems (fuel + 1) xs = some ([tree], ys) := by
  rw [readItems, h]
  rfl

theorem readItems_of_comma {tree : Tree} (h : readValue fuel xs = some (tree, ',' :: ys)) :
    readItems (fuel + 1) xs =
      (readItems fuel ys).map fun (items, rest) => (tree :: items, rest) := by
  rw [readItems, h]
  rfl

theorem readName_quoted (name : String) :
    readMembers.readName (skipGap (quote name ++ ':' :: xs)) =
      some (name.toList.map pieceOf, xs) := by
  have hquote : skipGap (quote name ++ ':' :: xs) = quote name ++ ':' :: xs := rfl
  rw [hquote, quote, List.cons_append, List.append_assoc, readMembers.readName]
  simp only [List.cons_append, List.nil_append, readPieces_quoted]
  rfl

theorem readMembers_of_value {name : String} {tree : Tree}
    (h : readValue fuel xs = some (tree, '\x7d' :: ys)) :
    readMembers (fuel + 1) (quote name ++ ':' :: xs) =
      some ([(name.toList.map pieceOf, tree)], ys) := by
  rw [readMembers, readName_quoted]
  simp only [h]
  rfl

theorem readMembers_of_comma {name : String} {tree : Tree}
    (h : readValue fuel xs = some (tree, ',' :: ys)) :
    readMembers (fuel + 1) (quote name ++ ':' :: xs) =
      (readMembers fuel ys).map fun (members, rest) =>
        ((name.toList.map pieceOf, tree) :: members, rest) := by
  rw [readMembers, readName_quoted]
  simp only [h]
  rfl

end Steps

-- No value has an empty text.
theorem exists_fuel (v : Json) {fuel : Nat} (h : 2 * v.print.length ≤ fuel) :
    ∃ less, fuel = less + 1 := by
  obtain ⟨c, cs, hprint, -⟩ := v.print_head
  rw [hprint, List.length_cons] at h
  exact ⟨fuel - 1, by omega⟩

theorem afterItem_cons (v : Json) (rest : List Json) (xs : List Char) :
    afterItem (v :: rest) xs = ',' :: (printItems (v :: rest) ++ ']' :: xs) := rfl

theorem afterMember_cons (m : String × Json) (rest : List (String × Json)) (xs : List Char) :
    afterMember (m :: rest) xs = ',' :: (printMembers (m :: rest) ++ '\x7d' :: xs) := rfl

mutual

-- The tree that a plain value is read back as, with enough fuel for its text.
theorem exists_tree (v : Json) {n : Nat} (h : Plain n v) :
    ∃ tree : Tree, tree.value? n = some v ∧ ∀ fuel xs, 2 * v.print.length ≤ fuel + 1 →
      Tree.readValue (fuel + 1) (v.print ++ xs) = some (tree, xs) := by
  match v, n with
  | .null, _ => exact ⟨.null, by simp [Tree.value?], fun fuel xs _ => readValue_null⟩
  | .bool b, _ => exact ⟨.bool b, by simp [Tree.value?], fun fuel xs _ => readValue_bool b⟩
  | .number _, _ => simp [Plain] at h
  | .string s, _ =>
    refine ⟨.string (s.toList.map pieceOf), ?_, fun fuel xs _ => readValue_string s⟩
    rw [Tree.value?, text?_pieces, Option.map_some]
  | .array [], n + 1 => exact ⟨.array [], rfl, fun fuel xs _ => rfl⟩
  | .array (v :: rest), n + 1 =>
    obtain ⟨trees, hvalues, hread⟩ := exists_items v rest h
    refine ⟨.array trees, ?_, fun fuel xs hfuel => ?_⟩
    · rw [Tree.value?, hvalues, Option.map_some]
    · have htext : (array (v :: rest)).print ++ xs =
          '[' :: (printItems (v :: rest) ++ ']' :: xs) := by
        simp [print]
      simp only [print, List.length_cons, List.length_append, List.length_nil] at hfuel
      obtain ⟨fuel, rfl⟩ : ∃ less, fuel = less + 1 := ⟨fuel - 1, by omega⟩
      rw [htext, printItems_cons, readValue_array (skipGap_print v _) (v.print_ne_close _),
        ← printItems_cons, hread _ _ (by omega)]
      rfl
  | .object [], n + 1 => exact ⟨.object [], rfl, fun fuel xs _ => rfl⟩
  | .object ((name, v) :: rest), n + 1 =>
    obtain ⟨trees, hvalues, hread⟩ := exists_members name v rest h.2
    refine ⟨.object trees, ?_, fun fuel xs hfuel => ?_⟩
    · have hsorted : Table.ofList ((name, v) :: rest) = ⟨(name, v) :: rest, h.1⟩ :=
        Table.ofList_entries ⟨(name, v) :: rest, h.1⟩
      rw [Tree.value?, hvalues, Option.map_some, mk, hsorted]
    · have htext : (object ((name, v) :: rest)).print ++ xs =
          '\x7b' :: (printMembers ((name, v) :: rest) ++ '\x7d' :: xs) := by
        simp [print]
      simp only [print, List.length_cons, List.length_append, List.length_nil] at hfuel
      obtain ⟨fuel, rfl⟩ : ∃ less, fuel = less + 1 := ⟨fuel - 1, by omega⟩
      rw [htext, printMembers_cons, readValue_object, ← printMembers_cons, hread _ _ (by omega)]
      rfl

theorem exists_items (v : Json) (rest : List Json) {n : Nat} (h : PlainItems n (v :: rest)) :
    ∃ trees : List Tree, Tree.values? n trees = some (v :: rest) ∧
      ∀ fuel xs, 2 * (printItems (v :: rest)).length ≤ fuel →
        Tree.readItems (fuel + 1) (printItems (v :: rest) ++ ']' :: xs) = some (trees, xs) := by
  obtain ⟨tree, hvalue, hread⟩ := exists_tree v h.1
  match rest with
  | [] =>
    refine ⟨[tree], by simp [Tree.values?, hvalue], fun fuel xs hfuel => ?_⟩
    rw [printItems] at hfuel ⊢
    obtain ⟨fuel, rfl⟩ := v.exists_fuel hfuel
    exact readItems_of_value (hread _ _ hfuel)
  | w :: rest =>
    obtain ⟨trees, hvalues, hmore⟩ := exists_items w rest h.2
    refine ⟨tree :: trees, by simp [Tree.values?, hvalue, hvalues], fun fuel xs hfuel => ?_⟩
    simp only [printItems, List.length_append, List.length_cons] at hfuel
    have hfirst : 2 * v.print.length ≤ fuel := by omega
    obtain ⟨fuel, rfl⟩ := v.exists_fuel hfirst
    rw [printItems_cons, afterItem_cons, readItems_of_comma (hread _ _ hfirst),
      hmore _ _ (by omega)]
    rfl

theorem exists_members (name : String) (v : Json) (rest : List (String × Json)) {n : Nat}
    (h : PlainMembers n ((name, v) :: rest)) :
    ∃ trees : List (List Piece × Tree), Tree.memberValues? n trees = some ((name, v) :: rest) ∧
      ∀ fuel xs, 2 * (printMembers ((name, v) :: rest)).length ≤ fuel →
        Tree.readMembers (fuel + 1) (printMembers ((name, v) :: rest) ++ '\x7d' :: xs) =
          some (trees, xs) := by
  obtain ⟨tree, hvalue, hread⟩ := exists_tree v h.1
  match rest with
  | [] =>
    refine ⟨[(name.toList.map pieceOf, tree)], ?_, fun fuel xs hfuel => ?_⟩
    · simp [Tree.memberValues?, hvalue, text?_pieces]
    · simp only [printMembers, List.length_append, List.length_cons] at hfuel
      have hfirst : 2 * v.print.length ≤ fuel := by omega
      obtain ⟨fuel, rfl⟩ := v.exists_fuel hfirst
      rw [printMembers_cons]
      exact readMembers_of_value (hread _ _ hfirst)
  | (next, w) :: rest =>
    obtain ⟨trees, hvalues, hmore⟩ := exists_members next w rest h.2
    refine ⟨(name.toList.map pieceOf, tree) :: trees, ?_, fun fuel xs hfuel => ?_⟩
    · simp [Tree.memberValues?, hvalue, hvalues, text?_pieces]
    · simp only [printMembers, List.length_append, List.length_cons] at hfuel
      have hfirst : 2 * v.print.length ≤ fuel := by omega
      obtain ⟨fuel, rfl⟩ := v.exists_fuel hfirst
      rw [printMembers_cons, afterMember_cons, readMembers_of_comma (hread _ _ hfirst),
        hmore _ _ (by omega)]
      rfl

end

-- What is written is read back.
theorem parse?_compact {v : Json} (h : Plain maxDepth v) : parse? v.compact = some v := by
  obtain ⟨tree, hvalue, hread⟩ := exists_tree v h
  have htree := hread (2 * v.print.length + 1) [] (by omega)
  rw [List.append_nil] at htree
  rw [parse?, compact, String.toList_ofList, Tree.parse?, htree]
  exact hvalue

end ChatRelay.Json
