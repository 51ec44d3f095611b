import Mathlib.Data.List.Nodup
import ChatRelay.Message.Render
import ChatRelay.Proofs.Distinct

namespace ChatRelay

-- A sender, and the key of one of its reactions.
structure Vote where
  sender : String
  key : String
deriving DecidableEq

namespace Vote

def text (v : Vote) : String := v.sender ++ ":" ++ v.key

def reaction (v : Vote) : Reaction where
  id := v.text
  key := v.key
  participantId := v.sender
  emoji := v.key.length ≤ 2

@[simp] theorem reaction_id (v : Vote) : v.reaction.id = v.text := rfl

-- The second sender is the first one with more behind a colon, and the first key has that more before
-- the second one.
def Continues (p q : Vote) : Prop :=
  ∃ more, q.sender = p.sender ++ ":" ++ more ∧ p.key = more ++ ":" ++ q.key

variable {p q : Vote}

theorem Continues.text_eq (h : p.Continues q) : p.text = q.text := by
  obtain ⟨more, hsender, hkey⟩ := h
  simp only [text, hsender, hkey, String.append_assoc]

theorem Continues.ne (h : p.Continues q) : p ≠ q := by
  rintro rfl
  obtain ⟨more, hsender, -⟩ := h
  have hlength := congrArg String.length hsender
  have hcolon : ":".length = 1 := rfl
  simp only [String.length_append] at hlength
  omega

theorem continues_of_toList {more : List Char} (hsender : q.sender.toList = p.sender.toList ++ more)
    (hkey : ':' :: p.key.toList = more ++ ':' :: q.key.toList) : p = q ∨ p.Continues q := by
  cases more with
  | nil =>
    have hs : q.sender = p.sender := String.toList_inj.mp (by simpa using hsender)
    have hk : p.key = q.key := String.toList_inj.mp (by simpa using hkey)
    cases p
    cases q
    simp_all
  | cons c more =>
    obtain ⟨rfl, hrest⟩ := List.cons.inj hkey
    refine .inr ⟨String.ofList more, String.toList_inj.mp ?_, String.toList_inj.mp ?_⟩
    · simpa using hsender
    · simpa using hrest

-- The one sender ends where the other one does, or at a colon of it.
theorem text_eq_iff : p.text = q.text ↔ p = q ∨ p.Continues q ∨ q.Continues p := by
  constructor
  · intro h
    have hchars : p.sender.toList ++ ':' :: p.key.toList =
        q.sender.toList ++ ':' :: q.key.toList := by
      simpa [text] using congrArg String.toList h
    rcases List.append_eq_append_iff.mp hchars with ⟨more, hsender, hkey⟩ | ⟨more, hsender, hkey⟩
    · exact (continues_of_toList hsender hkey).imp_right .inl
    · exact (continues_of_toList hsender hkey).imp Eq.symm .inr
  · rintro (rfl | h | h)
    · rfl
    · exact h.text_eq
    · exact h.text_eq.symm

end Vote

namespace Event

-- What an event adds to the reactions: nothing if it is redacted, or if its key is missing or blank.
def vote? (e : Event) : Option Vote :=
  if e.isRedacted then none
  else
    match e.effectiveContent.stringAt? ["m.relates_to", "key"] with
    | none => none
    | some key => if Text.trim key = "" then none else some ⟨e.sender, Text.trim key⟩

theorem reactionKey?_map (e : Event) :
    e.reactionKey?.map (Reaction.ofEvent e) = e.vote?.map Vote.reaction := by
  unfold reactionKey? vote?
  cases e.isRedacted with
  | true => rfl
  | false =>
    cases e.effectiveContent.stringAt? ["m.relates_to", "key"] with
    | none => rfl
    | some key =>
      by_cases hblank : Text.trim key = ""
      · simp [Text.nonBlank?, hblank]
      · simp [Text.nonBlank?, hblank, Reaction.ofEvent, Vote.reaction, Vote.text]

end Event

namespace Reaction

def votes (events : List Event) : List Vote := events.filterMap Event.vote?

-- The reaction of the first vote with a text.
def first? (votes : List Vote) (text : String) : Option Reaction :=
  (votes.find? (·.text = text)).map Vote.reaction

theorem first?_cons_of_ne {v : Vote} {text : String} (h : v.text ≠ text) (votes : List Vote) :
    first? (v :: votes) text = first? votes text := by
  simp [first?, h]

theorem exists_first? {votes : List Vote} {v : Vote} (hv : v ∈ votes) :
    ∃ u ∈ votes, u.text = v.text ∧ first? votes v.text = some u.reaction := by
  have hsome : (votes.find? (·.text = v.text)).isSome = true :=
    List.find?_isSome.mpr ⟨v, hv, decide_eq_true rfl⟩
  obtain ⟨u, hu⟩ := Option.isSome_iff_exists.mp hsome
  have htext : u.text = v.text := by simpa using List.find?_some hu
  exact ⟨u, List.mem_of_find?_eq_some hu, htext, congrArg (Option.map Vote.reaction) hu⟩

-- By induction on the votes. Where the first one counts, no other with its text is looked at later.
theorem firstOfEach_map (seen : List String) (votes : List Vote) :
    firstOfEach seen (votes.map Vote.reaction) =
      ((votes.map Vote.text).filter (· ∉ seen)).eraseDups.filterMap (first? votes) := by
  induction votes generalizing seen with
  | nil => rfl
  | cons v votes ih =>
    have hskip {texts : List String} (hne : ∀ text ∈ texts, v.text ≠ text) :
        texts.filterMap (first? votes) = texts.filterMap (first? (v :: votes)) :=
      List.filterMap_congr fun text htext => (first?_cons_of_ne (hne text htext) votes).symm
    rw [List.map_cons, List.map_cons, firstOfEach, Vote.reaction_id]
    by_cases hseen : v.text ∈ seen
    · rw [if_pos hseen, ih, List.filter_cons_of_neg (by simpa using hseen)]
      refine hskip fun text htext heq => ?_
      have hfresh := (List.mem_filter.mp (List.mem_eraseDups.mp htext)).2
      exact of_decide_eq_true hfresh (heq ▸ hseen)
    · have hfirst : first? (v :: votes) v.text = some v.reaction := by simp [first?]
      rw [if_neg hseen, ih, List.filter_cons_of_pos (by simpa using hseen), List.eraseDups_cons,
        List.filterMap_cons_some hfirst, filter_not_mem_cons]
      congr 1
      refine hskip fun text htext heq => ?_
      have hne := (List.mem_filter.mp (List.mem_eraseDups.mp htext)).2
      simp [heq] at hne

theorem collect_eq_firstOfEach (events : List Event) :
    collect events = firstOfEach [] ((votes events).map Vote.reaction) := by
  simp only [collect, Event.reactionKey?_map, votes, List.map_filterMap]

-- Of all votes with one text the first counts.
theorem collect_eq (events : List Event) :
    collect events =
      ((votes events).map Vote.text).eraseDups.filterMap (first? (votes events)) := by
  have hall : (votes events).map Vote.text =
      ((votes events).map Vote.text).filter (· ∉ ([] : List String)) := by simp
  rw [collect_eq_firstOfEach, firstOfEach_map, ← hall]

theorem map_id_collect (events : List Event) :
    (collect events).map (·.id) = ((votes events).map Vote.text).eraseDups := by
  rw [collect_eq, List.map_filterMap]
  refine (List.filterMap_congr fun text htext => ?_).trans List.filterMap_some
  obtain ⟨v, hv, rfl⟩ := List.mem_map.mp (List.mem_eraseDups.mp htext)
  obtain ⟨u, -, hu, hfirst⟩ := exists_first? hv
  rw [hfirst, Option.map_some, Vote.reaction_id, hu]

theorem nodup_ids_collect (events : List Event) : ((collect events).map (·.id)).Nodup := by
  rw [map_id_collect]
  exact nodup_eraseDups _

-- No vote continues another one.
def Apart (votes : List Vote) : Prop := ∀ p ∈ votes, ∀ q ∈ votes, ¬p.Continues q

theorem Apart.eq_of_text_eq {votes : List Vote} (h : Apart votes) {p q : Vote} (hp : p ∈ votes)
    (hq : q ∈ votes) (htext : p.text = q.text) : p = q := by
  rcases Vote.text_eq_iff.mp htext with heq | hcontinues | hcontinues
  · exact heq
  · exact absurd hcontinues (h p hp q hq)
  · exact absurd hcontinues (h q hq p hp)

theorem collect_eq_of_apart {events : List Event} (h : Apart (votes events)) :
    collect events = (votes events).eraseDups.map Vote.reaction := by
  rw [collect_eq, eraseDups_map fun p hp q hq => h.eq_of_text_eq hp hq, List.filterMap_map]
  refine List.filterMap_eq_map_iff_forall_eq_some.mpr fun v hv => ?_
  have hv := List.mem_eraseDups.mp hv
  obtain ⟨u, hu, htext, hfirst⟩ := exists_first? hv
  rw [Function.comp_apply, hfirst, h.eq_of_text_eq hu hv htext]

-- Two votes that continue one another would count under one identifier.
theorem apart_of_collect_eq {events : List Event}
    (h : collect events = (votes events).eraseDups.map Vote.reaction) : Apart (votes events) := by
  have hnodup := nodup_ids_collect events
  rw [h, List.map_map] at hnodup
  intro p hp q hq hcontinues
  have hp := List.mem_eraseDups.mpr hp
  have hq := List.mem_eraseDups.mpr hq
  exact hcontinues.ne (List.inj_on_of_nodup_map hnodup hp hq hcontinues.text_eq)

-- Each pair of a sender and a key counts once, in the order of their first occurrence, exactly if no
-- pair continues another one. In any case what counts is the first pair with each text, and no two
-- reactions have one identifier.
theorem counted_once_iff_apart (events : List Event) :
    (collect events = (votes events).eraseDups.map Vote.reaction ↔ Apart (votes events)) ∧
      collect events =
        ((votes events).map Vote.text).eraseDups.filterMap (first? (votes events)) ∧
      ((collect events).map (·.id)).Nodup :=
  ⟨⟨apart_of_collect_eq, collect_eq_of_apart⟩, collect_eq events, nodup_ids_collect events⟩

-- The same key from two senders, of which one has a server with a port, and before the other one's key
-- that port and a colon.
def ported : List Event :=
  [{ sender := "@a:s"
     content := .object [("m.relates_to", .object [("key", .string "8448:+")])] },
   { sender := "@a:s:8448"
     content := .object [("m.relates_to", .object [("key", .string "+")])] }]

theorem pairs_can_merge :
    ¬∀ events : List Event, collect events = (votes events).eraseDups.map Vote.reaction := by
  intro h
  have hcount : (collect ported).length = ((votes ported).eraseDups.map Vote.reaction).length :=
    congrArg List.length (h ported)
  exact absurd hcount (by decide)

end Reaction

end ChatRelay
