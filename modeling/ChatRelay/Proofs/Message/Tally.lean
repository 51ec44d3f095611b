import ChatRelay.Proofs.Message.Reactions
import ChatRelay.Proofs.Store.Reactions

namespace ChatRelay

namespace Reaction

-- Of all events that vote with the same text this is the earliest.
def Leads (events : List Event) (e : Event) (v : Vote) : Prop :=
  e ∈ events ∧ e.vote? = some v ∧
    ∀ other ∈ events, ∀ w, other.vote? = some w → w.text = v.text → e.timestamp ≤ other.timestamp

-- What the events add up to. Each text counts once, with the earliest event, by ascending time.
def Tallies (events : List Event) (reactions : List Reaction) : Prop :=
  ∃ counted : List (Event × Vote),
    counted.Pairwise (fun a b => a.1.timestamp < b.1.timestamp) ∧
      (∀ e v, (e, v) ∈ counted ↔ Leads events e v) ∧ reactions = counted.map (·.2.reaction)

theorem leads_of_mem_iff {events others : List Event} (h : ∀ e, e ∈ events ↔ e ∈ others)
    {e : Event} {v : Vote} : Leads events e v ↔ Leads others e v := by
  simp only [Leads, h]

theorem Tallies.of_perm {events others : List Event} {reactions : List Reaction}
    (h : Tallies events reactions) (hperm : events.Perm others) : Tallies others reactions := by
  obtain ⟨counted, hascending, hleads, hreactions⟩ := h
  refine ⟨counted, hascending, fun e v => ?_, hreactions⟩
  rw [hleads, leads_of_mem_iff fun e => hperm.mem_iff]

-- Events add up to one thing only.
theorem Tallies.unique {events : List Event} {reactions others : List Reaction}
    (h : Tallies events reactions) (hothers : Tallies events others) : reactions = others := by
  obtain ⟨counted, hascending, hleads, rfl⟩ := h
  obtain ⟨counted', hascending', hleads', rfl⟩ := hothers
  have hnodup {pairs : List (Event × Vote)}
      (h : pairs.Pairwise fun a b => a.1.timestamp < b.1.timestamp) : pairs.Nodup := by
    refine h.imp fun {a b} hlt => ?_
    rintro rfl
    exact Int.lt_irrefl _ hlt
  have hperm : counted.Perm counted' := by
    rw [List.perm_ext_iff_of_nodup (hnodup hascending) (hnodup hascending')]
    rintro ⟨e, v⟩
    rw [hleads, hleads']
  have hsame : counted = counted' := by
    refine hperm.eq_of_pairwise (fun a b _ _ hab hba => ?_) hascending hascending'
    omega
  rw [hsame]

section Step

variable {x e : Event} {events : List Event} {v u : Vote}

-- An event that does not vote with the text makes no difference.
theorem leads_cons_of_ne (hx : ∀ w, x.vote? = some w → w.text ≠ u.text) :
    Leads (x :: events) e u ↔ Leads events e u := by
  have hne (hvote : e.vote? = some u) : e ≠ x := by
    rintro rfl
    exact hx u hvote rfl
  constructor
  · rintro ⟨he, hvote, hfirst⟩
    exact ⟨(List.mem_cons.mp he).resolve_left (hne hvote), hvote,
      fun other hother => hfirst other (List.mem_cons_of_mem _ hother)⟩
  · rintro ⟨he, hvote, hfirst⟩
    refine ⟨List.mem_cons_of_mem _ he, hvote, fun other hother w hw htext => ?_⟩
    rcases List.mem_cons.mp hother with rfl | hother
    · exact absurd htext (hx w hw)
    · exact hfirst other hother w hw htext

-- An event before all others leads those that vote with its text.
theorem leads_cons_iff (hbefore : ∀ other ∈ events, x.timestamp < other.timestamp)
    (hvote : x.vote? = some v) (htext : u.text = v.text) :
    Leads (x :: events) e u ↔ (e, u) = (x, v) := by
  constructor
  · rintro ⟨he, hu, hfirst⟩
    have hle := hfirst x List.mem_cons_self v hvote htext.symm
    rcases List.mem_cons.mp he with rfl | he
    · rw [Option.some.inj (hu.symm.trans hvote)]
    · have hlt := hbefore e he
      omega
  · rintro heq
    obtain ⟨rfl, rfl⟩ := Prod.mk.inj heq
    refine ⟨List.mem_cons_self, hvote, fun other hother _ _ _ => ?_⟩
    rcases List.mem_cons.mp hother with rfl | hother
    · exact Int.le_refl _
    · exact Int.le_of_lt (hbefore other hother)

end Step

-- By induction on the events. What was seen before is left out, and the first event of a text leads.
theorem exists_counted {events : List Event}
    (hascending : events.Pairwise fun a b => a.timestamp < b.timestamp) (seen : List String) :
    ∃ counted : List (Event × Vote),
      counted.Pairwise (fun a b => a.1.timestamp < b.1.timestamp) ∧
        (∀ e v, (e, v) ∈ counted ↔ Leads events e v ∧ v.text ∉ seen) ∧
        firstOfEach seen ((votes events).map Vote.reaction) = counted.map (·.2.reaction) := by
  induction events generalizing seen with
  | nil => exact ⟨[], .nil, fun e v => by simp [Leads], rfl⟩
  | cons x events ih =>
    obtain ⟨hbefore, hrest⟩ := List.pairwise_cons.mp hascending
    cases hvote : x.vote? with
    | none =>
      obtain ⟨counted, hpairwise, hmem, hreactions⟩ := ih hrest seen
      refine ⟨counted, hpairwise, fun e u => ?_, ?_⟩
      · rw [hmem, leads_cons_of_ne fun w hw => by cases hvote.symm.trans hw]
      · rw [votes, List.filterMap_cons_none hvote]
        exact hreactions
    | some v =>
      have hvotes : votes (x :: events) = v :: votes events := List.filterMap_cons_some hvote
      rw [hvotes, List.map_cons, firstOfEach, Vote.reaction_id]
      have hother {u : Vote} (hne : u.text ≠ v.text) (w : Vote) (hw : x.vote? = some w) :
          w.text ≠ u.text := by
        rw [← Option.some.inj (hvote.symm.trans hw)]
        exact hne.symm
      by_cases hseen : v.text ∈ seen
      · rw [if_pos hseen]
        obtain ⟨counted, hpairwise, hmem, hreactions⟩ := ih hrest seen
        refine ⟨counted, hpairwise, fun e u => ?_, hreactions⟩
        rw [hmem, and_congr_left_iff]
        intro hnew
        have hne : u.text ≠ v.text := fun htext => hnew (htext ▸ hseen)
        exact (leads_cons_of_ne (hother hne)).symm
      · rw [if_neg hseen]
        obtain ⟨counted, hpairwise, hmem, hreactions⟩ := ih hrest (v.text :: seen)
        refine ⟨(x, v) :: counted, List.pairwise_cons.mpr ⟨?_, hpairwise⟩, fun e u => ?_, ?_⟩
        · rintro ⟨e, u⟩ hin
          exact hbefore e ((hmem e u).mp hin).1.1
        · rw [List.mem_cons, hmem, List.mem_cons, not_or]
          by_cases htext : u.text = v.text
          · rw [leads_cons_iff hbefore hvote htext]
            simp [htext, hseen]
          · rw [leads_cons_of_ne (hother htext)]
            have hne : (e, u) ≠ (x, v) := by
              rintro heq
              exact htext (by rw [(Prod.mk.inj heq).2])
            simp [htext, hne]
        · rw [hreactions, List.map_cons]

theorem tallies_collect {events : List Event}
    (hdistinct : events.Pairwise fun a b => a.timestamp ≠ b.timestamp) :
    Tallies events (collect (events.mergeSort fun a b => a.timestamp ≤ b.timestamp)) := by
  obtain ⟨counted, hpairwise, hmem, hreactions⟩ :=
    exists_counted (Store.pairwise_lt_mergeSort hdistinct) []
  have htallies : Tallies (events.mergeSort fun a b => a.timestamp ≤ b.timestamp)
      (collect (events.mergeSort fun a b => a.timestamp ≤ b.timestamp)) :=
    ⟨counted, hpairwise, fun e v => by simpa using hmem e v,
      (collect_eq_firstOfEach _).trans hreactions⟩
  exact htallies.of_perm (List.mergeSort_perm events _)

end Reaction

end ChatRelay
