import ChatRelay.Replay

namespace ChatRelay.Replay

-- The whole lines of the bytes, without their line feeds, and what follows the last line feed.
structure IsCut (bytes : List UInt8) (whole : List (List UInt8)) (last : List UInt8) : Prop where
  unbroken : ∀ line ∈ last :: whole, 0x0A ∉ line
  joined : whole.flatMap (· ++ [0x0A]) ++ last = bytes

-- A carriage return at the end of a whole line belongs to the line feed.
def withoutReturn (line : List UInt8) : List UInt8 :=
  if line.getLast? = some 0x0D then line.dropLast else line

-- The contents of the lines.
def contents (whole : List (List UInt8)) (last : List UInt8) : List (List UInt8) :=
  whole.map withoutReturn ++ if last.isEmpty then [] else [last]

theorem exists_cut (bytes : List UInt8) : ∃ whole last, IsCut bytes whole last := by
  induction bytes with
  | nil => exact ⟨[], [], ⟨by simp, rfl⟩⟩
  | cons b rest ih =>
    obtain ⟨whole, last, hunbroken, rfl⟩ := ih
    by_cases hb : b = 0x0A
    · subst hb
      exact ⟨[] :: whole, last, ⟨by simpa using hunbroken, by simp⟩⟩
    · cases whole with
      | nil => exact ⟨[], b :: last, ⟨by simpa [Ne.symm hb] using hunbroken, by simp⟩⟩
      | cons line whole =>
        exact ⟨(b :: line) :: whole, last, ⟨by simpa [Ne.symm hb] using hunbroken, by simp⟩⟩

theorem ended_reverse (line : List UInt8) : lines.ended line.reverse = withoutReturn line := by
  rcases List.eq_nil_or_concat line with rfl | ⟨init, b, rfl⟩
  · rfl
  · by_cases hb : b = 0x0D
    · subst hb
      simp [lines.ended, withoutReturn]
    · simp [lines.ended, withoutReturn, hb]

theorem go_line {line : List UInt8} (h : 0x0A ∉ line) (reversed rest : List UInt8) :
    lines.go reversed (line ++ 0x0A :: rest) =
      lines.ended (line.reverse ++ reversed) :: lines.go [] rest := by
  induction line generalizing reversed with
  | nil => simp [lines.go]
  | cons b line ih =>
    obtain ⟨hb, hline⟩ := not_or.mp (mt List.mem_cons.mpr h)
    simp [lines.go, Ne.symm hb, ih hline]

theorem go_last {last : List UInt8} (h : 0x0A ∉ last) (reversed : List UInt8) :
    lines.go reversed last =
      if reversed.isEmpty && last.isEmpty then [] else [reversed.reverse ++ last] := by
  induction last generalizing reversed with
  | nil => simp [lines.go]
  | cons b last ih =>
    obtain ⟨hb, hlast⟩ := not_or.mp (mt List.mem_cons.mpr h)
    simp [lines.go, Ne.symm hb, ih hlast]

theorem lines_of_cut {bytes : List UInt8} {whole : List (List UInt8)} {last : List UInt8}
    (h : IsCut bytes whole last) : lines bytes = contents whole last := by
  obtain ⟨hunbroken, rfl⟩ := h
  obtain ⟨hlast, hwhole⟩ := List.forall_mem_cons.mp hunbroken
  clear hunbroken
  induction whole with
  | nil => simpa [contents, lines] using go_last hlast []
  | cons line whole ih =>
    obtain ⟨hline, hwhole⟩ := List.forall_mem_cons.mp hwhole
    have hgo := go_line hline [] (whole.flatMap (· ++ [0x0A]) ++ last)
    have hrest := ih hwhole
    rw [List.append_nil, ended_reverse] at hgo
    simp only [lines, contents, List.flatMap_cons, List.append_assoc, List.map_cons,
      List.cons_append, List.nil_append] at hrest ⊢
    rw [hgo, hrest]

-- The bytes end with a line, unless there are none.
def EndsLine (bytes : List UInt8) : Prop := ∀ b ∈ bytes.getLast?, b = 0x0A

instance (bytes : List UInt8) : Decidable (EndsLine bytes) :=
  decidable_of_iff (bytes.getLast?.all (· == 0x0A) = true) (by simp [EndsLine, Option.all_eq_true])

theorem IsCut.last_eq_nil {bytes : List UInt8} {whole : List (List UInt8)} {last : List UInt8}
    (h : IsCut bytes whole last) (hends : EndsLine bytes) : last = [] := by
  obtain ⟨hunbroken, rfl⟩ := h
  rcases List.eq_nil_or_concat last with rfl | ⟨init, b, rfl⟩
  · rfl
  · obtain rfl : b = 0x0A := hends b (by simp)
    exact absurd (by simp) (hunbroken _ List.mem_cons_self)

theorem lines_append {x : List UInt8} (hx : EndsLine x) (y : List UInt8) :
    lines (x ++ y) = lines x ++ lines y := by
  obtain ⟨whole, last, hcut⟩ := exists_cut x
  obtain ⟨whole', last', hcut'⟩ := exists_cut y
  obtain rfl := hcut.last_eq_nil hx
  have hboth : IsCut (x ++ y) (whole ++ whole') last' := by
    refine ⟨?_, by simp [← hcut.joined, ← hcut'.joined]⟩
    obtain ⟨hlast, hwhole'⟩ := List.forall_mem_cons.mp hcut'.unbroken
    have hwhole := (List.forall_mem_cons.mp hcut.unbroken).2
    exact List.forall_mem_cons.mpr ⟨hlast, List.forall_mem_append.mpr ⟨hwhole, hwhole'⟩⟩
  rw [lines_of_cut hboth, lines_of_cut hcut, lines_of_cut hcut']
  simp [contents]

def text? (line : List UInt8) : Option String := (Text.Utf8.decode line).toOption

def flaw? (line : List UInt8) : Option Text.Utf8.Flaw :=
  match Text.Utf8.decode line with
  | .ok _ => none
  | .error flaw => some flaw

theorem decode_of_text? {line : List UInt8} {text : String} (h : text? line = some text) :
    Text.Utf8.decode line = .ok text := by
  unfold text? at h
  cases hline : Text.Utf8.decode line with
  | ok _ =>
    rw [hline] at h
    exact congrArg Except.ok (Option.some.inj h)
  | error _ =>
    rw [hline] at h
    cases h

-- The texts of the lines before the first one that is no text.
def texts (ls : List (List UInt8)) : List String :=
  (ls.takeWhile fun line => (flaw? line).isNone).filterMap text?

-- What is wrong with the first line that is no text.
def failure? (ls : List (List UInt8)) : Option Failure := (ls.findSome? flaw?).map .notText

section

variable {line : List UInt8} {text : String} (ls : List (List UInt8))

theorem texts_cons_of_ok (h : Text.Utf8.decode line = .ok text) :
    texts (line :: ls) = text :: texts ls := by
  simp [texts, flaw?, text?, h, Except.toOption]

theorem texts_cons_of_error {flaw : Text.Utf8.Flaw} (h : Text.Utf8.decode line = .error flaw) :
    texts (line :: ls) = [] := by
  simp [texts, flaw?, h]

theorem failure?_cons_of_ok (h : Text.Utf8.decode line = .ok text) :
    failure? (line :: ls) = failure? ls := by
  simp [failure?, flaw?, h]

theorem failure?_cons_of_error {flaw : Text.Utf8.Flaw} (h : Text.Utf8.decode line = .error flaw) :
    failure? (line :: ls) = some (.notText flaw) := by
  simp [failure?, flaw?, h]

end

-- The client event of a line, unless the line is blank or malformed.
def event? (text : String) : Option ClientEvent := (Text.nonBlank? text).bind ClientEvent.ofText?

def IsMalformed (text : String) : Prop :=
  ∃ trimmed, Text.nonBlank? text = some trimmed ∧ ClientEvent.ofText? trimmed = none

instance (text : String) : Decidable (IsMalformed text) :=
  decidable_of_iff ((Text.nonBlank? text).any fun trimmed => (ClientEvent.ofText? trimmed).isNone)
    (by simp [IsMalformed, Option.any_eq_true])

def tally (texts : List String) : Stats where
  published := (texts.filterMap event?).length
  batches := ((texts.filterMap event?).filterMap ClientEvent.batch?).length
  skipped := texts.countP (IsMalformed ·)

instance : Add Stats where
  add a b :=
    { published := a.published + b.published
      batches := a.batches + b.batches
      skipped := a.skipped + b.skipped }

theorem Stats.add_eq (a b : Stats) :
    a + b = ⟨a.published + b.published, a.batches + b.batches, a.skipped + b.skipped⟩ := rfl

theorem Stats.add_assoc (a b c : Stats) : a + b + c = a + (b + c) := by
  simp only [add_eq, Nat.add_assoc]

theorem Stats.default_add (s : Stats) : {} + s = s := by
  simp only [add_eq, Nat.zero_add]

theorem tally_append (xs ys : List String) : tally (xs ++ ys) = tally xs + tally ys := by
  simp only [tally, Stats.add_eq, List.filterMap_append, List.length_append, List.countP_append]

-- Each of the events with the store in which it is handed on: all batches are in it up to the event,
-- the one of the event included.
def deliveries (store : Store) (events : List ClientEvent) : List (Store × ClientEvent) :=
  events.zipIdx.map fun (e, k) =>
    (((events.take (k + 1)).filterMap ClientEvent.batch?).foldl Store.apply store, e)

theorem deliveries_cons (store : Store) (e : ClientEvent) (events : List ClientEvent) :
    deliveries store (e :: events) =
      (e.batch?.toList.foldl Store.apply store, e) ::
        deliveries (e.batch?.toList.foldl Store.apply store) events := by
  have hfirst (more : List ClientEvent) : (e :: more).filterMap ClientEvent.batch? =
      e.batch?.toList ++ more.filterMap ClientEvent.batch? := by
    cases h : e.batch? <;> simp [h]
  simp only [deliveries, List.zipIdx_cons', List.map_cons, List.map_map, List.take_succ_cons, hfirst,
    List.foldl_append]
  simp [Function.comp_def]

section

variable {σ : Type} {deliver : Store → ClientEvent → σ → σ}

-- What events do to a feed.
def Feed.takeAll (deliver : Store → ClientEvent → σ → σ) (events : List ClientEvent)
    (feed : Feed σ) : Feed σ where
  store := (events.filterMap ClientEvent.batch?).foldl Store.apply feed.store
  audience := (deliveries feed.store events).foldl (fun a d => deliver d.1 d.2 a) feed.audience

theorem Feed.takeAll_cons (e : ClientEvent) (events : List ClientEvent) (feed : Feed σ) :
    feed.takeAll deliver (e :: events) = (feed.take deliver e).takeAll deliver events := by
  simp only [takeAll, deliveries_cons, List.foldl_cons, take]
  cases h : e.batch? <;> simp [h]

theorem Progress.line_eq (p : Progress σ) (text : String) :
    p.line deliver text =
      { feed := (event? text).elim p.feed fun e => p.feed.take deliver e
        stats := p.stats + tally [text] } := by
  cases htext : Text.nonBlank? text with
  | none => simp [line, event?, tally, IsMalformed, htext, Stats.add_eq]
  | some trimmed =>
    cases hevent : ClientEvent.ofText? trimmed with
    | none => simp [line, event?, tally, IsMalformed, htext, hevent, Stats.add_eq]
    | some e =>
      cases hbatch : e.batch? <;>
        simp [line, event?, tally, IsMalformed, htext, hevent, hbatch, Stats.add_eq]

theorem Progress.lines_eq (p : Progress σ) (ls : List (List UInt8)) :
    p.lines deliver ls =
      ({ feed := p.feed.takeAll deliver ((texts ls).filterMap event?)
         stats := p.stats + tally (texts ls) }, failure? ls) := by
  induction ls generalizing p with
  | nil => rfl
  | cons line ls ih =>
    cases h : Text.Utf8.decode line with
    | error flaw =>
      rw [texts_cons_of_error ls h, failure?_cons_of_error ls h]
      simp only [lines, h]
      rfl
    | ok text =>
      have htally : tally (text :: texts ls) = tally [text] + tally (texts ls) :=
        tally_append [text] (texts ls)
      rw [texts_cons_of_ok ls h, failure?_cons_of_ok ls h, htally, ← Stats.add_assoc]
      simp only [lines, h, ih, line_eq]
      cases hevent : event? text <;> simp [hevent, Feed.takeAll_cons]

theorem run_eq (feed : Feed σ) (bytes : List UInt8) :
    run deliver feed bytes =
      ({ feed := feed.takeAll deliver ((texts (lines bytes)).filterMap event?)
         stats := tally (texts (lines bytes)) }, failure? (lines bytes)) := by
  rw [run, Progress.lines_eq, Stats.default_add]

-- Lines of which all are texts are followed by the lines after them.
theorem texts_append {xs : List (List UInt8)} (h : failure? xs = none) (ys : List (List UInt8)) :
    texts (xs ++ ys) = texts xs ++ texts ys ∧ failure? (xs ++ ys) = failure? ys := by
  induction xs with
  | nil => exact ⟨rfl, rfl⟩
  | cons line xs ih =>
    cases hline : Text.Utf8.decode line with
    | error flaw =>
      rw [failure?_cons_of_error xs hline] at h
      cases h
    | ok text =>
      rw [failure?_cons_of_ok xs hline] at h
      obtain ⟨htexts, hfailure⟩ := ih h
      rw [List.cons_append, texts_cons_of_ok _ hline, texts_cons_of_ok _ hline,
        failure?_cons_of_ok _ hline, htexts]
      exact ⟨rfl, hfailure⟩

theorem Feed.takeAll_append (xs ys : List ClientEvent) (feed : Feed σ) :
    feed.takeAll deliver (xs ++ ys) = (feed.takeAll deliver xs).takeAll deliver ys := by
  induction xs generalizing feed with
  | nil => rfl
  | cons e xs ih => rw [List.cons_append, takeAll_cons, takeAll_cons, ih]

theorem run_append {feed : Feed σ} {x : List UInt8} (hx : EndsLine x)
    (hok : (run deliver feed x).2 = none) (y : List UInt8) :
    let first := (run deliver feed x).1
    let second := (run deliver first.feed y).1
    run deliver feed (x ++ y) =
      ({ feed := second.feed, stats := first.stats + second.stats },
        (run deliver first.feed y).2) := by
  simp only [run_eq] at hok ⊢
  obtain ⟨htexts, hfailure⟩ := texts_append hok (lines y)
  rw [lines_append hx, htexts, hfailure, tally_append, List.filterMap_append, Feed.takeAll_append]

-- A line that is blank or malformed.
def IsIdle (line : List UInt8) : Prop :=
  ∃ text, text? line = some text ∧ (Text.nonBlank? text = none ∨ IsMalformed text)

theorem event?_eq_none_of_idle {text : String} (h : Text.nonBlank? text = none ∨ IsMalformed text) :
    event? text = none := by
  rcases h with h | ⟨trimmed, h, hevent⟩
  · simp [event?, h]
  · simp [event?, h, hevent]

theorem told_append_idle {line : List UInt8} (h : IsIdle line) (xs ys : List (List UInt8)) :
    (texts (xs ++ line :: ys)).filterMap event? = (texts (xs ++ ys)).filterMap event? ∧
      failure? (xs ++ line :: ys) = failure? (xs ++ ys) := by
  obtain ⟨text, htext, hidle⟩ := h
  have hline := decode_of_text? htext
  induction xs with
  | nil =>
    rw [List.nil_append, texts_cons_of_ok ys hline, failure?_cons_of_ok ys hline,
      List.filterMap_cons_none (event?_eq_none_of_idle hidle)]
    exact ⟨rfl, rfl⟩
  | cons first xs ih =>
    cases hfirst : Text.Utf8.decode first with
    | error flaw =>
      simp only [List.cons_append, texts_cons_of_error _ hfirst, failure?_cons_of_error _ hfirst,
        and_self]
    | ok other =>
      simp only [List.cons_append, texts_cons_of_ok _ hfirst, failure?_cons_of_ok _ hfirst,
        List.filterMap_cons, ih, and_self]

-- Bytes from which blank and malformed lines are taken out, some or all of them. The last line need
-- not be a whole one.
inductive Thinned : List UInt8 → List UInt8 → Prop where
  | same (bytes : List UInt8) : Thinned bytes bytes
  | drop {before line after content thin : List UInt8} (hbefore : EndsLine before)
      (hline : EndsLine line ∨ after = []) (hcontent : lines line = [content])
      (hidle : IsIdle content) (hthin : Thinned (before ++ after) thin) :
      Thinned (before ++ line ++ after) thin

theorem Thinned.told {bytes thin : List UInt8} (h : Thinned bytes thin) :
    (texts (lines thin)).filterMap event? = (texts (lines bytes)).filterMap event? ∧
      failure? (lines thin) = failure? (lines bytes) := by
  induction h with
  | same => exact ⟨rfl, rfl⟩
  | @drop before line after content thin hbefore hline hcontent hidle hthin ih =>
    have hbytes : lines (before ++ line ++ after) = lines before ++ content :: lines after := by
      rw [List.append_assoc, lines_append hbefore]
      rcases hline with hline | rfl
      · rw [lines_append hline, hcontent]
        rfl
      · rw [List.append_nil, hcontent]
        rfl
    obtain ⟨hevents, hfailure⟩ := told_append_idle hidle (lines before) (lines after)
    rw [hbytes, hevents, hfailure, ← lines_append hbefore]
    exact ih

-- Whatever is done with client events. A replay hands on the events of its lines in their order, up
-- to the first line that is no text, each with the store that has the batches up to it, and counts
-- them. After whole lines, all of them texts, it can be interrupted and goes on as if it had not been.
-- Taking out blank and malformed lines changes nothing but the count of what was skipped.
theorem replayed_by_lines (deliver : Store → ClientEvent → σ → σ) (feed : Feed σ) :
    (∀ bytes, ∃ whole last, IsCut bytes whole last ∧
      let ls := contents whole last
      let events := (texts ls).filterMap event?
      run deliver feed bytes =
        ({ feed :=
            { store := (events.filterMap ClientEvent.batch?).foldl Store.apply feed.store
              audience := (deliveries feed.store events).foldl (fun a d => deliver d.1 d.2 a)
                feed.audience }
           stats :=
            { published := events.length
              batches := (events.filterMap ClientEvent.batch?).length
              skipped := (texts ls).countP (IsMalformed ·) } }, failure? ls)) ∧
      (∀ x y, EndsLine x → (run deliver feed x).2 = none →
        let first := (run deliver feed x).1
        let second := (run deliver first.feed y).1
        run deliver feed (x ++ y) =
          ({ feed := second.feed, stats := first.stats + second.stats },
            (run deliver first.feed y).2)) ∧
      ∀ bytes thin, Thinned bytes thin →
        let full := run deliver feed bytes
        let thinned := run deliver feed thin
        thinned.1.feed = full.1.feed ∧ thinned.2 = full.2 ∧
          thinned.1.stats = { full.1.stats with skipped := thinned.1.stats.skipped } := by
  refine ⟨fun bytes => ?_, fun x y hx hok => run_append hx hok y, fun bytes thin hthin => ?_⟩
  · obtain ⟨whole, last, hcut⟩ := exists_cut bytes
    refine ⟨whole, last, hcut, ?_⟩
    rw [run_eq, lines_of_cut hcut]
    rfl
  · obtain ⟨hevents, hfailure⟩ := hthin.told
    simp only [run_eq, hevents, hfailure, tally, and_self]

end

-- What the subscribers of a source do: each is called with the event and the store as it is then,
-- and may change the source.
def publishing {κ σ : Type} (call : κ → Store → ClientEvent → Source κ × σ → Source κ × σ)
    (store : Store) (e : ClientEvent) (state : Source κ × σ) : Source κ × σ :=
  (state.1.publish (fun subscriber => call subscriber.2 store e) state).1

-- Writes down who is called and how many rooms the store knows then.
def note (name : String) (store : Store) (_ : ClientEvent)
    (state : Source String × List (String × Nat)) : Source String × List (String × Nat) :=
  (state.1, state.2 ++ [(name, store.rooms.size)])

def twoListeners : Feed (Source String × List (String × Nat)) :=
  { store := {}, audience := ({ subscribers := [(0, "a"), (1, "b")] }, []) }

def bytesOf (text : String) : List UInt8 := text.toList.map fun c => UInt8.ofNat c.toNat

def synced : List UInt8 :=
  bytesOf "\x7b\"command\":\"sync_complete\",\"data\":\x7b\"rooms\":\x7b\"!a\":\x7b\x7d\x7d\x7d\x7d\n"

def typing : List UInt8 := bytesOf "\x7b\"command\":\"typing\"\x7d"

-- A batch, an interruption and another event; and a malformed line before both.
theorem twoListeners_replayed :
    let replay := run (publishing note) twoListeners
    let second := run (publishing note) (replay synced).1.feed typing
    EndsLine synced ∧ (replay synced).2 = none ∧
      Thinned (bytesOf "typing\n" ++ (synced ++ typing)) (synced ++ typing) ∧
      (replay (synced ++ typing)).1.feed = second.1.feed ∧
      (replay (bytesOf "typing\n" ++ (synced ++ typing))).1.feed = second.1.feed ∧
      second.1.feed.audience.2 = [("a", 1), ("b", 1), ("a", 1), ("b", 1)] := by
  intro replay second
  have hends : EndsLine synced := by decide
  have hok : (replay synced).2 = none := by decide +kernel
  have hidle : IsIdle (bytesOf "typing") := ⟨"typing", by decide +kernel, .inr (by decide +kernel)⟩
  have hlines : lines (bytesOf "typing\n") = [bytesOf "typing"] := by decide
  have hstart : EndsLine [] := by decide
  have hthin : Thinned (bytesOf "typing\n" ++ (synced ++ typing)) (synced ++ typing) :=
    .drop hstart (.inl (by decide)) hlines hidle (.same _)
  have hheard : second.1.feed.audience.2 = [("a", 1), ("b", 1), ("a", 1), ("b", 1)] := by
    decide +kernel
  obtain ⟨-, hgoesOn, hthinned⟩ := replayed_by_lines (publishing note) twoListeners
  have hboth : (replay (synced ++ typing)).1.feed = second.1.feed := by
    simp only [replay, second, hgoesOn synced typing hends hok]
  have hless : (replay (synced ++ typing)).1.feed =
      (replay (bytesOf "typing\n" ++ (synced ++ typing))).1.feed := (hthinned _ _ hthin).1
  exact ⟨hends, hok, hthin, hboth, hless.symm.trans hboth, hheard⟩

end ChatRelay.Replay
