import ChatRelay.Proofs.Http.Access
import ChatRelay.Proofs.Text.FormQuery

namespace ChatRelay.Http

-- The value of the first header with the name.
def Request.First (r : Request) (name value : String) : Prop :=
  ∃ before h after, r.headers = before ++ h :: after ∧ h.name = name ∧ h.value = value ∧
    ∀ earlier ∈ before, earlier.name ≠ name

-- A text of printable ASCII characters and tabs.
def Readable (text : String) : Prop := ∀ c ∈ text.toList, c = '\t' ∨ (' ' ≤ c ∧ c ≤ '~')

namespace Request

-- The request bears what follows the scheme in its authorization.
def Bears (r : Request) (credential : String) : Prop :=
  ∃ value rest, r.First "authorization" value ∧ Readable value ∧
    Text.trim value = "Bearer " ++ rest ∧ Text.trim rest = credential

-- The request shows a token in the header that is for it.
def Shows (r : Request) (credential : String) : Prop :=
  ∃ value, r.First "x-beeper-access-token" value ∧ Readable value ∧
    Text.trim value = credential ∧ credential ≠ ""

-- The last field with the token's name in the query of the request has a value.
def Asks (r : Request) (credential : String) : Prop :=
  ∃ query before value after, r.target.query = some query ∧
    Text.FormQuery.Lists query (before ++ ("dangerouslyUseTokenInQuery", value) :: after) ∧
    (∀ field ∈ after, field.1 ≠ "dangerouslyUseTokenInQuery") ∧
    Text.trim value = credential ∧ credential ≠ ""

-- The credential of a request: what it bears counts before what it shows, and that before what it
-- asks with, which counts only where that is allowed.
inductive Credential (allowed : Bool) (r : Request) (credential : String) : Prop where
  | bearer (hbears : r.Bears credential)
  | header (hbearer : ∀ other, ¬r.Bears other) (hshows : r.Shows credential)
  | query (hbearer : ∀ other, ¬r.Bears other) (hheader : ∀ other, ¬r.Shows other)
      (hallowed : allowed = true) (hasks : r.Asks credential)

-- Nothing is left to be trimmed of a credential, and it is not empty.
theorem Credential.trimmed {allowed : Bool} {r : Request} {credential : String}
    (h : r.Credential allowed credential) :
    Text.trim credential = credential ∧ credential ≠ "" := by
  cases h with
  | bearer hbears =>
    obtain ⟨value, rest, -, -, hscheme, rfl⟩ := hbears
    exact ⟨Text.trim_trim rest, Text.trim_ne_empty_of_append hscheme (by decide)⟩
  | header _ hshows =>
    obtain ⟨value, -, -, rfl, hne⟩ := hshows
    exact ⟨Text.trim_trim value, hne⟩
  | query _ _ _ hasks =>
    obtain ⟨_, _, value, _, -, -, -, rfl, hne⟩ := hasks
    exact ⟨Text.trim_trim value, hne⟩

theorem first_iff {r : Request} {name value : String} :
    r.First name value ↔ (r.header? name).map (·.value) = some value := by
  simp only [First, header?, Option.map_eq_some_iff, List.find?_eq_some_iff_append,
    decide_eq_true_eq]
  constructor
  · rintro ⟨before, h, after, hheaders, hname, hvalue, hbefore⟩
    exact ⟨h, ⟨hname, before, after, hheaders, fun e he => by simpa using hbefore e he⟩, hvalue⟩
  · rintro ⟨h, ⟨hname, before, after, hheaders, hbefore⟩, hvalue⟩
    exact ⟨before, h, after, hheaders, hname, hvalue, fun e he => by simpa using hbefore e he⟩

end Request

theorem Header.readable?_eq_some_iff {h : Header} {text : String} :
    h.readable? = some text ↔ Readable h.value ∧ h.value = text := by
  simp [readable?, Readable]

namespace Access

variable {a : Access} {r : Request} {name text credential : String}

theorem headerText?_eq_some_iff :
    headerText? r name = some text ↔
      ∃ value, r.First name value ∧ Readable value ∧ Text.trim value = text ∧ text ≠ "" := by
  simp only [headerText?, Option.bind_eq_some_iff, Header.readable?_eq_some_iff,
    Text.nonBlank?_eq_some_iff, Request.first_iff, Option.map_eq_some_iff]
  constructor
  · rintro ⟨value, ⟨h, hfirst, hreadable, rfl⟩, rfl, hne⟩
    exact ⟨h.value, ⟨h, hfirst, rfl⟩, hreadable, rfl, hne⟩
  · rintro ⟨value, ⟨h, hfirst, rfl⟩, hreadable, rfl, hne⟩
    exact ⟨h.value, ⟨h, hfirst, hreadable, rfl⟩, rfl, hne⟩

theorem bearer?_eq_some_iff :
    bearer? text = some credential ↔
      ∃ rest, text = "Bearer " ++ rest ∧ Text.trim rest = credential := by
  refine ⟨eq_append_of_bearer?, ?_⟩
  rintro ⟨rest, rfl, rfl⟩
  exact bearer?_append rest

theorem bears_iff :
    r.Bears credential ↔ (headerText? r "authorization").bind bearer? = some credential := by
  simp only [Request.Bears, Option.bind_eq_some_iff, headerText?_eq_some_iff, bearer?_eq_some_iff]
  constructor
  · rintro ⟨value, rest, hfirst, hreadable, htrim, hrest⟩
    have hne : "Bearer " ++ rest ≠ "" := fun h => by simpa using congrArg String.toList h
    exact ⟨_, ⟨value, hfirst, hreadable, htrim, hne⟩, rest, rfl, hrest⟩
  · rintro ⟨_, ⟨value, hfirst, hreadable, htrim, -⟩, rest, rfl, hrest⟩
    exact ⟨value, rest, hfirst, hreadable, htrim, hrest⟩

theorem shows_iff : r.Shows credential ↔ headerText? r tokenHeader = some credential :=
  headerText?_eq_some_iff.symm

theorem asks_iff : r.Asks credential ↔ queryToken? r = some credential := by
  simp only [Request.Asks, queryToken?, Option.bind_eq_some_iff, Text.nonBlank?_eq_some_iff,
    Text.FormQuery.last?_eq_some_iff, tokenParameter]
  constructor
  · rintro ⟨query, before, value, after, hquery, hlists, hlast, rfl, hne⟩
    exact ⟨value, ⟨query, hquery, before, after, hlists, hlast⟩, rfl, hne⟩
  · rintro ⟨value, ⟨query, hquery, before, after, hlists, hlast⟩, rfl, hne⟩
    exact ⟨query, before, value, after, hquery, hlists, hlast, rfl, hne⟩

-- What is looked up is the credential.
theorem credential_iff :
    r.Credential a.allowQueryToken credential ↔ a.presented? r = some credential := by
  have hnone {α : Type} {o : Option α} : o = none ↔ ∀ other, o ≠ some other :=
    Option.eq_none_iff_forall_ne_some
  simp only [presented?, Option.orElse_eq_some, Option.ite_none_right_eq_some, hnone, ne_eq,
    ← bears_iff, ← shows_iff, ← asks_iff]
  constructor
  · rintro (hbears | ⟨hbearer, hshows⟩ | ⟨hbearer, hheader, hallowed, hasks⟩)
    · exact .inl hbears
    · exact .inr ⟨hbearer, .inl hshows⟩
    · exact .inr ⟨hbearer, .inr ⟨hheader, hallowed, hasks⟩⟩
  · rintro (hbears | ⟨hbearer, hshows | ⟨hheader, hallowed, hasks⟩⟩)
    · exact .bearer hbears
    · exact .header hbearer hshows
    · exact .query hbearer hheader hallowed hasks

-- What an access with a token makes of every request.
structure GoesByCredential (a : Access) (token : String) : Prop where
  admits : ∀ r, a.authorize r = .ok () ↔ r.Credential a.allowQueryToken token
  refuses : ∀ r, ¬r.Credential a.allowQueryToken token → a.authorize r = .error unauthorized
  -- No request has two credentials, and none has a blank one.
  single : ∀ (r : Request) one other, r.Credential a.allowQueryToken one →
    r.Credential a.allowQueryToken other → one = other
  trimmed : ∀ (r : Request) credential, r.Credential a.allowQueryToken credential →
    Text.trim credential = credential ∧ credential ≠ ""
  blank : Text.trim token = "" → ∀ r, a.authorize r = .error unauthorized
  -- What a request bears settles its case, whatever else it says.
  bearer : ∀ (r : Request) credential, r.Bears credential →
    (a.authorize r = .ok () ↔ credential = token)
  -- Where the query does not count, the address does not either.
  target : a.allowQueryToken = false → ∀ (r : Request) (target : Target),
    a.authorize { r with target } = a.authorize r

-- A server with a token admits the requests that have it as their credential.
theorem goesByCredential (token : String) (allowed : Bool) :
    GoesByCredential { token := some token, allowQueryToken := allowed } token := by
  let a : Access := { token := some token, allowQueryToken := allowed }
  have hverdict (r : Request) : a.authorize r =
      if a.presented? r = some token then .ok () else .error unauthorized := rfl
  have hadmits (r : Request) : a.authorize r = .ok () ↔ r.Credential allowed token := by
    rw [hverdict, credential_iff (a := a)]
    split <;> simp_all
  have hrefuses (r : Request) (h : ¬r.Credential allowed token) :
      a.authorize r = .error unauthorized := by
    rw [hverdict, if_neg (mt (credential_iff (a := a)).mpr h)]
  have hsingle (r : Request) (one other : String) (hone : r.Credential allowed one)
      (hother : r.Credential allowed other) : one = other := by
    have hpresented := (credential_iff (a := a)).mp hone
    exact Option.some.inj (hpresented.symm.trans ((credential_iff (a := a)).mp hother))
  refine
    { admits := hadmits
      refuses := hrefuses
      single := hsingle
      trimmed := fun r credential h => h.trimmed
      blank := fun hblank r => hrefuses r fun h => ?blank
      bearer := fun r credential hbears => ?bearer
      target := fun hquery r target => ?target }
  case blank =>
    obtain ⟨htrim, hne⟩ := h.trimmed
    exact hne (htrim.symm.trans hblank)
  case bearer =>
    have hcredential : r.Credential allowed credential := .bearer hbears
    rw [hadmits]
    exact ⟨hsingle r _ _ hcredential, fun heq => heq ▸ hcredential⟩
  case target =>
    obtain rfl : allowed = false := hquery
    rfl

-- An authorization of another scheme and one without a credential are passed over, and the header
-- counts before the query.
theorem shown_token_admitted :
    let a : Access := { token := some "secret", allowQueryToken := true }
    let r : Request :=
      { target := .ofText "/v1/ws?dangerouslyUseTokenInQuery=other"
        headers := [⟨"authorization", "Bearer "⟩, ⟨"x-beeper-access-token", " secret"⟩] }
    r.Credential true "secret" ∧ a.authorize r = .ok () := by
  intro a r
  have hadmitted : a.authorize r = .ok () := by decide +kernel
  exact ⟨((goesByCredential "secret" true).admits r).mp hadmitted, hadmitted⟩

end Access

end ChatRelay.Http
