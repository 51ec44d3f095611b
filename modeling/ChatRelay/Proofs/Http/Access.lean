import ChatRelay.Config.Validity
import ChatRelay.Http.Route
import ChatRelay.Proofs.Text
import Mathlib.Data.Option.Basic

namespace ChatRelay

namespace Http.Access

-- The places in which a request can present a token. White space around it does not count, and of
-- several headers with one name only the first is looked at.
inductive Presents (a : Access) (r : Request) (token : String) : Prop where
  | bearer {h : Header} {credential : String} (first : r.header? "authorization" = some h)
      (scheme : Text.trim h.value = "Bearer " ++ credential)
      (reads : Text.trim credential = token)
  | header {h : Header} (first : r.header? tokenHeader = some h)
      (reads : Text.trim h.value = token)
  | query {query value : String} (allowed : a.allowQueryToken = true)
      (asks : r.target.query = some query)
      (last : Text.FormQuery.last? tokenParameter query = some value)
      (reads : Text.trim value = token)

-- What an access with a token does with requests.
structure Guards (a : Access) (token : String) : Prop where
  enabled : a.isEnabled = true
  refuses : ∀ r, ¬a.Presents r token →
    a.authorize r = .error unauthorized ∧ (r.refuse? a).map (·.status) = some 401
  admits : ∀ r h, r.header? "authorization" = some h → h.value = "Bearer " ++ token →
    (∀ c ∈ token.toList, ' ' ≤ c ∧ c ≤ '~') → a.authorize r = .ok ()

variable {a : Access} {r : Request} {h : Header} {name text token : String}

theorem header?_of_headerText? (htext : headerText? r name = some text) :
    ∃ h, r.header? name = some h ∧ Text.trim h.value = text := by
  obtain ⟨value, hvalue, hnonblank⟩ := Option.bind_eq_some_iff.mp htext
  obtain ⟨h, hfirst, hreadable⟩ := Option.bind_eq_some_iff.mp hvalue
  obtain ⟨-, hvalue⟩ := Option.ite_none_right_eq_some.mp hreadable
  obtain ⟨htrim, -⟩ := Text.nonBlank?_eq_some_iff.mp hnonblank
  exact ⟨h, hfirst, by rw [Option.some.inj hvalue, htrim]⟩

theorem headerText?_eq (hfirst : r.header? name = some h)
    (hprintable : ∀ c ∈ h.value.toList, ' ' ≤ c ∧ c ≤ '~') (htrim : Text.trim h.value = h.value)
    (hne : h.value ≠ "") : headerText? r name = some h.value := by
  have hreadable : h.readable? = some h.value := by
    rw [Header.readable?, if_pos]
    simpa using fun c hc => Or.inr (hprintable c hc)
  have hnonblank : Text.nonBlank? h.value = some h.value :=
    Text.nonBlank?_eq_some_iff.mpr ⟨htrim.symm, hne⟩
  simp only [headerText?, hfirst, Option.bind_some, hreadable, hnonblank]

theorem eq_append_of_bearer? (hbearer : bearer? text = some token) :
    ∃ credential, text = "Bearer " ++ credential ∧ Text.trim credential = token := by
  obtain ⟨hscheme, htoken⟩ := Option.ite_none_right_eq_some.mp hbearer
  obtain ⟨rest, hrest⟩ := List.isPrefixOf_iff_prefix.mp hscheme
  refine ⟨String.ofList rest, ?_, ?_⟩
  · rw [← String.ofList_toList (s := text), ← hrest, String.ofList_append]
    rfl
  · rw [← Option.some.inj htoken, ← hrest, List.drop_left]

theorem bearer?_append (text : String) : bearer? ("Bearer " ++ text) = some (Text.trim text) := by
  have hchars : ("Bearer " ++ text).toList = bearerScheme ++ text.toList := String.toList_append
  have hscheme : bearerScheme.isPrefixOf (bearerScheme ++ text.toList) :=
    List.isPrefixOf_iff_prefix.mpr (List.prefix_append _ _)
  rw [bearer?, hchars, if_pos hscheme, List.drop_left, String.ofList_toList]

-- Whatever is taken as the token of a request stands in one of the places.
theorem presents_of_presented? (hpresented : a.presented? r = some token) :
    a.Presents r token := by
  rcases (Option.orElse_eq_some _ _ _).mp hpresented with hbearer | ⟨-, hlater⟩
  · obtain ⟨text, htext, hbearer⟩ := Option.bind_eq_some_iff.mp hbearer
    obtain ⟨h, hfirst, rfl⟩ := header?_of_headerText? htext
    obtain ⟨credential, hscheme, hreads⟩ := eq_append_of_bearer? hbearer
    exact .bearer hfirst hscheme hreads
  · rcases (Option.orElse_eq_some _ _ _).mp hlater with hheader | ⟨-, hquery⟩
    · obtain ⟨h, hfirst, hreads⟩ := header?_of_headerText? hheader
      exact .header hfirst hreads
    · obtain ⟨hallowed, hquery⟩ := Option.ite_none_right_eq_some.mp hquery
      obtain ⟨value, hvalue, hnonblank⟩ := Option.bind_eq_some_iff.mp hquery
      obtain ⟨query, hasks, hlast⟩ := Option.bind_eq_some_iff.mp hvalue
      exact .query hallowed hasks hlast (Text.nonBlank?_eq_some_iff.mp hnonblank).1.symm

theorem status_refuse? (hrefused : a.authorize r = .error unauthorized) :
    (r.refuse? a).map (·.status) = some 401 := by
  simp only [Request.refuse?, Request.refusal?, hrefused, Option.map_some]
  split <;> rfl

-- The bearer credential comes before everything else that a request may present.
theorem presented?_of_bearer (hfirst : r.header? "authorization" = some h)
    (hvalue : h.value = "Bearer " ++ token) (htrim : Text.trim token = token) (hne : token ≠ "")
    (hprintable : ∀ c ∈ token.toList, ' ' ≤ c ∧ c ≤ '~') : a.presented? r = some token := by
  have hscheme : ∀ c ∈ bearerScheme, ' ' ≤ c ∧ c ≤ '~' := by
    have hall : bearerScheme.all (fun c => ' ' ≤ c && c ≤ '~') = true := by decide
    simpa only [List.all_eq_true, Bool.and_eq_true, decide_eq_true_eq] using hall
  have htext : headerText? r "authorization" = some ("Bearer " ++ token) := by
    rw [← hvalue]
    apply headerText?_eq hfirst
    · rw [hvalue, String.toList_append]
      intro c hc
      exact (List.mem_append.mp hc).elim (hscheme c) (hprintable c)
    · rw [hvalue]
      exact Text.trim_append rfl (by decide) htrim hne
    · simp [hvalue]
  simp only [presented?, htext, Option.bind_some, bearer?_append, htrim]
  rfl

theorem guards_of_token (htoken : a.token = some token) (htrim : Text.trim token = token)
    (hne : token ≠ "") : a.Guards token where
  enabled := by simp [isEnabled, htoken]
  refuses r hpresents := by
    have hpresented : a.presented? r ≠ some token := mt presents_of_presented? hpresents
    have hrefused : a.authorize r = .error unauthorized := by
      simp only [authorize, htoken, if_neg hpresented]
    exact ⟨hrefused, status_refuse? hrefused⟩
  admits r h hfirst hvalue hprintable := by
    have hpresented := presented?_of_bearer (a := a) hfirst hvalue htrim hne hprintable
    simp only [authorize, htoken, if_pos hpresented]

end Http.Access

namespace Config

theorem token_of_check {c : Config} (hproduction : c.server.deployment = .production)
    (hvalid : c.check = .ok ()) : ∃ token, c.credentials.token? = some token := by
  unfold check at hvalid
  cases hserver : c.server.check with
  | error defect => simp [hserver, bind, Except.bind] at hvalid
  | ok _ =>
    cases htoken : c.credentials.token? with
    | none =>
      simp [hserver, Credentials.check, hproduction, htoken, bind, Except.bind] at hvalid
    | some token => exact ⟨token, rfl⟩

-- A valid configuration for production comes with a token, and the server asks every request for
-- it.
theorem production_guarded {c : Config} (hproduction : c.server.deployment = .production)
    (hvalid : c.check = .ok ()) :
    ∃ configured, c.credentials.accessToken = some configured ∧ Text.trim configured ≠ "" ∧
      c.access.Guards (Text.trim configured) := by
  obtain ⟨token, htoken⟩ := token_of_check hproduction hvalid
  obtain ⟨configured, hconfigured, hnonblank⟩ := Option.bind_eq_some_iff.mp htoken
  obtain ⟨rfl, hne⟩ := Text.nonBlank?_eq_some_iff.mp hnonblank
  exact ⟨configured, hconfigured, hne,
    Http.Access.guards_of_token htoken (Text.trim_trim configured) hne⟩

-- The token is configured with white space around it.
def paddedToken : Config where
  server := { deployment := .production }
  credentials := { accessToken := some " secret\t" }

theorem paddedToken_guarded :
    (paddedToken.server.deployment = .production ∧ paddedToken.check = .ok ()) ∧
      paddedToken.access.Guards "secret" := by
  have hvalid : paddedToken.check = .ok () := by
    have hisOk : paddedToken.check.isOk = true := by decide +kernel
    cases hcheck : paddedToken.check with
    | error defect => simp [hcheck, Except.isOk, Except.toBool] at hisOk
    | ok _ => rfl
  obtain ⟨configured, hconfigured, -, hguards⟩ := production_guarded (c := paddedToken) rfl hvalid
  obtain rfl : " secret\t" = configured := Option.some.inj hconfigured
  have htrim : Text.trim " secret\t" = "secret" := by decide
  exact ⟨⟨rfl, hvalid⟩, htrim ▸ hguards⟩

end Config

end ChatRelay
