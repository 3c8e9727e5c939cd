/-
# Where the sign-in routes send the browser

Every `Location` that `start` and `callback` choose themselves (all but the provider's URL) is a
root-relative path.  For `start` and for the sign-in page this is `safeNext`'s test; for
`callback` it is an invariant of the session, since the `next` it returns to was stored by an
earlier request: `NextOnSite` holds of a session without attempts and every request keeps it
(`step_nextOnSite`).
-/
import Muxa.Auth.SignIn

namespace Muxa.Auth

open Lib.Text Lib.Url Lib.Run

variable {P I U : Type}

/-- The configured pages pass the test of `safe_next`. -/
structure Flow.OnSite (flow : Flow P) : Prop where
  signInPath : onSite flow.signInPath = true
  defaultNext : onSite flow.defaultNext = true

/-- Every attempt in the session returns to a path on this site. -/
def NextOnSite (session : Session U) : Prop :=
  ∀ s pending, session.attempt s = some pending → onSite pending.next = true

/-- **Every request keeps the stored `next` values on site.** -/
theorem step_nextOnSite {flow : Flow P} (hflow : flow.OnSite) {w : World P I U} (hw : w.Lawful)
    {session : Session U} (h : NextOnSite session) (req : Request) :
    NextOnSite (step flow session (w, req)) := by
  intro s pending hs
  by_cases hold : session.attempt s = some pending
  · exact h s pending hold
  · obtain ⟨providerId, query, authorization, -, -, -, rfl⟩ := step_creates hw flow _ hold hs
    exact onSite_safeNext hflow.defaultNext

theorem run_nextOnSite {flow : Flow P} (hflow : flow.OnSite) {session₀ : Session U}
    (h₀ : ∀ s, session₀.attempt s = none) {l : List (World P I U × Request)}
    (hlaw : ∀ r ∈ l, r.1.Lawful) : NextOnSite (run (step flow) session₀ l) := by
  refine run_invariant (I := NextOnSite)
    (fun σ r hI hr => step_nextOnSite hflow hr hI r.2) l session₀ ?_ ?_
  · intro s pending hs
    rw [h₀] at hs
    cases hs
  · exact along_of_forall hlaw

/-- The app's own `Location` of a response is root-relative. -/
def Response.Stays (response : Response) : Prop :=
  ∀ location, response.location = some location → RootRelative location

/-- A refusal goes to the sign-in page or back to the attempt's `next`. -/
theorem refuse_stays {flow : Flow P} (hflow : flow.OnSite) (refusal : Refusal)
    {back : Option Return} (hback : ∀ r ∈ back, onSite r.next = true) :
    (flow.refuse refusal back).Stays := by
  have hpage := onSite_rootRelative hflow.signInPath
  intro location hloc
  obtain rfl := Option.some.inj hloc
  match back, hback with
  | none, _ => exact withQuery_rootRelative hpage _
  | some ⟨next, false⟩, _ => exact withQuery_rootRelative hpage _
  | some ⟨next, true⟩, hback =>
    exact withQuery_rootRelative (onSite_rootRelative (hback _ rfl)) _

theorem start_stays {flow : Flow P} (hflow : flow.OnSite) (w : World P I U)
    (session : Session U) (providerId : Str) (query : StartQuery) :
    (start flow w session providerId query).response.Stays := by
  rcases start_cases flow w session providerId query with
    ⟨refusal, link, hs⟩ | ⟨authorization, hacc, -⟩
  · rw [hs]
    refine refuse_stays hflow refusal ?_
    rintro r ⟨⟩
    exact onSite_safeNext hflow.defaultNext
  · rw [hacc.response]
    intro location hloc
    cases hloc

theorem callback_stays {flow : Flow P} (hflow : flow.OnSite) (w : World P I U)
    {session : Session U} (h : NextOnSite session) (providerId : Str) (query : CallbackQuery) :
    (callback flow w session providerId query).response.Stays := by
  obtain ⟨session', -, -, hcases⟩ := callback_cases flow w session providerId query
  rcases hcases with ⟨refusal, hout⟩ | ⟨s, pending, hred, hout⟩
  · rw [hout]
    change (flow.refuse refusal none).Stays
    exact refuse_stays hflow refusal (by simp)
  have hnext : onSite pending.next = true := h s pending hred.attempt
  have hback : ∀ link : Bool, ∀ r ∈ some (Return.mk pending.next link),
      onSite r.next = true := by
    rintro link r ⟨⟩
    exact hnext
  rw [hout]
  rcases redeem_cases flow w session' providerId query pending with
    ⟨refusal, link, events, hrefuse, -⟩ | ⟨provider, code, identity, -, -, -, -, hsign⟩
  · rw [hrefuse]
    exact refuse_stays hflow refusal (hback link)
  rw [hsign]
  rcases signIn_cases flow w session' pending identity [.identify provider code pending] with
    ⟨refusal, -, hres⟩ | ⟨resolved, -, -, -, ⟨err, -, hfail⟩ | ⟨-, hok⟩⟩
  · rw [hres]
    exact refuse_stays hflow refusal (hback _)
  · rw [hfail]
    exact refuse_stays hflow _ (hback _)
  · rw [hok]
    intro location hloc
    obtain rfl := Option.some.inj hloc
    exact withQuery_rootRelative (onSite_rootRelative hnext) _

/-- **No open redirect and no header injection.**  After any run on a session that starts
without attempts, whatever the next request, every `Location` the app chooses keeps the scheme,
host and port of the page it is resolved against, and has no control character in it. -/
theorem location_stays (flow : Flow P) (hflow : flow.OnSite) (session₀ : Session U)
    (h₀ : ∀ s, session₀.attempt s = none) (l : List (World P I U × Request))
    (hlaw : ∀ r ∈ l, r.1.Lawful) (w : World P I U) (req : Request) (location : Str)
    (hloc : (handle flow (run (step flow) session₀ l) (w, req)).response.location =
      some location) :
    (∀ parseAuthority base, resolve parseAuthority base location = some base) ∧
      ∀ c ∈ location, isControl c = false := by
  have hstays : (handle flow (run (step flow) session₀ l) (w, req)).response.Stays := by
    cases req with
    | start providerId query => exact start_stays hflow w _ providerId query
    | callback providerId query =>
      exact callback_stays hflow w (run_nextOnSite hflow h₀ hlaw) providerId query
    | signOut =>
      intro location hloc
      cases hloc
  have hroot := hstays location hloc
  exact ⟨resolve_rootRelative hroot, hroot.clean⟩

/-- The callback of a sign-in started with a hostile `next` goes to the default page. -/
theorem location_stays_hostile :
    let l := [(plainWorld 100 "a" 7, .start "g".toList { next := some "/\\evil.example".toList })]
    let out := handle plainFlow (run (step plainFlow) {} l)
      (plainWorld 200 "-" 7, .callback "g".toList (plainCallback "a"))
    out.response.location = some "/".toList ∧
      ∀ parseAuthority base, resolve parseAuthority base "/".toList = some base := by
  refine ⟨by decide, ?_⟩
  exact (location_stays plainFlow ⟨by decide, by decide⟩ {} (fun _ => rfl)
    [(plainWorld 100 "a" 7, .start "g".toList { next := some "/\\evil.example".toList })]
    (by simpa using plainWorld_lawful _ _ _) (plainWorld 200 "-" 7)
    (.callback "g".toList (plainCallback "a")) "/".toList (by decide)).1

end Muxa.Auth
