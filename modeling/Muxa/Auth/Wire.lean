/-
# The routes on the wire

A browser sends HTTP requests.  Those that the cross-origin guard lets through are matched against
the three routes, their path and query are decoded, and what does not decode is answered without a
handler being called (`dispatch`).  A run of HTTP requests is, for the session, the run of those
that reach a handler (`run_serve`), so what holds of the handlers holds of the app.

A page of another site can make its visitor's browser send requests too: any state-changing one,
with that page's origin on it, and any navigation, with whatever state token it likes.  None of them
changes who is signed in (`hostile_page_changes_no_user`).
-/
import Muxa.Auth.Csrf
import Muxa.Auth.Overlap
import Muxa.Lib.Segments

namespace Muxa.Auth

open Lib.Text Lib.Run Lib.Form Lib.Segments Lib.Utf8

/-! ## 1. From an HTTP request to a handler -/

/-- What the routes read of an HTTP request.  The path is percent-encoded. -/
structure HttpRequest where
  method : Csrf.Method
  path : Str
  query : Option Str := none
  headers : Csrf.HeaderMap := []

/-- The routes under the mount, with the provider as it stands in the path. -/
inductive Route where
  | start (provider : Str)
  | callback (provider : Str)
  | signOut
deriving DecidableEq

/-- The paths of `routes::router`.  A parameter is one segment, and may be empty. -/
def route (mount path : Str) : Option Route :=
  match (stripPrefix mount path).map (·.splitOn '/') with
  | some [[], last] => if last = "sign-out".toList then some .signOut else none
  | some [[], provider, last] =>
    if last = "start".toList then some (.start provider)
    else if last = "callback".toList then some (.callback provider)
    else none
  | _ => none

/-- `Path<String>`: percent-decoded, and refused if that is not UTF-8. -/
def pathParam (segment : Str) : Option Str :=
  let bytes := percentDecode (utf8 segment)
  let s := decodeUtf8 bytes
  if utf8 s = bytes then some s else none

/-- An `Option<String>` field of a query: a field that comes twice is an error. -/
def queryField (pairs : List (Str × Str)) (name : String) : Option (Option Str) :=
  match pairs.filter fun pair => pair.1 == name.toList with
  | [] => some none
  | [pair] => some (some pair.2)
  | _ => none

def StartQuery.extract (pairs : List (Str × Str)) : Option StartQuery := do
  let next ← queryField pairs "next"
  let link ← queryField pairs "link"
  return { next, link }

def CallbackQuery.extract (pairs : List (Str × Str)) : Option CallbackQuery := do
  let code ← queryField pairs "code"
  let state ← queryField pairs "state"
  let error ← queryField pairs "error"
  return { code, state, error }

def HttpRequest.pairs (http : HttpRequest) : List (Str × Str) :=
  parse (utf8 (http.query.getD []))

/-- `get(..)`, which answers `HEAD` too, and `post(..)`. -/
def Route.serves : Route → Csrf.Method → Bool
  | .start _, method | .callback _, method => method == .get || method == .head
  | .signOut, method => method == .post

/-- What the handler of a route extracts of the request; none is a rejection. -/
def HttpRequest.extract (http : HttpRequest) : Route → Option Request
  | .start provider => do
    let providerId ← pathParam provider
    let query ← StartQuery.extract http.pairs
    return .start providerId query
  | .callback provider => do
    let providerId ← pathParam provider
    let query ← CallbackQuery.extract http.pairs
    return .callback providerId query
  | .signOut => some .signOut

/-- The router and the extractors: the handler's arguments, or the status that is sent instead. -/
def dispatch (mount : Str) (http : HttpRequest) : Except Nat Request :=
  match route mount http.path with
  | none => .error 404
  | some r =>
    if r.serves http.method then (http.extract r).elim (.error 400) .ok else .error 405

theorem dispatch_ok_iff {mount : Str} {http : HttpRequest} {request : Request} :
    dispatch mount http = .ok request ↔
      ∃ r, route mount http.path = some r ∧ r.serves http.method = true ∧
        http.extract r = some request := by
  unfold dispatch
  cases route mount http.path with
  | none => simp
  | some r =>
    cases hserves : r.serves http.method with
    | false => simp [hserves]
    | true => cases hextract : http.extract r <;> simp [hserves, hextract]

theorem extract_start {http : HttpRequest} {provider : Str} {request : Request}
    (h : http.extract (.start provider) = some request) :
    ∃ providerId query, pathParam provider = some providerId ∧
      StartQuery.extract http.pairs = some query ∧ request = .start providerId query := by
  simp only [HttpRequest.extract, Option.bind_eq_bind, Option.bind_eq_some_iff] at h
  obtain ⟨providerId, hprovider, query, hquery, hrequest⟩ := h
  exact ⟨providerId, query, hprovider, hquery, (Option.some.inj hrequest).symm⟩

theorem extract_callback {http : HttpRequest} {provider : Str} {request : Request}
    (h : http.extract (.callback provider) = some request) :
    ∃ providerId query, pathParam provider = some providerId ∧
      CallbackQuery.extract http.pairs = some query ∧ request = .callback providerId query := by
  simp only [HttpRequest.extract, Option.bind_eq_bind, Option.bind_eq_some_iff] at h
  obtain ⟨providerId, hprovider, query, hquery, hrequest⟩ := h
  exact ⟨providerId, query, hprovider, hquery, (Option.some.inj hrequest).symm⟩

theorem isSafe_of_get {method : Csrf.Method}
    (h : (method == .get || method == .head) = true) : method.isSafe = true := by
  rw [Csrf.Method.isSafe, h, Bool.true_or]

/-! ## 2. The app -/

/-- What `AuthPlugin` makes of the routes: where they are mounted, and the guard around them. -/
structure AuthApp (P : Type) where
  flow : Flow P
  mount : Str
  trusted : List Str

section Serve

variable {P I U : Type} (parseUrl : Str → Option Csrf.ParsedUrl) (app : AuthApp P)

def AuthApp.admits (http : HttpRequest) : Bool :=
  Csrf.allowed parseUrl http.method http.headers app.trusted

/-- One HTTP request to the app: the guard comes first, and what it refuses reaches no route. -/
def AuthApp.serve (session : Session U) (r : World P I U × HttpRequest) : Outcome P I U :=
  if app.admits parseUrl r.2 then
    match dispatch app.mount r.2 with
    | .ok request => handle app.flow session (r.1, request)
    | .error code => { response := .status code, session }
  else { response := .status 403, session }

def AuthApp.step (session : Session U) (r : World P I U × HttpRequest) : Session U :=
  (app.serve parseUrl session r).session

def AuthApp.request? (r : World P I U × HttpRequest) : Option (World P I U × Request) :=
  if app.admits parseUrl r.2 then (dispatch app.mount r.2).toOption.map fun req => (r.1, req)
  else none

variable {parseUrl app}

variable (parseUrl app) in
/-- **A request reaches a handler, or is answered with a bare status** and leaves the session. -/
theorem serve_cases (session : Session U) (r : World P I U × HttpRequest) :
    (∃ request, app.request? parseUrl r = some (r.1, request) ∧ app.admits parseUrl r.2 = true ∧
        dispatch app.mount r.2 = .ok request ∧
        app.serve parseUrl session r = handle app.flow session (r.1, request)) ∨
      ∃ code, app.request? parseUrl r = none ∧
        app.serve parseUrl session r = { response := .status code, session } := by
  cases hadmits : app.admits parseUrl r.2 with
  | false => exact .inr ⟨403, by simp [AuthApp.request?, hadmits], by simp [AuthApp.serve, hadmits]⟩
  | true =>
    cases hd : dispatch app.mount r.2 with
    | error code =>
      refine .inr ⟨code, ?_, by simp [AuthApp.serve, hadmits, hd]⟩
      simp [AuthApp.request?, hadmits, hd, Except.toOption]
    | ok request =>
      refine .inl ⟨request, ?_, rfl, rfl, by simp [AuthApp.serve, hadmits, hd]⟩
      simp [AuthApp.request?, hadmits, hd, Except.toOption]

/-- **A run on the wire is the run of the requests that reach a handler.** -/
theorem run_serve (session : Session U) (l : List (World P I U × HttpRequest)) :
    run (app.step parseUrl) session l =
      run (Muxa.Auth.step app.flow) session (l.filterMap (app.request? parseUrl)) := by
  induction l generalizing session with
  | nil => rfl
  | cons r l ih =>
    rw [run_cons, ih, List.filterMap_cons]
    rcases serve_cases parseUrl app session r with
      ⟨request, hreq, -, -, hserve⟩ | ⟨code, hreq, hserve⟩
    · rw [hreq, run_cons, AuthApp.step, hserve]
      rfl
    · rw [hreq, AuthApp.step, hserve]

variable (parseUrl app) in
theorem lawful_requests {l : List (World P I U × HttpRequest)} (h : ∀ r ∈ l, r.1.Lawful) :
    ∀ req ∈ l.filterMap (app.request? parseUrl), req.1.Lawful := by
  intro req hreq
  obtain ⟨r, hr, heq⟩ := List.mem_filterMap.mp hreq
  rcases serve_cases parseUrl app ({} : Session U) r with
    ⟨request, hsome, -⟩ | ⟨code, hnone, -⟩
  · obtain rfl := Option.some.inj (hsome.symm.trans heq)
    exact h r hr
  · rw [hnone] at heq
    cases heq

/-! ## 3. The guard -/

/-- **What the guard lets through passes its rule**, where there is a `Sec-Fetch-Site` or the
`Origin` reads as text. -/
theorem passes_of_admits (hparse : Csrf.LawfulParse parseUrl) {configured : List Str}
    (htrusted : app.trusted = Csrf.trustedOrigins parseUrl configured) {http : HttpRequest}
    (hread : (http.headers.get "sec-fetch-site").isSome = true ∨
      ∀ value, http.headers.get "origin" = some value → (Csrf.toStr value).isSome = true)
    (hadmits : app.admits parseUrl http = true) :
    Csrf.Passes parseUrl http.method http.headers configured := by
  have hfrom := Csrf.fromConfigured_iff hparse http.headers configured
  rw [← htrusted] at hfrom
  unfold AuthApp.admits Csrf.allowed at hadmits
  cases hsafe : http.method.isSafe with
  | true => exact .inl hsafe
  | false =>
  simp only [hsafe, Bool.false_eq_true, if_false] at hadmits
  cases hsite : http.headers.get "sec-fetch-site" with
  | some site =>
    simp only [hsite] at hadmits
    split at hadmits
    · rename_i hsame
      exact .inr (.inl ⟨site, hsite, by simpa using hsame⟩)
    · exact .inr (.inr (.inl (hfrom.mpr hadmits)))
  | none =>
    simp only [hsite, Option.isSome_none, Bool.false_eq_true, false_or] at hadmits hread
    cases horigin : http.headers.get "origin" with
    | none => exact .inr (.inr (.inr ⟨hsite, .inl horigin⟩))
    | some value =>
      obtain ⟨text, htext⟩ := Option.isSome_iff_exists.mp (hread value horigin)
      simp only [horigin, Option.bind_some, htext] at hadmits hfrom
      split at hadmits
      · rename_i hcontains
        exact .inr (.inr (.inl (hfrom.mpr (by simpa using hcontains))))
      · refine .inr (.inr (.inr ⟨hsite, .inr ((Csrf.matchesHost_iff hparse horigin htext).mpr ?_)⟩))
        split at hadmits
        · rename_i url host hurl hhost
          cases hname : Csrf.originHost url with
          | none => simp [hname] at hadmits
          | some name => exact ⟨url, name, host, hurl, hname, hhost, by simpa [hname] using hadmits⟩
        · cases hadmits

/-- **A sign-out is the one request that takes a method that is not safe.** -/
theorem dispatch_signOut_iff {mount : Str} {http : HttpRequest} {request : Request}
    (h : dispatch mount http = .ok request) : request = .signOut ↔ http.method.isSafe = false := by
  obtain ⟨r, -, hserves, hextract⟩ := dispatch_ok_iff.mp h
  cases r with
  | signOut =>
    obtain rfl : Request.signOut = request := Option.some.inj hextract
    have hpost : http.method = .post := by simpa [Route.serves] using hserves
    simp [hpost, Csrf.Method.isSafe]
  | start provider =>
    obtain ⟨_, _, -, -, rfl⟩ := extract_start hextract
    have hsafe : http.method.isSafe = true := isSafe_of_get hserves
    simp [hsafe]
  | callback provider =>
    obtain ⟨_, _, -, -, rfl⟩ := extract_callback hextract
    have hsafe : http.method.isSafe = true := isSafe_of_get hserves
    simp [hsafe]

/-! ## 4. A page of another site -/

variable (parseUrl app) in
/-- **A request that a page of another site can make its visitor's browser send** among the
requests `l` on the visitor's session: a state-changing one, with an `Origin` and a
`Sec-Fetch-Site` that do not pass the rule; or a navigation, with a state token that no request on
this session draws.  Browsers send the `Origin` as text; one that is not, on a request without
`Sec-Fetch-Site`, gets past the guard. -/
inductive Hostile (configured : List Str) (l : List (World P I U × HttpRequest))
    (r : World P I U × HttpRequest) : Prop where
  | changing (hsafe : r.2.method.isSafe = false)
      (hread : (r.2.headers.get "sec-fetch-site").isSome = true ∨
        ∀ value, r.2.headers.get "origin" = some value → (Csrf.toStr value).isSome = true)
      (hforeign : ¬ Csrf.Passes parseUrl r.2.method r.2.headers configured)
  | navigation (hsafe : r.2.method.isSafe = true)
      (hguessed : ∀ s request, dispatch app.mount r.2 = .ok request → request.Presents s →
        ∀ req ∈ l.filterMap (app.request? parseUrl), ¬ Draws app.flow s req)

/-- **A hostile request leaves the user alone** and redeems nothing, whatever was requested
before. -/
theorem hostile_leaves_user (hparse : Csrf.LawfulParse parseUrl) {configured : List Str}
    (htrusted : app.trusted = Csrf.trustedOrigins parseUrl configured) {session₀ : Session U}
    (h₀ : ∀ s, session₀.attempt s = none) {l pre post : List (World P I U × HttpRequest)}
    {r : World P I U × HttpRequest} (hl : l = pre ++ r :: post) (hlaw : ∀ r ∈ l, r.1.Lawful)
    (hhostile : Hostile parseUrl app configured l r) :
    let before := run (app.step parseUrl) session₀ pre
    let out := app.serve parseUrl before r
    out.session.user = before.user ∧ out.events = [] := by
  intro before out
  rcases serve_cases parseUrl app before r with
    ⟨request, -, hadmits, hdispatch, hserve⟩ | ⟨code, -, hserve⟩
  swap
  · simp only [out, hserve]
    exact ⟨trivial, trivial⟩
  cases hhostile with
  | changing hsafe hread hforeign =>
    exact absurd (passes_of_admits hparse htrusted hread hadmits) hforeign
  | navigation hsafe hguessed =>
    have hsignOut : request ≠ .signOut := by
      intro heq
      have := (dispatch_signOut_iff hdispatch).mp heq
      rw [hsafe] at this
      cases this
    simp only [out, hserve]
    cases request with
    | signOut => exact absurd rfl hsignOut
    | start providerId query => exact ⟨start_user _ _ _ _ _, start_events _ _ _ _ _⟩
    | callback providerId query =>
      have hunknown : ∀ s, query.state = some s → before.attempt s = none := by
        intro s hs
        by_contra hheld
        obtain ⟨pending, hpending⟩ := Option.ne_none_iff_exists'.mp hheld
        simp only [before, run_serve] at hpending
        have hlawful : ∀ req ∈ pre.filterMap (app.request? parseUrl), req.1.Lawful :=
          lawful_requests parseUrl app fun r' hr' => hlaw r' (by simp [hl, hr'])
        obtain ⟨pre', w₀, providerId₀, query₀, mid, authorization, hsplit, hacc, rfl, -, -⟩ :=
          attempt_history h₀ hlawful hpending
        refine hguessed _ _ hdispatch hs (w₀, .start providerId₀ query₀) ?_ hacc.draws
        rw [hl, List.filterMap_append, hsplit]
        simp
      obtain ⟨refusal, session', hrefuse, huser, -⟩ :=
        callback_unknown app.flow r.1 before providerId query hunknown
      simp only [handle, hrefuse]
      exact ⟨huser, trivial⟩

/-- **Only a sign-out signs a user out.** -/
theorem step_signs_out {w : World P I U} (h : w.Lawful) (flow : Flow P) {session : Session U}
    {req : Request} (hold : session.user ≠ none)
    (hnew : (Muxa.Auth.step flow session (w, req)).user = none) : req = .signOut := by
  cases req with
  | signOut => rfl
  | start providerId query =>
    rw [Muxa.Auth.step, handle, start_user] at hnew
    exact absurd hnew hold
  | callback providerId query =>
    rw [Muxa.Auth.step, handle] at hnew
    obtain ⟨session', huser, -, hcases⟩ := callback_outcome flow w session providerId query
    rw [← huser] at hold
    rcases hcases with ⟨hs, -⟩ | ⟨_, _, _, _, _, -, ⟨hs, -⟩ | ⟨user, hs, -, hlogin⟩⟩
    · exact absurd (hs ▸ hnew) hold
    · exact absurd (hs ▸ hnew) hold
    · rw [hs] at hnew
      rcases hlogin with ⟨-, err, herr⟩ | ⟨-, hok⟩
      · exact absurd (h.login_error _ _ _ herr ▸ hnew) hold
      · rw [h.login_ok _ _ hok] at hnew
        cases hnew

variable (parseUrl app) in
/-- The request, on this session, signs the user in, or out. -/
def SetsUser (session : Session U) (r : World P I U × HttpRequest) : Option U → Prop
  | some user => .login user ∈ (app.serve parseUrl session r).events
  | none => app.request? parseUrl r = some (r.1, .signOut)

/-- What made a change of the user: a request that is not hostile, and that signed the user in, or
out. -/
theorem user_changed (hparse : Csrf.LawfulParse parseUrl) {configured : List Str}
    (htrusted : app.trusted = Csrf.trustedOrigins parseUrl configured) {session₀ : Session U}
    (h₀ : ∀ s, session₀.attempt s = none) {l pre post : List (World P I U × HttpRequest)}
    {r : World P I U × HttpRequest} (hl : l = pre ++ r :: post) (hlaw : ∀ r ∈ l, r.1.Lawful)
    {user : Option U} (hold : (run (app.step parseUrl) session₀ pre).user ≠ user)
    (hnew : (app.serve parseUrl (run (app.step parseUrl) session₀ pre) r).session.user = user) :
    ¬ Hostile parseUrl app configured l r ∧
      SetsUser parseUrl app (run (app.step parseUrl) session₀ pre) r user := by
  constructor
  · intro hhostile
    have hsame := (hostile_leaves_user hparse htrusted h₀ hl hlaw hhostile).1
    exact hold (hsame ▸ hnew)
  · have hlawful : r.1.Lawful := hlaw r (by simp [hl])
    rcases serve_cases parseUrl app
        (run (app.step parseUrl) session₀ pre) r with
      ⟨request, hsome, -, -, hserve⟩ | ⟨code, -, hserve⟩
    · rw [hserve] at hnew
      cases user with
      | none =>
        obtain rfl := step_signs_out hlawful app.flow hold hnew
        exact hsome
      | some user =>
        obtain ⟨providerId, query, rfl, hlogin⟩ := step_logs_in hlawful app.flow hold hnew
        rw [SetsUser, hserve]
        exact hlogin
    · rw [hserve] at hnew
      exact absurd hnew hold

/-- **A page of another site changes nobody's user.**  In every run of HTTP requests on a session,
with any of them hostile: a hostile request leaves the user, exchanges no code with a provider and
does not reach the app's resolver; so the user after the run is the one at the outset, or the one
that a request of the visitor's own signed in; and if there is none, there was none at the outset,
or a request of the visitor's own signed out. -/
theorem hostile_page_changes_no_user (parseUrl : Str → Option Csrf.ParsedUrl)
    (hparse : Csrf.LawfulParse parseUrl) (app : AuthApp P) (configured : List Str)
    (htrusted : app.trusted = Csrf.trustedOrigins parseUrl configured) (session₀ : Session U)
    (h₀ : ∀ s, session₀.attempt s = none) (l : List (World P I U × HttpRequest))
    (hlaw : ∀ r ∈ l, r.1.Lawful) :
    (∀ pre r post, l = pre ++ r :: post → Hostile parseUrl app configured l r →
      let before := run (app.step parseUrl) session₀ pre
      let out := app.serve parseUrl before r
      out.session.user = before.user ∧ out.events = []) ∧
    ∀ user, (run (app.step parseUrl) session₀ l).user = user → session₀.user = user ∨
      ∃ pre r post, l = pre ++ r :: post ∧ ¬ Hostile parseUrl app configured l r ∧
        SetsUser parseUrl app (run (app.step parseUrl) session₀ pre) r user := by
  refine ⟨fun pre r post hl hhostile => hostile_leaves_user hparse htrusted h₀ hl hlaw hhostile,
    fun user huser => ?_⟩
  by_cases hold : session₀.user = user
  · exact .inl hold
  · obtain ⟨pre, r, post, rfl, hbefore, hafter⟩ :=
      run_switch (P := fun σ : Session U => σ.user = user) hold l huser
    have hnew := hafter [] List.nil_prefix
    rw [run_append, run_cons, run_nil] at hnew
    exact .inr ⟨pre, r, post, rfl, user_changed hparse htrusted h₀ rfl hlaw hbefore hnew⟩

end Serve

/-! ## 5. A visit to a hostile page -/

/-- The routes under `/auth`, and one configured origin. -/
def plainApp : AuthApp Unit where
  flow := plainFlow
  mount := "/auth".toList
  trusted := Csrf.trustedOrigins Csrf.parseApp ["https://app.example".toList]

/-- A sign-in, and then a post that another site's page sends to sign the visitor out. -/
def hostileVisit : List (World Unit Unit Nat × HttpRequest) :=
  [(plainWorld 100 "a" 7, { method := .get, path := "/auth/g/start".toList }),
   (plainWorld 200 "-" 7,
     { method := .get, path := "/auth/%67/callback".toList
       query := some "code=c&state=a".toList }),
   (plainWorld 300 "-" 7,
     { method := .post, path := "/auth/sign-out".toList
       headers := [("origin".toList, utf8 "https://evil.example".toList),
         ("sec-fetch-site".toList, utf8 "cross-site".toList)] })]

theorem hostileVisit_lawful : ∀ r ∈ hostileVisit, r.1.Lawful := by
  intro r hr
  simp only [hostileVisit, List.mem_cons, List.not_mem_nil, or_false] at hr
  rcases hr with rfl | rfl | rfl <;> exact plainWorld_lawful _ _ _

theorem hostile_page_changes_no_user_visit :
    (plainApp.serve Csrf.parseApp (run (plainApp.step Csrf.parseApp) {} (hostileVisit.take 2))
      (hostileVisit.getLast (by decide))).session.user = some 7 := by
  refine ((hostile_page_changes_no_user Csrf.parseApp Csrf.parseApp_lawful plainApp
    ["https://app.example".toList] rfl {} (fun _ => rfl) hostileVisit hostileVisit_lawful).1
      (hostileVisit.take 2) _ [] rfl (.changing rfl (.inl rfl) ?_)).1.trans (by decide)
  have hurl : ∀ url, Csrf.OriginUrl Csrf.parseApp (hostileVisit.getLast (by decide)).2.headers url →
      url = Csrf.httpsSite "evil.example".toList := by
    rintro url ⟨value, text, hvalue, htext, hurl⟩
    obtain rfl : utf8 "https://evil.example".toList = value := Option.some.inj hvalue
    obtain rfl : "https://evil.example".toList = text := Option.some.inj htext
    exact (Option.some.inj hurl).symm
  rintro (h | ⟨site, hsite, h⟩ | ⟨url, origin, hurl', horigin, c, hc, url', hc', horigin'⟩ | ⟨h, -⟩)
  · cases h
  · obtain rfl : utf8 "cross-site".toList = site := Option.some.inj hsite
    exact absurd h (by decide)
  · obtain rfl := hurl url hurl'
    obtain rfl := List.mem_singleton.mp hc
    obtain rfl : Csrf.httpsSite "app.example".toList = url' := Option.some.inj hc'
    obtain rfl := Option.some.inj horigin
    exact absurd (Option.some.inj horigin') (by decide)
  · cases h

end Muxa.Auth
