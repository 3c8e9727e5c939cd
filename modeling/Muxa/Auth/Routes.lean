/-
# The sign-in routes

`start`, `callback` and `sign_out`, translated exit by exit.  What the routes call but do not
contain (the provider, the app's resolver, axum-login, the clock, the hash map's iteration order)
is the surroundings of one request (`World`); what the guarantees need of axum-login is
`World.Lawful`.

A handler returns its response, the session it leaves and the calls it made (`Event`), in order.
The lemmas of sections 4 and 5 say once what each handler can do; nothing after this module
unfolds a handler.
-/
import Muxa.Auth.Pending
import Muxa.Auth.Redirect
import Muxa.Lib.Run

namespace Muxa.Auth

open Lib.Text Lib.Run

/-! ## 1. Refusals, and what the routes talk to -/

structure Refusal where
  code : Str
  param : Option Str := none
deriving DecidableEq

namespace Refusal

/-- The person cancelled at the provider. -/
def cancelled : Refusal := { code := "cancelled".toList }

/-- The sign-in attempt is unknown, used, or too old. -/
def expired : Refusal := { code := "expired".toList }

/-- The provider failed or returned something unusable. -/
def providerFailed : Refusal := { code := "provider_failed".toList }

/-- No such provider, or it is turned off. -/
def unavailable : Refusal := { code := "unavailable".toList }

/-- A `link=1` sign-in without a signed-in user. -/
def signedOut : Refusal := { code := "signed_out".toList }

/-- Something on our side broke. -/
def failed : Refusal := { code := "failed".toList }

end Refusal

/-- The URL to send the browser to, and what to remember until it comes back. -/
structure Authorization where
  url : Str
  state : Str
  pkceVerifier : Option Str
  nonce : Option Str

/-- What the resolver is told besides the identity. -/
structure ResolveContext (U : Type) where
  currentUser : Option U
  link : Bool
deriving DecidableEq

structure Resolved (U : Type) where
  user : U
  query : List (Str × Str) := []

/-- The surroundings of one request: the clock, the order in which the map of attempts is walked,
and what the provider, the resolver and axum-login answer. -/
structure World (P I U : Type) where
  /-- What the first `now_secs()` of the request reads, and the second. -/
  now : Nat
  later : Nat
  clock : now ≤ later
  order : IterOrder
  authorize : P → Except Str Authorization
  identify : P → Str → PendingLogin → Except Str I
  resolve : I → ResolveContext U → Except Refusal (Resolved U)
  /-- `AuthSession::login` and `AuthSession::logout`: their result, and the session after. -/
  login : Session U → U → Except Str Unit × Session U
  logout : Session U → Except Str Unit × Session U

/-- **What is relied on of axum-login**: `login` keeps the other session data and signs the user
in, or fails and leaves the user; `logout` clears the session data. -/
structure World.Lawful {P I U : Type} (w : World P I U) : Prop where
  login_pending : ∀ session user, (w.login session user).2.pending = session.pending
  login_ok : ∀ session user, (w.login session user).1 = .ok () →
    (w.login session user).2.user = some user
  login_error : ∀ session user err, (w.login session user).1 = .error err →
    (w.login session user).2.user = session.user
  logout_clears : ∀ session, (w.logout session).2 = {}

structure Flow (P : Type) where
  providers : Str → Option P
  signInPath : Str
  defaultNext : Str
  errorParam : Str

/-! ## 2. Requests and responses -/

structure StartQuery where
  next : Option Str := none
  link : Option Str := none

structure CallbackQuery where
  code : Option Str := none
  state : Option Str := none
  error : Option Str := none

/-- What the browser gets back: a redirect to one of the app's pages after a refusal, to the
provider, to the page the sign-in was for, or a bare status. -/
inductive Response where
  | refusal (refusal : Refusal) (location : Str)
  | provider (url : Str)
  | next (location : Str)
  | status (code : Nat)
deriving DecidableEq

def Response.isRefusal : Response → Bool
  | .refusal _ _ => true
  | _ => false

/-- The `Location`, where the response has one that the app chose. -/
def Response.location : Response → Option Str
  | .refusal _ location | .next location => some location
  | .provider _ | .status _ => none

/-- A call out of `callback`. -/
inductive Event (P I U : Type) where
  | identify (provider : P) (code : Str) (pending : PendingLogin)
  | resolve (identity : I) (ctx : ResolveContext U)
  | login (user : U)
deriving DecidableEq

structure Outcome (P I U : Type) where
  response : Response
  session : Session U
  events : List (Event P I U) := []

/-- Where a sign-in goes back to, and whether it was a link. -/
structure Return where
  next : Str
  link : Bool

/-! ## 3. The handlers -/

section Handlers

variable {P I U : Type}

/-- `Flow::refuse`: a refused link goes back to where it was asked for, every other refusal to the
sign-in page, which is told where the sign-in was to go.  The refusal's code is in the query. -/
def Flow.refuse (flow : Flow P) (refusal : Refusal) (back : Option Return) : Response :=
  let param := refusal.param.getD flow.errorParam
  let target :=
    match back with
    | some ⟨next, true⟩ => withQuery next [(param, refusal.code)]
    | some ⟨next, false⟩ =>
      withQuery flow.signInPath [(param, refusal.code), ("next".toList, next)]
    | none => withQuery flow.signInPath [(param, refusal.code)]
  .refusal refusal target

def StartQuery.isLink (query : StartQuery) : Bool :=
  query.link == some "1".toList || query.link == some "true".toList

def pendingLogin (flow : Flow P) (now : Nat) (providerId : Str) (query : StartQuery)
    (authorization : Authorization) : PendingLogin :=
  { provider := providerId
    state := authorization.state
    pkceVerifier := authorization.pkceVerifier
    nonce := authorization.nonce
    next := safeNext query.next flow.defaultNext
    link := query.isLink
    createdAt := now }

/-- `start`: send the browser to the provider, once the attempt is stored in the session under the
state token that the provider will hand back. -/
def start (flow : Flow P) (w : World P I U) (session : Session U) (providerId : Str)
    (query : StartQuery) : Outcome P I U :=
  let next := safeNext query.next flow.defaultNext
  let back : Option Return := some ⟨next, query.isLink⟩
  match flow.providers providerId with
  | none => { response := flow.refuse .unavailable back, session }
  | some provider =>
    if query.isLink && session.user.isNone then
      { response := flow.refuse .signedOut (some ⟨next, false⟩), session }
    else
      match w.authorize provider with
      | .error _ => { response := flow.refuse .providerFailed back, session }
      | .ok authorization =>
        let pending := pendingLogin flow w.now providerId query authorization
        match remember w.order w.later session pending with
        | .error _ => { response := flow.refuse .failed back, session }
        | .ok session => { response := .provider authorization.url, session }

/-- The last part of `callback`, from the resolver's answer on. -/
def signIn (flow : Flow P) (w : World P I U) (session : Session U) (pending : PendingLogin)
    (identity : I) (before : List (Event P I U)) : Outcome P I U :=
  let back : Option Return := some ⟨pending.next, pending.link⟩
  let ctx : ResolveContext U := { currentUser := session.user, link := pending.link }
  let events := before ++ [.resolve identity ctx]
  match w.resolve identity ctx with
  | .error refusal => { response := flow.refuse refusal back, session, events }
  | .ok resolved =>
    let (result, session) := w.login session resolved.user
    let response :=
      match result with
      | .error _ => flow.refuse .failed back
      | .ok _ => .next (withQuery pending.next resolved.query)
    { response, session, events := events ++ [.login resolved.user] }

/-- The part of `callback` that has the attempt in hand. -/
def redeem (flow : Flow P) (w : World P I U) (session : Session U) (providerId : Str)
    (query : CallbackQuery) (pending : PendingLogin) : Outcome P I U :=
  let back : Option Return := some ⟨pending.next, pending.link⟩
  match query.error with
  | some error =>
    let refusal :=
      if error = "access_denied".toList then Refusal.cancelled else Refusal.providerFailed
    { response := flow.refuse refusal back, session }
  | none =>
    match query.code, flow.providers providerId with
    | some code, some provider =>
      let events := [.identify provider code pending]
      match w.identify provider code pending with
      | .error _ => { response := flow.refuse .providerFailed back, session, events }
      | .ok identity =>
        if pending.link && session.user.isNone then
          { response := flow.refuse .signedOut (some ⟨pending.next, false⟩), session, events }
        else signIn flow w session pending identity events
    | _, _ => { response := flow.refuse .providerFailed back, session }

/-- What `callback` gets from `take`, and the session after it. -/
def taken (w : World P I U) (session : Session U) (query : CallbackQuery) :
    Except Str (Option PendingLogin × Session U) :=
  match query.state with
  | some state => take w.order w.now session state
  | none => .ok (none, session)

/-- `callback`: take the attempt under the state token out of the session, and redeem it if it was
started with the provider in the path.  The attempt is gone however this ends. -/
def callback (flow : Flow P) (w : World P I U) (session : Session U) (providerId : Str)
    (query : CallbackQuery) : Outcome P I U :=
  match taken w session query with
  | .error _ => { response := flow.refuse .failed none, session }
  | .ok (none, session) => { response := flow.refuse .expired none, session }
  | .ok (some pending, session) =>
    if pending.provider = providerId then redeem flow w session providerId query pending
    else { response := flow.refuse .expired none, session }

def signOut (w : World P I U) (session : Session U) : Outcome P I U :=
  let (result, session) := w.logout session
  let code :=
    match result with
    | .ok _ => 204
    | .error _ => 500
  { response := .status code, session }

inductive Request where
  | start (providerId : Str) (query : StartQuery)
  | callback (providerId : Str) (query : CallbackQuery)
  | signOut

/-- The router, for a request that names one of the three routes. -/
def handle (flow : Flow P) (session : Session U) : World P I U × Request → Outcome P I U
  | (w, .start providerId query) => start flow w session providerId query
  | (w, .callback providerId query) => callback flow w session providerId query
  | (w, .signOut) => signOut w session

/-- One request of a run, as the session sees it. -/
def step (flow : Flow P) (session : Session U) (req : World P I U × Request) : Session U :=
  (handle flow session req).session

end Handlers

/-! ## 4. What `start` can do -/

section Start

variable {P I U : Type}

/-- `start` went through and stored an attempt for `authorization`. -/
structure Accepted (flow : Flow P) (w : World P I U) (session : Session U) (providerId : Str)
    (query : StartQuery) (authorization : Authorization) : Prop where
  provider : ∃ provider, flow.providers providerId = some provider ∧
    w.authorize provider = .ok authorization
  linkUser : query.isLink = true → session.user.isSome = true
  response : (start flow w session providerId query).response = .provider authorization.url

/-- **`start` refuses and leaves the session alone, or is accepted and remembers the attempt.** -/
theorem start_cases (flow : Flow P) (w : World P I U) (session : Session U) (providerId : Str)
    (query : StartQuery) :
    (∃ refusal link, start flow w session providerId query =
        { response := flow.refuse refusal (some ⟨safeNext query.next flow.defaultNext, link⟩)
          session }) ∨
      ∃ authorization, Accepted flow w session providerId query authorization ∧
        remember w.order w.later session
            (pendingLogin flow w.now providerId query authorization) =
          .ok (start flow w session providerId query).session := by
  cases hprov : flow.providers providerId with
  | none => exact .inl ⟨_, _, by simp only [start, hprov]; rfl⟩
  | some provider =>
    by_cases hlink : (query.isLink && session.user.isNone) = true
    · exact .inl ⟨_, _, by simp only [start, hprov, hlink, if_true]; rfl⟩
    cases hauth : w.authorize provider with
    | error err =>
      exact .inl ⟨_, _, by simp only [start, hprov, hauth]; rw [if_neg hlink]⟩
    | ok authorization =>
      cases hrem : remember w.order w.later session
          (pendingLogin flow w.now providerId query authorization) with
      | error err =>
        exact .inl ⟨_, _, by simp only [start, hprov, hauth, hrem]; rw [if_neg hlink]⟩
      | ok session' =>
        refine .inr ⟨authorization, ⟨⟨provider, hprov, hauth⟩, ?_, ?_⟩, ?_⟩
        · intro hl
          simp only [hl, Bool.true_and, Bool.not_eq_true, Option.isNone_eq_false_iff] at hlink
          exact hlink
        · simp only [start, hprov, hauth, hrem]
          rw [if_neg hlink]
        · simp only [start, hprov, hauth, hrem]
          rw [if_neg hlink]

theorem start_user (flow : Flow P) (w : World P I U) (session : Session U) (providerId : Str)
    (query : StartQuery) :
    (start flow w session providerId query).session.user = session.user := by
  rcases start_cases flow w session providerId query with
    ⟨refusal, link, hs⟩ | ⟨authorization, -, hrem⟩
  · rw [hs]
  · exact (remember_spec hrem).1

end Start

/-! ## 5. What `callback` and `sign_out` can do -/

section Callback

variable {P I U : Type}

/-- The attempt a callback gets hold of: the one under the token it presents, if that is fresh
and for this provider. -/
structure Redeems (w : World P I U) (session : Session U) (providerId : Str)
    (query : CallbackQuery) (s : Str) (pending : PendingLogin) : Prop where
  presented : query.state = some s
  attempt : session.attempt s = some pending
  fresh : pending.fresh w.now = true
  sameProvider : pending.provider = providerId

/-- **`callback` refuses before it calls anything, or redeems the attempt under its token**, on
a session that no longer holds it. -/
theorem callback_cases (flow : Flow P) (w : World P I U) (session : Session U) (providerId : Str)
    (query : CallbackQuery) :
    ∃ session', session'.user = session.user ∧
      (∀ s, session'.attempt s = if query.state = some s then none else session.attempt s) ∧
      ((∃ refusal, callback flow w session providerId query =
          { response := flow.refuse refusal none, session := session' }) ∨
        ∃ s pending, Redeems w session providerId query s pending ∧
          callback flow w session providerId query =
            redeem flow w session' providerId query pending) := by
  cases hstate : query.state with
  | none =>
    refine ⟨session, rfl, by simp, .inl ⟨.expired, ?_⟩⟩
    simp [callback, taken, hstate]
  | some state =>
    cases htake : take w.order w.now session state with
    | error err =>
      refine ⟨session, rfl, ?_, .inl ⟨.failed, by simp [callback, taken, hstate, htake]⟩⟩
      intro s
      -- what cannot be read holds no attempt
      rw [attempt_eq_none_of_take_error htake, ite_self]
    | ok r =>
      obtain ⟨found, session'⟩ := r
      obtain ⟨huser, hfound, hrest⟩ := take_spec htake
      refine ⟨session', huser, ?_, ?_⟩
      · intro s
        rw [hrest]
        simp only [Option.some.injEq, eq_comm]
      cases found with
      | none => exact .inl ⟨.expired, by simp [callback, taken, hstate, htake]⟩
      | some pending =>
        by_cases hprov : pending.provider = providerId
        · obtain ⟨hattempt, hfresh⟩ := Option.filter_eq_some_iff.mp hfound.symm
          exact .inr ⟨state, pending, ⟨hstate, hattempt, hfresh, hprov⟩,
            by simp [callback, taken, hstate, htake, hprov]⟩
        · exact .inl ⟨.expired, by simp [callback, taken, hstate, htake, hprov]⟩

/-- **A callback whose token is not in the session is refused**, and changes nothing. -/
theorem callback_unknown (flow : Flow P) (w : World P I U) (session : Session U)
    (providerId : Str) (query : CallbackQuery)
    (hunknown : ∀ s, query.state = some s → session.attempt s = none) :
    ∃ refusal session', callback flow w session providerId query =
        { response := flow.refuse refusal none, session := session' } ∧
      session'.user = session.user ∧ ∀ s, session'.attempt s = session.attempt s := by
  obtain ⟨session', huser, hattempt, hcases⟩ := callback_cases flow w session providerId query
  rcases hcases with ⟨refusal, hrefuse⟩ | ⟨s, pending, hred, -⟩
  · refine ⟨refusal, session', hrefuse, huser, fun s => ?_⟩
    rw [hattempt]
    split
    · rename_i hs
      exact (hunknown s hs).symm
    · rfl
  · have hheld := hred.attempt
    rw [hunknown s hred.presented] at hheld
    cases hheld

/-- The session after the last part of `callback`: the one before it, or the one `login` left. -/
theorem signIn_cases (flow : Flow P) (w : World P I U) (session : Session U)
    (pending : PendingLogin) (identity : I) (before : List (Event P I U)) :
    let ctx : ResolveContext U := { currentUser := session.user, link := pending.link }
    (∃ refusal, w.resolve identity ctx = .error refusal ∧
      signIn flow w session pending identity before =
        { response := flow.refuse refusal (some ⟨pending.next, pending.link⟩), session
          events := before ++ [.resolve identity ctx] }) ∨
    ∃ resolved, w.resolve identity ctx = .ok resolved ∧
      (signIn flow w session pending identity before).session =
        (w.login session resolved.user).2 ∧
      (signIn flow w session pending identity before).events =
        before ++ [.resolve identity ctx] ++ [.login resolved.user] ∧
      ((∃ err, (w.login session resolved.user).1 = .error err ∧
        (signIn flow w session pending identity before).response =
          flow.refuse .failed (some ⟨pending.next, pending.link⟩)) ∨
       (w.login session resolved.user).1 = .ok () ∧
        (signIn flow w session pending identity before).response =
          .next (withQuery pending.next resolved.query)) := by
  intro ctx
  cases hres : w.resolve identity ctx with
  | error refusal => exact .inl ⟨refusal, rfl, by simp only [signIn]; rw [hres]⟩
  | ok resolved =>
    refine .inr ⟨resolved, rfl, ?_⟩
    simp only [signIn]
    rw [hres]
    refine ⟨rfl, rfl, ?_⟩
    cases hlog : (w.login session resolved.user).1 with
    | error err => exact .inl ⟨err, rfl, by dsimp only; rw [hlog]⟩
    | ok u => exact .inr ⟨rfl, by dsimp only; rw [hlog]⟩

/-- **What `callback` does with an attempt in hand**: it refuses and leaves the session, or it
exchanges the code and goes on to the resolver; a link goes on only with a user. -/
theorem redeem_cases (flow : Flow P) (w : World P I U) (session : Session U) (providerId : Str)
    (query : CallbackQuery) (pending : PendingLogin) :
    (∃ refusal link events, redeem flow w session providerId query pending =
        { response := flow.refuse refusal (some ⟨pending.next, link⟩), session, events } ∧
      ∀ e ∈ events, ∃ provider code, e = .identify provider code pending) ∨
    ∃ provider code identity, flow.providers providerId = some provider ∧
      query.code = some code ∧ w.identify provider code pending = .ok identity ∧
      (pending.link = true → session.user.isSome = true) ∧
      redeem flow w session providerId query pending =
        signIn flow w session pending identity [.identify provider code pending] := by
  cases herr : query.error with
  | some error =>
    exact .inl ⟨_, _, [], by simp only [redeem, herr]; rfl, by simp⟩
  | none =>
    cases hcode : query.code with
    | none => exact .inl ⟨_, _, [], by simp only [redeem, herr, hcode]; rfl, by simp⟩
    | some code =>
      cases hprov : flow.providers providerId with
      | none => exact .inl ⟨_, _, [], by simp only [redeem, herr, hcode, hprov]; rfl, by simp⟩
      | some provider =>
        cases hid : w.identify provider code pending with
        | error err =>
          exact .inl ⟨_, _, [.identify provider code pending],
            by simp only [redeem, herr, hcode, hprov, hid]; rfl, by simp⟩
        | ok identity =>
          by_cases hlink : (pending.link && session.user.isNone) = true
          · exact .inl ⟨_, _, [.identify provider code pending],
              by simp only [redeem, herr, hcode, hprov, hid, hlink, if_true]; rfl, by simp⟩
          · refine .inr ⟨provider, code, identity, rfl, rfl, hid, ?_, ?_⟩
            · intro hl
              simp only [hl, Bool.true_and, Bool.not_eq_true, Option.isNone_eq_false_iff]
                at hlink
              exact hlink
            · simp only [redeem, herr, hcode, hprov, hid]
              rw [if_neg hlink]

end Callback

end Muxa.Auth
