/-
# Whom a link sign-in attaches to

An attempt records that it is a link, not for whom: `callback` hands the resolver whoever is
signed in when it runs.  Between the two requests other tabs can complete sign-ins of their own
on the same session, so the user the resolver sees is the one the last of these signed in
(`link_resolves_last_signed_in`), and the one who asked for the link only when there was none.
`another_tab_takes_the_link` is a run in which they differ.
-/
import Muxa.Auth.SignIn

namespace Muxa.Auth

open Lib.Text Lib.Run

variable {P I U : Type}

/-- The user a request signed in: it called `auth.login`, and sent the browser on. -/
def Outcome.signedIn (out : Outcome P I U) : Option U :=
  match out.response with
  | .next _ => out.events.findSome? fun
    | .login user => some user
    | _ => none
  | _ => none

/-- The users signed in along a run, in order. -/
def signedInAlong (flow : Flow P) : Session U → List (World P I U × Request) → List U
  | _, [] => []
  | session, req :: l =>
    (handle flow session req).signedIn.toList ++ signedInAlong flow (step flow session req) l

theorem signedIn_of_refusal {out : Outcome P I U} (h : out.response.isRefusal = true) :
    out.signedIn = none := by
  unfold Response.isRefusal at h
  unfold Outcome.signedIn
  split at h <;> simp_all

/-- **A request changes the user by signing one in**, or by signing out. -/
theorem step_user {w : World P I U} (h : w.Lawful) (flow : Flow P) (session : Session U)
    {req : Request} (hreq : req ≠ .signOut) :
    (step flow session (w, req)).user =
      (handle flow session (w, req)).signedIn.or session.user := by
  cases req with
  | start providerId query =>
    rw [step, handle, start_user]
    rcases start_cases flow w session providerId query with
      ⟨refusal, link, hs⟩ | ⟨authorization, hacc, -⟩
    · rw [hs, signedIn_of_refusal rfl, Option.none_or]
    · rw [Outcome.signedIn, hacc.response, Option.none_or]
  | callback providerId query =>
    rw [step, handle]
    obtain ⟨session', huser, -, hcases⟩ := callback_outcome flow w session providerId query
    rw [← huser]
    rcases hcases with ⟨hs, hrefusal, -⟩ | ⟨_, _, _, _, _, -, ⟨hs, hrefusal, -⟩ |
      ⟨user, hs, hevents, ⟨hrefusal, err, herr⟩ | ⟨⟨location, hnext⟩, hok⟩⟩⟩
    · rw [hs, signedIn_of_refusal hrefusal, Option.none_or]
    · rw [hs, signedIn_of_refusal hrefusal, Option.none_or]
    · rw [hs, signedIn_of_refusal hrefusal, Option.none_or, h.login_error _ _ _ herr]
    · rw [hs, Outcome.signedIn, hnext, hevents, h.login_ok _ _ hok]
      rfl
  | signOut => exact absurd rfl hreq

/-- The user after a run without a sign-out: the last one signed in, or the one before it. -/
theorem run_user {flow : Flow P} {l : List (World P I U × Request)} {session : Session U}
    {user : U} (huser : session.user = some user) (hlaw : ∀ r ∈ l, r.1.Lawful)
    (hout : ∀ r ∈ l, r.2 ≠ .signOut) :
    (run (step flow) session l).user = some ((signedInAlong flow session l).getLastD user) := by
  induction l generalizing session user with
  | nil => exact huser
  | cons r l ih =>
    obtain ⟨w, req⟩ := r
    have hw : w.Lawful := hlaw (w, req) List.mem_cons_self
    have hstep := step_user hw flow session (hout (w, req) List.mem_cons_self)
    have hlaw' : ∀ r ∈ l, r.1.Lawful := fun r hr => hlaw r (List.mem_cons_of_mem _ hr)
    have hout' : ∀ r ∈ l, r.2 ≠ .signOut := fun r hr => hout r (List.mem_cons_of_mem _ hr)
    rw [run_cons, signedInAlong]
    cases hsigned : (handle flow session (w, req)).signedIn with
    | none =>
      rw [hsigned, Option.none_or, huser] at hstep
      rw [Option.toList_none, List.nil_append]
      exact ih hstep hlaw' hout'
    | some other =>
      rw [hsigned, Option.some_or] at hstep
      rw [Option.toList_some, List.singleton_append, ih hstep hlaw' hout', List.getLastD_cons]

/-- **A link goes to the last user signed in since it was asked for.**  Whenever the resolver is
called with `link = true`, an earlier accepted `start` drew the token, with a user signed in;
the resolver's `current_user` is the user whom the last sign-in completed since then signed in,
and the one who asked for the link when there was none. -/
theorem link_resolves_last_signed_in (flow : Flow P) (session₀ : Session U)
    (h₀ : ∀ s, session₀.attempt s = none) (l : List (World P I U × Request))
    (hlaw : ∀ r ∈ l, r.1.Lawful) (w : World P I U) (providerId : Str) (query : CallbackQuery)
    (identity : I) (ctx : ResolveContext U) (hlink : ctx.link = true)
    (hresolve : .resolve identity ctx ∈
      (callback flow w (run (step flow) session₀ l) providerId query).events) :
    ∃ pre w₀ query₀ mid authorization user,
      l = pre ++ (w₀, .start providerId query₀) :: mid ∧
      Accepted flow w₀ (run (step flow) session₀ pre) providerId query₀ authorization ∧
      query.state = some authorization.state ∧
      (run (step flow) session₀ pre).user = some user ∧
      ctx.currentUser = some ((signedInAlong flow
        (run (step flow) session₀ (pre ++ [(w₀, .start providerId query₀)])) mid).getLastD
          user) := by
  obtain ⟨s, pending, provider, code, hres, rfl⟩ := callback_resolve hresolve
  obtain ⟨pre, w₀, providerId₀, query₀, mid, authorization, rfl, hacc, rfl, hpending, hmid⟩ :=
    attempt_history h₀ hlaw hres.attempt
  obtain rfl : providerId₀ = providerId := by
    rw [← hres.sameProvider, hpending]
    rfl
  have hasked : query₀.isLink = true := by
    rw [contextOf, hpending] at hlink
    exact hlink
  obtain ⟨user, huser⟩ := Option.isSome_iff_exists.mp (hacc.linkUser hasked)
  refine ⟨pre, w₀, query₀, mid, authorization, user, rfl, hacc, hres.presented, huser, ?_⟩
  have hafter : (run (step flow) session₀ (pre ++ [(w₀, .start providerId₀ query₀)])).user =
      some user := by
    rw [run_concat, step, handle, start_user, huser]
  have hrun : run (step flow) session₀ (pre ++ (w₀, .start providerId₀ query₀) :: mid) =
      run (step flow) (run (step flow) session₀ (pre ++ [(w₀, .start providerId₀ query₀)]))
        mid := by
    rw [← run_append, List.append_assoc, List.singleton_append]
  rw [contextOf, hrun]
  exact run_user hafter (fun r hr => hlaw r (by simp [hr])) fun r hr h => hmid r hr (.inr h)

/-! ## A run in which another tab takes the link -/

/-- User 7 asks for a link in one tab; another tab starts a sign-in and completes it as user 8. -/
def linkAndSignIn : List (World Unit Unit Nat × Request) :=
  [(plainWorld 100 "a" 7, .start "g".toList { link := some "1".toList }),
   (plainWorld 200 "b" 8, .start "g".toList {}),
   (plainWorld 300 "-" 8, .callback "g".toList (plainCallback "b"))]

/-- **The link of user 7 is resolved for user 8.** -/
theorem another_tab_takes_the_link :
    let session₀ : Session Nat := { user := some 7 }
    let asked := handle plainFlow session₀
      (plainWorld 100 "a" 7, .start "g".toList { link := some "1".toList })
    let out := callback plainFlow (plainWorld 400 "-" 8)
      (run (step plainFlow) session₀ linkAndSignIn) "g".toList (plainCallback "a")
    asked.response = .provider "https://id.example/auth".toList ∧
      .resolve () { currentUser := some 8, link := true } ∈ out.events := by
  decide

theorem link_resolves_user_eight :
    ∃ pre w₀ query₀ mid, linkAndSignIn = pre ++ (w₀, .start "g".toList query₀) :: mid ∧
      ∃ user, some 8 = some ((signedInAlong plainFlow (run (step plainFlow) { user := some 7 }
        (pre ++ [(w₀, .start "g".toList query₀)])) mid).getLastD user) := by
  have hlaw : ∀ r ∈ linkAndSignIn, r.1.Lawful := by
    intro r hr
    simp only [linkAndSignIn, List.mem_cons, List.not_mem_nil, or_false] at hr
    rcases hr with rfl | rfl | rfl <;> exact plainWorld_lawful _ _ _
  obtain ⟨pre, w₀, query₀, mid, authorization, user, hl, -, -, -, hctx⟩ :=
    link_resolves_last_signed_in plainFlow { user := some 7 } (fun _ => rfl) linkAndSignIn hlaw
      (plainWorld 400 "-" 8) "g".toList (plainCallback "a") () ⟨some 8, true⟩ rfl (by decide)
  exact ⟨pre, w₀, query₀, mid, hl, user, hctx⟩

end Muxa.Auth
