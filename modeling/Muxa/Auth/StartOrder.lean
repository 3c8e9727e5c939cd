/-
# Which attempt is dropped when a session has too many

"At most this many sign-ins in progress per session; the oldest is dropped beyond it."  Which one
is the oldest is read off `created_at`, in whole seconds, and among those of one second the hash
map's iteration order decides.  So what is dropped is the attempt started first as long as the
oldest second is not shared (`evicts_first_started`), and otherwise there is an iteration order
with which a later one goes (`tie_evicts_later`).

The order of the starts is not in the session: it is kept next to it (`Starts`), for each token the
number of the last accepted start that drew it.
-/
import Muxa.Auth.PendingSet

namespace Muxa.Auth

open Lib.Text Lib.Run

variable {P I U : Type}

/-! ## 1. Runs of starts -/

/-- One `start` request: its surroundings, the provider in its path and its query. -/
structure StartRequest (P I U : Type) where
  world : World P I U
  providerId : Str
  query : StartQuery

def StartRequest.outcome (req : StartRequest P I U) (flow : Flow P) (session : Session U) :
    Outcome P I U :=
  start flow req.world session req.providerId req.query

def StartRequest.token (req : StartRequest P I U) (flow : Flow P) (session : Session U) :
    Option Str :=
  match (req.outcome flow session).response with
  | .provider _ => ((flow.providers req.providerId).bind fun provider =>
      (req.world.authorize provider).toOption).map Authorization.state
  | _ => none

/-- A session, and next to it which start put the attempt there. -/
structure Starts (U : Type) where
  session : Session U
  /-- How many starts there were. -/
  count : Nat := 0
  /-- The number of the last accepted start with this token. -/
  startedAt : Str → Option Nat := fun _ => none

def Starts.step (flow : Flow P) (σ : Starts U) (req : StartRequest P I U) : Starts U where
  session := (req.outcome flow σ.session).session
  count := σ.count + 1
  startedAt :=
    match req.token flow σ.session with
    | some s => Function.update σ.startedAt s (some σ.count)
    | none => σ.startedAt

def StartsInOrder (l : List (StartRequest P I U)) : Prop :=
  l.Pairwise fun a b => a.world.later ≤ b.world.now

/-- The attempt under `s` is dropped, though it was fresh. -/
def Drops (flow : Flow P) (σ : Starts U) (req : StartRequest P I U) (s : Str) : Prop :=
  HoldsFresh req.world.later s σ.session ∧ (σ.step flow req).session.attempt s = none

/-- The attempt under `s` is one the session holds after the request. -/
def Keeps (flow : Flow P) (σ : Starts U) (req : StartRequest P I U) (s : Str) : Prop :=
  ∃ attempt, (σ.step flow req).session.attempt s = some attempt

/-- **Oldest first**: an attempt that is dropped was started before every one that is kept. -/
def DropsOldestFirst (flow : Flow P) (σ : Starts U) (req : StartRequest P I U) : Prop :=
  ∀ s s', Drops flow σ req s → Keeps flow σ req s' →
    ∃ i j, σ.startedAt s = some i ∧ (σ.step flow req).startedAt s' = some j ∧ i < j

def freshPending (now : Nat) (session : Session U) : PendingMap :=
  match session.pending with
  | some (.ok map) => map.retain (·.fresh now)
  | _ => ∅

/-- The attempt under `s` is fresh, and none of the fresh ones is older. -/
def IsOldest (now : Nat) (session : Session U) (s : Str) : Prop :=
  ∃ attempt, (freshPending now session).lookup s = some attempt ∧
    ∀ s' attempt', (freshPending now session).lookup s' = some attempt' →
      attempt.createdAt ≤ attempt'.createdAt

/-- **One oldest**: when `remember` finds no room, one second is the oldest attempt's alone. -/
def OneOldest (flow : Flow P) (σ : Starts U) (req : StartRequest P I U) : Prop :=
  (req.token flow σ.session).isSome = true →
    maxPending ≤ (freshPending req.world.later σ.session).entries.length →
      ∀ s s', IsOldest req.world.later σ.session s → IsOldest req.world.later σ.session s' → s = s'

/-! ## 2. What a start leaves -/

theorem lookup_freshPending {now : Nat} {session : Session U} {s : Str} {attempt : PendingLogin} :
    (freshPending now session).lookup s = some attempt ↔
      session.attempt s = some attempt ∧ attempt.fresh now = true := by
  unfold freshPending Session.attempt
  rcases session.pending with _ | (err | map)
  · simp
  · simp
  · exact PendingMap.lookup_retain_iff

theorem freshPending_eq {now : Nat} {session : Session U} {stored : Option PendingMap}
    (h : session.getPending = .ok stored) :
    freshPending now session = (stored.getD ∅).retain (·.fresh now) := by
  unfold Session.getPending at h
  unfold freshPending
  rcases hp : session.pending with _ | (err | map) <;> rw [hp] at h <;> cases h
  · rfl
  · rfl

/-- The attempts after an accepted `start`: the new one, and the fresh ones the loop kept. -/
theorem Accepted.attempts {flow : Flow P} {w : World P I U} {session : Session U}
    {providerId : Str} {query : StartQuery} {authorization : Authorization}
    (h : Accepted flow w session providerId query authorization) (s : Str) :
    (start flow w session providerId query).session.attempt s =
      if s = authorization.state then some (pendingLogin flow w.now providerId query authorization)
      else (PendingMap.evict w.order (freshPending w.later session).entries.length
        (freshPending w.later session)).lookup s := by
  have hrem := h.remembers
  cases hget : session.getPending with
  | error err => simp [remember, hget, bind, Except.bind] at hrem
  | ok stored =>
    rw [remember_eq hget] at hrem
    rw [← Except.ok.inj hrem]
    simp only [Session.attempt]
    split
    · rename_i hs
      rw [hs, remembered]
      exact AList.lookup_insert _
    · rename_i hs
      rw [lookup_remembered hs, freshPending_eq hget]

theorem token_of_accepted {flow : Flow P} {session : Session U} {req : StartRequest P I U}
    {authorization : Authorization}
    (h : Accepted flow req.world session req.providerId req.query authorization) :
    req.token flow session = some authorization.state := by
  obtain ⟨provider, hprov, hauth⟩ := h.provider
  rw [StartRequest.token, StartRequest.outcome, h.response]
  simp [hprov, hauth, Except.toOption]

/-- **A start is refused and leaves the session, or is accepted with its token.** -/
theorem token_cases (flow : Flow P) (session : Session U) (req : StartRequest P I U) :
    (req.token flow session = none ∧ (req.outcome flow session).session = session) ∨
      ∃ authorization,
        Accepted flow req.world session req.providerId req.query authorization ∧
        req.token flow session = some authorization.state := by
  rcases start_cases flow req.world session req.providerId req.query with
    ⟨refusal, link, hs⟩ | ⟨authorization, hacc, -⟩
  · left
    rw [StartRequest.token, StartRequest.outcome, hs]
    exact ⟨rfl, rfl⟩
  · exact .inr ⟨authorization, hacc, token_of_accepted hacc⟩

/-! ## 3. The order of the starts is that of the clock -/

/-- **What every run of starts keeps** up to the time `t`: there are at most `maxPending` attempts,
each with the number of its start, and none was started before one that is older. -/
structure Ordered (t : Nat) (σ : Starts U) : Prop where
  bounded : ∀ now, (freshPending now σ.session).entries.length ≤ maxPending
  known : ∀ s attempt, σ.session.attempt s = some attempt →
    attempt.createdAt ≤ t ∧ ∃ i < σ.count, σ.startedAt s = some i
  ordered : ∀ s s' attempt attempt' i j, σ.session.attempt s = some attempt →
    σ.session.attempt s' = some attempt' → σ.startedAt s = some i → σ.startedAt s' = some j →
      i ≤ j → attempt.createdAt ≤ attempt'.createdAt ∧ (i = j → s = s')

theorem ordered_init {session₀ : Session U} (h₀ : ∀ s, session₀.attempt s = none) (t : Nat) :
    Ordered t { session := session₀ } where
  bounded now := by
    have hnil : (freshPending now session₀).entries = [] := by
      refine List.eq_nil_iff_forall_not_mem.mpr fun e he => ?_
      have := (lookup_freshPending.mp (AList.mem_lookup_iff.mpr he)).1
      rw [h₀] at this
      cases this
    rw [hnil]
    exact Nat.zero_le _
  known s attempt h := by
    rw [h₀] at h
    cases h
  ordered s s' attempt attempt' i j h := by
    rw [h₀] at h
    cases h

theorem step_of_refused {flow : Flow P} {σ : Starts U} {req : StartRequest P I U}
    (htoken : req.token flow σ.session = none)
    (hsession : (req.outcome flow σ.session).session = σ.session) :
    σ.step flow req = { σ with count := σ.count + 1 } := by
  rw [Starts.step, htoken, hsession]

section Step

variable {flow : Flow P} {σ : Starts U} {req : StartRequest P I U} {authorization : Authorization}
  (hacc : Accepted flow req.world σ.session req.providerId req.query authorization)
include hacc

theorem startedAt_of_accepted : (σ.step flow req).startedAt =
    Function.update σ.startedAt authorization.state (some σ.count) := by
  rw [Starts.step, token_of_accepted hacc]

/-- After an accepted start an attempt is the new one, or was there before. -/
theorem attempt_of_accepted {s : Str} {attempt : PendingLogin}
    (hs : (σ.step flow req).session.attempt s = some attempt) :
    s = authorization.state ∧ attempt.createdAt = req.world.now ∨
      s ≠ authorization.state ∧ σ.session.attempt s = some attempt := by
  rw [Starts.step, StartRequest.outcome, hacc.attempts] at hs
  split at hs
  · rename_i heq
    exact .inl ⟨heq, by rw [← Option.some.inj hs]; rfl⟩
  · rename_i hne
    exact .inr ⟨hne, (lookup_freshPending.mp (PendingMap.lookup_evict _ _ hs)).1⟩

theorem bounded_of_accepted (now : Nat) :
    (freshPending now (σ.step flow req).session).entries.length ≤ maxPending := by
  obtain ⟨map, hmap, hle⟩ := remember_bounded hacc.remembers
  unfold freshPending
  rw [Starts.step, StartRequest.outcome, hmap]
  exact (List.length_filter_le _ _).trans hle

end Step

theorem Ordered.step {flow : Flow P} {σ : Starts U} {t : Nat} (h : Ordered t σ)
    {req : StartRequest P I U} (ht : t ≤ req.world.now) :
    Ordered req.world.later (σ.step flow req) := by
  have hlater := ht.trans req.world.clock
  rcases token_cases flow σ.session req with ⟨htoken, hsession⟩ | ⟨authorization, hacc, -⟩
  · rw [step_of_refused htoken hsession]
    refine ⟨h.bounded, fun s attempt hs => ?_, h.ordered⟩
    obtain ⟨hcreated, i, hi, hstarted⟩ := h.known s attempt hs
    exact ⟨hcreated.trans hlater, i, Nat.lt_succ_of_lt hi, hstarted⟩
  · refine ⟨bounded_of_accepted hacc, ?_, ?_⟩ <;> rw [startedAt_of_accepted hacc]
    · intro s attempt hs
      rcases attempt_of_accepted hacc hs with ⟨rfl, hcreated⟩ | ⟨hne, hold⟩
      · exact ⟨hcreated ▸ req.world.clock, σ.count, Nat.lt_succ_self _, Function.update_self _ _ _⟩
      · obtain ⟨hcreated, i, hi, hstarted⟩ := h.known s attempt hold
        exact ⟨hcreated.trans hlater, i, Nat.lt_succ_of_lt hi,
          by rw [Function.update_of_ne hne, hstarted]⟩
    · intro s s' attempt attempt' i j hs hs' hi hj hij
      rcases attempt_of_accepted hacc hs with ⟨rfl, hcreated⟩ | ⟨hne, hold⟩ <;>
        rcases attempt_of_accepted hacc hs' with ⟨rfl, hcreated'⟩ | ⟨hne', hold'⟩
      · exact ⟨by omega, fun _ => rfl⟩
      · -- the new attempt was not started before an old one
        obtain ⟨-, k, hk, hstarted⟩ := h.known s' attempt' hold'
        rw [Function.update_self] at hi
        rw [Function.update_of_ne hne', hstarted] at hj
        have := Option.some.inj hi
        have := Option.some.inj hj
        omega
      · obtain ⟨hle, k, hk, hstarted⟩ := h.known s attempt hold
        rw [Function.update_of_ne hne, hstarted] at hi
        rw [Function.update_self] at hj
        have := Option.some.inj hi
        have := Option.some.inj hj
        exact ⟨by omega, fun _ => by omega⟩
      · rw [Function.update_of_ne hne] at hi
        rw [Function.update_of_ne hne'] at hj
        exact h.ordered s s' attempt attempt' i j hold hold' hi hj hij

/-- **Every run of starts is ordered.** -/
theorem ordered_run {flow : Flow P} (l : List (StartRequest P I U)) {σ : Starts U} {t now : Nat}
    (h : Ordered t σ) (hstart : ∀ req ∈ l, t ≤ req.world.now) (horder : StartsInOrder l)
    (hnow : ∀ req ∈ l, req.world.later ≤ now) (hle : t ≤ now) :
    Ordered now (run (Starts.step flow) σ l) := by
  induction l generalizing σ t with
  | nil =>
    refine ⟨h.bounded, fun s attempt hs => ?_, h.ordered⟩
    obtain ⟨hcreated, hknown⟩ := h.known s attempt hs
    exact ⟨hcreated.trans hle, hknown⟩
  | cons req l ih =>
    refine ih (h.step (hstart req List.mem_cons_self))
      (fun r hr => List.rel_of_pairwise_cons horder hr) (List.pairwise_cons.mp horder).2
      (fun r hr => hnow r (List.mem_cons_of_mem _ hr)) ?_
    exact hnow req List.mem_cons_self

/-! ## 4. One start -/

/-- With `maxPending` attempts the loop drops one, the oldest. -/
theorem PendingMap.evict_one (order : IterOrder) {map : PendingMap}
    (h : map.entries.length = maxPending) :
    ∃ key, oldest order map = some key ∧ evict order map.entries.length map = map.erase key := by
  obtain ⟨key, hmem, hkey, heq⟩ := evict_full order (maxPending - 1) h.ge
  have hlen := length_erase hmem
  have hpos : 0 < maxPending := by decide
  have hsucc : maxPending = maxPending - 1 + 1 := by omega
  refine ⟨key, hkey, ?_⟩
  rw [h, hsucc, heq, evict_room order _ (by omega)]

/-- **A start without room drops the oldest attempt**, and nothing else. -/
theorem attempts_of_full {flow : Flow P} {σ : Starts U} {t : Nat} (h : Ordered t σ)
    {req : StartRequest P I U} {authorization : Authorization}
    (hacc : Accepted flow req.world σ.session req.providerId req.query authorization)
    (hfull : maxPending ≤ (freshPending req.world.later σ.session).entries.length) :
    ∃ key, PendingMap.oldest req.world.order (freshPending req.world.later σ.session) = some key ∧
      ∀ s, s ≠ authorization.state → (σ.step flow req).session.attempt s =
        ((freshPending req.world.later σ.session).erase key).lookup s := by
  obtain ⟨key, hkey, hevict⟩ :=
    PendingMap.evict_one req.world.order (Nat.le_antisymm (h.bounded req.world.later) hfull)
  refine ⟨key, hkey, fun s hs => ?_⟩
  rw [Starts.step, StartRequest.outcome, hacc.attempts, if_neg hs, hevict]

theorem drops_oldest {flow : Flow P} {σ : Starts U} {t : Nat} (h : Ordered t σ)
    {req : StartRequest P I U} {s : Str} (hdrops : Drops flow σ req s) :
    ∃ authorization, Accepted flow req.world σ.session req.providerId req.query authorization ∧
      maxPending ≤ (freshPending req.world.later σ.session).entries.length ∧
      IsOldest req.world.later σ.session s ∧
      ∀ s', s' ≠ authorization.state → (σ.step flow req).session.attempt s' =
        ((freshPending req.world.later σ.session).erase s).lookup s' := by
  obtain ⟨⟨attempt, hs, hfresh⟩, hgone⟩ := hdrops
  have hlookup := lookup_freshPending.mpr ⟨hs, hfresh⟩
  rcases token_cases flow σ.session req with ⟨-, hsession⟩ | ⟨authorization, hacc, -⟩
  · rw [Starts.step, hsession, hs] at hgone
    cases hgone
  have hattempts := hacc.attempts s
  have hnew : s ≠ authorization.state := by
    intro heq
    rw [Starts.step, StartRequest.outcome, hattempts, if_pos heq] at hgone
    cases hgone
  by_cases hroom : (freshPending req.world.later σ.session).entries.length < maxPending
  · rw [Starts.step, StartRequest.outcome, hattempts, if_neg hnew,
      PendingMap.evict_room _ _ hroom, hlookup] at hgone
    cases hgone
  have hfull := Nat.le_of_not_lt hroom
  obtain ⟨key, hkey, hrest⟩ := attempts_of_full h hacc hfull
  rw [hrest s hnew] at hgone
  obtain rfl : s = key := by
    by_contra hne
    rw [AList.lookup_erase_ne hne, hlookup] at hgone
    cases hgone
  exact ⟨authorization, hacc, hfull, PendingMap.oldest_spec hkey, hrest⟩

/-- **A start drops the attempt started first**, when one second is the oldest attempt's alone. -/
theorem dropsOldestFirst_of_oneOldest {flow : Flow P} {σ : Starts U} {t : Nat} (h : Ordered t σ)
    {req : StartRequest P I U} (hone : OneOldest flow σ req) : DropsOldestFirst flow σ req := by
  rintro s s' hdrops ⟨attempt', hkept⟩
  obtain ⟨authorization, hacc, hfull, holdest, hrest⟩ := drops_oldest h hdrops
  have htoken := token_of_accepted hacc
  obtain ⟨⟨attempt, hs, hfresh⟩, -⟩ := hdrops
  obtain ⟨-, i, hi, hstarted⟩ := h.known s attempt hs
  have hstartedAt := startedAt_of_accepted hacc
  by_cases hnew : s' = authorization.state
  · exact ⟨i, σ.count, hstarted, by rw [hstartedAt, hnew, Function.update_self], hi⟩
  rw [hrest s' hnew] at hkept
  obtain ⟨hne, hfresh'⟩ := PendingMap.lookup_erase hkept
  obtain ⟨hs', -⟩ := lookup_freshPending.mp hfresh'
  obtain ⟨-, j, -, hstarted'⟩ := h.known s' attempt' hs'
  refine ⟨i, j, hstarted, by rw [hstartedAt, Function.update_of_ne hnew, hstarted'], ?_⟩
  by_contra hij
  -- then `s'` is no younger, so it is of the oldest second as well
  obtain ⟨hle, -⟩ :=
    h.ordered s' s attempt' attempt j i hs' hs hstarted' hstarted (Nat.le_of_not_lt hij)
  obtain ⟨first, hfirst, hmin⟩ := holdest
  have hsame : first = attempt :=
    Option.some.inj ((lookup_freshPending.mp hfirst).1.symm.trans hs)
  have holdest' : IsOldest req.world.later σ.session s' :=
    ⟨attempt', hfresh', fun s'' b hb => hle.trans (hsame ▸ hmin s'' b hb)⟩
  exact hne (hone (by rw [htoken]; rfl) hfull s' s holdest' ⟨first, hfirst, hmin⟩)

/-- **The attempt dropped is the one started first**, along every run of starts in which no start
that finds no room finds the oldest second shared. -/
theorem evicts_first_started (flow : Flow P) (session₀ : Session U)
    (h₀ : ∀ s, session₀.attempt s = none) (l : List (StartRequest P I U))
    (horder : StartsInOrder l)
    (hone : Along (Starts.step flow) (OneOldest flow) { session := session₀ } l) :
    Along (Starts.step flow) (DropsOldestFirst flow) { session := session₀ } l := by
  refine along_of_prefix fun pre req hpre => ?_
  obtain ⟨rest, rfl⟩ := hpre
  rw [List.append_assoc, Along.append] at hone
  obtain ⟨hpreOrder, -, hbefore⟩ := List.pairwise_append.mp
    ((List.pairwise_append.mp horder).1)
  have hordered : Ordered req.world.now (run (Starts.step flow) { session := session₀ } pre) :=
    ordered_run pre (ordered_init h₀ 0) (fun _ _ => Nat.zero_le _) hpreOrder
      (fun r hr => hbefore r hr req (by simp)) (Nat.zero_le _)
  exact dropsOldestFirst_of_oneOldest hordered hone.2.1

/-! ## 5. A shared second -/

/-- The order that hands out the entry under `s` first. -/
def IterOrder.startingWith (s : Str) : IterOrder where
  iter map := map.entries.filter (fun e => e.1 == s) ++ map.entries.filter (fun e => !(e.1 == s))
  perm _ := List.filter_append_perm _ _

/-- The first of several least elements is the one found. -/
theorem argmin_cons_of_le {α : Type} (f : α → Nat) {a : α} {l : List α}
    (h : ∀ b ∈ l, f a ≤ f b) : (a :: l).argmin f = some a := by
  rw [List.argmin_cons]
  cases hmin : l.argmin f with
  | none => rfl
  | some c => exact if_neg (Nat.not_lt.mpr (h c (List.argmin_mem hmin)))

/-- An order can make any of the oldest entries the one dropped. -/
theorem oldest_startingWith {map : PendingMap} {s : Str} {attempt : PendingLogin}
    (hs : map.lookup s = some attempt)
    (hmin : ∀ s' attempt', map.lookup s' = some attempt' →
      attempt.createdAt ≤ attempt'.createdAt) :
    PendingMap.oldest (.startingWith s) map = some s := by
  have hmem : (⟨s, attempt⟩ : Sigma fun _ : Str => PendingLogin) ∈
      map.entries.filter fun e => e.1 == s :=
    List.mem_filter.mpr ⟨AList.mem_lookup_iff.mp hs, by simp⟩
  cases hfirst : map.entries.filter fun e => e.1 == s with
  | nil =>
    rw [hfirst] at hmem
    cases hmem
  | cons e rest =>
    have he : e ∈ map.entries ∧ (e.1 == s) = true :=
      List.mem_filter.mp (hfirst ▸ List.mem_cons_self)
    obtain rfl : e.1 = s := by simpa using he.2
    have hattempt : e.2 = attempt :=
      Option.some.inj ((AList.mem_lookup_iff.mpr he.1).symm.trans hs)
    have hiter : (IterOrder.startingWith e.1).iter map =
        e :: (rest ++ map.entries.filter fun x => !(x.1 == e.1)) := by
      rw [IterOrder.startingWith]
      dsimp only
      rw [hfirst, List.cons_append]
    rw [PendingMap.oldest, hiter, argmin_cons_of_le, Option.map_some]
    intro b hb
    have hb : b ∈ map.entries :=
      ((IterOrder.startingWith e.1).perm map).mem_iff.mp (hiter ▸ List.mem_cons_of_mem _ hb)
    rw [hattempt]
    exact hmin b.1 b.2 (AList.mem_lookup_iff.mpr hb)

def StartRequest.withOrder (req : StartRequest P I U) (order : IterOrder) : StartRequest P I U :=
  { req with world := { req.world with order } }

/-- The iteration order does not decide whether a start is accepted. -/
theorem Accepted.withOrder {flow : Flow P} {req : StartRequest P I U} {session : Session U}
    {authorization : Authorization}
    (h : Accepted flow req.world session req.providerId req.query authorization)
    (order : IterOrder) :
    Accepted flow (req.withOrder order).world session req.providerId req.query authorization := by
  refine ⟨h.provider, h.linkUser, ?_⟩
  rw [← h.response]
  obtain ⟨provider, hprov, hauth⟩ := h.provider
  have hrem := h.remembers
  cases hget : session.getPending with
  | error err => simp [remember, hget, bind, Except.bind] at hrem
  | ok stored =>
    have hauth' : (req.withOrder order).world.authorize provider = .ok authorization := hauth
    simp only [start, hprov, hauth, hauth', remember_eq hget]
    split <;> rfl

/-- Of two oldest attempts one was started later. -/
theorem Ordered.tie {σ : Starts U} {t now : Nat} (h : Ordered t σ) {s s' : Str}
    (hs : IsOldest now σ.session s) (hs' : IsOldest now σ.session s') (hne : s ≠ s') :
    ∃ early late i j, early ≠ late ∧ IsOldest now σ.session early ∧ IsOldest now σ.session late ∧
      σ.startedAt early = some i ∧ σ.startedAt late = some j ∧ i < j := by
  have ⟨attempt, hattempt, _⟩ := hs
  have ⟨attempt', hattempt', _⟩ := hs'
  have hheld := (lookup_freshPending.mp hattempt).1
  have hheld' := (lookup_freshPending.mp hattempt').1
  obtain ⟨-, i, -, hi⟩ := h.known s attempt hheld
  obtain ⟨-, j, -, hj⟩ := h.known s' attempt' hheld'
  rcases Nat.lt_trichotomy i j with hij | hij | hij
  · exact ⟨s, s', i, j, hne, hs, hs', hi, hj, hij⟩
  · exact absurd ((h.ordered s s' attempt attempt' i j hheld hheld' hi hj hij.le).2 hij) hne
  · exact ⟨s', s, j, i, hne.symm, hs', hs, hj, hi, hij⟩

/-- **A shared oldest second is enough**: for a start with a new token that finds no room there is
then an iteration order with which it drops an attempt started after one that it keeps. -/
theorem tie_evicts_later {flow : Flow P} {σ : Starts U} {t : Nat} (h : Ordered t σ)
    {req : StartRequest P I U} (hone : ¬ OneOldest flow σ req)
    (hnew : ∀ s, req.token flow σ.session = some s → σ.session.attempt s = none) :
    ∃ order, ¬ DropsOldestFirst flow σ (req.withOrder order) := by
  simp only [OneOldest, not_forall] at hone
  obtain ⟨htoken, hfull, s, s', hs, hs', hne⟩ := hone
  obtain ⟨early, late, i, j, hne, ⟨attempt, hearly, -⟩, ⟨attempt', hlate, hmin⟩, hi, hj, hij⟩ :=
    h.tie hs hs' hne
  obtain ⟨hheld, -⟩ := lookup_freshPending.mp hearly
  obtain ⟨hheld', hfresh'⟩ := lookup_freshPending.mp hlate
  rcases token_cases flow σ.session req with ⟨hnone, -⟩ | ⟨authorization, hacc, htoken'⟩
  · rw [hnone] at htoken
    cases htoken
  have hfree : ∀ s attempt, σ.session.attempt s = some attempt → s ≠ authorization.state := by
    rintro s attempt hs rfl
    rw [hnew _ htoken'] at hs
    cases hs
  -- the loop is made to find `late` first
  have hacc' := hacc.withOrder (.startingWith late)
  obtain ⟨key, hkey, hrest⟩ :=
    @attempts_of_full P I U flow σ t h (req.withOrder (.startingWith late)) _ hacc' hfull
  obtain rfl : late = key :=
    Option.some.inj ((oldest_startingWith hlate hmin).symm.trans hkey)
  refine ⟨.startingWith late, fun hfirst => ?_⟩
  have hgone : (σ.step flow (req.withOrder (.startingWith late))).session.attempt late = none := by
    rw [hrest late (hfree late attempt' hheld')]
    exact AList.lookup_erase _ _
  have hkept : (σ.step flow (req.withOrder (.startingWith late))).session.attempt early =
      some attempt := by
    rw [hrest early (hfree early attempt hheld), AList.lookup_erase_ne hne]
    exact hearly
  obtain ⟨i', j', hi', hj', hlt⟩ := hfirst late early ⟨⟨attempt', hheld', hfresh'⟩, hgone⟩
    ⟨attempt, hkept⟩
  rw [Starts.step, token_of_accepted hacc'] at hj'
  dsimp only at hj'
  rw [Function.update_of_ne (hfree early attempt hheld), hi] at hj'
  rw [hj] at hi'
  have := Option.some.inj hi'
  have := Option.some.inj hj'
  omega

/-! ## 6. Five tabs -/

/-- Attempts started in different seconds have one oldest. -/
theorem oneOldest_of_nodup {flow : Flow P} {σ : Starts U} {req : StartRequest P I U}
    (h : ((freshPending req.world.later σ.session).entries.map fun e => e.2.createdAt).Nodup) :
    OneOldest flow σ req := by
  rintro - - s s' ⟨attempt, hs, hmin⟩ ⟨attempt', hs', hmin'⟩
  have hsame := Nat.le_antisymm (hmin s' attempt' hs') (hmin' s attempt hs)
  exact congrArg Sigma.fst (List.inj_on_of_nodup_map h (AList.mem_lookup_iff.mp hs)
    (AList.mem_lookup_iff.mp hs') hsame)

def tab (now : Nat) (state : String) : StartRequest Unit Unit Nat :=
  { world := plainWorld now state 7, providerId := "g".toList, query := {} }

theorem evicts_first_of_five_tabs :
    Along (Starts.step plainFlow) (DropsOldestFirst plainFlow) { session := {} }
      [tab 100 "a", tab 101 "b", tab 102 "c", tab 103 "d", tab 104 "e"] := by
  refine evicts_first_started plainFlow {} (fun _ => rfl) _ (by unfold StartsInOrder; decide) ?_
  refine ⟨?_, ?_, ?_, ?_, ?_, trivial⟩ <;> exact oneOldest_of_nodup (by decide)

/-- **Five tabs in one second**: the one opened fourth is dropped, and the first one kept. -/
theorem tied_starts_drop_last :
    let σ := run (Starts.step plainFlow) { session := {} }
      [tab 100 "a", tab 100 "b", tab 100 "c", tab 100 "d"]
    StartsInOrder [tab 100 "a", tab 100 "b", tab 100 "c", tab 100 "d", tab 100 "e"] ∧
      Drops plainFlow σ (tab 100 "e") "d".toList ∧ Keeps plainFlow σ (tab 100 "e") "a".toList ∧
      ¬ DropsOldestFirst plainFlow σ (tab 100 "e") := by
  intro σ
  have hdrops : Drops plainFlow σ (tab 100 "e") "d".toList := ⟨by decide, by decide⟩
  have hkeeps : Keeps plainFlow σ (tab 100 "e") "a".toList :=
    Option.isSome_iff_exists.mp (by decide)
  refine ⟨by unfold StartsInOrder; decide, hdrops, hkeeps, fun hfirst => ?_⟩
  obtain ⟨i, j, hi, hj, hij⟩ := hfirst _ _ hdrops hkeeps
  have hd : σ.startedAt "d".toList = some 3 := by decide
  have ha : (σ.step plainFlow (tab 100 "e")).startedAt "a".toList = some 0 := by decide
  have := Option.some.inj (hd.symm.trans hi)
  have := Option.some.inj (ha.symm.trans hj)
  omega

end Muxa.Auth
