/-
# The sign-ins in progress as a bounded set

What `remember` and `take` are for: the session holds the attempts started and not redeemed, none
of them too old to be of use when another one is added, and no more than `MAX_PENDING`.  When
there is no room the oldest goes, so an attempt that is dropped while it is fresh gives way to
`MAX_PENDING - 1` others that are no older (`evict_dropped`) and to the new one.

`pending_set_exact` says this of the two operations, on every map that may be stored, and draws the
conclusion for whole runs of requests: a callback finds its attempt exactly when it was started
and nothing took it away since.
-/
import Muxa.Auth.Concurrent

namespace Muxa.Auth

open Lib.Text Lib.Run

/-! ## 1. Dropping the oldest -/

namespace PendingMap

theorem lookup_retain_iff {map : PendingMap} {keep : PendingLogin → Bool} {s : Str}
    {attempt : PendingLogin} :
    (map.retain keep).lookup s = some attempt ↔ map.lookup s = some attempt ∧ keep attempt := by
  have hmem : ∀ m : PendingMap, m.lookup s = some attempt ↔
      (⟨s, attempt⟩ : Sigma fun _ : Str => PendingLogin) ∈ m.entries := fun m =>
    AList.mem_lookup_iff
  rw [hmem, hmem]
  exact List.mem_filter

/-- **The oldest entry is no younger than any other.** -/
theorem oldest_spec {order : IterOrder} {map : PendingMap} {key : Str}
    (h : oldest order map = some key) :
    ∃ first, map.lookup key = some first ∧
      ∀ s attempt, map.lookup s = some attempt → first.createdAt ≤ attempt.createdAt := by
  obtain ⟨e, hmin, rfl⟩ := Option.map_eq_some_iff.mp h
  refine ⟨e.2, ?_, fun s attempt hs => ?_⟩
  · exact AList.mem_lookup_iff.mpr ((order.perm map).mem_iff.mp (List.argmin_mem hmin))
  · have hmem : (⟨s, attempt⟩ : Sigma fun _ : Str => PendingLogin) ∈ order.iter map :=
      (order.perm map).mem_iff.mpr (AList.mem_lookup_iff.mp hs)
    exact List.le_of_mem_argmin (f := fun e : Sigma fun _ : Str => PendingLogin => e.2.createdAt)
      hmem hmin

/-- With room for one more nothing is dropped. -/
theorem evict_room (order : IterOrder) (rounds : Nat) {map : PendingMap}
    (h : map.entries.length < maxPending) : evict order rounds map = map := by
  cases rounds with
  | zero => rfl
  | succ rounds => rw [evict, if_neg (by omega)]

/-- One round of the loop. -/
theorem evict_full (order : IterOrder) (rounds : Nat) {map : PendingMap}
    (h : maxPending ≤ map.entries.length) :
    ∃ key ∈ map, oldest order map = some key ∧
      evict order (rounds + 1) map = evict order rounds (map.erase key) := by
  have hne : map.entries ≠ [] := by
    intro hnil
    rw [hnil] at h
    exact absurd h (by decide)
  obtain ⟨key, hkey, hmem⟩ := oldest_mem order hne
  exact ⟨key, hmem, hkey, by rw [evict, if_pos h, hkey]⟩

/-- **The loop stops by itself**: more rounds than entries make no difference. -/
theorem evict_rounds (order : IterOrder) (rounds : Nat) (map : PendingMap)
    (h : map.entries.length ≤ rounds) :
    evict order rounds map = evict order map.entries.length map := by
  induction rounds generalizing map with
  | zero => rw [Nat.le_zero.mp h]
  | succ rounds ih =>
    by_cases hfull : maxPending ≤ map.entries.length
    · obtain ⟨key, hmem, hkey, heq⟩ := evict_full order rounds hfull
      have hlen := length_erase hmem
      obtain ⟨key', -, hkey', heq'⟩ := evict_full order (map.erase key).entries.length hfull
      obtain rfl : key' = key := Option.some.inj (hkey'.symm.trans hkey)
      rw [heq, ih _ (by omega), ← heq', hlen]
    · rw [evict_room order _ (by omega), evict_room order _ (by omega)]

/-- The loop drops no more than it must. -/
theorem evict_length (order : IterOrder) (rounds : Nat) (map : PendingMap)
    (h : maxPending - 1 ≤ map.entries.length) :
    maxPending - 1 ≤ (evict order rounds map).entries.length := by
  induction rounds generalizing map with
  | zero => exact h
  | succ rounds ih =>
    by_cases hfull : maxPending ≤ map.entries.length
    · obtain ⟨key, hmem, -, heq⟩ := evict_full order rounds hfull
      have hlen := length_erase hmem
      rw [heq]
      exact ih _ (by omega)
    · rw [evict_room order _ (by omega)]
      exact h

/-- **What the loop drops is no younger than what it keeps**, and it keeps `maxPending - 1`. -/
theorem evict_dropped (order : IterOrder) (rounds : Nat) {map : PendingMap} {s : Str}
    {attempt : PendingLogin} (hs : map.lookup s = some attempt)
    (hdropped : (evict order rounds map).lookup s = none) :
    maxPending - 1 ≤ (evict order rounds map).entries.length ∧
      ∀ s' kept, (evict order rounds map).lookup s' = some kept →
        attempt.createdAt ≤ kept.createdAt := by
  induction rounds generalizing map with
  | zero =>
    rw [evict, hs] at hdropped
    cases hdropped
  | succ rounds ih =>
    by_cases hfull : maxPending ≤ map.entries.length
    · obtain ⟨key, hmem, hkey, heq⟩ := evict_full order rounds hfull
      have hlen := length_erase hmem
      rw [heq] at hdropped ⊢
      by_cases hskey : s = key
      · -- it is the oldest of all
        obtain ⟨first, hfirst, hle⟩ := oldest_spec hkey
        obtain rfl : first = attempt := by
          rw [← hskey, hs] at hfirst
          exact (Option.some.inj hfirst).symm
        refine ⟨evict_length order rounds _ (by omega), fun s' kept hkept => ?_⟩
        exact hle s' kept (lookup_erase (lookup_evict order rounds hkept)).2
      · exact ih (by rw [AList.lookup_erase_ne hskey, hs]) hdropped
    · rw [evict_room order _ (by omega), hs] at hdropped
      cases hdropped

end PendingMap

/-! ## 2. The two operations -/

section Operations

variable {U : Type}

def remembered (order : IterOrder) (now : Nat) (map : PendingMap) (pending : PendingLogin) :
    PendingMap :=
  let fresh := map.retain (·.fresh now)
  (PendingMap.evict order fresh.entries.length fresh).insert pending.state pending

theorem remember_eq {order : IterOrder} {now : Nat} {session : Session U}
    {stored : Option PendingMap} (h : session.getPending = .ok stored) (pending : PendingLogin) :
    remember order now session pending =
      .ok { session with
        pending := some (.ok (remembered order now (stored.getD ∅) pending)) } := by
  simp [remember, h, bind, Except.bind, pure, Except.pure, remembered]

/-- **What `remember` stores** instead of `map`: the new attempt and the youngest of the others. -/
structure Remembers (now : Nat) (map : PendingMap) (pending : PendingLogin) (map' : PendingMap) :
    Prop where
  /-- Attempts stay under their own tokens. -/
  keyed : (∀ s attempt, map.lookup s = some attempt → attempt.state = s) →
    ∀ s attempt, map'.lookup s = some attempt → attempt.state = s
  present : map'.lookup pending.state = some pending
  bounded : map'.entries.length ≤ maxPending
  /-- The others were there, and are fresh. -/
  others : ∀ s attempt, s ≠ pending.state → map'.lookup s = some attempt →
    attempt.fresh now = true ∧ map.lookup s = some attempt
  /-- A fresh one that is gone left `maxPending - 1` others behind that are no older. -/
  dropped : ∀ s attempt, map.lookup s = some attempt → attempt.fresh now = true →
    map'.lookup s = none →
      maxPending - 1 ≤ (map'.entries.filter fun e =>
        e.1 ≠ pending.state ∧ attempt.createdAt ≤ e.2.createdAt).length

theorem lookup_remembered {order : IterOrder} {now : Nat} {map : PendingMap}
    {pending : PendingLogin} {s : Str} (hs : s ≠ pending.state) :
    (remembered order now map pending).lookup s =
      (PendingMap.evict order (map.retain (·.fresh now)).entries.length
        (map.retain (·.fresh now))).lookup s := by
  rw [remembered, AList.lookup_insert_ne hs]

/-- A token that was not in the map is not among those kept. -/
theorem not_mem_kept {order : IterOrder} {now : Nat} {map : PendingMap} {s : Str} (h : s ∉ map) :
    s ∉ PendingMap.evict order (map.retain (·.fresh now)).entries.length
      (map.retain (·.fresh now)) := by
  intro hmem
  obtain ⟨attempt, hlookup⟩ := Option.isSome_iff_exists.mp (AList.lookup_isSome.mpr hmem)
  have hold := PendingMap.lookup_retain (PendingMap.lookup_evict order _ hlookup)
  exact h (AList.lookup_isSome.mp (by rw [hold]; rfl))

/-- **`remember` keeps a bounded set of fresh attempts.** -/
theorem remembers (order : IterOrder) (now : Nat) (map : PendingMap) (pending : PendingLogin)
    (hnew : pending.state ∉ map) :
    Remembers now map pending (remembered order now map pending) := by
  have hothers : ∀ s attempt, s ≠ pending.state →
      (remembered order now map pending).lookup s = some attempt →
        attempt.fresh now = true ∧ map.lookup s = some attempt := by
    intro s attempt hs hlookup
    rw [lookup_remembered hs] at hlookup
    exact (PendingMap.lookup_retain_iff.mp (PendingMap.lookup_evict order _ hlookup)).symm
  have hpresent : (remembered order now map pending).lookup pending.state = some pending := by
    rw [remembered, AList.lookup_insert]
  constructor
  · intro hkeyed s attempt hlookup
    by_cases hs : s = pending.state
    · rw [hs, hpresent] at hlookup
      rw [hs, Option.some.inj hlookup]
    · exact hkeyed s attempt (hothers s attempt hs hlookup).2
  · exact hpresent
  · have hroom := PendingMap.evict_size order _ (map.retain (·.fresh now)) (Nat.le_refl _)
    have hsub := (List.kerase_sublist pending.state (PendingMap.evict order
      (map.retain (·.fresh now)).entries.length (map.retain (·.fresh now))).entries).length_le
    rw [remembered, AList.entries_insert, List.length_cons]
    omega
  · exact hothers
  · intro s attempt hlookup hfresh hgone
    have hs : s ≠ pending.state := by
      rintro rfl
      exact hnew (AList.lookup_isSome.mp (by rw [hlookup]; rfl))
    rw [lookup_remembered hs] at hgone
    have hretained := PendingMap.lookup_retain_iff.mpr ⟨hlookup, hfresh⟩
    obtain ⟨hlen, hold⟩ := PendingMap.evict_dropped order _ hretained hgone
    rw [remembered, AList.entries_insert_of_notMem (not_mem_kept hnew),
      List.filter_cons_of_neg (by simp), List.filter_eq_self.mpr]
    · exact hlen
    · intro e he
      have hkept := AList.mem_lookup_iff.mpr he
      have hne : e.1 ≠ pending.state := by
        intro heq
        have hmem := AList.lookup_isSome.mp (by rw [hkept]; rfl)
        exact not_mem_kept hnew (heq ▸ hmem)
      simpa using ⟨hne, hold e.1 e.2 hkept⟩

/-- **What `take` hands out and leaves**: `session` and `session'` are the sessions around it. -/
structure Takes (now : Nat) (session : Session U) (s : Str) (found : Option PendingLogin)
    (session' : Session U) : Prop where
  /-- It finds the attempt exactly when that is there and fresh. -/
  found : ∀ attempt, found = some attempt ↔
    session.attempt s = some attempt ∧ attempt.fresh now = true
  /-- The attempt is gone, fresh or not, and the others stay. -/
  attempts : ∀ s', session'.attempt s' = if s' = s then none else session.attempt s'
  /-- No empty map is stored. -/
  empty : (∀ s', session'.attempt s' = none) → session'.pending = none
  user : session'.user = session.user

/-- What `take` stores: nothing, or a map with an entry. -/
theorem take_pending {order : IterOrder} {now : Nat} {session session' : Session U} {s : Str}
    {found : Option PendingLogin} (h : take order now session s = .ok (found, session')) :
    session'.pending = none ∨
      ∃ map : PendingMap, session'.pending = some (.ok map) ∧ map.entries ≠ [] := by
  cases hget : session.getPending with
  | error err => simp [take, hget, bind, Except.bind] at h
  | ok stored =>
    cases stored with
    | none =>
      simp only [take, hget, bind, Except.bind, pure, Except.pure, Except.ok.injEq,
        Prod.mk.injEq] at h
      obtain ⟨-, rfl⟩ := h
      unfold Session.getPending at hget
      split at hget <;> simp_all
    | some map =>
      simp only [take, hget, bind, Except.bind, pure, Except.pure, Except.ok.injEq,
        Prod.mk.injEq] at h
      obtain ⟨-, rfl⟩ := h
      dsimp only
      split
      · exact .inl rfl
      · rename_i hne
        exact .inr ⟨_, rfl, by simpa using hne⟩

/-- **`take` on every stored map.** -/
theorem takes (order : IterOrder) (now : Nat) {session : Session U} {stored : Option PendingMap}
    (h : session.getPending = .ok stored) (s : Str) :
    ∃ found session', take order now session s = .ok (found, session') ∧
      Takes now session s found session' := by
  have hok : ∃ r, take order now session s = .ok r := by
    cases stored <;> exact ⟨_, by simp only [take, h, bind, Except.bind, pure, Except.pure]; rfl⟩
  obtain ⟨⟨found, session'⟩, htake⟩ := hok
  obtain ⟨huser, hfound, hattempts⟩ := take_spec htake
  refine ⟨found, session', htake, ?_, hattempts, fun hnone => ?_, huser⟩
  · intro attempt
    rw [hfound, Option.filter_eq_some_iff]
  · rcases take_pending htake with hpending | ⟨map, hpending, hne⟩
    · exact hpending
    · obtain ⟨e, he⟩ := List.exists_mem_of_ne_nil _ hne
      have hlookup := hnone e.1
      simp only [Session.attempt, hpending] at hlookup
      rw [AList.mem_lookup_iff.mpr he] at hlookup
      cases hlookup

end Operations

/-! ## 3. Runs of requests -/

section Runs

variable {P I U : Type}

def Draws (flow : Flow P) (s : Str) (r : World P I U × Request) : Prop :=
  ∃ providerId query provider authorization, r.2 = .start providerId query ∧
    flow.providers providerId = some provider ∧ r.1.authorize provider = .ok authorization ∧
      authorization.state = s

def DistinctTokens (flow : Flow P) (l : List (World P I U × Request)) : Prop :=
  l.Pairwise fun a b => ∀ s, Draws flow s a → ¬ Draws flow s b

/-- A `start` drops the attempt under `s` while it is fresh. -/
def Evicts (flow : Flow P) (s : Str) (session : Session U) (r : World P I U × Request) : Prop :=
  (∃ providerId query, r.2 = .start providerId query) ∧
    HoldsFresh r.1.later s session ∧ (step flow session r).attempt s = none

theorem Accepted.draws {flow : Flow P} {w : World P I U} {session : Session U} {providerId : Str}
    {query : StartQuery} {authorization : Authorization}
    (h : Accepted flow w session providerId query authorization) :
    Draws flow authorization.state (w, .start providerId query) := by
  obtain ⟨provider, hprov, hauth⟩ := h.provider
  exact ⟨providerId, query, provider, authorization, rfl, hprov, hauth, rfl⟩

theorem Accepted.remembers {flow : Flow P} {w : World P I U} {session : Session U}
    {providerId : Str} {query : StartQuery} {authorization : Authorization}
    (h : Accepted flow w session providerId query authorization) :
    remember w.order w.later session (pendingLogin flow w.now providerId query authorization) =
      .ok (start flow w session providerId query).session := by
  rcases start_cases flow w session providerId query with
    ⟨refusal, link, hs⟩ | ⟨authorization', hacc', hrem⟩
  · have hresponse := h.response
    rw [hs] at hresponse
    cases hresponse
  · obtain ⟨provider, hprov, hauth⟩ := h.provider
    obtain ⟨provider', hprov', hauth'⟩ := hacc'.provider
    obtain rfl : provider = provider' := Option.some.inj (hprov.symm.trans hprov')
    obtain rfl : authorization = authorization' := Except.ok.inj (hauth.symm.trans hauth')
    exact hrem

theorem Accepted.attempt {flow : Flow P} {w : World P I U} {session : Session U}
    {providerId : Str} {query : StartQuery} {authorization : Authorization}
    (h : Accepted flow w session providerId query authorization) :
    (step flow session (w, .start providerId query)).attempt authorization.state =
      some (pendingLogin flow w.now providerId query authorization) :=
  (remember_spec h.remembers).2.1

/-- **An attempt stays, or is taken away, or was too old, or is evicted**: the other side of
`step_creates`. -/
theorem step_keeps {w : World P I U} (h : w.Lawful) (flow : Flow P) {session : Session U}
    {req : Request} {s : Str} {attempt : PendingLogin} (hs : session.attempt s = some attempt)
    (hforgets : ¬ req.Forgets s) (hdraws : ¬ Draws flow s (w, req))
    (hfresh : attempt.fresh w.later = true) (hevicts : ¬ Evicts flow s session (w, req)) :
    (step flow session (w, req)).attempt s = some attempt := by
  cases req with
  | signOut => exact absurd (.inr rfl) hforgets
  | callback providerId query =>
    have hne : query.state ≠ some s := fun heq => hforgets (.inl heq)
    rw [step, handle, callback_attempt h, if_neg hne, hs]
  | start providerId query =>
    have hkept : ∀ attempt', (step flow session (w, .start providerId query)).attempt s =
        some attempt' → attempt' = attempt := by
      intro attempt' hafter
      by_contra hne
      obtain ⟨_, _, authorization, heq, hacc, hstate, -⟩ := step_creates h flow session
        (fun hbefore => hne (Option.some.inj (hbefore.symm.trans hs))) hafter
      cases heq
      exact hdraws (hstate ▸ hacc.draws)
    cases hafter : (step flow session (w, .start providerId query)).attempt s with
    | none => exact absurd ⟨⟨_, _, rfl⟩, ⟨attempt, hs, hfresh⟩, hafter⟩ hevicts
    | some attempt' => rw [hkept attempt' hafter]

/-- What keeps a callback's attempt there: it was started, and since then nobody presented its
token or signed out, no `start` evicted it, and it has not become too old. -/
def StillThere (flow : Flow P) (session₀ : Session U) (l : List (World P I U × Request))
    (now : Nat) (s : Str) (pending : PendingLogin) : Prop :=
  ∃ pre w₀ providerId query mid authorization,
    l = pre ++ (w₀, .start providerId query) :: mid ∧
    Accepted flow w₀ (run (step flow) session₀ pre) providerId query authorization ∧
    authorization.state = s ∧ pending = pendingLogin flow w₀.now providerId query authorization ∧
    now < w₀.now + pendingTtlSecs ∧
    (∀ r ∈ mid, ¬ r.2.Forgets s) ∧
    ∀ seen r, seen ++ [r] <+: mid →
      ¬ Evicts flow s (run (step flow) session₀ (pre ++ (w₀, .start providerId query) :: seen)) r

theorem finds_iff {w : World P I U} {session : Session U} {query : CallbackQuery} {s : Str}
    (hs : query.state = some s) (pending : PendingLogin) :
    (∃ session', taken w session query = .ok (some pending, session')) ↔
      session.attempt s = some pending ∧ pending.fresh w.now = true := by
  rw [taken, hs]
  constructor
  · rintro ⟨session', htake⟩
    exact Option.filter_eq_some_iff.mp (take_spec htake).2.1.symm
  · rintro ⟨hattempt, hfresh⟩
    have hget : ∃ stored, session.getPending = .ok stored := by
      unfold Session.attempt at hattempt
      unfold Session.getPending
      split at hattempt
      · rename_i map hmap
        exact ⟨some map, by rw [hmap]⟩
      · cases hattempt
    obtain ⟨stored, hget⟩ := hget
    obtain ⟨found, session', htake, htakes⟩ := takes w.order w.now hget s
    refine ⟨session', htake.trans ?_⟩
    rw [(htakes.found pending).mpr ⟨hattempt, hfresh⟩]

theorem stillThere_of_attempt {flow : Flow P} {session₀ : Session U}
    (h₀ : ∀ s, session₀.attempt s = none) {l : List (World P I U × Request)}
    (hlaw : ∀ r ∈ l, r.1.Lawful) {now : Nat} {s : Str} {pending : PendingLogin}
    (h : (run (step flow) session₀ l).attempt s = some pending)
    (hfresh : pending.fresh now = true) : StillThere flow session₀ l now s pending := by
  obtain ⟨pre, ⟨w₀, req⟩, mid, rfl, hpre, hmid⟩ :=
    run_switch (P := fun σ : Session U => σ.attempt s = some pending) (by simp [h₀]) l h
  have hnew := hmid [] List.nil_prefix
  rw [run_append, run_cons, run_nil] at hnew
  obtain ⟨providerId, query, authorization, rfl, hacc, hstate, hpending⟩ :=
    step_creates (hlaw (w₀, req) (by simp)) flow _ hpre hnew
  have hafter : ∀ seen r, seen ++ [r] <+: mid → (step flow
      (run (step flow) session₀ (pre ++ (w₀, .start providerId query) :: seen)) r).attempt s =
        some pending := by
    intro seen r hr
    have := hmid (seen ++ [r]) hr
    rwa [← List.cons_append, ← List.append_assoc, run_concat] at this
  refine ⟨pre, w₀, providerId, query, mid, authorization, rfl, hacc, hstate, hpending, ?_, ?_, ?_⟩
  · have hlt : now - w₀.now < pendingTtlSecs := by
      have := of_decide_eq_true hfresh
      rwa [hpending] at this
    have hpos : 0 < pendingTtlSecs := by decide
    omega
  · intro r hr hforgets
    obtain ⟨k, k', rfl⟩ := List.append_of_mem hr
    have hstill := hafter k r ⟨k', by simp⟩
    rw [step_forgets (hlaw r (by simp)) flow _ hforgets] at hstill
    cases hstill
  · rintro seen r hr ⟨-, -, hgone⟩
    rw [hafter seen r hr] at hgone
    cases hgone

theorem attempt_of_stillThere {flow : Flow P} {session₀ : Session U}
    {l : List (World P I U × Request)} (hlaw : ∀ r ∈ l, r.1.Lawful)
    (hdistinct : DistinctTokens flow l) {now : Nat} (hnow : ∀ r ∈ l, r.1.later ≤ now) {s : Str}
    {pending : PendingLogin} (h : StillThere flow session₀ l now s pending) :
    (run (step flow) session₀ l).attempt s = some pending ∧ pending.fresh now = true := by
  obtain ⟨pre, w₀, providerId, query, mid, authorization, rfl, hacc, rfl, hpending, hlt, hforgets,
    hevicts⟩ := h
  have hfresh : ∀ t ≤ now, pending.fresh t = true := by
    intro t ht
    have hpos : 0 < pendingTtlSecs := by decide
    rw [hpending]
    exact decide_eq_true (by dsimp only [pendingLogin]; omega)
  refine ⟨?_, hfresh now (Nat.le_refl _)⟩
  -- it is there after every request that followed
  suffices hseen : ∀ seen, seen <+: mid → (run (step flow) session₀
      (pre ++ (w₀, .start providerId query) :: seen)).attempt authorization.state =
        some pending from hseen mid List.prefix_rfl
  intro seen
  induction seen using List.reverseRecOn with
  | nil =>
    intro _
    rw [run_append, run_cons, run_nil, hpending]
    exact hacc.attempt
  | append_singleton seen r ih =>
    intro hr
    have hmem : r ∈ mid := hr.subset (by simp)
    have hlawful : r.1.Lawful := hlaw r (by simp [hmem])
    have hfresh' : pending.fresh r.1.later = true := hfresh _ (hnow r (by simp [hmem]))
    have hdraws : ¬ Draws flow authorization.state r :=
      List.rel_of_pairwise_cons (List.pairwise_append.mp hdistinct).2.1 hmem _ hacc.draws
    rw [← List.cons_append, ← List.append_assoc, run_concat]
    exact step_keeps hlawful flow (ih ((List.prefix_append _ _).trans hr)) (hforgets r hmem) hdraws
      hfresh' (hevicts seen r hr)

end Runs

/-! ## 4. The set -/

/-- **A bounded set of fresh attempts**, kept by the two operations on every stored map and along
the run `l`. -/
structure PendingSet {P I U : Type} (flow : Flow P) (session₀ : Session U)
    (l : List (World P I U × Request)) : Prop where
  /-- The eviction loop ends. -/
  stops : ∀ order rounds (map : PendingMap), map.entries.length ≤ rounds →
    PendingMap.evict order rounds map = PendingMap.evict order map.entries.length map
  remember : ∀ order now (session : Session U) stored pending,
    session.getPending = .ok stored → pending.state ∉ stored.getD ∅ →
      ∃ map', remember order now session pending =
          .ok { session with pending := some (.ok map') } ∧
        Remembers now (stored.getD ∅) pending map'
  take : ∀ order now (session : Session U) stored s, session.getPending = .ok stored →
    ∃ found session', take order now session s = .ok (found, session') ∧
      Takes now session s found session'
  /-- A callback after the run finds its attempt exactly when that is still there. -/
  finds : ∀ (w : World P I U) query s pending, (∀ r ∈ l, r.1.later ≤ w.now) →
    query.state = some s →
      ((∃ session', taken w (run (step flow) session₀ l) query = .ok (some pending, session')) ↔
        StillThere flow session₀ l w.now s pending)

/-- **`remember` and `take` implement a bounded set of fresh attempts exactly.** -/
theorem pending_set_exact {P I U : Type} (flow : Flow P) (session₀ : Session U)
    (h₀ : ∀ s, session₀.attempt s = none) (l : List (World P I U × Request))
    (hlaw : ∀ r ∈ l, r.1.Lawful) (hdistinct : DistinctTokens flow l) :
    PendingSet flow session₀ l where
  stops := PendingMap.evict_rounds
  remember order now session stored pending hget hnew :=
    ⟨_, remember_eq hget pending, remembers order now _ pending hnew⟩
  take order now session stored s hget := takes order now hget s
  finds w query s pending hnow hs := by
    rw [finds_iff hs]
    constructor
    · exact fun h => stillThere_of_attempt h₀ hlaw h.1 h.2
    · exact attempt_of_stillThere hlaw hdistinct hnow

theorem pendingSet_twoTabs : PendingSet plainFlow {} twoTabs := by
  refine pending_set_exact plainFlow {} (fun _ => rfl) twoTabs twoTabs_lawful ?_
  have hdraws : ∀ s now state user, Draws plainFlow s
      (plainWorld now state user, .start "g".toList {}) → s = state.toList := by
    rintro s now state user ⟨_, _, _, authorization, -, -, hauth, rfl⟩
    rw [← Except.ok.inj hauth]
  simp only [DistinctTokens, twoTabs, List.pairwise_cons, List.mem_cons, List.not_mem_nil, or_false,
    forall_eq_or_imp, forall_eq, List.Pairwise.nil, and_true, false_imp_iff, implies_true]
  refine ⟨⟨?_, ?_⟩, ?_⟩
  · intro s ha hb
    exact absurd ((hdraws s _ _ _ ha).symm.trans (hdraws s _ _ _ hb)) (by decide)
  · rintro s - ⟨_, _, _, _, heq, -⟩
    cases heq
  · rintro s - ⟨_, _, _, _, heq, -⟩
    cases heq

end Muxa.Auth
