/-
# The sign-ins in progress of one session

A sign-in in progress (`PendingLogin`) waits in the session, under its state token, between the
`start` and the `callback` request.  The map of them is a Rust `HashMap`: an association list
whose keys are distinct by construction, walked in an order that the program cannot choose and
that is therefore a parameter of every operation that iterates (`IterOrder`).

`remember` and `take` are translated here, and `remember_spec` and `take_spec` say once what
each does to the attempt under a token; the sign-in guarantees are derived from these two and
never unfold the map again.
-/
import Mathlib.Data.List.AList
import Mathlib.Data.List.MinMax
import Muxa.Lib.Text

namespace Muxa.Auth

open Lib.Text

/-! ## 1. Attempts and the map that holds them -/

/-- A sign-in in progress, kept in the session between `start` and `callback`. -/
structure PendingLogin where
  provider : Str
  state : Str
  pkceVerifier : Option Str
  nonce : Option Str
  next : Str
  link : Bool
  /-- Unix seconds. -/
  createdAt : Nat
deriving DecidableEq

/-- How long a started sign-in stays valid. -/
def pendingTtlSecs : Nat := 10 * 60

/-- At most this many sign-ins in progress per session. -/
def maxPending : Nat := 4

/-- `now.saturating_sub(attempt.created_at) < PENDING_TTL_SECS`. -/
def PendingLogin.fresh (now : Nat) (attempt : PendingLogin) : Bool :=
  now - attempt.createdAt < pendingTtlSecs

/-- The sign-ins in progress, by state token. -/
abbrev PendingMap := AList fun _ : Str => PendingLogin

/-- The order in which one request's hash map hands out its entries. -/
structure IterOrder where
  iter : PendingMap → List (Sigma fun _ : Str => PendingLogin)
  perm : ∀ map, (iter map).Perm map.entries

def IterOrder.asStored : IterOrder := ⟨AList.entries, fun _ => List.Perm.refl _⟩

namespace PendingMap

def retain (map : PendingMap) (keep : PendingLogin → Bool) : PendingMap :=
  ⟨map.entries.filter fun e => keep e.2, map.nodupKeys.sublist List.filter_sublist⟩

/-- The key of the first entry with the least `created_at`. -/
def oldest (order : IterOrder) (map : PendingMap) : Option Str :=
  ((order.iter map).argmin fun e => e.2.createdAt).map Sigma.fst

/-- Drop the oldest entries until there is room for one more.  Every round removes an entry, so
as many rounds as there are entries are enough (`evict_size`). -/
def evict (order : IterOrder) : Nat → PendingMap → PendingMap
  | 0, map => map
  | rounds + 1, map =>
    if maxPending ≤ map.entries.length then
      match oldest order map with
      | some key => evict order rounds (map.erase key)
      | none => map
    else map

/-- The key equal to `state`, compared byte by byte. -/
def findKey (order : IterOrder) (map : PendingMap) (state : Str) : Option Str :=
  ((order.iter map).map Sigma.fst).find? fun key => utf8 key == utf8 state

theorem lookup_retain {map : PendingMap} {keep : PendingLogin → Bool} {s : Str}
    {attempt : PendingLogin} (h : (map.retain keep).lookup s = some attempt) :
    map.lookup s = some attempt := by
  have hmem : (⟨s, attempt⟩ : Sigma fun _ : Str => PendingLogin) ∈ (map.retain keep).entries :=
    AList.mem_lookup_iff.mp h
  exact AList.mem_lookup_iff.mpr (List.mem_of_mem_filter hmem)

theorem lookup_erase {map : PendingMap} {key s : Str} {attempt : PendingLogin}
    (h : (map.erase key).lookup s = some attempt) : s ≠ key ∧ map.lookup s = some attempt := by
  by_cases hs : s = key
  · subst hs
    rw [AList.lookup_erase] at h
    cases h
  · exact ⟨hs, by rwa [AList.lookup_erase_ne hs] at h⟩

/-- Evicting only removes. -/
theorem lookup_evict (order : IterOrder) (rounds : Nat) {map : PendingMap} {s : Str}
    {attempt : PendingLogin} (h : (evict order rounds map).lookup s = some attempt) :
    map.lookup s = some attempt := by
  induction rounds generalizing map with
  | zero => exact h
  | succ rounds ih =>
    unfold evict at h
    split at h
    · split at h
      · exact (lookup_erase (ih h)).2
      · exact h
    · exact h

/-- There is an oldest entry as long as there is any, and it is one of the map's keys. -/
theorem oldest_mem (order : IterOrder) {map : PendingMap} (h : map.entries ≠ []) :
    ∃ key, oldest order map = some key ∧ key ∈ map := by
  cases hmin : (order.iter map).argmin fun e => e.2.createdAt with
  | none =>
    rw [List.argmin_eq_none] at hmin
    have := order.perm map
    rw [hmin] at this
    exact absurd this.symm.eq_nil h
  | some e =>
    refine ⟨e.1, by rw [oldest, hmin, Option.map_some], ?_⟩
    have hmem := (order.perm map).mem_iff.mp (List.argmin_mem hmin)
    exact AList.mem_keys.mpr (List.mem_map.mpr ⟨e, hmem, rfl⟩)

theorem length_erase {map : PendingMap} {key : Str} (h : key ∈ map) :
    (map.erase key).entries.length + 1 = map.entries.length := by
  obtain ⟨e, he, rfl⟩ := List.mem_map.mp (AList.mem_keys.mp h)
  exact List.length_eraseP_add_one he (by simp)

/-- **The loop makes room**: with a round for every entry, fewer than `maxPending` are left. -/
theorem evict_size (order : IterOrder) (rounds : Nat) (map : PendingMap)
    (h : map.entries.length ≤ rounds) : (evict order rounds map).entries.length < maxPending := by
  induction rounds generalizing map with
  | zero =>
    have : 0 < maxPending := by decide
    simp only [evict]
    omega
  | succ rounds ih =>
    unfold evict
    split
    · rename_i hfull
      have hne : map.entries ≠ [] := by
        rintro hnil
        rw [hnil] at hfull
        exact absurd hfull (by decide)
      obtain ⟨key, hkey, hmem⟩ := oldest_mem order hne
      rw [hkey]
      have := length_erase hmem
      exact ih (map.erase key) (by omega)
    · omega

/-- **A token finds its own entry, and nothing else**: comparing bytes is comparing strings, and
keys are distinct, so the order of the walk does not matter. -/
theorem findKey_eq (order : IterOrder) (map : PendingMap) (state : Str) :
    findKey order map state = if state ∈ map then some state else none := by
  have hkey : ∀ key, (utf8 key == utf8 state) = (key == state) := by
    intro key
    rw [Bool.eq_iff_iff, beq_iff_eq, beq_iff_eq]
    exact ⟨fun h => utf8_injective h, fun h => by rw [h]⟩
  have hmem : state ∈ (order.iter map).map Sigma.fst ↔ state ∈ map :=
    ((order.perm map).map Sigma.fst).mem_iff.trans AList.mem_keys.symm
  simp only [findKey, hkey]
  split
  · rename_i h
    cases hfind : ((order.iter map).map Sigma.fst).find? (· == state) with
    | none => exact absurd (List.find?_eq_none.mp hfind state (hmem.mpr h)) (by simp)
    | some key =>
      have hfound := List.find?_some hfind
      rw [beq_iff_eq.mp hfound]
  · rename_i h
    rw [List.find?_eq_none]
    intro key hk heq
    rw [beq_iff_eq.mp heq] at hk
    exact h (hmem.mp hk)

end PendingMap

/-! ## 2. The session -/

/-- A session as the handlers see it: who is signed in, and the value stored for the sign-ins in
progress.  That value may be one that does not deserialize. -/
structure Session (U : Type) where
  user : Option U := none
  pending : Option (Except Str PendingMap) := none

section Session

variable {U : Type}

/-- `session.get(PENDING_KEY)`. -/
def Session.getPending (session : Session U) : Except Str (Option PendingMap) :=
  match session.pending with
  | none => .ok none
  | some (.ok map) => .ok (some map)
  | some (.error err) => .error err

/-- The attempt the session holds under a state token. -/
def Session.attempt (session : Session U) (s : Str) : Option PendingLogin :=
  match session.pending with
  | some (.ok map) => map.lookup s
  | _ => none

/-- `remember`: store the attempt under its state token.  Attempts that have expired are dropped,
and of those left the oldest ones until there is room. -/
def remember (order : IterOrder) (now : Nat) (session : Session U) (pending : PendingLogin) :
    Except Str (Session U) := do
  let map := (← session.getPending).getD ∅
  let map := map.retain (·.fresh now)
  let map := PendingMap.evict order map.entries.length map
  return { session with pending := some (.ok (map.insert pending.state pending)) }

/-- `take`: remove and return the attempt whose state token is `state`, if it is still fresh. -/
def take (order : IterOrder) (now : Nat) (session : Session U) (state : Str) :
    Except Str (Option PendingLogin × Session U) := do
  let some map ← session.getPending | return (none, session)
  let key := PendingMap.findKey order map state
  let found := key.bind fun key => map.lookup key
  let map := key.elim map fun key => map.erase key
  -- an empty map leaves the session, whether or not this request emptied it
  let pending := if map.entries.isEmpty then none else some (.ok map)
  return (found.filter (·.fresh now), { session with pending })

/-- The sign-ins in progress survive the deserializer. -/
theorem getPending_ok {session : Session U} {stored : Option PendingMap}
    (h : session.getPending = .ok stored) (s : Str) :
    session.attempt s = stored.bind fun map => map.lookup s := by
  unfold Session.getPending at h
  unfold Session.attempt
  split at h <;> cases h <;> simp_all

/-- **What `remember` leaves in the session**: the new attempt under its own token, attempts that
were there before under others, and the same user. -/
theorem remember_spec {order : IterOrder} {now : Nat} {session session' : Session U}
    {pending : PendingLogin} (h : remember order now session pending = .ok session') :
    session'.user = session.user ∧ session'.attempt pending.state = some pending ∧
      ∀ s attempt, session'.attempt s = some attempt →
        (s = pending.state ∧ attempt = pending) ∨ session.attempt s = some attempt := by
  cases hget : session.getPending with
  | error err => simp [remember, hget, bind, Except.bind] at h
  | ok stored =>
    simp only [remember, hget, bind, Except.bind, pure, Except.pure, Except.ok.injEq] at h
    subst h
    refine ⟨rfl, by simp [Session.attempt, AList.lookup_insert], ?_⟩
    intro s attempt hs
    simp only [Session.attempt] at hs
    by_cases heq : s = pending.state
    · subst heq
      rw [AList.lookup_insert, Option.some.injEq] at hs
      exact .inl ⟨rfl, hs.symm⟩
    · rw [AList.lookup_insert_ne heq] at hs
      have hold := PendingMap.lookup_retain (PendingMap.lookup_evict order _ hs)
      rw [getPending_ok hget]
      cases stored with
      | none => simp at hold
      | some map => exact .inr hold

/-- **At most `maxPending` sign-ins are in progress** after one was remembered. -/
theorem remember_bounded {order : IterOrder} {now : Nat} {session session' : Session U}
    {pending : PendingLogin} (h : remember order now session pending = .ok session') :
    ∃ map : PendingMap, session'.pending = some (.ok map) ∧ map.entries.length ≤ maxPending := by
  cases hget : session.getPending with
  | error err => simp [remember, hget, bind, Except.bind] at h
  | ok stored =>
    simp only [remember, hget, bind, Except.bind, pure, Except.pure, Except.ok.injEq] at h
    subst h
    refine ⟨_, rfl, ?_⟩
    have hroom := PendingMap.evict_size order _
      (PendingMap.retain (stored.getD ∅) (·.fresh now)) (Nat.le_refl _)
    rw [AList.entries_insert, List.length_cons]
    have := (List.kerase_sublist pending.state (PendingMap.evict order
      (PendingMap.retain (stored.getD ∅) (·.fresh now)).entries.length
      (PendingMap.retain (stored.getD ∅) (·.fresh now))).entries).length_le
    omega

/-- Writing a map back, or removing the key when the map is empty, stores its attempts. -/
theorem attempt_writeBack (session : Session U) (map : PendingMap) (s : Str) :
    Session.attempt { session with
      pending := if map.entries.isEmpty then none else some (.ok map) } s = map.lookup s := by
  unfold Session.attempt
  split
  · rename_i hmap
    dsimp only at hmap
    split at hmap <;> cases hmap
    rfl
  · rename_i hmap
    cases hs : map.lookup s with
    | none => rfl
    | some attempt =>
      refine (hmap map ?_).elim
      have := AList.mem_lookup_iff.mp hs
      simp [List.ne_nil_of_mem this]

/-- **What `take` hands out and what it leaves**: the fresh attempt under the token, which is
gone afterwards whether it was fresh or not; every other attempt and the user stay. -/
theorem take_spec {order : IterOrder} {now : Nat} {session session' : Session U} {state : Str}
    {found : Option PendingLogin} (h : take order now session state = .ok (found, session')) :
    session'.user = session.user ∧
      found = (session.attempt state).filter (·.fresh now) ∧
      ∀ s, session'.attempt s = if s = state then none else session.attempt s := by
  cases hget : session.getPending with
  | error err => simp [take, hget, bind, Except.bind] at h
  | ok stored =>
    have hattempt := getPending_ok hget
    cases stored with
    | none =>
      simp only [take, hget, bind, Except.bind, pure, Except.pure, Except.ok.injEq,
        Prod.mk.injEq] at h
      obtain ⟨rfl, rfl⟩ := h
      simp [hattempt]
    | some map =>
      simp only [take, hget, bind, Except.bind, pure, Except.pure, Except.ok.injEq,
        Prod.mk.injEq, PendingMap.findKey_eq] at h
      obtain ⟨rfl, rfl⟩ := h
      refine ⟨rfl, ?_, ?_⟩
      · rw [hattempt, Option.bind_some]
        split
        · rfl
        · rename_i hmem
          rw [AList.lookup_eq_none.mpr hmem]
          rfl
      · intro s
        rw [attempt_writeBack, hattempt, Option.bind_some]
        by_cases hmem : state ∈ map
        · simp only [if_pos hmem, Option.elim_some]
          split
          · rename_i hs
            rw [hs, AList.lookup_erase]
          · rename_i hs
            rw [AList.lookup_erase_ne hs]
        · simp only [if_neg hmem, Option.elim_none]
          split
          · rename_i hs
            rw [hs, AList.lookup_eq_none.mpr hmem]
          · rfl

/-- A session whose stored value cannot be read holds no attempt. -/
theorem attempt_eq_none_of_take_error {order : IterOrder} {now : Nat} {session : Session U}
    {state err : Str} (h : take order now session state = .error err) (s : Str) :
    session.attempt s = none := by
  cases hget : session.getPending with
  | error e =>
    unfold Session.getPending at hget
    unfold Session.attempt
    split at hget <;> simp_all
  | ok stored => cases stored <;> simp [take, hget, bind, Except.bind, pure, Except.pure] at h

end Session

end Muxa.Auth
