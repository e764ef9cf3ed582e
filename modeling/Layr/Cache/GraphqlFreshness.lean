import Layr.Cache.GraphqlSystem
import Layr.Kv.KeyRecords

/-!
# When GraphQL answers from the cache are fresh

A read that starts after a mutation has returned sees a version at least as high as the
mutation's last increment, and a result cached under it belongs to a query that ran behind the same
increment. REST writes have committed by then. GraphQL mutations commit later, so a query may run
between the increment and the commit, and its result is then served under the new version for good.
Runs in which this does not happen (`isAllowed`) keep every answer fresh.
-/

namespace Layr.Cache.Graphql

open Go Kv

variable {client' : Client} {entry : Entry} {label : Label} {seen : List ℕ} {versions : List ℤ}
  {mutation : Mutation} {request : ReadRequest} {s s' : State} {i : ℕ}

/-- A GraphQL mutation behind its last increment and before its commit, with the version that
the increment gave. -/
def pendingOf : Client → Option (ℕ × ℤ)
  | .finishing mutation last true _ => some (mutation.id, last)
  | _ => none

def State.pending (s : State) : List (ℕ × ℤ) := s.clients.filterMap pendingOf

section

variable (digest : Digest) (format : FloatFormat) (config : CacheConfig)
  (reference : GraphQLTableRef)

/-- The steps that keep answers fresh: reads without a custom key, lookups without a collision
of the 64-bit hash over several references, queries that do not run while a mutation is pending
whose increment their version covers, increments below `maxSafeVersion`, and GraphQL commits
that succeed. -/
def isAllowed (s : State) (label : Label) : Bool :=
  match label.action, s.clients[label.client]? with
  | .startRead request, _ => request.keySuffix = ""
  | .lookUp, some (.versioned request _ versions) =>
    match s.cache.get (internalCacheKey digest format reference request versions) with
    | some entry =>
      (entry.versions.length = 1 && versions.length = 1) || decide (entry.versions = versions)
    | none => true
  | .runQuery, some (.missed _ _ versions) =>
    s.pending.all fun e => versions.all fun version => decide (version < e.2)
  | .bump, _ => s.version + 1 < maxSafeVersion
  | .commit succeeds, some (.finishing _ _ _ _) => succeeds
  | _, _ => true

variable {digest format config reference}

/-! ## The invariant -/

/-- The snapshot shows every mutation whose last increment one of the versions covers. -/
def Covers (invalidated : List (ℕ × ℤ)) (versions : List ℤ) (snapshot : List ℕ) : Prop :=
  ∀ e ∈ invalidated, (∃ version ∈ versions, e.2 ≤ version) → e.1 ∈ snapshot

/-- The mutations made their last increments before the versions were read. -/
def Precede (invalidated : List (ℕ × ℤ)) (mutations : List ℕ) (versions : List ℤ) : Prop :=
  ∀ mutation ∈ mutations, ∃ last, (mutation, last) ∈ invalidated ∧
    ∀ version ∈ versions, last ≤ version

/-- What holds of a client. -/
def ClientInv (s : State) : Client → Prop
  | .reading request seen versions =>
    request.keySuffix = "" ∧ Precede s.invalidated seen versions ∧
      ∀ version ∈ versions, version ≤ s.version
  | .versioned request seen versions =>
    request.keySuffix = "" ∧ Precede s.invalidated seen versions ∧ versions ≠ [] ∧
      ∀ version ∈ versions, version ≤ s.version
  | .missed request _ versions =>
    request.keySuffix = "" ∧ ∀ version ∈ versions, version ≤ s.version
  | .queried request _ versions snapshot =>
    request.keySuffix = "" ∧ Covers s.invalidated versions snapshot ∧
      ∀ version ∈ versions, version ≤ s.version
  | .invalidating mutation _ => mutation.api = .rest → mutation.id ∈ s.committed
  | .resetting _ _ => False
  | .finishing mutation last _ _ => (mutation.id, last) ∈ s.invalidated
  | _ => True

/-- What holds of a cached result. -/
def EntryInv (digest : Digest) (format : FloatFormat) (reference : GraphQLTableRef) (s : State)
    (key : String) (entry : Entry) : Prop :=
  (∃ request : ReadRequest, request.keySuffix = "" ∧
    key = internalCacheKey digest format reference request entry.versions) ∧
  Covers s.invalidated entry.versions entry.snapshot ∧
  ∀ version ∈ entry.versions, version ≤ s.version

/-- The invariant of allowed runs. -/
structure Inv (digest : Digest) (format : FloatFormat) (reference : GraphQLTableRef) (s : State) :
    Prop where
  invalidated : ∀ e ∈ s.invalidated, e.2 ≤ s.version
  returned : Precede s.invalidated s.returned []
  settled : ∀ e ∈ s.invalidated, e.1 ∈ s.committed ∨ e ∈ s.pending
  cache : ∀ key entry, s.cache.get key = some entry → EntryInv digest format reference s key entry
  clients : ∀ client ∈ s.clients, ClientInv s client
  fresh : Fresh s

/-- How the shared state grows: versions rise, and a mutation that makes its last increment gets
a version no read has seen. -/
structure Extends (s s' : State) : Prop where
  version : s.version ≤ s'.version
  committed : ∀ mutation ∈ s.committed, mutation ∈ s'.committed
  invalidated : ∀ e ∈ s.invalidated, e ∈ s'.invalidated
  newer : ∀ e ∈ s'.invalidated, e ∈ s.invalidated ∨ s.version < e.2

theorem Extends.refl_of (hversion : s'.version = s.version)
    (hcommitted : s'.committed = s.committed) (hinvalidated : s'.invalidated = s.invalidated) :
    Extends s s' := by
  refine ⟨hversion.ge, ?_, ?_, ?_⟩
  · rw [hcommitted]
    exact fun _ h => h
  · rw [hinvalidated]
    exact fun _ h => h
  · rw [hinvalidated]
    exact fun _ h => .inl h

theorem Covers.extends (hext : Extends s s') {snapshot : List ℕ}
    (hversions : ∀ version ∈ versions, version ≤ s.version)
    (h : Covers s.invalidated versions snapshot) : Covers s'.invalidated versions snapshot := by
  rintro e he ⟨version, hmem, hle⟩
  rcases hext.newer e he with hold | hnew
  · exact h e hold ⟨version, hmem, hle⟩
  · -- the versions were read before this increment
    have hread := hversions version hmem
    omega

theorem Precede.extends (hext : Extends s s') {mutations : List ℕ}
    (h : Precede s.invalidated mutations versions) : Precede s'.invalidated mutations versions := by
  intro mutation hmutation
  obtain ⟨last, hmem, hle⟩ := h mutation hmutation
  exact ⟨last, hext.invalidated _ hmem, hle⟩

theorem ClientInv.extends (hext : Extends s s') {client : Client} (h : ClientInv s client) :
    ClientInv s' client := by
  have hle : ∀ {versions : List ℤ}, (∀ version ∈ versions, version ≤ s.version) →
      ∀ version ∈ versions, version ≤ s'.version := by
    intro versions hversions version hmem
    exact (hversions version hmem).trans hext.version
  cases client with
  | reading => exact ⟨h.1, h.2.1.extends hext, hle h.2.2⟩
  | versioned => exact ⟨h.1, h.2.1.extends hext, h.2.2.1, hle h.2.2.2⟩
  | missed => exact ⟨h.1, hle h.2⟩
  | queried => exact ⟨h.1, h.2.1.extends hext h.2.2, hle h.2.2⟩
  | invalidating => exact fun hrest => hext.committed _ (h hrest)
  | resetting => exact h
  | finishing => exact hext.invalidated _ h
  | idle | begun | written => trivial

theorem EntryInv.extends (hext : Extends s s') {key : String}
    (h : EntryInv digest format reference s key entry) :
    EntryInv digest format reference s' key entry :=
  ⟨h.1, h.2.1.extends hext h.2.2, fun version hmem => (h.2.2 version hmem).trans hext.version⟩

/-! ## Steps keep the invariant -/

/-- A pending mutation stays pending while other clients move. -/
theorem mem_pending_set {clients : List Client} {client : Client} {e : ℕ × ℤ}
    (hclient : clients[i]? = some client) (he : e ∈ clients.filterMap pendingOf) :
    pendingOf client = some e ∨ e ∈ (clients.set i client').filterMap pendingOf := by
  rw [List.mem_filterMap] at he
  obtain ⟨other, hother, hpending⟩ := he
  obtain ⟨j, hj⟩ := List.mem_iff_getElem?.mp hother
  by_cases hij : i = j
  · subst hij
    obtain rfl : client = other := Option.some.inj (hclient.symm.trans hj)
    exact .inl hpending
  · refine .inr (List.mem_filterMap.mpr ⟨other, List.mem_iff_getElem?.mpr ⟨j, ?_⟩, hpending⟩)
    rw [List.getElem?_set_ne hij]
    exact hj

/-- The mutation of an increment is committed, or pending with this client. -/
def Settled (s : State) (client : Client) (e : ℕ × ℤ) : Prop :=
  e.1 ∈ s.committed ∨ pendingOf client = some e

/-- One client moves and the shared state grows. What is new in it satisfies the invariant. -/
structure Move (digest : Digest) (format : FloatFormat) (reference : GraphQLTableRef) (s : State)
    (i : ℕ) (old client' : Client) (s' : State) : Prop where
  extend : Extends s s'
  clients : s'.clients = s.clients.set i client'
  moved : ClientInv s' client'
  pending : ∀ e, pendingOf old = some e → Settled s' client' e
  invalidated : ∀ e ∈ s'.invalidated, e ∈ s.invalidated ∨ e.2 ≤ s'.version ∧ Settled s' client' e
  returned : ∀ mutation ∈ s'.returned,
    mutation ∈ s.returned ∨ ∃ last, (mutation, last) ∈ s'.invalidated
  cache : ∀ key entry, s'.cache.get key = some entry →
    s.cache.get key = some entry ∨ EntryInv digest format reference s' key entry
  answers : ∀ answer ∈ s'.answers,
    answer ∈ s.answers ∨ (answer.cached →
      ∀ mutation ∈ answer.seen, mutation ∈ answer.snapshot)

section

variable {old : Client} (hinv : Inv digest format reference s) (hclient : s.clients[i]? = some old)

include hinv hclient

theorem Inv.client : ClientInv s old :=
  hinv.clients old (List.mem_of_getElem? hclient)

theorem Inv.move (h : Move digest format reference s i old client' s') :
    Inv digest format reference s' := by
  have hlength : i < s.clients.length := (List.getElem?_eq_some_iff.mp hclient).1
  -- what a client has committed but not returned is pending with it
  have hsettled : ∀ e, Settled s' client' e → e.1 ∈ s'.committed ∨ e ∈ s'.pending := by
    rintro e (hcommitted | hpending)
    · exact .inl hcommitted
    · refine .inr (List.mem_filterMap.mpr ⟨client', ?_, hpending⟩)
      rw [h.clients]
      exact List.mem_set hlength client'
  refine ⟨?_, ?_, ?_, ?_, ?_, ?_⟩
  · intro e he
    rcases h.invalidated e he with hold | ⟨hle, -⟩
    · exact (hinv.invalidated e hold).trans h.extend.version
    · exact hle
  · intro mutation hmem
    rcases h.returned mutation hmem with hold | ⟨last, hlast⟩
    · exact hinv.returned.extends h.extend mutation hold
    · exact ⟨last, hlast, by simp⟩
  · intro e he
    rcases h.invalidated e he with hold | ⟨-, hnew⟩
    · rcases hinv.settled e hold with hcommitted | hmem
      · exact .inl (h.extend.committed _ hcommitted)
      · rcases mem_pending_set hclient hmem with hself | hkept
        · exact hsettled e (h.pending e hself)
        · refine .inr ?_
          rw [State.pending, h.clients]
          exact hkept
    · exact hsettled e hnew
  · intro key entry hget
    rcases h.cache key entry hget with hold | hnew
    · exact (hinv.cache key entry hold).extends h.extend
    · exact hnew
  · intro other hmem
    rw [h.clients] at hmem
    rcases List.mem_or_eq_of_mem_set hmem with hold | rfl
    · exact (hinv.clients other hold).extends h.extend
    · exact h.moved
  · intro answer hanswer
    rcases h.answers answer hanswer with hold | hnew
    · exact hinv.fresh answer hold
    · exact hnew

/-- A step that moves a client and leaves the versions and mutations as they are. -/
theorem Inv.quiet (hpending : pendingOf old = none)
    (hsame : s'.version = s.version ∧ s'.committed = s.committed ∧ s'.invalidated = s.invalidated ∧
      s'.returned = s.returned ∧ s'.clients = s.clients.set i client')
    (hcache : ∀ key entry, s'.cache.get key = some entry →
      s.cache.get key = some entry ∨ EntryInv digest format reference s key entry)
    (hanswers : ∀ answer ∈ s'.answers, answer ∈ s.answers ∨
      (answer.cached → ∀ mutation ∈ answer.seen, mutation ∈ answer.snapshot))
    (hnew : ClientInv s client') : Inv digest format reference s' := by
  obtain ⟨hversion, hcommitted, hinvalidated, hreturned, hclients⟩ := hsame
  have hext := Extends.refl_of hversion hcommitted hinvalidated
  refine hinv.move hclient
    ⟨hext, hclients, hnew.extends hext, by simp [hpending], ?_, ?_, ?_, hanswers⟩
  · rw [hinvalidated]
    exact fun _ h => .inl h
  · rw [hreturned]
    exact fun _ h => .inl h
  · intro key entry hget
    exact (hcache key entry hget).imp_right (EntryInv.extends hext)

/-- A step that only moves a client. -/
theorem Inv.setClient (hpending : pendingOf old = none) (hnew : ClientInv s client') :
    Inv digest format reference (s.setClient i client') :=
  hinv.quiet hclient hpending ⟨rfl, rfl, rfl, rfl, rfl⟩ (fun _ _ h => .inl h)
    (fun _ h => .inl h) hnew

end

/-- The version that is read now is behind every increment so far. -/
theorem Inv.precede_snoc (hinv : Inv digest format reference s)
    (h : Precede s.invalidated seen versions) :
    Precede s.invalidated seen (versions ++ [s.version]) := by
  intro mutation hmutation
  obtain ⟨last, hmem, hle⟩ := h mutation hmutation
  refine ⟨last, hmem, ?_⟩
  rw [List.forall_mem_append, List.forall_mem_singleton]
  exact ⟨hle, hinv.invalidated _ hmem⟩

/-- A query that no pending mutation disturbs shows what its versions cover. -/
theorem Inv.covers_committed (hinv : Inv digest format reference s)
    (hquiet : ∀ e ∈ s.pending, ∀ version ∈ versions, version < e.2) :
    Covers s.invalidated versions s.committed := by
  rintro e he ⟨version, hversion, hle⟩
  rcases hinv.settled e he with hcommitted | hpending
  · exact hcommitted
  · have hlt := hquiet e hpending version hversion
    omega

/-- A hit finds a result whose query ran under the versions that the read has seen. -/
theorem entry_versions_eq (hsuffix : request.keySuffix = "")
    (hentry : EntryInv digest format reference s
      (internalCacheKey digest format reference request versions) entry)
    (hcollision : entry.versions.length = 1 ∧ versions.length = 1 ∨ entry.versions = versions) :
    entry.versions = versions := by
  rcases hcollision with ⟨hlength, hlength'⟩ | heq
  · obtain ⟨⟨request', hsuffix', hkey⟩, -, -⟩ := hentry
    obtain ⟨version, hversion⟩ := List.length_eq_one_iff.mp hlength
    obtain ⟨version', hversion'⟩ := List.length_eq_one_iff.mp hlength'
    unfold internalCacheKey buildGraphQLQueryKeyWithVersion at hkey
    rw [if_neg (by simp [hsuffix]), if_neg (by simp [hsuffix']), hversion, hversion'] at hkey
    have hsame : version' = version := (GraphQLQueryTuple.eq_of_key_eq hkey).2.1
    rw [hversion, hversion', hsame]
  · exact heq

theorem Inv.store {snapshot : List ℕ} (hinv : Inv digest format reference s)
    (hclient : s.clients[i]? = some (.queried request seen versions snapshot)) :
    Inv digest format reference
      (storeResult digest format config reference s i request seen versions snapshot) := by
  obtain ⟨hsuffix, hcovers, hversions⟩ := hinv.client hclient
  have hanswers : ∀ answer ∈ ⟨seen, snapshot, false⟩ :: s.answers, answer ∈ s.answers ∨
      (answer.cached → ∀ mutation ∈ answer.seen, mutation ∈ answer.snapshot) := by
    rw [List.forall_mem_cons]
    exact ⟨.inr fun hcached => (by cases hcached), fun _ => .inl⟩
  unfold storeResult
  simp only
  split
  · refine hinv.quiet hclient rfl ⟨rfl, rfl, rfl, rfl, rfl⟩ ?_ hanswers trivial
    intro key entry hget
    rw [GoMap.get_set] at hget
    split at hget
    · rename_i hkey
      cases hget
      exact .inr ⟨⟨request, hsuffix, hkey⟩, hcovers, hversions⟩
    · exact .inl hget
  · exact hinv.quiet hclient rfl ⟨rfl, rfl, rfl, rfl, rfl⟩ (fun _ _ => .inl) hanswers trivial

theorem Inv.bump {remaining : ℕ} (henabled : config.enabled)
    (hinvalidate : config.invalidateOnMutation) (hinv : Inv digest format reference s)
    (hversion : s.version + 1 < maxSafeVersion)
    (hclient : s.clients[i]? = some (.invalidating mutation (remaining + 1))) :
    Inv digest format reference (invalidate config s i mutation remaining) := by
  have hrest := hinv.client hclient
  unfold invalidate
  rw [if_neg (by simp [henabled, hinvalidate])]
  simp only
  rw [if_neg (by omega)]
  cases remaining with
  | succ remaining =>
    have hext : Extends s
      (advance { s with version := s.version + 1 } i mutation (remaining + 1)) :=
      ⟨by simp [advance, State.setClient], fun _ h => h, fun _ h => h, fun _ h => .inl h⟩
    exact hinv.move hclient ⟨hext, rfl, hrest, fun _ h => (by cases h), fun _ => .inl,
      fun _ => .inl, fun _ _ => .inl, fun _ => .inl⟩
  | zero =>
    -- the last increment: a GraphQL mutation becomes pending
    have hsettled : Settled s (.finishing mutation (s.version + 1) (mutation.api != .rest) true)
        (mutation.id, s.version + 1) := by
      by_cases hapi : mutation.api = .rest
      · exact .inl (hrest hapi)
      · refine .inr ?_
        rw [show (mutation.api != .rest) = true by simp [hapi]]
        rfl
    refine hinv.move hclient ⟨⟨?_, fun _ h => h, fun _ => List.mem_cons_of_mem _, ?_⟩, rfl,
      List.mem_cons_self .., fun _ h => (by cases h), ?_, fun _ => .inl, fun _ _ => .inl,
      fun _ => .inl⟩
    · simp [advance]
    · exact List.forall_mem_cons.mpr ⟨.inr (by simp), fun _ => .inl⟩
    · exact List.forall_mem_cons.mpr ⟨.inr ⟨le_rfl, hsettled⟩, fun _ => .inl⟩

/-- Allowed steps keep the invariant, with invalidation switched on. -/
theorem inv_step (henabled : config.enabled)
    (hinvalidate : config.invalidateOnMutation) (hinv : Inv digest format reference s)
    (hallowed : isAllowed digest format reference s label)
    (hstep : step digest format config reference s label = some s') :
    Inv digest format reference s' := by
  rcases label with ⟨i, action⟩
  unfold step at hstep
  simp only at hstep
  split at hstep
  case h_3 request seen versions hclient =>
    obtain ⟨hsuffix, hseen, hne, hversions⟩ := hinv.client hclient
    split at hstep <;> cases hstep
    next entry hget =>
      have hentry := hinv.cache _ _ hget
      have heq := entry_versions_eq hsuffix hentry
        (by simpa [isAllowed, hclient, hget] using hallowed)
      refine hinv.quiet hclient rfl ⟨rfl, rfl, rfl, rfl, rfl⟩ (fun _ _ => .inl) ?_ trivial
      refine List.forall_mem_cons.mpr ⟨.inr fun _ mutation hmutation => ?_, fun _ => .inl⟩
      -- the mutation's last increment precedes the versions of the read, so the result shows it
      obtain ⟨last, hmem, hle⟩ := hseen mutation hmutation
      obtain ⟨version, hversion⟩ := List.exists_mem_of_ne_nil versions hne
      exact hentry.2.1 _ hmem ⟨version, heq ▸ hversion, hle version hversion⟩
    · exact hinv.setClient hclient rfl ⟨hsuffix, hversions⟩
  all_goals cases hstep
  -- a read starts
  next request hclient =>
    have hsuffix : request.keySuffix = "" := by simpa [isAllowed] using hallowed
    refine hinv.setClient hclient rfl ?_
    split
    · exact ⟨hsuffix, hinv.returned, by simp⟩
    · exact ⟨hsuffix, by simp⟩
  -- it reads the version of a table
  next request seen versions hclient =>
    obtain ⟨hsuffix, hseen, hversions⟩ := hinv.client hclient
    have hversions' : ∀ version ∈ versions ++ [s.version], version ≤ s.version := by
      rw [List.forall_mem_append, List.forall_mem_singleton]
      exact ⟨hversions, le_rfl⟩
    refine hinv.setClient hclient rfl ?_
    split
    · exact ⟨hsuffix, hinv.precede_snoc hseen, by simp, hversions'⟩
    · exact ⟨hsuffix, hinv.precede_snoc hseen, hversions'⟩
  -- the query runs, and its result is stored
  next hclient =>
    simp only [isAllowed, hclient, List.all_eq_true, decide_eq_true_eq] at hallowed
    obtain ⟨hsuffix, hversions⟩ := hinv.client hclient
    exact hinv.setClient hclient rfl ⟨hsuffix, hinv.covers_committed hallowed, hversions⟩
  next hclient => exact hinv.store hclient
  -- a mutation begins and writes
  next hclient =>
    exact hinv.quiet hclient rfl ⟨rfl, rfl, rfl, rfl, rfl⟩ (fun _ _ => .inl) (fun _ => .inl)
      trivial
  next hclient =>
    refine hinv.setClient hclient rfl ?_
    split
    · split
      · rename_i moreFields hapi
        intro hrest
        rw [hapi] at hrest
        cases hrest
      · trivial
    · trivial
  -- it increments the version, which is not reset
  next hclient =>
    exact hinv.bump henabled hinvalidate (by simpa [isAllowed, hclient] using hallowed) hclient
  next hclient => exact absurd (hinv.client hclient) id
  -- it commits
  next hclient =>
    split
    · exact hinv.move hclient ⟨⟨le_rfl, fun _ => List.mem_cons_of_mem _, fun _ h => h,
        fun _ => .inl⟩, rfl, fun _ => List.mem_cons_self .., fun _ h => (by cases h),
        fun _ => .inl, fun _ => .inl, fun _ _ => .inl, fun _ => .inl⟩
    · exact hinv.setClient hclient rfl trivial
  next unanswered hclient =>
    obtain rfl : _ := by simpa [isAllowed, hclient] using hallowed
    refine hinv.move hclient ⟨⟨le_rfl, fun _ => List.mem_cons_of_mem _, fun _ h => h,
      fun _ => .inl⟩, rfl, ?_, ?_, fun _ => .inl, fun _ => .inl, fun _ _ => .inl,
      fun _ => .inl⟩
    · cases unanswered with
      | true => exact hinv.client hclient
      | false => trivial
    · rintro e hpending
      cases hpending
      exact .inl (List.mem_cons_self ..)
  -- it responds
  next mutation last uncommitted hclient =>
    have hfinishing := hinv.client hclient
    refine hinv.move hclient ⟨Extends.refl_of rfl rfl rfl, rfl, ?_, ?_, fun _ => .inl, ?_,
      fun _ _ => .inl, fun _ => .inl⟩
    · split
      · exact hfinishing
      · trivial
    · intro e hpending
      cases uncommitted with
      | true => exact .inr hpending
      | false => cases hpending
    · exact List.forall_mem_cons.mpr ⟨.inr ⟨last, hfinishing⟩, fun _ => .inl⟩

theorem inv_initial (clients : ℕ) : Inv digest format reference (initial clients) where
  invalidated _ h := by cases h
  returned _ h := by cases h
  settled _ h := by cases h
  cache _ _ h := by cases h
  clients client hmem := by
    rw [List.eq_of_mem_replicate hmem]
    trivial
  fresh _ h := by cases h

/-! ## With the cache switched off -/

/-- A client on its way to a lookup. -/
def isLookingUp : Client → Bool
  | .reading _ _ _ => true
  | .versioned _ _ _ => true
  | _ => false

/-- Nobody looks the cache up. -/
structure Unused (s : State) : Prop where
  clients : ∀ client ∈ s.clients, isLookingUp client = false
  answers : ∀ answer ∈ s.answers, answer.cached = false

theorem Unused.set (h : Unused s) (hclients : s'.clients = s.clients.set i client')
    (hnew : isLookingUp client' = false)
    (hanswers : s'.answers = s.answers ∨
      ∃ seen snapshot, s'.answers = ⟨seen, snapshot, false⟩ :: s.answers) : Unused s' := by
  constructor
  · intro client hmem
    rw [hclients] at hmem
    rcases List.mem_or_eq_of_mem_set hmem with hold | rfl
    · exact h.clients client hold
    · exact hnew
  · rcases hanswers with hsame | ⟨seen, snapshot, hcons⟩
    · exact hsame ▸ h.answers
    · exact hcons ▸ List.forall_mem_cons.mpr ⟨rfl, h.answers⟩

theorem Unused.advance (h : Unused s) (version : ℤ) (i : ℕ) (mutation : Mutation) (remaining : ℕ) :
    Unused (advance { s with version } i mutation remaining) := by
  cases remaining with
  | zero | succ remaining => exact h.set rfl rfl (.inl rfl)

theorem unused_step (hdisabled : config.enabled = false) (h : Unused s)
    (hstep : step digest format config reference s label = some s') : Unused s' := by
  have hnot : ∀ {client : Client} {i : ℕ}, s.clients[i]? = some client →
      isLookingUp client = false := fun hclient => h.clients _ (List.mem_of_getElem? hclient)
  rcases label with ⟨i, action⟩
  unfold step at hstep
  simp only at hstep
  split at hstep
  case h_2 hclient => cases hnot hclient
  case h_3 hclient => cases hnot hclient
  all_goals cases hstep
  -- a read starts
  · rw [if_neg (by simp [isCached, hdisabled])]
    exact h.set rfl rfl (.inl rfl)
  -- its query runs, and it is answered
  · exact h.set rfl rfl (.inl rfl)
  · unfold storeResult
    simp only
    split <;> exact h.set rfl rfl (.inr ⟨_, _, rfl⟩)
  -- a mutation begins and writes
  · exact h.set rfl rfl (.inl rfl)
  · refine h.set rfl ?_ (.inl rfl)
    split
    · split <;> rfl
    · rfl
  -- it does not increment the version
  · unfold invalidate
    rw [if_pos (by simp [hdisabled])]
    exact h.advance s.version _ _ _
  · exact h.advance 1 _ _ _
  -- it commits and responds
  · split <;> exact h.set rfl rfl (.inl rfl)
  · split <;> exact h.set rfl (by split <;> rfl) (.inl rfl)
  · exact h.set rfl (by split <;> rfl) (.inl rfl)

theorem unused_initial (clients : ℕ) : Unused (initial clients) where
  clients client hmem := by
    rw [List.eq_of_mem_replicate hmem]
    rfl
  answers _ h := by cases h

/-! ## Runs -/

/-- In every run of allowed steps, over any number of clients, no read is answered from the cache
without a mutation that had returned before it started, provided that a cache in use is
invalidated on mutations. -/
theorem answers_fresh (hconfig : config.enabled → config.invalidateOnMutation)
    {clients : ℕ} {s : State}
    (hrun : Runs.Run (step digest format config reference)
      (fun s label => isAllowed digest format reference s label) (initial clients) s) :
    Fresh s := by
  by_cases henabled : config.enabled
  · have hinv : Inv digest format reference s :=
      hrun.invariant (inv_initial clients) fun _ _ _ hinv hallowed hstep =>
        inv_step henabled (hconfig henabled) hinv hallowed hstep
    exact hinv.fresh
  · have hunused : Unused s :=
      hrun.invariant (unused_initial clients) fun _ _ _ hunused _ hstep =>
        unused_step (by simpa using henabled) hunused hstep
    intro answer hanswer hcached
    rw [hunused.answers answer hanswer] at hcached
    cases hcached

end

/-! ## Two clients -/

/-- Caching with invalidation, without a limit. -/
def cachingConfig : CacheConfig := ⟨true, true, 0⟩

def posts : GraphQLTableRef := ⟨"public", "posts"⟩

/-- A query on the posts, cached for a minute. -/
def postsRead : ReadRequest where
  authContext := ⟨"member", "alice", ""⟩
  query := "\x7bposts\x7d"
  vars := []
  keySuffix := ""
  cacheTTL := 60
  moreReferences := 0

/-- A digest that is short for the text hashed under version 1. -/
def postsDigest : Digest :=
  .listed [(GraphQLQueryTuple.toJson .bits ⟨postsRead.query, [], 1⟩).text]

/-- A mutation, a read behind it that stores its result, and a read that finds it. -/
def orderedRun : List Label :=
  [⟨0, .begin (.graphql 0)⟩, ⟨0, .write true⟩, ⟨0, .bump⟩, ⟨0, .commit true⟩, ⟨0, .respond⟩,
    ⟨1, .startRead postsRead⟩, ⟨1, .readVersion⟩, ⟨1, .lookUp⟩, ⟨1, .runQuery⟩, ⟨1, .store⟩,
    ⟨1, .startRead postsRead⟩, ⟨1, .readVersion⟩, ⟨1, .lookUp⟩]

theorem orderedRun_fresh : ∃ s, Runs.Run (step postsDigest .bits cachingConfig posts)
      (fun s label => isAllowed postsDigest .bits posts s label) (initial 2) s ∧
      s.answers = [⟨[0], [0], true⟩, ⟨[0], [0], false⟩] ∧ Fresh s :=
  Runs.exists_run orderedRun State.answers (by decide +kernel) (by decide +kernel)
    fun _ hrun hanswers => ⟨hanswers, answers_fresh (fun _ => rfl) hrun⟩

/-- The other client reads between the increment and the commit of the mutation, and stores what
it read after the mutation has returned. -/
def staleRun : List Label :=
  [⟨0, .begin (.graphql 0)⟩, ⟨0, .write true⟩, ⟨0, .bump⟩,
    ⟨1, .startRead postsRead⟩, ⟨1, .readVersion⟩, ⟨1, .lookUp⟩, ⟨1, .runQuery⟩,
    ⟨0, .commit true⟩, ⟨0, .respond⟩, ⟨1, .store⟩,
    ⟨1, .startRead postsRead⟩, ⟨1, .readVersion⟩, ⟨1, .lookUp⟩]

/-- The last read of the run starts after mutation 0 has returned, and is answered from the cache
with a result that shows no mutation at all. -/
theorem staleRun_not_fresh : ∃ s,
    Runs.exec (step postsDigest .bits cachingConfig posts) (initial 2) staleRun = some s ∧
      s.answers = [⟨[0], [], true⟩, ⟨[], [], false⟩] ∧ ¬Fresh s := by
  refine Runs.exists_exec State.answers (by decide +kernel) fun s hanswers => ⟨hanswers, ?_⟩
  intro hfresh
  have hmem := hfresh ⟨[0], [], true⟩ (by simp [hanswers]) rfl 0 (by simp)
  cases hmem

end Layr.Cache.Graphql
