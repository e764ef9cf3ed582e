import Layr.Kv.Database
import Layr.Kv.KeyRecords

/-!
# Isolation of callers in the key-value store

An internal key is the owner's text in front of the user-visible key, and for query results the
word `cache:` in front of both. The store keeps two callers apart when no text can be read as keys
of both. That is decided by the owner texts alone: neither may continue the other, with or without
the word in front.
-/

namespace Layr.Kv

open Go

variable {runes : List Char} {owner other : String}

/-! ## Cache keys -/

/-- The kinds of query results hold one colon, at their end. -/
theorem prefix_of_colon {kind r k : List Char} (hkind : ':' ∉ kind)
    (h : kind ++ [':'] <+: (r ++ [':']) ++ k) : kind ++ [':'] <+: r ++ [':'] := by
  rcases List.prefix_or_prefix_of_prefix h (List.prefix_append _ _) with hpre | ⟨t, ht⟩
  · exact hpre
  · -- the shorter text ends in the only colon of the longer one
    have hsplit : r ++ ':' :: t = kind ++ ':' :: [] := by simpa using ht
    have hr : ':' ∉ r := by
      intro hmem
      have hcount := congrArg (List.count ':') hsplit
      have hpos := List.count_pos_iff.mpr hmem
      simp only [List.count_append, List.count_cons_self, List.count_nil,
        List.count_eq_zero.mpr hkind] at hcount
      omega
    have heq : r = kind := (Codes.append_cons_inj hr hkind hsplit).1
    exact heq ▸ List.prefix_rfl

/-- A text that ends in a colon tells by itself whether what it starts is a query result's key. -/
theorem isCacheKey_append {r : String} (hr : r.toList = runes ++ [':']) (k : String) :
    isCacheKey (r ++ k) = isCacheKey r := by
  have hkinds : ∀ kind : List Char, ':' ∉ kind →
      (kind ++ [':'] <+: (r ++ k).toList ↔ kind ++ [':'] <+: r.toList) := by
    intro kind hkind
    rw [String.toList_append, hr]
    exact ⟨prefix_of_colon hkind, fun h => h.trans (List.prefix_append _ _)⟩
  have hrest := hkinds ['r', 'e', 's', 't'] (by decide)
  have hgraphql := hkinds ['g', 'r', 'a', 'p', 'h', 'q', 'l'] (by decide)
  rw [Bool.eq_iff_iff]
  simp only [isCacheKey, Strings.hasPrefix, Bool.or_eq_true, List.isPrefixOf_iff_prefix]
  exact or_congr hrest hgraphql

theorem ownerText_colon (authContext : AuthContext) :
    ∃ runes, (ownerText authContext).toList = runes ++ [':'] := by
  unfold ownerText
  split
  · exact ⟨_, String.toList_append⟩
  · exact ⟨_, String.toList_append⟩

/-- What is left of a text that ends in a colon ends in it too. -/
theorem colon_of_append {s t : String} (h : (s ++ t).toList = runes ++ [':']) (hne : t ≠ "") :
    ∃ rest, t.toList = rest ++ [':'] := by
  have hlast : t.toList ≠ [] := by
    intro hnil
    exact hne (String.toList_inj.mp hnil)
  refine ⟨t.toList.dropLast, ?_⟩
  have hcolon : t.toList.getLast hlast = ':' := by
    rw [String.toList_append] at h
    have := congrArg List.getLast? h
    rw [List.getLast?_append_of_ne_nil _ hlast, List.getLast?_eq_some_getLast hlast] at this
    simpa using this
  rw [← hcolon]
  exact (List.dropLast_append_getLast hlast).symm

/-! ## Separation -/

/-- A query result's key of the first owner reads as another key of the second. -/
def crosses (owner other : String) : Bool :=
  (Strings.hasPrefix other ("cache:" ++ owner) &&
    isCacheKey (Strings.trimPrefix other ("cache:" ++ owner))) ||
  (Strings.hasPrefix ("cache:" ++ owner) other &&
    decide (Strings.trimPrefix ("cache:" ++ owner) other ≠ "") &&
    !isCacheKey (Strings.trimPrefix ("cache:" ++ owner) other))

/-- Owners whose keys never meet. -/
def separated (owner other : String) : Bool :=
  !Strings.hasPrefix other owner && !Strings.hasPrefix owner other && !crosses owner other &&
    !crosses other owner

/-- The internal key of an owner. -/
def ownedKey (owner userVisibleKey : String) : String :=
  (if isCacheKey userVisibleKey then "cache:" else "") ++ owner ++ userVisibleKey

theorem crosses_iff :
    crosses owner other ↔
      (∃ r, other = "cache:" ++ owner ++ r ∧ isCacheKey r) ∨
        ∃ r, "cache:" ++ owner = other ++ r ∧ r ≠ "" ∧ isCacheKey r = false := by
  simp only [crosses, Bool.or_eq_true, Bool.and_eq_true, decide_eq_true_eq, Bool.not_eq_true']
  constructor
  · rintro (⟨hpre, hcache⟩ | ⟨⟨hpre, hne⟩, hcache⟩)
    · exact .inl ⟨_, (Strings.append_trimPrefix hpre).symm, hcache⟩
    · exact .inr ⟨_, (Strings.append_trimPrefix hpre).symm, hne, hcache⟩
  · rintro (⟨r, rfl, hcache⟩ | ⟨r, heq, hne, hcache⟩)
    · rw [Strings.trimPrefix_append]
      exact .inl ⟨Strings.hasPrefix_append _ _, hcache⟩
    · rw [heq, Strings.trimPrefix_append]
      exact .inr ⟨⟨Strings.hasPrefix_append _ _, hne⟩, hcache⟩

/-- Both keys are results' keys or neither is. -/
theorem hasPrefix_of_ownedKey_eq {k l : String} (hkind : isCacheKey k = isCacheKey l)
    (h : ownedKey owner k = ownedKey other l) :
    Strings.hasPrefix other owner ∨ Strings.hasPrefix owner other := by
  unfold ownedKey at h
  rw [hkind, String.append_assoc, String.append_assoc, String.append_right_inj] at h
  rcases Strings.append_eq_append h with ⟨r, rfl, -⟩ | ⟨r, rfl, -⟩
  · exact .inl (Strings.hasPrefix_append _ _)
  · exact .inr (Strings.hasPrefix_append _ _)

/-- Only the first key is a result's key. -/
theorem crosses_of_ownedKey_eq {k l : String} {runes' : List Char}
    (howner : owner.toList = runes ++ [':']) (hother : other.toList = runes' ++ [':'])
    (hk : isCacheKey k) (hl : isCacheKey l = false) (h : ownedKey owner k = ownedKey other l) :
    crosses owner other := by
  rw [crosses_iff]
  unfold ownedKey at h
  rw [hk, hl, if_pos rfl, if_neg (by decide), String.empty_append] at h
  rcases Strings.append_eq_append h with ⟨r, hr, hkr⟩ | ⟨r, hr, hlr⟩
  · refine .inl ⟨r, hr, ?_⟩
    by_cases hne : r = ""
    · rw [hne, String.empty_append] at hkr
      rw [hkr, hl] at hk
      cases hk
    · obtain ⟨rest, hrest⟩ := colon_of_append (hr ▸ hother) hne
      rwa [hkr, isCacheKey_append hrest] at hk
  · by_cases hne : r = ""
    · rw [hne, String.empty_append] at hlr
      rw [hlr, hk] at hl
      cases hl
    · have hcolon : ("cache:" ++ owner).toList = ("cache:".toList ++ runes) ++ [':'] := by
        rw [String.toList_append, howner, List.append_assoc]
      obtain ⟨rest, hrest⟩ := colon_of_append (hr ▸ hcolon) hne
      rw [hlr, isCacheKey_append hrest] at hl
      exact .inr ⟨r, hr, hne, hl⟩

/-- An owner that continues another has a key in common with it. -/
theorem exists_ownedKey_eq_of_hasPrefix (hother : other.toList = runes ++ [':'])
    (h : Strings.hasPrefix other owner) : ∃ k l, ownedKey owner k = ownedKey other l := by
  obtain ⟨r, rfl⟩ : ∃ r, other = owner ++ r := ⟨_, (Strings.append_trimPrefix h).symm⟩
  by_cases hcache : isCacheKey r
  · -- a result's key of the longer owner, taken apart after the shorter one
    have hne : r ≠ "" := by
      rintro rfl
      exact absurd hcache (by decide)
    obtain ⟨rest, hrest⟩ := colon_of_append hother hne
    refine ⟨r ++ "rest:", "rest:", ?_⟩
    have hword : isCacheKey "rest:" := by decide
    unfold ownedKey
    rw [isCacheKey_append hrest, hcache, hword, String.append_assoc, String.append_assoc,
      String.append_assoc]
  · refine ⟨r, "", ?_⟩
    have hempty : isCacheKey "" = false := by decide
    unfold ownedKey
    rw [hempty, if_neg hcache, if_neg (by decide), String.append_empty, String.append_assoc]

theorem exists_ownedKey_eq_of_crosses (howner : owner.toList = runes ++ [':'])
    (h : crosses owner other) : ∃ k l, ownedKey owner k = ownedKey other l := by
  have hempty : isCacheKey "" = false := by decide
  have hword : isCacheKey "rest:" := by decide
  rcases crosses_iff.mp h with ⟨r, rfl, hcache⟩ | ⟨r, heq, hne, hcache⟩
  · refine ⟨r, "", ?_⟩
    unfold ownedKey
    rw [hcache, hempty, if_pos rfl, if_neg (by decide), String.empty_append, String.append_empty]
  · have hcolon : ("cache:" ++ owner).toList = ("cache:".toList ++ runes) ++ [':'] := by
      rw [String.toList_append, howner, List.append_assoc]
    obtain ⟨rest, hrest⟩ := colon_of_append (heq ▸ hcolon) hne
    refine ⟨"rest:", r ++ "rest:", ?_⟩
    unfold ownedKey
    rw [isCacheKey_append hrest, hcache, hword, if_pos rfl, if_neg (by decide), String.empty_append,
      heq, String.append_assoc]

/-- Owners are separated exactly when they have no key in common. -/
theorem separated_iff {runes' : List Char} (howner : owner.toList = runes ++ [':'])
    (hother : other.toList = runes' ++ [':']) :
    (∀ k l, ownedKey owner k ≠ ownedKey other l) ↔ separated owner other := by
  constructor
  · intro hapart
    by_contra hmeet
    simp only [separated, Bool.and_eq_true, Bool.not_eq_true', not_and_or,
      Bool.not_eq_false] at hmeet
    rcases hmeet with ((hpre | hpre) | hcross) | hcross
    · obtain ⟨k, l, heq⟩ := exists_ownedKey_eq_of_hasPrefix hother hpre
      exact hapart k l heq
    · obtain ⟨l, k, heq⟩ := exists_ownedKey_eq_of_hasPrefix howner hpre
      exact hapart k l heq.symm
    · obtain ⟨k, l, heq⟩ := exists_ownedKey_eq_of_crosses howner hcross
      exact hapart k l heq
    · obtain ⟨l, k, heq⟩ := exists_ownedKey_eq_of_crosses hother hcross
      exact hapart k l heq.symm
  · intro hseparated k l heq
    simp only [separated, Bool.and_eq_true, Bool.not_eq_true'] at hseparated
    obtain ⟨⟨⟨hpre, hpre'⟩, hcross⟩, hcross'⟩ := hseparated
    cases hk : isCacheKey k with
    | true =>
      cases hl : isCacheKey l with
      | true => rcases hasPrefix_of_ownedKey_eq (hk.trans hl.symm) heq with h | h <;> simp_all
      | false =>
        rw [crosses_of_ownedKey_eq howner hother hk hl heq] at hcross
        cases hcross
    | false =>
      cases hl : isCacheKey l with
      | true =>
        rw [crosses_of_ownedKey_eq hother howner hl hk heq.symm] at hcross'
        cases hcross'
      | false => rcases hasPrefix_of_ownedKey_eq (hk.trans hl.symm) heq with h | h <;> simp_all

/-! ## Runs of a caller -/

/-- The calls of a caller, whose keys become internal ones. -/
def callsOf (authContext : AuthContext) (calls : List (ℤ × Operation)) : List (ℤ × Operation) :=
  calls.map fun (now, operation) => (now, operation.mapKeys (buildInternalKey authContext))

/-- No sequence of calls of the first caller changes an entry of the second, or returns anything
that depends on one. -/
def Unaffected (authContext other : AuthContext) : Prop :=
  ∀ calls table,
    (∀ key, (runCalls Database.call table (callsOf authContext calls)).2.get
        (buildInternalKey other key) = table.get (buildInternalKey other key)) ∧
    ∀ table' : Database.Table,
      (∀ key, (∀ otherKey, key ≠ buildInternalKey other otherKey) →
        table.get key = table'.get key) →
      (runCalls Database.call table (callsOf authContext calls)).1 =
        (runCalls Database.call table' (callsOf authContext calls)).1

/-- A run changes only rows of its calls' keys. -/
theorem get_runCalls_of_notMem {calls : List (ℤ × Operation)} {key : String}
    (h : ∀ call ∈ calls, key ∉ call.2.keys) (table : Database.Table) :
    (runCalls Database.call table calls).2.get key = table.get key := by
  induction calls generalizing table with
  | nil => rfl
  | cons call calls ih =>
    rw [runCalls]
    have htail := ih (fun c hc => h c (List.mem_cons_of_mem _ hc))
      (Database.call call.1 table call.2).2
    exact htail.trans (Database.get_call_of_notMem call.1 table (h call (by simp)))

/-- A run returns the same on tables that agree on its calls' keys. -/
theorem runCalls_congr {calls : List (ℤ × Operation)} {table table' : Database.Table}
    (h : ∀ call ∈ calls, ∀ key ∈ call.2.keys, table.get key = table'.get key) :
    (runCalls Database.call table calls).1 = (runCalls Database.call table' calls).1 := by
  induction calls generalizing table table' with
  | nil => rfl
  | cons call calls ih =>
    obtain ⟨hreply, hrows⟩ := Database.call_congr call.1 (h call (by simp))
    have htail : (runCalls Database.call (Database.call call.1 table call.2).2 calls).1 =
        (runCalls Database.call (Database.call call.1 table' call.2).2 calls).1 :=
      ih fun c hc key hkey => hrows key (h c (List.mem_cons_of_mem _ hc) key hkey)
    rw [runCalls, runCalls]
    simp only [hreply, htail]

theorem unaffected_of_apart {authContext other : AuthContext}
    (hapart : ∀ key otherKey, buildInternalKey authContext key ≠ buildInternalKey other otherKey) :
    Unaffected authContext other := by
  have howned : ∀ calls, ∀ call ∈ callsOf authContext calls, ∀ key ∈ call.2.keys,
      ∃ userKey, key = buildInternalKey authContext userKey := by
    intro calls call hcall key hkey
    obtain ⟨userCall, -, rfl⟩ := List.mem_map.mp hcall
    exact Operation.keys_mapKeys hkey
  intro calls table
  refine ⟨fun otherKey => get_runCalls_of_notMem ?_ table, fun table' hagree => runCalls_congr ?_⟩
  · intro call hcall hmem
    obtain ⟨userKey, heq⟩ := howned calls call hcall _ hmem
    exact hapart userKey otherKey heq.symm
  · intro call hcall key hkey
    obtain ⟨userKey, rfl⟩ := howned calls call hcall key hkey
    exact hagree _ (hapart userKey)

/-- Two callers have no internal key in common exactly when their owner texts are separated, and
then no sequence of calls of one can change or observe an entry of the other. -/
theorem isolation_iff_separated (digest : Digest) (request request' : CallerRequest)
    (saltSecret : String) :
    ((∀ key key', buildInternalKey (extractAuthContext digest request saltSecret) key ≠
        buildInternalKey (extractAuthContext digest request' saltSecret) key') ↔
      separated (ownerText (extractAuthContext digest request saltSecret))
        (ownerText (extractAuthContext digest request' saltSecret))) ∧
    (separated (ownerText (extractAuthContext digest request saltSecret))
        (ownerText (extractAuthContext digest request' saltSecret)) →
      Unaffected (extractAuthContext digest request saltSecret)
        (extractAuthContext digest request' saltSecret)) := by
  obtain ⟨runes, howner⟩ := ownerText_colon (extractAuthContext digest request saltSecret)
  obtain ⟨runes', hother⟩ := ownerText_colon (extractAuthContext digest request' saltSecret)
  have hiff := separated_iff howner hother
  have hkeys : ∀ authContext key, buildInternalKey authContext key =
      ownedKey (ownerText authContext) key := buildInternalKey_eq
  simp only [hkeys]
  refine ⟨hiff, fun hseparated => unaffected_of_apart ?_⟩
  simp only [hkeys]
  exact hiff.mpr hseparated

/-- Requests with the role `anon` and different subjects. -/
def anonRequest (subject : String) : CallerRequest where
  subject := subject
  role := "anon"
  clientIP := "10.0.0.1"
  userAgent := "agent"
  now := 0

/-- The subject of a token with the role `anon` is in none of its keys: any two such callers share
all of them. -/
theorem anonSubjects_share_keys :
    (extractAuthContext .bytes (anonRequest "alice") "").subject ≠
      (extractAuthContext .bytes (anonRequest "bob") "").subject ∧
    ∀ key, buildInternalKey (extractAuthContext .bytes (anonRequest "alice") "") key =
      buildInternalKey (extractAuthContext .bytes (anonRequest "bob") "") key := by
  refine ⟨by decide, ?_⟩
  intro key
  rfl

/-- A subject with a colon continues the owner text of a shorter one. -/
example : separated (ownerText ⟨"member", "a", ""⟩) (ownerText ⟨"member", "a:b", ""⟩) = false := by
  decide +kernel

/-- Subjects of one role without colons are separated. -/
example : separated (ownerText ⟨"member", "a", ""⟩) (ownerText ⟨"member", "b", ""⟩) := by
  decide +kernel

end Layr.Kv
