import Layr.Core.Scopes
import Layr.Go.Words

/-!
# Scopes that follow from scopes

Which scopes a scope satisfies is not transitive: `*:*.read` satisfies `*`, as services of the same
name match when the resource is open, and `*` satisfies everything. `Covers` says when a scope
satisfies all that another one satisfies.
-/

namespace Layr.Core

open Go Strings

/-- Service, resource and action of a scope. -/
abbrev ScopeParts := String × String × String

/-- An action allows another one. -/
def Admits (given required : String) : Prop :=
  given = required ∨ given = "*" ∨ (given = "write" ∧ required = "read")

/-- A scope satisfies another one. -/
def Satisfies (given required : ScopeParts) : Prop :=
  (given.1 = required.1 ∧ given.2.1 = "*") ∨
    ((given.1 = required.1 ∨ given.1 = "*") ∧
      (given.2.1 = required.2.1 ∨ given.2.1 = "*") ∧ Admits given.2.2 required.2.2)

/-- A scope satisfies another one, and a scope for one action on everything is only used for that
action, and not for all of one service. -/
def Covers (given scope : ScopeParts) : Prop :=
  Satisfies given scope ∧
    (given.1 = "*" → given.2.1 = "*" → given.2.2 ≠ "*" →
      Admits given.2.2 scope.2.2 ∧ (scope.1 = "*" ∨ scope.2.1 ≠ "*"))

instance (given required : String) : Decidable (Admits given required) :=
  inferInstanceAs (Decidable (_ ∨ _ ∨ _))

instance (given required : ScopeParts) : Decidable (Satisfies given required) :=
  inferInstanceAs (Decidable (_ ∨ _))

instance (given scope : ScopeParts) : Decidable (Covers given scope) :=
  inferInstanceAs (Decidable (_ ∧ (_ → _ → _ → _)))

theorem grants_iff {granted requiredScope : String} :
    grants granted requiredScope ↔
      Satisfies (parseScope (trimSpace granted)) (parseScope requiredScope) := by
  unfold grants Satisfies Admits
  simp only [Bool.or_eq_true, Bool.and_eq_true, decide_eq_true_eq]
  constructor
  · rintro (((hroot | hsame) | hservice) | hparts)
    · -- the root scope leaves everything open
      have hparse : parseScope (trimSpace granted) = ("*", "*", "*") := by
        rw [hroot]
        decide +kernel
      rw [hparse]
      exact .inr ⟨.inr rfl, .inr rfl, .inr (.inl rfl)⟩
    · rw [hsame]
      exact .inr ⟨.inl rfl, .inl rfl, .inl rfl⟩
    · exact .inl hservice
    · exact .inr ⟨hparts.1.1, hparts.1.2, or_assoc.mp hparts.2⟩
  · rintro (hservice | ⟨hservice, hresource, haction⟩)
    · exact .inl (.inr hservice)
    · exact .inr ⟨⟨hservice, hresource⟩, or_assoc.mpr haction⟩

/-! ## Covering is enough -/

theorem Admits.trans {a b c : String} (hab : Admits a b) (hbc : Admits b c) : Admits a c := by
  rcases hab with rfl | rfl | ⟨rfl, rfl⟩
  · exact hbc
  · exact .inr (.inl rfl)
  · rcases hbc with rfl | hstar | ⟨hwrite, -⟩
    · exact .inr (.inr ⟨rfl, rfl⟩)
    · exact absurd hstar (by decide)
    · exact absurd hwrite (by decide)

/-- A part that matches one that matches. -/
theorem part_trans {a b c : String} (hab : a = b ∨ a = "*") (hbc : b = c ∨ b = "*") :
    a = c ∨ a = "*" := by
  rcases hab with rfl | rfl
  · exact hbc
  · exact .inr rfl

theorem Covers.satisfies {given scope required : ScopeParts} (hcovers : Covers given scope)
    (h : Satisfies scope required) : Satisfies given required := by
  obtain ⟨hgiven, hopen⟩ := hcovers
  -- a given scope for everything but one action
  have hstar : given.1 = "*" → given.2.1 = "*" → Admits given.2.2 scope.2.2 →
      Admits scope.2.2 required.2.2 → Satisfies given required := by
    intro hservice hresource hab hbc
    exact .inr ⟨.inr hservice, .inr hresource, hab.trans hbc⟩
  rcases hgiven with ⟨hservice, hresource⟩ | ⟨hservice, hresource, haction⟩
  · rcases h with ⟨hservice', -⟩ | ⟨hservice' | hservice', -, haction'⟩
    · exact .inl ⟨hservice.trans hservice', hresource⟩
    · exact .inl ⟨hservice.trans hservice', hresource⟩
    · rw [hservice'] at hservice
      by_cases hall : given.2.2 = "*"
      · exact .inr ⟨.inr hservice, .inr hresource, .inr (.inl hall)⟩
      · exact hstar hservice hresource (hopen hservice hresource hall).1 haction'
  · rcases h with ⟨hservice', hresource'⟩ | ⟨hservice', hresource', haction'⟩
    · have hresource : given.2.1 = "*" := by
        rcases hresource with hsame | hstar
        · rw [hsame, hresource']
        · exact hstar
      rcases hservice with hsame | hservice
      · exact .inl ⟨hsame.trans hservice', hresource⟩
      · by_cases hall : given.2.2 = "*"
        · exact .inr ⟨.inr hservice, .inr hresource, .inr (.inl hall)⟩
        · -- the scope is for all of one service, so this service is the star itself
          have hself := (hopen hservice hresource hall).2.resolve_right (not_not.mpr hresource')
          exact .inl ⟨by rw [hservice, ← hself, hservice'], hresource⟩
    · exact .inr ⟨part_trans hservice hservice', part_trans hresource hresource',
        haction.trans haction'⟩

/-! ## Covering is necessary -/

/-- The parts of a scope without blanks can be put together again. -/
structure Parsed (parts : ScopeParts) : Prop where
  service : Unblank parts.1 ∧ ':' ∉ parts.1.toList
  resource : Unblank parts.2.1 ∧ '.' ∉ parts.2.1.toList
  action : Unblank parts.2.2

theorem unblank_star : Unblank "*" := by
  intro c hc
  obtain rfl := List.mem_singleton.mp hc
  decide

theorem unblank_of_cut {sep : Char} {s a b : String} (hs : Unblank s)
    (h : cut sep s = some (a, b)) :
    Unblank a ∧ Unblank b ∧ sep ∉ a.toList := by
  obtain ⟨rfl, hsep⟩ := cut_eq_some h
  have hruns : ∀ c, c ∈ a.toList ∨ c ∈ b.toList →
      c ∈ (a ++ String.singleton sep ++ b).toList := by
    intro c hc
    simp only [String.toList_append, List.mem_append]
    tauto
  exact ⟨fun c hc => hs c (hruns c (.inl hc)), fun c hc => hs c (hruns c (.inr hc)), hsep⟩

theorem parsed_parseScope {scope : String} (h : Unblank scope) :
    Parsed (parseScope scope) := by
  have hcolon : ':' ∉ "*".toList := by decide
  have hdot : '.' ∉ "*".toList := by decide
  unfold parseScope
  rw [trimSpace_eq_self h]
  dsimp only
  split
  · exact ⟨⟨unblank_star, hcolon⟩, ⟨unblank_star, hdot⟩, unblank_star⟩
  split
  · rename_i hnone
    exact ⟨⟨h, cut_eq_none hnone⟩, ⟨unblank_star, hdot⟩, unblank_star⟩
  rename_i service rest hcut
  obtain ⟨hservice, hrest, hsep⟩ := unblank_of_cut h hcut
  split
  · exact ⟨⟨hservice, hsep⟩, ⟨unblank_star, hdot⟩, unblank_star⟩
  split
  · rename_i hnone
    exact ⟨⟨hservice, hsep⟩, ⟨hrest, cut_eq_none hnone⟩, unblank_star⟩
  · rename_i resource action hcut'
    obtain ⟨hresource, haction, hsep'⟩ := unblank_of_cut hrest hcut'
    exact ⟨⟨hservice, hsep⟩, ⟨hresource, hsep'⟩, haction⟩

/-- The text of a scope from its parts. -/
def scopeText (parts : ScopeParts) : String :=
  parts.1 ++ ":" ++ (parts.2.1 ++ "." ++ parts.2.2)

theorem parseScope_scopeText {parts : ScopeParts} (h : Parsed parts) :
    parseScope (scopeText parts) = parts := by
  have htext : scopeText parts = parts.1 ++ String.singleton ':' ++
      (parts.2.1 ++ String.singleton '.' ++ parts.2.2) := rfl
  have hunblank : Unblank (scopeText parts) :=
    (h.service.1.append (unblank_singleton (c := ':') rfl)).append
      ((h.resource.1.append (unblank_singleton (c := '.') rfl)).append h.action)
  have hnot : ¬(scopeText parts = scopeRoot ∨ scopeText parts = "") := by
    rintro (heq | heq)
    · exact append_singleton_ne (by decide) _ _ (htext.symm.trans heq)
    · exact append_singleton_ne (by decide) _ _ (htext.symm.trans heq)
  unfold parseScope
  rw [trimSpace_eq_self hunblank]
  dsimp only
  rw [if_neg hnot, htext, cut_append h.service.2]
  dsimp only
  rw [if_neg (append_singleton_ne (by decide) _ _), cut_append h.resource.2]

/-- A word that is not in a list. -/
theorem exists_fresh (words : List String) :
    ∃ fresh : String, fresh ∉ words ∧ Unblank fresh ∧ ':' ∉ fresh.toList ∧
      '.' ∉ fresh.toList := by
  have hbound : ∃ n, ∀ word ∈ words, word.toList.length < n :=
    ⟨_, fun word hmem => Nat.lt_succ_of_le
      (List.le_max?_getD_of_mem (k := 0) (List.mem_map_of_mem
        (f := fun s => s.toList.length) hmem))⟩
  obtain ⟨n, hn⟩ := hbound
  have hruns : ∀ c ∈ (String.ofList (List.replicate n 'x')).toList, c = 'x' := by
    intro c hc
    rw [String.toList_ofList] at hc
    exact List.eq_of_mem_replicate hc
  refine ⟨String.ofList (List.replicate n 'x'), ?_, ?_, ?_, ?_⟩
  · intro hmem
    have hlength := hn _ hmem
    rw [String.toList_ofList, List.length_replicate] at hlength
    omega
  · intro c hc
    rw [hruns c hc]
    decide
  · intro hc
    exact absurd (hruns _ hc) (by decide)
  · intro hc
    exact absurd (hruns _ hc) (by decide)

/-- The parts of a scope with a new word wherever any word would do. -/
def generic (fresh : String) (scope : ScopeParts) : ScopeParts :=
  (if scope.1 = "*" then fresh else scope.1,
    if scope.2.1 = "*" then fresh else scope.2.1,
    if scope.2.2 = "*" ∨ (scope.1 ≠ "*" ∧ scope.2.1 = "*") then fresh else scope.2.2)

theorem satisfies_generic (fresh : String) (scope : ScopeParts) :
    Satisfies scope (generic fresh scope) := by
  obtain ⟨service, resource, action⟩ := scope
  unfold Satisfies generic Admits
  by_cases hservice : service = "*"
  all_goals by_cases hresource : resource = "*"
  all_goals by_cases haction : action = "*"
  all_goals simp [hservice, hresource, haction]

/-- A word that is not the new one stands where the new one does not. -/
theorem eq_of_ne_fresh {p : Prop} [Decidable p] {given fresh part : String} (hne : given ≠ fresh)
    (h : given = if p then fresh else part) : ¬p ∧ given = part := by
  by_cases hp : p
  · rw [if_pos hp] at h
    exact absurd h hne
  · rw [if_neg hp] at h
    exact ⟨hp, h⟩

/-- Who satisfies the generic scope without knowing the new word covers the scope. -/
theorem covers_of_generic {fresh : String} {given scope : ScopeParts} (hservice : given.1 ≠ fresh)
    (hresource : given.2.1 ≠ fresh) (haction : given.2.2 ≠ fresh) (hread : "read" ≠ fresh)
    (h : Satisfies given (generic fresh scope)) : Covers given scope := by
  rcases h with ⟨hsame, hstar⟩ | ⟨hsame, hsame', hadmits⟩
  · obtain ⟨hnamed, hsame⟩ := eq_of_ne_fresh hservice hsame
    refine ⟨.inl ⟨hsame, hstar⟩, fun hopen => ?_⟩
    rw [hsame] at hopen
    exact absurd hopen hnamed
  · have hfirst : given.1 = scope.1 ∨ given.1 = "*" :=
      hsame.imp_left fun heq => (eq_of_ne_fresh hservice heq).2
    have hsecond : given.2.1 = scope.2.1 ∨ given.2.1 = "*" :=
      hsame'.imp_left fun heq => (eq_of_ne_fresh hresource heq).2
    -- either the action is open too, or that of the scope is not the new word
    have hthird : given.2.2 = "*" ∨ (scope.1 = "*" ∨ scope.2.1 ≠ "*") ∧
        Admits given.2.2 scope.2.2 := by
      have hscope : ¬(scope.2.2 = "*" ∨ (scope.1 ≠ "*" ∧ scope.2.1 = "*")) →
          scope.1 = "*" ∨ scope.2.1 ≠ "*" := by
        intro hnot
        rw [not_or, not_and_or, not_not] at hnot
        exact hnot.2
      rcases hadmits with heq | hstar | ⟨hwrite, heq⟩
      · obtain ⟨hnot, heq⟩ := eq_of_ne_fresh haction heq
        exact .inr ⟨hscope hnot, .inl heq⟩
      · exact .inl hstar
      · obtain ⟨hnot, heq⟩ := eq_of_ne_fresh hread heq.symm
        exact .inr ⟨hscope hnot, .inr (.inr ⟨hwrite, heq.symm⟩)⟩
    rcases hthird with hstar | ⟨hscope, hadmits⟩
    · exact ⟨.inr ⟨hfirst, hsecond, .inr (.inl hstar)⟩, fun _ _ hne => absurd hstar hne⟩
    · exact ⟨.inr ⟨hfirst, hsecond, hadmits⟩, fun _ _ _ => ⟨hadmits, hscope⟩⟩

theorem parsed_generic {fresh : String} {scope : ScopeParts} (h : Parsed scope)
    (hunblank : Unblank fresh) (hcolon : ':' ∉ fresh.toList) (hdot : '.' ∉ fresh.toList) :
    Parsed (generic fresh scope) := by
  unfold generic
  refine ⟨?_, ?_, ?_⟩
  · dsimp only
    split
    · exact ⟨hunblank, hcolon⟩
    · exact h.service
  · dsimp only
    split
    · exact ⟨hunblank, hdot⟩
    · exact h.resource
  · dsimp only
    split
    · exact hunblank
    · exact h.action

/-- Whatever a scope satisfies is satisfied by some of the given scopes exactly if one of them
covers it. -/
theorem exists_covers_iff {given : List String} {scope : String} (h : Unblank scope) :
    (∀ required, required ≠ "" → grants scope required →
      ∃ a ∈ given, grants a required) ↔
      ∃ a ∈ given, Covers (parseScope (trimSpace a)) (parseScope scope) := by
  simp only [grants_iff, trimSpace_eq_self h]
  constructor
  · intro hall
    obtain ⟨fresh, hfresh, hunblank, hcolon, hdot⟩ := exists_fresh
      ("read" :: given.flatMap fun a =>
        [(parseScope (trimSpace a)).1, (parseScope (trimSpace a)).2.1,
          (parseScope (trimSpace a)).2.2])
    have hparsed := parsed_generic (parsed_parseScope h) hunblank hcolon hdot
    have hparse := parseScope_scopeText hparsed
    obtain ⟨a, hmem, ha⟩ := hall (scopeText (generic fresh (parseScope scope)))
      (append_singleton_ne (c := ':') (by decide) _ _)
      (by rw [hparse]; exact satisfies_generic fresh _)
    rw [hparse] at ha
    -- the new word is not among the parts of the given scopes
    have hpart : ∀ part ∈ [(parseScope (trimSpace a)).1,
        (parseScope (trimSpace a)).2.1, (parseScope (trimSpace a)).2.2],
        part ≠ fresh := by
      rintro part hpart rfl
      exact hfresh (List.mem_cons_of_mem _ (List.mem_flatMap.mpr ⟨a, hmem, hpart⟩))
    refine ⟨a, hmem, covers_of_generic (hpart _ (by simp)) (hpart _ (by simp))
      (hpart _ (by simp)) ?_ ha⟩
    rintro rfl
    exact hfresh List.mem_cons_self
  · rintro ⟨a, hmem, hcovers⟩ required _ hscope
    exact ⟨a, hmem, hcovers.satisfies hscope⟩

theorem hasScope_iff {given : List String} {required : String} (hne : required ≠ "") :
    hasScope given required ↔ ∃ a ∈ given, grants a required := by
  unfold hasScope
  rw [if_neg hne]
  split_ifs with hnil
  · simp [hnil]
  · exact List.any_eq_true

/-- Scopes without blanks satisfy only what the given ones satisfy exactly if each of them is
covered by one of those. -/
theorem hasScope_imp_iff {given scopes : List String}
    (h : ∀ scope ∈ scopes, Unblank scope) :
    (∀ required, hasScope scopes required → hasScope given required) ↔
      ∀ scope ∈ scopes, ∃ a ∈ given,
        Covers (parseScope (trimSpace a)) (parseScope scope) := by
  constructor
  · intro hall scope hmem
    rw [← exists_covers_iff (h scope hmem)]
    intro required hne hscope
    exact (hasScope_iff hne).mp (hall required ((hasScope_iff hne).mpr ⟨scope, hmem, hscope⟩))
  · intro hcovers required hscope
    by_cases hne : required = ""
    · -- the empty scope asks only for some scope
      have hscopes : scopes ≠ [] := by
        rintro rfl
        cases hscope
      obtain ⟨scope, hmem⟩ := List.exists_mem_of_ne_nil scopes hscopes
      obtain ⟨a, hmem', -⟩ := hcovers scope hmem
      rw [hasScope, if_neg (List.ne_nil_of_mem hmem'), if_pos hne]
    · obtain ⟨scope, hmem, hgrants⟩ := (hasScope_iff hne).mp hscope
      exact (hasScope_iff hne).mpr
        ((exists_covers_iff (h scope hmem)).mpr (hcovers scope hmem) required hne hgrants)

end Layr.Core
