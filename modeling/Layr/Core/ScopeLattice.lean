import Layr.Core.ScopeCover

/-!
# The documented lattice of scopes

The comment on `HasScope` lists the forms that a granted scope may have and what each of them
satisfies. `ScopeForm` has these forms, and `Allows` says what they are to satisfy. `parseScope`
reads every form back into its parts, but `HasScope` takes a scope with an open resource for the
whole service: `data:*.read` satisfies `data:schema.write`.
-/

namespace Layr.Core

open Go

/-- The name of a service, a resource or an action. -/
@[ext] structure ScopeName where
  text : String
  ne : text ≠ ""
  plain : ∀ c ∈ text.toList, c ≠ ':' ∧ c ≠ '.' ∧ c ≠ '*' ∧ Unicode.isSpace c = false

/-- The forms of a granted scope. -/
inductive ScopeForm
  | root
  | service (service : ScopeName)
  /-- `service:*` -/
  | allResources (service : ScopeName)
  | resource (service resource : ScopeName)
  | action (service resource action : ScopeName)
  /-- `service:*.action` -/
  | actionOnAll (service action : ScopeName)

def ScopeForm.text : ScopeForm → String
  | root => "*"
  | service s => s.text
  | allResources s => s.text ++ ":" ++ "*"
  | resource s r => s.text ++ ":" ++ r.text
  | action s r a => s.text ++ ":" ++ (r.text ++ "." ++ a.text)
  | actionOnAll s a => s.text ++ ":" ++ ("*" ++ "." ++ a.text)

/-- Service, resource and action of a form, with a star for what it leaves open. -/
def ScopeForm.parts : ScopeForm → ScopeParts
  | root => ("*", "*", "*")
  | service s | allResources s => (s.text, "*", "*")
  | resource s r => (s.text, r.text, "*")
  | action s r a => (s.text, r.text, a.text)
  | actionOnAll s a => (s.text, "*", a.text)

/-- What a granted scope is to satisfy: everything, or what is of the same service with a resource
and an action that it has or leaves open, where writing includes reading. -/
def ScopeForm.Allows (granted : ScopeForm) (service resource action : ScopeName) : Prop :=
  granted = root ∨
    granted.parts.1 = service.text ∧
      (granted.parts.2.1 = "*" ∨ granted.parts.2.1 = resource.text) ∧
      Admits granted.parts.2.2 action.text

theorem ne_of_mem {c : Char} {s t : String} (hs : c ∈ s.toList) (ht : c ∉ t.toList) : s ≠ t := by
  rintro rfl
  exact ht hs

namespace ScopeName

theorem notMem (name : ScopeName) {c : Char} (h : c = ':' ∨ c = '.' ∨ c = '*') :
    c ∉ name.text.toList := by
  intro hmem
  obtain ⟨hcolon, hdot, hstar, _⟩ := name.plain c hmem
  rcases h with h | h | h
  · exact hcolon h
  · exact hdot h
  · exact hstar h

theorem ne_star (name : ScopeName) : name.text ≠ "*" :=
  (ne_of_mem (c := '*') (by decide) (name.notMem (.inr (.inr rfl)))).symm

theorem unblank (name : ScopeName) : Strings.Unblank name.text :=
  fun c hc => (name.plain c hc).2.2.2

theorem plain_of_all {text : String} (h : (text.toList.all fun c =>
      c != ':' && c != '.' && c != '*' && !Unicode.isSpace c)) :
    ∀ c ∈ text.toList, c ≠ ':' ∧ c ≠ '.' ∧ c ≠ '*' ∧ Unicode.isSpace c = false := by
  simpa [and_assoc] using h

end ScopeName

/-! ## Parsing the forms -/

theorem unblank_marks : Strings.Unblank ":" ∧ Strings.Unblank "." ∧ Strings.Unblank "*" := by
  have hmarks : ([":", ".", "*"].all fun mark => mark.toList.all fun c => !Unicode.isSpace c) =
      true := by
    decide +kernel
  simpa [Strings.Unblank] using hmarks

/-- The scope of a service with something behind the colon. -/
theorem parseScope_colon (service : ScopeName) {rest : String} (hrest : Strings.Unblank rest) :
    parseScope (service.text ++ ":" ++ rest) =
      if rest = "*" then (service.text, "*", "*")
      else
        match Strings.cut '.' rest with
        | none => (service.text, rest, "*")
        | some (resource, action) => (service.text, resource, action) := by
  have htrim : Strings.trimSpace (service.text ++ ":" ++ rest) = service.text ++ ":" ++ rest :=
    Strings.trimSpace_eq_self ((service.unblank.append unblank_marks.1).append hrest)
  have hmem : ':' ∈ (service.text ++ ":" ++ rest).toList := by simp
  have hnot : ¬(service.text ++ ":" ++ rest = scopeRoot ∨ service.text ++ ":" ++ rest = "") :=
    not_or.mpr ⟨ne_of_mem hmem (by decide), ne_of_mem hmem (by decide)⟩
  have hcut : Strings.cut ':' (service.text ++ ":" ++ rest) = some (service.text, rest) :=
    Strings.cut_append (service.notMem (.inl rfl)) rest
  unfold parseScope
  rw [htrim, if_neg hnot]
  exact hcut ▸ rfl

/-- The scope of a service with an action behind a text that has no dot. -/
theorem parseScope_dot (service action : ScopeName) {resource : String}
    (hresource : Strings.Unblank resource) (hdot : '.' ∉ resource.toList) :
    parseScope (service.text ++ ":" ++ (resource ++ "." ++ action.text)) =
      (service.text, resource, action.text) := by
  have hblank : Strings.Unblank (resource ++ "." ++ action.text) :=
    (hresource.append unblank_marks.2.1).append action.unblank
  have hmem : '.' ∈ (resource ++ "." ++ action.text).toList := by simp
  have hne : resource ++ "." ++ action.text ≠ "*" := ne_of_mem hmem (by decide)
  have hcut : Strings.cut '.' (resource ++ "." ++ action.text) = some (resource, action.text) :=
    Strings.cut_append hdot action.text
  rw [parseScope_colon service hblank, if_neg hne, hcut]

/-- Every form is read back. -/
theorem parseScope_text (form : ScopeForm) : parseScope form.text = form.parts := by
  cases form with
  | root => decide +kernel
  | service s =>
    have htrim : Strings.trimSpace s.text = s.text := Strings.trimSpace_eq_self s.unblank
    have hnot : ¬(s.text = scopeRoot ∨ s.text = "") := not_or.mpr ⟨s.ne_star, s.ne⟩
    show parseScope s.text = (s.text, "*", "*")
    unfold parseScope
    rw [htrim, if_neg hnot, Strings.cut_of_not_mem (s.notMem (.inl rfl))]
  | allResources s =>
    show parseScope (s.text ++ ":" ++ "*") = _
    rw [parseScope_colon s unblank_marks.2.2, if_pos rfl]
    rfl
  | resource s r =>
    show parseScope (s.text ++ ":" ++ r.text) = _
    rw [parseScope_colon s r.unblank, if_neg r.ne_star,
      Strings.cut_of_not_mem (r.notMem (.inr (.inl rfl)))]
    rfl
  | action s r a => exact parseScope_dot s a r.unblank (r.notMem (.inr (.inl rfl)))
  | actionOnAll s a => exact parseScope_dot s a unblank_marks.2.2 (by decide)

theorem trimSpace_text (form : ScopeForm) : Strings.trimSpace form.text = form.text := by
  apply Strings.trimSpace_eq_self
  cases form with
  | root => exact unblank_marks.2.2
  | service s => exact s.unblank
  | allResources s => exact (s.unblank.append unblank_marks.1).append unblank_marks.2.2
  | resource s r => exact (s.unblank.append unblank_marks.1).append r.unblank
  | action s r a =>
    exact (s.unblank.append unblank_marks.1).append
      ((r.unblank.append unblank_marks.2.1).append a.unblank)
  | actionOnAll s a =>
    exact (s.unblank.append unblank_marks.1).append
      ((unblank_marks.2.2.append unblank_marks.2.1).append a.unblank)

/-! ## What the code grants -/

section lattice

variable {service resource action : ScopeName}

/-- One of the granted scopes is to satisfy the required one. -/
def Allowed (granted : List ScopeForm) (service resource action : ScopeName) : Prop :=
  ∃ form ∈ granted, form.Allows service resource action

/-- A scope that names its service satisfies everything of the service if its resource is open. -/
theorem satisfies_iff_of_ne {given required : ScopeParts} (hne : given.1 ≠ "*") :
    Satisfies given required ↔ given.1 = required.1 ∧
      (given.2.1 = "*" ∨ given.2.1 = required.2.1 ∧ Admits given.2.2 required.2.2) := by
  unfold Satisfies
  constructor
  · rintro (⟨hservice, hopen⟩ | ⟨hservice, hresource, haction⟩)
    · exact ⟨hservice, .inl hopen⟩
    · refine ⟨hservice.resolve_right hne, ?_⟩
      rcases hresource with hresource | hopen
      · exact .inr ⟨hresource, haction⟩
      · exact .inl hopen
  · rintro ⟨hservice, hopen | ⟨hresource, haction⟩⟩
    · exact .inl ⟨hservice, hopen⟩
    · exact .inr ⟨.inl hservice, .inl hresource, haction⟩

theorem admits_star (required : String) : Admits "*" required := .inr (.inl rfl)

/-- A granted scope satisfies what it is to satisfy, and one for an action on all resources
satisfies every action of its service. -/
theorem grants_text_iff (form : ScopeForm) (service resource action : ScopeName) :
    grants form.text (ScopeForm.action service resource action).text ↔
      form.Allows service resource action ∨ ∃ other, form = .actionOnAll service other := by
  rw [grants_iff, trimSpace_text, parseScope_text, parseScope_text, ScopeForm.Allows]
  cases form with
  | root =>
    exact iff_of_true (.inr ⟨.inr rfl, .inr rfl, admits_star _⟩) (.inl (.inl rfl))
  | service s | allResources s =>
    rw [satisfies_iff_of_ne s.ne_star]
    simp [ScopeForm.parts, admits_star]
  | resource s r =>
    rw [satisfies_iff_of_ne s.ne_star]
    simp [ScopeForm.parts, admits_star, r.ne_star]
  | action s r a =>
    rw [satisfies_iff_of_ne s.ne_star]
    simp [ScopeForm.parts, r.ne_star]
  | actionOnAll s a =>
    have hservice : (∃ other, ScopeForm.actionOnAll s a = .actionOnAll service other) ↔
        s.text = service.text := by
      constructor
      · rintro ⟨other, heq⟩
        obtain ⟨rfl, -⟩ := ScopeForm.actionOnAll.inj heq
        rfl
      · intro htext
        exact ⟨a, by rw [ScopeName.ext htext]⟩
    rw [satisfies_iff_of_ne s.ne_star, hservice]
    -- the action is not looked at
    simp only [ScopeForm.parts, true_or, and_true, true_and, reduceCtorEq, false_or]
    exact ⟨.inr, fun h => h.elim And.left id⟩

theorem hasScope_text_iff (granted : List ScopeForm) (service resource action : ScopeName) :
    hasScope (granted.map ScopeForm.text) (ScopeForm.action service resource action).text ↔
      Allowed granted service resource action ∨ ∃ other, .actionOnAll service other ∈ granted := by
  have hne : (ScopeForm.action service resource action).text ≠ "" :=
    ne_of_mem (c := ':') (by simp [ScopeForm.text]) (by decide)
  have hany : hasScope (granted.map ScopeForm.text)
      (ScopeForm.action service resource action).text ↔
        ∃ form ∈ granted, grants form.text (ScopeForm.action service resource
          action).text := by
    unfold hasScope
    rw [if_neg hne]
    split_ifs with hnil
    · rw [List.map_eq_nil_iff.mp hnil]
      simp
    · simp only [List.any_eq_true, List.mem_map, exists_exists_and_eq_and]
  rw [hany, Allowed]
  simp only [grants_text_iff, and_or_left, exists_or]
  refine or_congr_right ⟨?_, ?_⟩
  · rintro ⟨form, hmem, other, rfl⟩
    exact ⟨other, hmem⟩
  · rintro ⟨other, hmem⟩
    exact ⟨_, hmem, other, rfl⟩

/-- `HasScope` is the documented lattice exactly if the required scope is allowed anyway, or no
scope for an action on all resources of its service is granted. -/
theorem hasScope_eq_lattice_iff (granted : List ScopeForm) (service resource action : ScopeName) :
    (hasScope (granted.map ScopeForm.text) (ScopeForm.action service resource action).text ↔
      Allowed granted service resource action) ↔
    (Allowed granted service resource action ∨
      ∀ other, .actionOnAll service other ∉ granted) := by
  rw [hasScope_text_iff]
  constructor
  · intro h
    by_cases hallowed : Allowed granted service resource action
    · exact .inl hallowed
    · exact .inr fun other hmem => hallowed (h.mp (.inr ⟨other, hmem⟩))
  · rintro (hallowed | hnone)
    · exact iff_of_true (.inl hallowed) hallowed
    · refine ⟨fun h => h.resolve_right ?_, .inl⟩
      rintro ⟨other, hmem⟩
      exact hnone other hmem

end lattice

/-! ### Reading everything -/

def dataService : ScopeName := ⟨"data", by decide, ScopeName.plain_of_all (by decide +kernel)⟩

def schemaResource : ScopeName := ⟨"schema", by decide, ScopeName.plain_of_all (by decide +kernel)⟩

def readAction : ScopeName := ⟨"read", by decide, ScopeName.plain_of_all (by decide +kernel)⟩

def writeAction : ScopeName := ⟨"write", by decide, ScopeName.plain_of_all (by decide +kernel)⟩

/-- The scope to read all resources of a service is one to write them. -/
theorem readAll_grants_write :
    (ScopeForm.actionOnAll dataService readAction).text = "data:*.read" ∧
    (ScopeForm.action dataService schemaResource writeAction).text = "data:schema.write" ∧
    hasScope ["data:*.read"] "data:schema.write" ∧
    ¬Allowed [.actionOnAll dataService readAction] dataService schemaResource writeAction := by
  refine ⟨by decide +kernel, by decide +kernel, by decide +kernel, ?_⟩
  rintro ⟨form, hmem, hallows⟩
  obtain rfl := List.mem_singleton.mp hmem
  rcases hallows with hroot | ⟨-, -, hadmits⟩
  · cases hroot
  · exact absurd hadmits (by decide +kernel)

end Layr.Core
