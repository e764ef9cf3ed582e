import Layr.Go.Strings

/-!
# Scopes

A scope names a service, a resource and an action, as in `data:schema.read`. A granted scope may
leave parts open, and the scope `*` grants everything.
-/

namespace Layr.Core

open Go

def scopeRoot : String := "*"

/-- `parseScope`: service, resource and action. -/
def parseScope (scope : String) : String × String × String :=
  let scope := Strings.trimSpace scope
  if scope = scopeRoot ∨ scope = "" then ("*", "*", "*")
  else
    match Strings.cut ':' scope with
    | none => (scope, "*", "*")
    | some (service, rest) =>
      if rest = "*" then (service, "*", "*")
      else
        match Strings.cut '.' rest with
        | none => (service, rest, "*")
        | some (resource, action) => (service, resource, action)

/-- The loop of `HasScope` for one granted scope. -/
def grants (granted requiredScope : String) : Bool :=
  let granted := Strings.trimSpace granted
  let required := parseScope requiredScope
  let given := parseScope granted
  granted = scopeRoot || granted = requiredScope ||
    (given.1 = required.1 && given.2.1 = "*") ||
    ((given.1 = required.1 || given.1 = "*") &&
      (given.2.1 = required.2.1 || given.2.1 = "*") &&
      (given.2.2 = required.2.2 || given.2.2 = "*" ||
        -- writing implies reading
        (given.2.2 = "write" && required.2.2 = "read")))

/-- `HasScope`. -/
def hasScope (grantedScopes : List String) (requiredScope : String) : Bool :=
  if grantedScopes = [] then false
  else if requiredScope = "" then true
  else grantedScopes.any fun granted => grants granted requiredScope

theorem grants_root (requiredScope : String) : grants scopeRoot requiredScope := by
  have htrim : Strings.trimSpace scopeRoot = scopeRoot := by decide +kernel
  unfold grants
  rw [htrim]
  simp

/-- Who holds the root scope has every scope. -/
theorem hasScope_of_root_mem {scopes : List String} (h : scopeRoot ∈ scopes)
    (requiredScope : String) : hasScope scopes requiredScope := by
  have hne : scopes ≠ [] := List.ne_nil_of_mem h
  unfold hasScope
  rw [if_neg hne]
  split_ifs
  · rfl
  · exact List.any_eq_true.mpr ⟨scopeRoot, h, grants_root requiredScope⟩

@[simp] theorem hasScope_nil (requiredScope : String) : hasScope [] requiredScope = false := rfl

end Layr.Core
