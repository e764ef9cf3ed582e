import Layr.Core.Session
import Layr.Js.Strings

/-!
# The scope checker of the worker script

The script around a worker has its own check of scopes, for code that runs outside of the server.
It is written as the server's, but splits the claim differently: a claim of blanks only has one
scope there, the empty one, which leaves everything open.
-/

namespace Layr.Function

open Go Layr.Core Js

/-- `parseScope` of the script. -/
def parseScope (scope : String) : String × String × String :=
  let scope := trim scope
  if scope = "*" ∨ scope = "" then ("*", "*", "*")
  else
    let colonIdx := indexOf scope ':'
    if colonIdx = -1 then (scope, "*", "*")
    else
      let service := sliceTo scope colonIdx
      let rest := sliceFrom scope (colonIdx + 1)
      if rest = "*" then (service, "*", "*")
      else
        let dotIdx := indexOf rest '.'
        if dotIdx = -1 then (service, rest, "*")
        else (service, sliceTo rest dotIdx, sliceFrom rest (dotIdx + 1))

/-- The loop of `checkScope` for one granted scope. -/
def grants (granted requiredScope : String) : Bool :=
  let required := parseScope requiredScope
  let granted := trim granted
  if granted = "*" ∨ granted = requiredScope then true
  else
    let given := parseScope granted
    if given.1 = required.1 ∧ given.2.1 = "*" then true
    else if given.1 ≠ required.1 ∧ given.1 ≠ "*" then false
    else if given.2.1 ≠ required.2.1 ∧ given.2.1 ≠ "*" then false
    else if given.2.2 = required.2.2 ∨ given.2.2 = "*" then true
    else given.2.2 = "write" && required.2.2 = "read"

def checkScope (grantedScopes : List String) (requiredScope : String) : Bool :=
  if grantedScopes = [] then false
  else if requiredScope = "" then true
  else grantedScopes.any fun granted => grants granted requiredScope

/-- `AuthContext.hasScope` of the script on the scope claim. -/
def hasScope (scope requiredScope : String) : Bool :=
  if scope = "" then false
  else checkScope (splitWhiteSpace (trim scope)) requiredScope

/-! ## Agreement on ASCII texts -/

theorem parseScope_eq {scope : String} (h : IsAscii scope) :
    parseScope scope = Core.parseScope scope := by
  unfold parseScope Core.parseScope scopeRoot
  rw [trim_eq_trimSpace h]
  dsimp only
  rw [cut_eq_slices]
  by_cases hroot : Strings.trimSpace scope = "*" ∨ Strings.trimSpace scope = ""
  · rw [if_pos hroot, if_pos hroot]
  rw [if_neg hroot, if_neg hroot]
  by_cases hcolon : indexOf (Strings.trimSpace scope) ':' = -1
  · rw [if_pos hcolon, if_pos hcolon]
  rw [if_neg hcolon, if_neg hcolon]
  dsimp only
  rw [cut_eq_slices]
  split
  · rfl
  split
  · rfl
  · rfl

theorem isAscii_trimSpace {s : String} (h : IsAscii s) : IsAscii (Strings.trimSpace s) := by
  obtain ⟨before, behind, -, -, hs⟩ := Strings.toList_eq_trimSpace s
  intro c hc
  apply h
  rw [hs]
  exact List.mem_append_right _ (List.mem_append_left _ hc)

theorem grants_eq {granted requiredScope : String} (hgranted : IsAscii granted)
    (hrequired : IsAscii requiredScope) :
    grants granted requiredScope = Core.grants granted requiredScope := by
  unfold grants Core.grants scopeRoot
  rw [trim_eq_trimSpace hgranted, parseScope_eq hrequired]
  dsimp only
  rw [parseScope_eq (isAscii_trimSpace hgranted)]
  split_ifs
  all_goals grind

theorem isAscii_of_mem_fields {s field : String} (h : IsAscii s) (hmem : field ∈ Strings.fields s) :
    IsAscii field := by
  obtain ⟨runes, hruns, rfl⟩ := List.mem_map.mp hmem
  intro c hc
  rw [String.toList_ofList] at hc
  exact h c ((Strings.mem_fieldRunes hruns).2 c hc).1

theorem checkScope_eq {grantedScopes : List String} {requiredScope : String}
    (hgranted : ∀ granted ∈ grantedScopes, IsAscii granted) (hrequired : IsAscii requiredScope) :
    checkScope grantedScopes requiredScope = Core.hasScope grantedScopes requiredScope := by
  unfold checkScope Core.hasScope
  split
  · rfl
  split
  · rfl
  · rw [Bool.eq_iff_iff, List.any_eq_true, List.any_eq_true]
    refine exists_congr fun granted => and_congr_right fun hmem => ?_
    rw [grants_eq (hgranted granted hmem) hrequired]

/-- An empty scope leaves everything open. -/
theorem checkScope_empty (requiredScope : String) : checkScope [""] requiredScope := by
  have htrim : trim "" = "" := rfl
  have hparse : parseScope "" = ("*", "*", "*") := rfl
  have hgrants : grants "" requiredScope := by
    unfold grants
    rw [htrim]
    dsimp only
    rw [hparse]
    simp
  unfold checkScope
  rw [if_neg (List.cons_ne_nil _ _), List.any_cons, hgrants]
  simp

/-- The script agrees with `JWTClaims.HasScope` exactly if the claim is empty or has something in
it besides blanks. -/
theorem hasScope_agrees_iff {claims : JWTClaims} {requiredScope : String}
    (hscope : IsAscii claims.scope) (hrequired : IsAscii requiredScope) :
    hasScope claims.scope requiredScope = Core.hasScope claims.scopes requiredScope ↔
      claims.scope = "" ∨ Strings.trimSpace claims.scope ≠ "" := by
  unfold hasScope JWTClaims.scopes
  by_cases hempty : claims.scope = ""
  · rw [if_pos hempty, hempty]
    exact iff_of_true rfl (.inl rfl)
  rw [if_neg hempty]
  by_cases hblank : Strings.trimSpace claims.scope = ""
  · -- the script sees one empty scope, the server none
    have hfields : Strings.fields claims.scope = [] := by
      rw [← Strings.fields_trimSpace, hblank]
      rfl
    have hsplit : splitWhiteSpace (trim claims.scope) = [""] := by
      rw [trim_eq_trimSpace hscope, hblank]
      rfl
    rw [hfields, hsplit, checkScope_empty, Core.hasScope_nil]
    simp [hempty, hblank]
  · have hfields : ∀ granted ∈ Strings.fields claims.scope, IsAscii granted :=
      fun granted hmem => isAscii_of_mem_fields hscope hmem
    rw [splitWhiteSpace_trim hscope hblank, checkScope_eq hfields hrequired]
    exact iff_of_true rfl (.inr hblank)

theorem isAscii_of_all {s : String} (h : (s.toList.all fun c => c.toNat < 0x80)) :
    IsAscii s := by
  intro c hc
  exact of_decide_eq_true (List.all_eq_true.mp h c hc)

def writerClaims : JWTClaims := ⟨"u", "", "", " data:schema.write\tcache"⟩

def blankClaims : JWTClaims := ⟨"u", "", "", " "⟩

theorem writerClaims_agree :
    hasScope writerClaims.scope "data:schema.read" =
      Core.hasScope writerClaims.scopes "data:schema.read" := by
  refine (hasScope_agrees_iff (isAscii_of_all ?_) (isAscii_of_all ?_)).mpr (.inr ?_)
  all_goals decide +kernel

/-- A claim of one blank: the script finds every scope in it, the server none. -/
theorem blankClaims_disagree :
    hasScope blankClaims.scope "data:schema.write" ∧
      Core.hasScope blankClaims.scopes "data:schema.write" = false := by
  decide +kernel

end Layr.Function
