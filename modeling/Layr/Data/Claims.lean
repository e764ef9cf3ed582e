import Layr.Core.JwtSigner
import Layr.Lib.Assignments

/-!
# Claims for row-level security (`data/common/claims.go`)

The policies of Postgres read the claims of the caller from settings of the transaction:
`request.jwt` holds all of them as one JSON object and `request.jwt.<name>` each by itself. Custom
claims are entered in the same map behind the standard ones, and names of settings are compared
without regard to case.
-/

namespace Layr.Data

open Go Kv Layr.Core

variable {name key : String}

/-- The claims of a verified token, with its custom ones. -/
structure RlsClaims extends TokenClaims where
  claims : GoMap Value := []

/-! ## The map of the claims -/

/-- `IsSafeClaimKey`. The length is that of the bytes. -/
def isSafeClaimKey (claimKey : String) : Bool :=
  claimKey ≠ "" && claimKey.utf8ByteSize ≤ 63 &&
    claimKey.toList.all fun c =>
      ('a' ≤ c && c ≤ 'z') || ('A' ≤ c && c ≤ 'Z') || ('0' ≤ c && c ≤ '9') || c = '_' || c = '-'

/-- A claim whose field is not empty. -/
def stringClaim (name value : String) : GoMap Value :=
  if value ≠ "" then [(name, .str value)] else []

/-- A claim whose field is not zero. -/
def numberClaim (name : String) (value : ℤ) : GoMap Value :=
  if value ≠ 0 then [(name, .int value)] else []

/-- The claims of the standard fields. -/
def standardClaims (claims : TokenClaims) : GoMap Value :=
  stringClaim "sub" claims.subject ++ stringClaim "sid" claims.sessionID ++
    stringClaim "role" claims.role ++ stringClaim "iss" claims.issuer ++
    stringClaim "aud" claims.audience ++ numberClaim "exp" claims.expiresAt ++
    numberClaim "nbf" claims.notBefore ++ numberClaim "iat" claims.issuedAt ++
    stringClaim "jti" claims.jwtID ++ stringClaim "email" claims.email ++
    stringClaim "phone" claims.phone ++
    (if claims.isAnonymous then [("is_anonymous", .bool true)] else []) ++
    stringClaim "scope" claims.scope

/-- The names of the fields of a token. The map has no entry for the last five fields. -/
def standardNames : List String :=
  ["sub", "sid", "role", "iss", "aud", "exp", "nbf", "iat", "jti", "email", "phone",
    "is_anonymous", "scope", "email_verified", "phone_verified", "auth_time", "nonce", "events"]

/-- The loop of `BuildClaimsMap` over the custom claims. -/
def addClaim (claimsMap : GoMap Value) (claim : String × Value) : GoMap Value :=
  if isSafeClaimKey claim.1 then claimsMap.set claim.1 claim.2 else claimsMap

/-- `BuildClaimsMap`, visiting the custom claims in a given order. -/
def buildClaimsMap (claims : TokenClaims) (custom : GoMap Value) : GoMap Value :=
  custom.foldl addClaim (standardClaims claims)

/-! ## Settings -/

/-- How numbers become texts: `json.Marshal`, and `strconv.FormatFloat` with the format `f`. -/
structure NumberFormat where
  json : FloatFormat
  fixed : Float64 → String

/-- `stringValue`. -/
def claimText (format : NumberFormat) : Value → String
  | .str s => s
  | .int i => decimal i
  | .float f => format.fixed f
  | .bool b => if b then "true" else "false"
  | value => (value.toJson format.json).text

/-- The name of a setting as Postgres compares it. -/
def foldName (name : String) : List Char := name.toList.map Char.toLower

/-- The settings of a transaction, by their folded names. -/
abbrev Settings := List Char → Option String

/-- `set_config`, of a setting that Postgres accepts. A name that it refuses, such as one with two
dots in a row, aborts the transaction, and no later statement of it reads a setting. -/
def setConfig (settings : Settings) (name value : String) : Settings :=
  Function.update settings (foldName name) (some value)

/-- `current_setting`. -/
def currentSetting (settings : Settings) (name : String) : Option String := settings (foldName name)

def settingName (claimKey : String) : String := "request.jwt." ++ claimKey

/-- One round of the loop of `ApplyRLS`. -/
def applyClaim (format : NumberFormat) (settings : Settings) (claim : String × Value) : Settings :=
  if isSafeClaimKey claim.1 then setConfig settings (settingName claim.1) (claimText format claim.2)
  else settings

/-- `ApplyRLS` on a transaction without settings, visiting the map of the claims in a given
order. -/
def applyRLS (format : NumberFormat) (claimsMap visited : GoMap Value) : Settings :=
  if claimsMap = [] then fun _ => none
  else
    setConfig (visited.foldl (applyClaim format) fun _ => none) "request.jwt"
      ((Value.obj claimsMap).toJson format.json).text

/-! ## What should hold -/

/-- The map and the settings give each standard claim the value of its field, for every order in
which the custom claims and the map of all claims are visited. -/
def Unforged (format : NumberFormat) (claims : RlsClaims) : Prop :=
  ∀ custom : GoMap Value, custom.Perm claims.claims.entries → ∀ name ∈ standardNames,
    (buildClaimsMap claims.toTokenClaims custom).get name =
        (standardClaims claims.toTokenClaims).get name ∧
      ∀ visited : GoMap Value,
        visited.Perm (buildClaimsMap claims.toTokenClaims custom).entries →
        currentSetting (applyRLS format (buildClaimsMap claims.toTokenClaims custom) visited)
            (settingName name) =
          ((standardClaims claims.toTokenClaims).get name).map (claimText format)

/-- A custom claim whose name is that of a field, up to case, repeats the claim of the field. -/
def RepeatsStandard (format : NumberFormat) (claims : RlsClaims) : Prop :=
  ∀ key value, claims.claims.get key = some value → isSafeClaimKey key →
    ∀ name ∈ standardNames, foldName key = foldName name →
      ∃ standard, (standardClaims claims.toTokenClaims).get name = some standard ∧
        claimText format standard = claimText format value ∧ (key = name → standard = value)

/-! ## Names -/

theorem isSafeClaimKey_of_standard (h : name ∈ standardNames) : isSafeClaimKey name := by
  have hall : standardNames.all isSafeClaimKey := by decide
  exact List.all_eq_true.mp hall name h

/-- Standard names differ up to case, too. -/
theorem eq_of_foldName_eq {name' : String} (h : name ∈ standardNames) (h' : name' ∈ standardNames)
    (hfold : foldName name = foldName name') : name = name' := by
  have hlower : ∀ name ∈ standardNames, foldName name = name.toList := by decide
  rw [hlower name h, hlower name' h'] at hfold
  exact String.toList_inj.mp hfold

theorem foldName_settingName {key' : String} :
    foldName (settingName key) = foldName (settingName key') ↔ foldName key = foldName key' := by
  unfold foldName settingName
  rw [String.toList_append, String.toList_append, List.map_append, List.map_append,
    List.append_cancel_left_eq]

/-- The payload is no setting of a single claim. -/
theorem foldName_payload_ne (key : String) :
    foldName (settingName key) ≠ foldName "request.jwt" := by
  intro h
  have hlength := congrArg List.length h
  simp [foldName, settingName, String.toList_append] at hlength

/-! ## The map -/

theorem standard_of_mem_ite {c : Prop} [Decidable c] {value : Value} (h : name ∈ standardNames) :
    ∀ e ∈ (if c then [(name, value)] else []), e.1 ∈ standardNames := by
  intro e he
  split at he
  · rw [List.mem_singleton.mp he]
    exact h
  · cases he

theorem standardName_of_get {claims : TokenClaims} {value : Value}
    (h : (standardClaims claims).get key = some value) : key ∈ standardNames := by
  have hall : ∀ e ∈ standardClaims claims, e.1 ∈ standardNames := by
    simp only [standardClaims, stringClaim, numberClaim, List.forall_mem_append, and_assoc]
    refine ⟨?_, ?_, ?_, ?_, ?_, ?_, ?_, ?_, ?_, ?_, ?_, ?_, ?_⟩ <;>
      exact standard_of_mem_ite (by decide)
  exact hall (key, value) ((GoMap.entries_sublist _).subset (GoMap.mem_entries_iff.mpr h))

theorem get_addClaim (key : String) (claimsMap : GoMap Value) (claim : String × Value) :
    (addClaim claimsMap claim).get key =
      if key = claim.1 ∧ isSafeClaimKey key = true then some claim.2 else claimsMap.get key := by
  unfold addClaim
  split
  · rw [GoMap.get_set]
    grind
  · grind

/-- A custom claim with a safe name takes the place of a standard one. -/
theorem get_foldl_addClaim (hsafe : isSafeClaimKey key) {custom : GoMap Value}
    (hnodup : (custom.map Prod.fst).Nodup) (claimsMap : GoMap Value) :
    (custom.foldl addClaim claimsMap).get key = (custom.get key).or (claimsMap.get key) := by
  induction custom generalizing claimsMap with
  | nil => rfl
  | cons claim custom ih =>
    rw [List.map_cons, List.nodup_cons] at hnodup
    rw [List.foldl_cons, ih hnodup.2, get_addClaim, GoMap.get]
    simp only [hsafe, and_true]
    by_cases hname : claim.1 = key
    · -- no later claim has this name
      have hnone : GoMap.get key custom = none := by
        rw [← Option.not_isSome_iff_eq_none, ← GoMap.mem_keys_iff, GoMap.keys,
          GoMap.entries_eq_self hnodup.2, ← hname]
        exact hnodup.1
      rw [hnone, if_pos hname.symm, if_pos hname]
      rfl
    · rw [if_neg (Ne.symm hname), if_neg hname]

/-- Claims with unsafe names are left out. -/
theorem get_foldl_addClaim_unsafe (hsafe : isSafeClaimKey key = false)
    (custom claimsMap : GoMap Value) :
    (custom.foldl addClaim claimsMap).get key = claimsMap.get key := by
  induction custom generalizing claimsMap with
  | nil => rfl
  | cons claim custom ih =>
    rw [List.foldl_cons, ih, get_addClaim, if_neg]
    simp [hsafe]

section

variable {claims : RlsClaims} {custom : GoMap Value}

/-- The order of the custom claims does not matter to the map. -/
theorem get_buildClaimsMap (hperm : custom.Perm claims.claims.entries)
    (hsafe : isSafeClaimKey key) :
    (buildClaimsMap claims.toTokenClaims custom).get key =
      (claims.claims.get key).or ((standardClaims claims.toTokenClaims).get key) := by
  have hnodup : (custom.map Prod.fst).Nodup :=
    (hperm.map Prod.fst).nodup_iff.mpr (GoMap.nodup_keys claims.claims)
  have hget : custom.get key = claims.claims.get key := by
    ext value
    rw [← GoMap.mem_entries_iff, ← GoMap.mem_entries_iff, GoMap.entries_eq_self hnodup,
      hperm.mem_iff]
  rw [buildClaimsMap, get_foldl_addClaim hsafe hnodup, hget]

/-- Every name in the map is safe. -/
theorem isSafe_of_get {value : Value}
    (h : (buildClaimsMap claims.toTokenClaims custom).get key = some value) :
    isSafeClaimKey key := by
  by_contra hunsafe
  rw [Bool.not_eq_true] at hunsafe
  rw [buildClaimsMap, get_foldl_addClaim_unsafe hunsafe] at h
  rw [isSafeClaimKey_of_standard (standardName_of_get h)] at hunsafe
  cases hunsafe

/-! ## The settings -/

variable {format : NumberFormat}

/-- The settings of the claims are assignments to their folded names. -/
theorem currentSetting_applyRLS {visited : GoMap Value}
    (hperm : visited.Perm (buildClaimsMap claims.toTokenClaims custom).entries) (name : String) :
    currentSetting (applyRLS format (buildClaimsMap claims.toTokenClaims custom) visited)
        (settingName name) =
      Assignments.assign (fun claim : String × Value => foldName (settingName claim.1))
        (fun claim => claimText format claim.2) (fun _ => none) visited
        (foldName (settingName name)) := by
  unfold applyRLS
  split
  · rename_i hempty
    rw [hempty, GoMap.entries_nil, List.perm_nil] at hperm
    rw [hperm]
    rfl
  · rw [currentSetting, setConfig, Function.update_of_ne (foldName_payload_ne name),
      Assignments.assign]
    refine congrFun (List.foldl_ext _ _ _ ?_) _
    intro settings claim hclaim
    have hget := GoMap.mem_entries_iff.mp (hperm.mem_iff.mp hclaim)
    rw [applyClaim, if_pos (isSafe_of_get hget), setConfig]

end

/-! ## Forgery -/

/-- The standard claims keep the values of the token's fields, in the map and in the settings and
for every order, exactly when no custom claim has the name of a field, up to case, with another
value. -/
theorem unforged_iff_repeatsStandard (format : NumberFormat) (claims : RlsClaims) :
    Unforged format claims ↔ RepeatsStandard format claims := by
  constructor
  · intro hunforged key value hcustom hsafe name hname hfold
    have hperm := List.Perm.refl claims.claims.entries
    obtain ⟨hmap, hsettings⟩ := hunforged _ hperm name hname
    have hget : (buildClaimsMap claims.toTokenClaims claims.claims.entries).get key =
        some value := by
      rw [get_buildClaimsMap hperm hsafe, hcustom, Option.some_or]
    -- visit the custom claim last
    have hassigned := (Assignments.forall_perm_assign_iff.mp fun visited hvisited =>
      (currentSetting_applyRLS hvisited name).symm.trans (hsettings visited hvisited)).1
        (key, value) (GoMap.mem_entries_iff.mpr hget) (foldName_settingName.mpr hfold)
    obtain ⟨standard, hstandard, htext⟩ := Option.map_eq_some_iff.mp hassigned
    refine ⟨standard, hstandard, htext, ?_⟩
    rintro rfl
    rw [hmap, hstandard] at hget
    exact Option.some.inj hget
  · intro hrepeats custom hperm name hname
    have hsafe := isSafeClaimKey_of_standard hname
    have hmap : (buildClaimsMap claims.toTokenClaims custom).get name =
        (standardClaims claims.toTokenClaims).get name := by
      rw [get_buildClaimsMap hperm hsafe]
      cases hcustom : claims.claims.get name with
      | none => exact Option.none_or
      | some value =>
        obtain ⟨standard, hstandard, -, heq⟩ := hrepeats name value hcustom hsafe name hname rfl
        rw [hstandard, heq rfl, Option.some_or]
    refine ⟨hmap, ?_⟩
    intro visited hvisited
    rw [currentSetting_applyRLS hvisited name]
    refine Assignments.forall_perm_assign_iff.mpr ⟨?_, ?_⟩ visited hvisited
    · rintro ⟨key, value⟩ hclaim hkey
      have hfold := foldName_settingName.mp hkey
      have hget := GoMap.mem_entries_iff.mp hclaim
      have hsafe' := isSafe_of_get hget
      rw [get_buildClaimsMap hperm hsafe'] at hget
      cases hcustom : claims.claims.get key with
      | some value' =>
        rw [hcustom, Option.some_or] at hget
        obtain rfl : value' = value := Option.some.inj hget
        obtain ⟨standard, hstandard, htext, -⟩ :=
          hrepeats key value' hcustom hsafe' name hname hfold
        rw [hstandard, Option.map_some, htext]
      | none =>
        rw [hcustom, Option.none_or] at hget
        rw [← eq_of_foldName_eq (standardName_of_get hget) hname hfold, hget, Option.map_some]
    · -- a standard claim is visited under its own name
      intro hnone
      cases hstandard : (standardClaims claims.toTokenClaims).get name with
      | none => rfl
      | some standard =>
        rw [hstandard] at hmap
        exact absurd rfl (hnone (name, standard) (GoMap.mem_entries_iff.mpr hmap))

/-- A format for numbers that never occur. -/
def plainFormat : NumberFormat := ⟨.bits, fun _ => ""⟩

/-- A token of a user with the given custom claims. -/
def userClaims (custom : GoMap Value) : RlsClaims :=
  { subject := "u", role := "authenticated", audience := "layr:user", scope := "",
    email := "u@x", claims := custom }

/-- Custom claims under the names of fields, up to case: one takes the place of the field's claim
in the map, the other, visited last, the place of its setting. -/
theorem role_forged :
    (buildClaimsMap (userClaims [("role", .str "admin")]).toTokenClaims
        [("role", .str "admin")]).get "role" = some (.str "admin") ∧
      (standardClaims (userClaims [("role", .str "admin")]).toTokenClaims).get "role" =
        some (.str "authenticated") ∧
      ∃ visited : GoMap Value,
        visited.Perm (buildClaimsMap (userClaims [("Sub", .str "v")]).toTokenClaims
          [("Sub", .str "v")]).entries ∧
        currentSetting (applyRLS plainFormat
          (buildClaimsMap (userClaims [("Sub", .str "v")]).toTokenClaims [("Sub", .str "v")])
          visited) "request.jwt.sub" = some "v" := by
  refine ⟨?_, ?_, ?_⟩
  · rw [buildClaimsMap, get_foldl_addClaim (by decide) (by simp)]
    rfl
  · simp [userClaims, standardClaims, stringClaim, numberClaim, GoMap.get]
  · refine ⟨(buildClaimsMap (userClaims [("Sub", .str "v")]).toTokenClaims
      [("Sub", .str "v")]).entries, List.Perm.refl _, ?_⟩
    decide +kernel

end Layr.Data
