import Layr.Cache.GraphqlHandler
import Layr.Kv.KeyRecords

/-!
# The complexity guard

The handler lets an operation through whose complexity is at most the configured maximum. The
complexity is a Go `int`, and its multiplier doubles at each level, so a document that is deep
enough wraps it around. `Validate` asks for a positive depth, without an upper bound.
-/

namespace Layr.Cache.Graphql

open Go Kv Layr.Graphql

/-! ## The configuration -/

/-- What `Validate` reads of the configuration of the data service; the maximum complexity is a
Go `int`. -/
structure DataConfig extends GraphqlConfig where
  heartbeatIntervalMS : ℤ
  maxChannelsPerConnection : ℤ
  maxComplexity_lt : maxComplexity < 2 ^ 63

/-- One check of `Validate`. -/
def validatePositive (setting : String) (value : ℤ) : Except String Unit :=
  if value ≤ 0 then
    .error (setting ++ " must be greater than 0, got " ++ String.ofList (Strconv.formatInt value))
  else .ok ()

/-- `Validate`. -/
def DataConfig.validate (config : DataConfig) : Except String Unit := do
  validatePositive "rest max_limit" config.restMaxLimit
  validatePositive "rest default_limit" config.restDefaultLimit
  validatePositive "graphql max_depth" config.maxDepth
  validatePositive "graphql max_complexity" config.maxComplexity
  validatePositive "realtime heartbeat_interval_ms" config.heartbeatIntervalMS
  validatePositive "realtime max_channels_per_connection" config.maxChannelsPerConnection

theorem validatePositive_ok {setting : String} {value : ℤ}
    (h : validatePositive setting value = .ok ()) : 0 < value := by
  unfold validatePositive at h
  split at h
  · cases h
  · omega

theorem maxComplexity_pos {config : DataConfig} (h : config.validate = .ok ()) :
    0 < config.maxComplexity := by
  unfold DataConfig.validate at h
  obtain ⟨-, -, h⟩ := Result.bind_eq_ok.mp h
  obtain ⟨-, -, h⟩ := Result.bind_eq_ok.mp h
  obtain ⟨-, -, h⟩ := Result.bind_eq_ok.mp h
  obtain ⟨⟨⟩, hcomplexity, -⟩ := Result.bind_eq_ok.mp h
  exact validatePositive_ok hcomplexity

/-! ## The cost in unbounded integers -/

mutual

/-- The cost of fields at a multiplier. -/
def fieldsCost : List FieldNode → ℤ → ℤ
  | [], _ => 0
  | field :: fields, multiplier => fieldCost field multiplier + fieldsCost fields multiplier

/-- The cost of one field: the multiplier for a leaf, ten times it for a field with a selection
set, whose fields count twice as much. -/
def fieldCost : FieldNode → ℤ → ℤ
  | .mk _ _ _ [], multiplier => multiplier
  | .mk _ _ _ (field :: fields), multiplier =>
    10 * multiplier + fieldsCost (field :: fields) (multiplier * 2)

end

/-- The cost of an operation. -/
def trueCost (operationNode : OperationNode) : ℤ := fieldsCost operationNode.selectionSet 1

mutual

theorem fieldsCost_nonneg : ∀ (fields : List FieldNode) {multiplier : ℤ}, 0 ≤ multiplier →
    0 ≤ fieldsCost fields multiplier
  | [], _, _ => le_refl 0
  | field :: fields, _, h => by
    rw [fieldsCost]
    exact add_nonneg (fieldCost_nonneg field h) (fieldsCost_nonneg fields h)

theorem fieldCost_nonneg : ∀ (field : FieldNode) {multiplier : ℤ}, 0 ≤ multiplier →
    0 ≤ fieldCost field multiplier
  | .mk _ _ _ [], _, h => by
    rw [fieldCost]
    exact h
  | .mk _ _ _ (field :: fields), multiplier, h => by
    have hdoubled : 0 ≤ multiplier * 2 := by omega
    have hbelow := fieldsCost_nonneg (field :: fields) hdoubled
    rw [fieldCost]
    omega

end

/-! ## What the code computes -/

@[simp] theorem wrapInt_wrapInt_add (a b : ℤ) : wrapInt (wrapInt a + b) = wrapInt (a + b) :=
  Int.bmod_add_bmod ..

@[simp] theorem wrapInt_add_wrapInt (a b : ℤ) : wrapInt (a + wrapInt b) = wrapInt (a + b) :=
  Int.add_bmod_bmod ..

mutual

/-- The code computes the cost modulo `2 ^ 64`, since every operation does. -/
theorem computeFieldsComplexity_eq : ∀ (fields : List FieldNode) (multiplier total : ℤ),
    computeFieldsComplexity fields (wrapInt multiplier) (wrapInt total) =
      wrapInt (total + fieldsCost fields multiplier)
  | [], _, _ => by
    rw [computeFieldsComplexity, fieldsCost, add_zero]
  | field :: fields, multiplier, total => by
    rw [computeFieldsComplexity, addFieldComplexity_eq field multiplier total,
      computeFieldsComplexity_eq fields, fieldsCost, add_assoc]

theorem addFieldComplexity_eq : ∀ (field : FieldNode) (multiplier total : ℤ),
    addFieldComplexity field (wrapInt multiplier) (wrapInt total) =
      wrapInt (total + fieldCost field multiplier)
  | .mk _ _ _ [], multiplier, total => by
    rw [addFieldComplexity, fieldCost, one_mul]
    simp
  | .mk _ _ _ (field :: fields), multiplier, total => by
    have hdoubled : wrapInt (wrapInt multiplier * 2) = wrapInt (multiplier * 2) :=
      Int.bmod_mul_bmod ..
    have hten : wrapInt (10 * wrapInt multiplier) = wrapInt (10 * multiplier) :=
      Int.mul_bmod_bmod ..
    have hbelow := computeFieldsComplexity_eq (field :: fields) (multiplier * 2) 0
    rw [show wrapInt 0 = 0 from rfl, zero_add] at hbelow
    rw [addFieldComplexity, fieldCost, hdoubled, hten, hbelow]
    simp [add_assoc]

end

theorem calculateComplexity_eq (operationNode : OperationNode) :
    calculateComplexity operationNode = wrapInt (trueCost operationNode) := by
  have h := computeFieldsComplexity_eq operationNode.selectionSet 1 0
  rw [show wrapInt 1 = 1 from rfl, show wrapInt 0 = 0 from rfl, zero_add] at h
  exact h

/-! ## The guard -/

variable {digest : Digest} {format : FloatFormat} {tableVersion : OperationNode → ℤ}
  {authContext : AuthContext} {request : GraphqlRequest} {input : ExecuteGraphQLInput}
  {operationNode : OperationNode}

/-- The handler lets the request through. -/
def Handled.passes : Handled → Bool
  | .failed _ _ => false
  | _ => true

theorem complexity_le {config : DataConfig} (hvalid : config.validate = .ok ())
    (hpassed : (handleOperation digest format config.toGraphqlConfig tableVersion authContext
      request input operationNode).passes) :
    wrapInt (trueCost operationNode) ≤ config.maxComplexity := by
  have hpositive := maxComplexity_pos hvalid
  rw [← calculateComplexity_eq]
  by_contra hover
  unfold handleOperation at hpassed
  dsimp only at hpassed
  rw [if_neg (show ¬config.maxComplexity ≤ 0 by omega)] at hpassed
  generalize (if config.maxDepth ≤ 0 then 8 else config.maxDepth) = maxDepth at hpassed
  split at hpassed
  · cases hpassed
  · rw [if_pos (by omega)] at hpassed
    cases hpassed

/-- For a configuration that is validated and a request that is let through, the cost is within the
maximum exactly if it is below `2 ^ 63`. -/
theorem complexity_guard_iff (digest : Digest) (format : FloatFormat) (config : DataConfig)
    (tableVersion : OperationNode → ℤ) (authContext : AuthContext) (request : GraphqlRequest)
    (input : ExecuteGraphQLInput) (operationNode : OperationNode)
    (hvalid : config.validate = .ok ()) (hinput : request.input = some input)
    (hparsed : parseGraphQLWithOperation input.query input.operationName input.vars =
      .ok operationNode)
    (hpassed : (handleExecuteGraphQL digest format config.toGraphqlConfig tableVersion authContext
      request).passes) :
    trueCost operationNode ≤ config.maxComplexity ↔ trueCost operationNode < 2 ^ 63 := by
  have hfits := config.maxComplexity_lt
  constructor
  · intro hcost
    omega
  · intro hsmall
    unfold handleExecuteGraphQL at hpassed
    simp only [hinput, hparsed] at hpassed
    split at hpassed
    · cases hpassed
    split at hpassed
    · cases hpassed
    split at hpassed
    · cases hpassed
    have hle := complexity_le hvalid hpassed
    have hnonneg : 0 ≤ trueCost operationNode := fieldsCost_nonneg _ (by decide)
    unfold wrapInt at hle
    rwa [Int.bmod_eq_of_le (by omega) (by omega)] at hle

/-! ## Runs -/

/-- The default configuration, with a maximum depth. -/
def depthConfig (maxDepth : ℤ) : DataConfig :=
  ⟨⟨true, maxDepth, 500, true, 100, 50, 1000, true, 30⟩, 30000, 50,
    (by decide : (500 : ℤ) < 2 ^ 63)⟩

/-- A field below others. -/
def chainField : ℕ → String
  | 0 => "a"
  | levels + 1 => "a\x7b" ++ chainField levels ++ "\x7d"

def chainInput (levels : ℕ) : ExecuteGraphQLInput :=
  ⟨"\x7b" ++ chainField levels ++ "\x7d", "", [], fieldsDecoded_nil⟩

/-- The operation of a chain, with its cost. -/
theorem parse_chain {levels : ℕ} {cost : ℤ}
    (h : (parseGraphQLWithOperation (chainInput levels).query "" []).toOption.map trueCost =
      some cost) :
    ∃ operationNode, parseGraphQLWithOperation (chainInput levels).query "" [] =
      .ok operationNode ∧ trueCost operationNode = cost := by
  cases hparsed : parseGraphQLWithOperation (chainInput levels).query "" [] with
  | error cause =>
    rw [hparsed] at h
    cases h
  | ok operationNode =>
    rw [hparsed] at h
    exact ⟨operationNode, rfl, Option.some.inj h⟩

theorem complexity_guard_nested : ∃ operationNode,
    parseGraphQLWithOperation (chainInput 1).query "" [] = .ok operationNode ∧
      trueCost operationNode ≤ (depthConfig 8).maxComplexity := by
  obtain ⟨operationNode, hparsed, hcost⟩ := @parse_chain 1 12 (by decide +kernel)
  refine ⟨operationNode, hparsed, (complexity_guard_iff .bytes .bits (depthConfig 8) (fun _ => 1)
    ⟨"anon", "", "v"⟩ ⟨"POST", some (chainInput 1), fun _ => ""⟩ (chainInput 1) operationNode
    (by decide) rfl hparsed (by decide +kernel)).mpr ?_⟩
  rw [hcost]
  decide

/-- Below sixty levels the complexity has wrapped around and is negative. -/
theorem chain_passes : (depthConfig 61).validate = .ok () ∧
    (handleExecuteGraphQL .bytes .bits (depthConfig 61).toGraphqlConfig (fun _ => 1)
      ⟨"anon", "", "v"⟩ ⟨"POST", some (chainInput 60), fun _ => ""⟩).passes ∧
    ∃ operationNode, parseGraphQLWithOperation (chainInput 60).query "" [] = .ok operationNode ∧
      calculateComplexity operationNode < 0 ∧
      ¬trueCost operationNode ≤ (depthConfig 61).maxComplexity := by
  refine ⟨by decide, by decide +kernel, ?_⟩
  obtain ⟨operationNode, hparsed, hcost⟩ := @parse_chain 60 (11 * 2 ^ 60 - 10) (by decide +kernel)
  refine ⟨operationNode, hparsed, ?_, ?_⟩
  · rw [calculateComplexity_eq, hcost]
    decide
  · rw [hcost]
    decide

end Layr.Cache.Graphql
