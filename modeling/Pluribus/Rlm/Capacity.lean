import Pluribus.Rlm.Compaction

namespace Pluribus.Rlm.Compaction

def checked (max value : Nat) : Option Nat := if value ≤ max then some value else none

def checkedSub (a b : Nat) : Option Nat := if b ≤ a then some (a - b) else none

/-- The admission in `usize` arithmetic up to `max`, with no answer where an operation would leave the type. -/
def machineAdmission (max requestBytes : Nat) (config : BudgetConfig) : Option Admission :=
  if requestBytes > HARD_LIMIT ∨ config.outputReserveTokens = some 0 then some .reject
  else
    match config.contextTokens with
    | none => some (if requestBytes > SOFT_LIMIT then .compact else .proceed)
    | some context =>
      if context = 0 ∨ context ≤ min max (config.output + config.headroom) then some .reject
      else do
        let rest ← checkedSub context config.output
        let inputBudget ← checkedSub rest config.headroom
        let hundreds ← checked max (inputBudget / 100 * 85)
        let units ← checked max (inputBudget % 100 * 85)
        let threshold ← checked max (hundreds + units / 100)
        some (if requestBytes > SOFT_LIMIT ∨ threshold ≤ estimatedTokens requestBytes then .compact else .proceed)

def Admission.severity : Admission → Nat
  | .proceed => 0
  | .compact => 1
  | .reject => 2

variable {max requestBytes : Nat} {config : BudgetConfig}

theorem validate_iff : config.validate = .ok () ↔ config.outputReserveTokens ≠ some 0 ∧
    ∀ context ∈ config.contextTokens, config.output + config.headroom < context := by
  unfold BudgetConfig.validate
  cases config.contextTokens <;> simp only [Option.mem_def, reduceCtorEq, Option.some.injEq, forall_eq'] <;> grind

theorem admission_eq : admission requestBytes config =
    if requestBytes > HARD_LIMIT ∨ config.validate ≠ .ok () then .reject
    else if requestBytes > SOFT_LIMIT ∨ ∃ context ∈ config.contextTokens,
        (context - config.output - config.headroom) * 85 / 100 ≤ requestBytes then .compact
    else .proceed := by
  have hfloor : ∀ budget : Nat, budget / 100 * 85 + budget % 100 * 85 / 100 = budget * 85 / 100 := by
    intro budget
    omega
  unfold admission
  cases config.contextTokens <;> simp [hfloor, estimatedTokens]

theorem machineAdmission_eq (hmax : 100 * 85 ≤ max) (hfits : ∀ context ∈ config.contextTokens, context ≤ max) :
    machineAdmission max requestBytes config = some (admission requestBytes config) := by
  have hvalid : config.validate = .ok () ↔ _ := validate_iff
  unfold machineAdmission admission
  by_cases hreject : requestBytes > HARD_LIMIT ∨ config.outputReserveTokens = some 0
  · rw [if_pos hreject, if_pos]
    exact hreject.imp_right fun hzero hok => (hvalid.mp hok).1 hzero
  rw [if_neg hreject]
  rw [not_or] at hreject
  cases hcontext : config.contextTokens with
  | none => simp_all
  | some context =>
    have hle := hfits context hcontext
    by_cases hsmall : context ≤ config.output + config.headroom
    · simp_all
    · have hsub : ∀ a b, b ≤ a → checkedSub a b = some (a - b) := fun _ _ hba => if_pos hba
      have hchecked : ∀ value, value ≤ max → checked max value = some value := fun _ hvalue => if_pos hvalue
      have hok : config.validate = .ok () := by simp_all
      dsimp only
      rw [if_neg (by omega), if_neg (by simp [hreject, hok])]
      simp (disch := omega) [hsub, hchecked]

/-- Admission never leaves the machine type, compares with the floor of 85 percent of the input budget, grows with the
request, and lets only requests within the token budget proceed. -/
theorem admission_consistent (requestBytes : Nat) (config : BudgetConfig) :
    (∀ max, max = 2 ^ 32 - 1 ∨ max = 2 ^ 64 - 1 → (∀ context ∈ config.contextTokens, context ≤ max) →
      machineAdmission max requestBytes config = some (admission requestBytes config)) ∧
    (∀ context ∈ config.contextTokens, config.validate = .ok () → requestBytes ≤ HARD_LIMIT →
      admission requestBytes config = if requestBytes > SOFT_LIMIT ∨
        (context - config.output - config.headroom) * 85 / 100 ≤ requestBytes then .compact else .proceed) ∧
    (∀ larger ≥ requestBytes, (admission requestBytes config).severity ≤ (admission larger config).severity) ∧
    (admission requestBytes config = .proceed → tokenBudgetOk requestBytes config = true) := by
  refine ⟨fun max hmax => machineAdmission_eq (by omega), ?_, ?_, ?_⟩
  · intro context hcontext hvalid hsmall
    rw [admission_eq, if_neg (by simp [hvalid, hsmall]), hcontext]
    simp
  · intro larger hle
    rw [admission_eq, admission_eq]
    grind [Admission.severity]
  · rw [admission_eq]
    intro hproceed
    split at hproceed
    · cases hproceed
    split at hproceed
    · cases hproceed
    rename_i hadmitted hroom
    rw [not_or, not_not, validate_iff] at hadmitted
    unfold tokenBudgetOk estimatedTokens
    cases hcontext : config.contextTokens with
    | none => rfl
    | some context =>
      have hlt := hadmitted.2.2 context hcontext
      simp only [not_or, not_exists, not_and, hcontext, Option.mem_some, forall_eq', Bool.and_eq_true, decide_eq_true_eq]
        at hroom ⊢
      omega

end Pluribus.Rlm.Compaction
