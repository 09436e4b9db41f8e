import AgencCore.Policy.Engine

/-
  Compiled jobs and the policy that enforces them.

  A compiled job names abstract tools; each stands for some tools of the runtime. The policy of the
  job allows these tools only, and limits how often they are called: with a budget for all tool
  calls, and with a budget of its own for fetching. The execution envelope and the settings of the
  chat are not read by the policy and are left out.
-/

namespace AgencCore.Task

open Foundations
open Policy

section

inductive CompiledJobWriteScope where
  | none
  | workspaceOnly
  | approvedDestinationOnly
deriving DecidableEq

inductive CompiledJobNetworkPolicy where
  | off
  | allowlistOnly
deriving DecidableEq

inductive CompiledJobAllowedTool where
  | citeSources
  | classifyRows
  | collectRows
  | dedupeRows
  | draftFollowup
  | extractActionItems
  | extractText
  | fetchUrl
  | generateCsv
  | generateMarkdown
  | normalizeTable
  | parseTranscript
  | readWorkspace
  | runApprovedChecks
  | summarize
deriving DecidableEq

structure CompiledJobPolicy where
  allowedTools : List CompiledJobAllowedTool
  allowedDomains : List String
  writeScope : CompiledJobWriteScope
  networkPolicy : CompiledJobNetworkPolicy
  maxRuntimeMinutes : JsNumber
  maxToolCalls : JsNumber
  maxFetches : JsNumber

structure CompiledJob where
  jobType : String
  policy : CompiledJobPolicy
  workspaceRoot : Option String
  templateId : String
  taskPda : String

def workspaceReadRuntimeTools : List String :=
  ["system.readFile", "system.listDir", "system.stat",
    "system.glob", "system.grep", "system.repoInventory"]

def workspaceWriteRuntimeTools : List String :=
  ["system.writeFile", "system.appendFile", "system.editFile", "system.mkdir"]

def networkRuntimeTools : List String := ["system.httpGet"]

def localExtractRuntimeTools : List String := ["system.pdfExtractText"]

def approvedCheckRuntimeTools : List String := ["system.bash"]

def readToolsFor (job : CompiledJob) (jobType : String) : List String :=
  if job.jobType = jobType then workspaceReadRuntimeTools
  else []

def mapRuntimeTools (job : CompiledJob) : CompiledJobAllowedTool → List String
| .fetchUrl => networkRuntimeTools
| .extractText => networkRuntimeTools ++ localExtractRuntimeTools
| .classifyRows => readToolsFor job "spreadsheet_cleanup_classification"
| .normalizeTable => readToolsFor job "spreadsheet_cleanup_classification"
| .parseTranscript => readToolsFor job "transcript_to_deliverables"
| .readWorkspace => workspaceReadRuntimeTools
| .runApprovedChecks => workspaceReadRuntimeTools ++ approvedCheckRuntimeTools
| _ => []

/- The tools of a set, in the order of their insertion. -/
def resolveRuntimeToolNames (job : CompiledJob) : List String :=
  let mapped := job.policy.allowedTools.flatMap (mapRuntimeTools job)
  let writing := if job.policy.writeScope = .workspaceOnly then workspaceWriteRuntimeTools
    else []
  let toolNames := (mapped ++ writing).eraseDups
  if job.policy.networkPolicy = .allowlistOnly then toolNames
  else toolNames.filter (fun name => name ∉ networkRuntimeTools)

/- The host name of a text that is a URL. -/
structure JobHost extends PolicyHost where
  urlHostname : String → Option String

def JobHost.basic : JobHost where
  toPolicyHost := PolicyHost.basic
  urlHostname := fun _ => none

variable (host : JobHost)

/- Drop letters followed by a colon and two slashes. -/
def withoutScheme (candidate : List Char) : List Char :=
  let rest := candidate.dropWhile Char.isAlpha
  if rest.length < candidate.length ∧ rest.take 3 = [':', '/', '/'] then rest.drop 3
  else candidate

def normalizeAllowedHost (input : String) : Option String :=
  let candidate := trim input
  if candidate = "" then none
  else
    match host.urlHostname candidate with
    | some hostname => some (host.toLowerCase hostname)
    | none =>
      let first := (withoutScheme candidate.toList).takeWhile (fun c => c ≠ '/')
      let name := host.toLowerCase (trim (String.ofList first))
      if name = "" then none else some name

def resolveAllowedHosts (allowedDomains : List String) : List String :=
  ((allowedDomains.filterMap (normalizeAllowedHost host)).filter (fun name => name ≠ "")).eraseDups

def runtimeWindowMs (job : CompiledJob) : JsNumber :=
  JsNumber.max (.ofInt 60000) (job.policy.maxRuntimeMinutes.mul (.ofInt 60000))

def hasFetchBudget (job : CompiledJob) : Bool :=
  job.policy.networkPolicy = .allowlistOnly &&
    (resolveRuntimeToolNames job).contains "system.httpGet"

def toolCallBudgets (job : CompiledJob) : Record PolicyBudgetRule :=
  let budgets := OrderedMap.ofList
    [("tool_call:*", { limit := job.policy.maxToolCalls, windowMs := runtimeWindowMs job })]
  if hasFetchBudget job then
    budgets.set "tool_call:system.httpGet"
      { limit := job.policy.maxFetches, windowMs := runtimeWindowMs job }
  else budgets

/- The root of the workspace, if the job may write to it. -/
def allowWorkspaceWriteRoot (job : CompiledJob) : Option String :=
  if job.policy.writeScope = .workspaceOnly then job.workspaceRoot.filter (fun root => root ≠ "")
  else none

def classRules (job : CompiledJob) : List (PolicyClass × PolicyClassRule) :=
  [(.credentialSecretAccess, { deny := some true, maxRiskScore := none }),
    (.irreversibleFinancialAction, { deny := some true, maxRiskScore := none })] ++
    if job.policy.writeScope = .none then
      [(.destructiveSideEffect, { deny := some true, maxRiskScore := none })]
    else []

def buildRuntimePolicy (job : CompiledJob) : RuntimePolicyConfig :=
  let allowedHosts := resolveAllowedHosts host job.policy.allowedDomains
  { bundle :=
      { enabled := some true, toolAllowList := some (resolveRuntimeToolNames job)
        networkAccess := if allowedHosts = [] then none
          else some { allowHosts := some allowedHosts, denyHosts := none }
        writeScope :=
          (allowWorkspaceWriteRoot job).map (fun root =>
            { allowRoots := some [root], denyRoots := none })
        actionBudgets := some (toolCallBudgets job)
        runtimeBudget := some { maxElapsedMs := runtimeWindowMs job }
        policyClassRules := some (OrderedMap.ofList (classRules job)) }, defaultTenantId := none
    defaultProjectId := none, tenantBundles := none, projectBundles := none }

structure CompiledJobEnforcement where
  allowedRuntimeTools : List String
  allowedHosts : List String
  runtimePolicy : RuntimePolicyConfig
  scope : PolicyEvaluationScope

def resolveCompiledJobEnforcement (job : CompiledJob) : CompiledJobEnforcement :=
  { allowedRuntimeTools := resolveRuntimeToolNames job
    allowedHosts := resolveAllowedHosts host job.policy.allowedDomains
    runtimePolicy := buildRuntimePolicy host job
    scope := { tenantId := none, projectId := some job.templateId, runId := some job.taskPda } }

def createCompiledJobPolicyEngine (enforcement : CompiledJobEnforcement) : PolicyEngine :=
  .create enforcement.runtimePolicy

end

end AgencCore.Task
