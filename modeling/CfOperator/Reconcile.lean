import CfOperator.LinkInfos

namespace CfOperator

/-- A call one reconcile makes to the API server or to `setReference`, with its answer. -/
inductive Event where
  | get (key : NamespacedName)
  | list (call : ListCall)
  | setReference (owner object : Object) (result : Option Error)
  | createOrUpdate (object : Object) (result : Except Error OperationResult)
  | updateStatus (object : Object) (result : Option Error)
  deriving DecidableEq

def Event.isWrite : Event → Bool
  | .createOrUpdate .. | .updateStatus .. => true
  | _ => false

def Event.isPlain : Event → Bool
  | .get _ | .list _ | .updateStatus .. => true
  | .setReference .. | .createOrUpdate .. => false

/-- The API server and the clock as one reconcile sees them: every answer may depend on the
state `σ` of the store, which the two writes change. -/
structure Cluster (σ : Type) where
  get : NamespacedName → σ → Except Error BOSHDeployment
  listing : σ → Listing
  now : σ → Time
  createOrUpdate : Object → σ → Except Error OperationResult × σ
  updateStatus : Object → σ → Option Error × σ

/-- The collaborators the reconciler is built with, none of them part of this controller:
`WithOps`, `VariablesConverter`, `JobFactory` and the `setReferenceFunc`. -/
structure Collaborators where
  withOpsManifest : BOSHDeployment → String → Except Error Manifest
  convertVariables : String → List Variable → Except Error (List QuarksSecret)
  variableInterpolationJob : String → Manifest → Except Error QuarksJob
  instanceGroupManifestJob : String → Manifest → LinkInfos → Bool → Except Error QuarksJob
  setReference : Object → Object → Option Error

structure Config where
  meltdownDuration : Duration
  meltdownRequeueAfter : Duration

structure Result where
  requeue : Bool
  requeueAfter : Duration
  deriving DecidableEq

/-- A reconcile in progress: the state of the store, and the calls made so far. -/
structure Run (σ : Type) where
  store : σ
  events : List Event

def ReconcileM (σ α : Type) := Run σ → α × Run σ

instance instMonadReconcileM {σ : Type} : Monad (ReconcileM σ) where
  pure a := fun r => (a, r)
  bind x f := fun r => f (x r).1 (x r).2

namespace ReconcileM

@[simp] theorem pure_run {σ α : Type} (a : α) (r : Run σ) :
    (pure a : ReconcileM σ α) r = (a, r) := rfl

@[simp] theorem bind_run {σ α β : Type} (x : ReconcileM σ α) (f : α → ReconcileM σ β)
    (r : Run σ) : (x >>= f) r = f (x r).1 (x r).2 := rfl

end ReconcileM

section

variable {σ : Type} (P : Packages) (C : Collaborators) (cluster : Cluster σ) (config : Config)
  (orders : RangeOrders)

def getDeployment (key : NamespacedName) : ReconcileM σ (Except Error BOSHDeployment) :=
  fun r => (cluster.get key r.store, { r with events := r.events ++ [.get key] })

def timeNow : ReconcileM σ Time := fun r => (cluster.now r.store, r)

def withListing {α : Type} (m : LinkM α) : ReconcileM σ α :=
  fun r => ((m (cluster.listing r.store)).1,
    { r with events := r.events ++ (m (cluster.listing r.store)).2.map .list })

def setReference (owner object : Object) : ReconcileM σ (Option Error) :=
  fun r => (C.setReference owner object,
    { r with events := r.events ++ [.setReference owner object (C.setReference owner object)] })

def createOrUpdate (object : Object) : ReconcileM σ (Except Error OperationResult) :=
  fun r => ((cluster.createOrUpdate object r.store).1, ⟨(cluster.createOrUpdate object r.store).2,
    r.events ++ [.createOrUpdate object (cluster.createOrUpdate object r.store).1]⟩)

def updateStatus (object : Object) : ReconcileM σ (Option Error) :=
  fun r => ((cluster.updateStatus object r.store).1, ⟨(cluster.updateStatus object r.store).2,
    r.events ++ [.updateStatus object (cluster.updateStatus object r.store).1]⟩)

def resolveManifest (deployment : BOSHDeployment) : Except Error Manifest :=
  match C.withOpsManifest deployment deployment.ns with
  | .error err =>
    .error (.text ("Error resolving the manifest " ++ deployment.name ++ ": " ++ err.message))
  | .ok manifest => .ok manifest

def manifestWithOpsSecret (deployment : BOSHDeployment) (manifestBytes : String) : Secret where
  name := P.deploymentSecretName P.deploymentSecretTypeManifestWithOps deployment.name ""
  ns := deployment.ns
  labels := ((∅ : StringMap String).insert P.labelDeploymentName deployment.name).insert
    P.labelDeploymentSecretType P.deploymentSecretTypeManifestWithOps
  annotations := ∅
  stringData := (∅ : StringMap String).insert "manifest.yaml" manifestBytes

def createManifestWithOps (deployment : BOSHDeployment) (manifest : Manifest) :
    ReconcileM σ (Except Error Secret) := do
  match P.marshal manifest with
  | .error err => return .error (.text
      ("Error marshaling the manifest " ++ deployment.name ++ ": " ++ err.message))
  | .ok manifestBytes =>
    let manifestSecretName :=
      P.deploymentSecretName P.deploymentSecretTypeManifestWithOps deployment.name ""
    let manifestSecret := manifestWithOpsSecret P deployment manifestBytes
    match ← setReference C (.deployment deployment) (.secret manifestSecret) with
    | some err => return .error (.text
        ("failed to set ownerReference for Secret '" ++ manifestSecretName ++ "': " ++ err.message))
    | none =>
      match ← createOrUpdate cluster (.secret manifestSecret) with
      | .error err => return .error (.text
          ("failed to apply Secret '" ++ manifestSecretName ++ "': " ++ err.message))
      | .ok _ => return .ok manifestSecret

def createQuarksSecrets (manifestSecret : Secret) :
    List QuarksSecret → ReconcileM σ (Option Error)
  | [] => return none
  | var :: vars => do
    match ← setReference C (.secret manifestSecret) (.quarksSecret var) with
    | some err => return some (.text ("failed to set ownership for " ++ var.name ++ ": " ++ err.message))
    | none =>
      match ← createOrUpdate cluster (.quarksSecret var) with
      | .error err => return some (.wrap ("creating or updating QuarksSecret '" ++ var.name ++ "'") err)
      | .ok op =>
        if op = .updated then
          match ← updateStatus cluster (.quarksSecret { var with generated := false }) with
          | some err => return some err
          | none => createQuarksSecrets manifestSecret vars
        else createQuarksSecrets manifestSecret vars

def createQuarksJob (deployment : BOSHDeployment) (qJob : QuarksJob) :
    ReconcileM σ (Option Error) := do
  match ← setReference C (.deployment deployment) (.quarksJob qJob) with
  | some err => return some (.text
      ("failed to set ownerReference for QuarksJob '" ++ qJob.name ++ "': " ++ err.message))
  | none =>
    match ← createOrUpdate cluster (.quarksJob qJob) with
    | .error err => return some (.wrap ("creating or updating QuarksJob '" ++ qJob.name ++ "'") err)
    | .ok _ => return none

def syncJobs (request : NamespacedName) (deployment : BOSHDeployment) (manifest : Manifest)
    (linkInfos : LinkInfos) : ReconcileM σ (Result × Option Error) := do
  match C.variableInterpolationJob deployment.name manifest with
  | .error err => return (⟨false, 0⟩, some (.text
      ("failed to build the desired manifest qJob: " ++ err.message)))
  | .ok qJob =>
  match ← createQuarksJob C cluster deployment qJob with
  | some err => return (⟨false, 0⟩, some (.text ("failed to create desired manifest qJob for " ++
      "BOSHDeployment '" ++ request.format ++ "': " ++ err.message)))
  | none =>
  match C.instanceGroupManifestJob deployment.name manifest linkInfos (deployment.generation == 1) with
  | .error err => return (⟨false, 0⟩, some (.text
      ("failed to build instance group manifest qJob: " ++ err.message)))
  | .ok qJob =>
  match ← createQuarksJob C cluster deployment qJob with
  | some err => return (⟨false, 0⟩, some (.text ("failed to create instance group manifest qJob " ++
      "for BOSHDeployment '" ++ request.format ++ "': " ++ err.message)))
  | none =>
  let now ← timeNow cluster
  match ← updateStatus cluster (.deployment { deployment with lastReconcile := some now }) with
  | some _ => return (⟨false, 0⟩, none)
  | none => return (⟨false, 0⟩, none)

/-- `Reconcile` from the with-ops manifest secret on. -/
def syncDerived (request : NamespacedName) (deployment : BOSHDeployment) (manifest : Manifest)
    (linkInfos : LinkInfos) : ReconcileM σ (Result × Option Error) := do
  match ← createManifestWithOps P C cluster deployment manifest with
  | .error err => return (⟨false, 0⟩, some (.text ("failed to create with-ops manifest secret " ++
      "for BOSHDeployment '" ++ request.format ++ "': " ++ err.message)))
  | .ok manifestSecret =>
  match C.convertVariables deployment.name manifest.vars with
  | .error err => return (⟨false, 0⟩, some (.text
      (Error.wrap "failed to generate quarks secrets from manifest" err).message))
  | .ok secrets =>
  match ← (if secrets.length > 0 then createQuarksSecrets C cluster manifestSecret secrets
      else pure none) with
  | some err => return (⟨false, 0⟩, some (.text ("failed to create quarks secrets for BOSH " ++
      "manifest '" ++ deployment.name ++ "': " ++ err.message)))
  | none => syncJobs C cluster request deployment manifest linkInfos

def reconcile (request : NamespacedName) : ReconcileM σ (Result × Option Error) := do
  match ← getDeployment cluster request with
  | .error err =>
    if err.isNotFound then return (⟨false, 0⟩, none)
    else return (⟨false, 0⟩, some (.text
      ("failed to get BOSHDeployment '" ++ request.format ++ "': " ++ err.message)))
  | .ok deployment =>
  if P.meltdownContains config.meltdownDuration deployment.lastReconcile (← timeNow cluster) then
    return (⟨false, config.meltdownRequeueAfter⟩, none)
  match resolveManifest C deployment with
  | .error err => return (⟨false, 0⟩, some (.text ("failed to get with-ops manifest for " ++
      "BOSHDeployment '" ++ request.format ++ "': " ++ err.message)))
  | .ok manifest =>
  let linked ← withListing cluster (listLinkInfos P deployment orders manifest)
  match linked.err with
  | some err => return (⟨false, 0⟩, some (.text ("failed to list quarks-link secrets for " ++
      "BOSHDeployment '" ++ request.format ++ "': " ++ err.message)))
  | none => syncDerived P C cluster request deployment linked.manifest linked.linkInfos

end

end CfOperator
