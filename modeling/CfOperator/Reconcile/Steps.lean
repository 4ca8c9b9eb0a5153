import CfOperator.Reconcile

namespace CfOperator.Steps

variable {σ : Type} (P : Packages) (C : Collaborators) (cluster : Cluster σ)

@[simp] theorem getDeployment_run (key : NamespacedName) (r : Run σ) :
    getDeployment cluster key r =
      (cluster.get key r.store, ⟨r.store, r.events ++ [.get key]⟩) := rfl

@[simp] theorem timeNow_run (r : Run σ) : timeNow cluster r = (cluster.now r.store, r) := rfl

@[simp] theorem withListing_run {α : Type} (m : LinkM α) (r : Run σ) :
    withListing cluster m r = ((m (cluster.listing r.store)).1,
      ⟨r.store, r.events ++ (m (cluster.listing r.store)).2.map .list⟩) := rfl

@[simp] theorem setReference_run (owner object : Object) (r : Run σ) :
    setReference C owner object r = (C.setReference owner object,
      ⟨r.store, r.events ++ [.setReference owner object (C.setReference owner object)]⟩) := rfl

@[simp] theorem createOrUpdate_run (object : Object) (r : Run σ) :
    createOrUpdate cluster object r = ((cluster.createOrUpdate object r.store).1,
      ⟨(cluster.createOrUpdate object r.store).2,
        r.events ++ [.createOrUpdate object (cluster.createOrUpdate object r.store).1]⟩) := rfl

@[simp] theorem updateStatus_run (object : Object) (r : Run σ) :
    updateStatus cluster object r = ((cluster.updateStatus object r.store).1,
      ⟨(cluster.updateStatus object r.store).2,
        r.events ++ [.updateStatus object (cluster.updateStatus object r.store).1]⟩) := rfl

/-- The calls of `setReference` and then, when it succeeds, `CreateOrUpdate` of `object`
under `owner`, on a store in state `s`. -/
def refThenWrite (owner object : Object) (s : σ) : List Event :=
  .setReference owner object (C.setReference owner object) ::
    match C.setReference owner object with
    | some _ => []
    | none => [.createOrUpdate object (cluster.createOrUpdate object s).1]

def storeAfter (owner object : Object) (s : σ) : σ :=
  match C.setReference owner object with
  | some _ => s
  | none => (cluster.createOrUpdate object s).2

def Written (owner object : Object) (s : σ) : Prop :=
  C.setReference owner object = none ∧ (cluster.createOrUpdate object s).1.toBool

variable {C cluster}

@[simp] theorem updateStatus_not_mem_refThenWrite (owner object object' : Object) (s : σ)
    (result : Option Error) :
    Event.updateStatus object' result ∉ refThenWrite C cluster owner object s := by
  unfold refThenWrite
  split <;> simp

@[simp] theorem setReference_mem_refThenWrite (owner object owner' object' : Object) (s : σ)
    (result : Option Error) :
    Event.setReference owner' object' result ∈ refThenWrite C cluster owner object s ↔
      owner' = owner ∧ object' = object ∧ result = C.setReference owner object := by
  unfold refThenWrite
  split <;> simp

@[simp] theorem createOrUpdate_mem_refThenWrite (owner object object' : Object) (s : σ)
    (result : Except Error OperationResult) :
    Event.createOrUpdate object' result ∈ refThenWrite C cluster owner object s ↔
      C.setReference owner object = none ∧ object' = object ∧
        result = (cluster.createOrUpdate object s).1 := by
  unfold refThenWrite
  split <;> simp [*]

theorem Written.createOrUpdate_ok {owner object : Object} {s : σ}
    (hw : Written C cluster owner object s) : ∃ op, (cluster.createOrUpdate object s).1 = .ok op := by
  rcases h : (cluster.createOrUpdate object s).1 with err | op
  · simp [Written, h, Except.toBool] at hw
  · exact ⟨op, rfl⟩

theorem ite_createQuarksSecrets (manifestSecret : Secret) (vars : List QuarksSecret) :
    (if vars.length > 0 then createQuarksSecrets C cluster manifestSecret vars else pure none) =
      createQuarksSecrets C cluster manifestSecret vars := by
  cases vars <;> simp [createQuarksSecrets]

theorem createQuarksJob_run (deployment : BOSHDeployment) (qJob : QuarksJob) (r : Run σ) :
    (createQuarksJob C cluster deployment qJob r).2 =
      ⟨storeAfter C cluster (.deployment deployment) (.quarksJob qJob) r.store,
        r.events ++ refThenWrite C cluster (.deployment deployment) (.quarksJob qJob) r.store⟩ ∧
    ((createQuarksJob C cluster deployment qJob r).1 = none ↔
      Written C cluster (.deployment deployment) (.quarksJob qJob) r.store) := by
  unfold createQuarksJob refThenWrite storeAfter Written
  simp only [ReconcileM.bind_run, setReference_run]
  rcases C.setReference (.deployment deployment) (.quarksJob qJob) with _ | err
  · simp only [ReconcileM.bind_run, createOrUpdate_run]
    generalize cluster.createOrUpdate (.quarksJob qJob) r.store = c
    rcases c with ⟨err | op, s⟩ <;> simp [Except.toBool, List.append_assoc]
  · simp

theorem createManifestWithOps_run (deployment : BOSHDeployment) (manifest : Manifest)
    (r : Run σ) :
    (createManifestWithOps P C cluster deployment manifest r).2 =
      (match P.marshal manifest with
        | .error _ => r
        | .ok manifestBytes =>
          let object := Object.secret (manifestWithOpsSecret P deployment manifestBytes)
          ⟨storeAfter C cluster (.deployment deployment) object r.store,
            r.events ++ refThenWrite C cluster (.deployment deployment) object r.store⟩) ∧
    ∀ manifestSecret, (createManifestWithOps P C cluster deployment manifest r).1 =
      .ok manifestSecret ↔ ∃ manifestBytes, P.marshal manifest = .ok manifestBytes ∧
        manifestWithOpsSecret P deployment manifestBytes = manifestSecret ∧
        Written C cluster (.deployment deployment) (.secret manifestSecret) r.store := by
  unfold createManifestWithOps refThenWrite storeAfter Written
  rcases P.marshal manifest with err | manifestBytes
  · simp
  simp only [ReconcileM.bind_run, setReference_run]
  rcases hr : C.setReference (.deployment deployment) (.secret (manifestWithOpsSecret P deployment
    manifestBytes)) with _ | err
  · simp only [ReconcileM.bind_run, createOrUpdate_run]
    generalize hc : cluster.createOrUpdate (.secret (manifestWithOpsSecret P deployment
      manifestBytes)) r.store = c
    rcases c with ⟨err | op, s⟩ <;> simp [Except.toBool, List.append_assoc, hr, hc]
  · simp [hr]

theorem createQuarksSecrets_cons (manifestSecret : Secret) (var : QuarksSecret)
    (vars : List QuarksSecret) (r : Run σ) :
    let owner := Object.secret manifestSecret
    let reset := Object.quarksSecret { var with generated := false }
    let events := r.events ++ refThenWrite C cluster owner (.quarksSecret var) r.store
    (¬ Written C cluster owner (.quarksSecret var) r.store ∧
      (createQuarksSecrets C cluster manifestSecret (var :: vars) r).1.isSome ∧
      (createQuarksSecrets C cluster manifestSecret (var :: vars) r).2 =
        ⟨storeAfter C cluster owner (.quarksSecret var) r.store, events⟩) ∨
    ∃ op s, C.setReference owner (.quarksSecret var) = none ∧
      cluster.createOrUpdate (.quarksSecret var) r.store = (.ok op, s) ∧
      if op = .updated then
        ((cluster.updateStatus reset s).1.isSome ∧
          (createQuarksSecrets C cluster manifestSecret (var :: vars) r).1.isSome ∧
          (createQuarksSecrets C cluster manifestSecret (var :: vars) r).2 =
            ⟨(cluster.updateStatus reset s).2,
              events ++ [.updateStatus reset (cluster.updateStatus reset s).1]⟩) ∨
        ((cluster.updateStatus reset s).1 = none ∧
          createQuarksSecrets C cluster manifestSecret (var :: vars) r =
            createQuarksSecrets C cluster manifestSecret vars
              ⟨(cluster.updateStatus reset s).2, events ++ [.updateStatus reset none]⟩)
      else createQuarksSecrets C cluster manifestSecret (var :: vars) r =
        createQuarksSecrets C cluster manifestSecret vars ⟨s, events⟩ := by
  intro owner reset events
  simp only [events, refThenWrite, storeAfter, Written, createQuarksSecrets, ReconcileM.bind_run,
    setReference_run]
  rcases hr : C.setReference owner (.quarksSecret var) with _ | err
  · simp only [ReconcileM.bind_run, createOrUpdate_run]
    generalize cluster.createOrUpdate (.quarksSecret var) r.store = c
    rcases c with ⟨err | op, s⟩
    · exact .inl ⟨by simp [Except.toBool], rfl, by simp⟩
    refine .inr ⟨op, s, trivial, rfl, ?_⟩
    by_cases hop : op = .updated
    · simp only [hop, if_true, ReconcileM.bind_run, updateStatus_run]
      rcases hu : cluster.updateStatus reset s with ⟨_ | err, s'⟩
      · exact .inr ⟨rfl, by simp [List.append_assoc]⟩
      · exact .inl ⟨rfl, rfl, by simp [List.append_assoc]⟩
    · simp [hop, List.append_assoc]
  · exact .inl ⟨by simp, rfl, by simp⟩

theorem reconcile_cases (config : Config) (orders : RangeOrders) (request : NamespacedName)
    (r : Run σ) :
    (∃ err, cluster.get request r.store = .error err ∧
      (reconcile P C cluster config orders request r).1 = (⟨false, 0⟩,
        if err.isNotFound then none else some (.text
          ("failed to get BOSHDeployment '" ++ request.format ++ "': " ++ err.message))) ∧
      (reconcile P C cluster config orders request r).2 = ⟨r.store, r.events ++ [.get request]⟩) ∨
    (∃ deployment, cluster.get request r.store = .ok deployment ∧
      P.meltdownContains config.meltdownDuration deployment.lastReconcile (cluster.now r.store) ∧
      (reconcile P C cluster config orders request r).1 =
        (⟨false, config.meltdownRequeueAfter⟩, none) ∧
      (reconcile P C cluster config orders request r).2 = ⟨r.store, r.events ++ [.get request]⟩) ∨
    (∃ deployment err, cluster.get request r.store = .ok deployment ∧
      P.meltdownContains config.meltdownDuration deployment.lastReconcile (cluster.now r.store) =
        false ∧
      resolveManifest C deployment = .error err ∧
      (reconcile P C cluster config orders request r).1 = (⟨false, 0⟩, some (.text
        ("failed to get with-ops manifest for " ++ "BOSHDeployment '" ++ request.format ++ "': " ++
          err.message))) ∧
      (reconcile P C cluster config orders request r).2 = ⟨r.store, r.events ++ [.get request]⟩) ∨
    (∃ deployment manifest err, cluster.get request r.store = .ok deployment ∧
      P.meltdownContains config.meltdownDuration deployment.lastReconcile (cluster.now r.store) =
        false ∧
      resolveManifest C deployment = .ok manifest ∧
      (listLinkInfos P deployment orders manifest (cluster.listing r.store)).1.err = some err ∧
      (reconcile P C cluster config orders request r).1 = (⟨false, 0⟩, some (.text
        ("failed to list quarks-link secrets for " ++ "BOSHDeployment '" ++ request.format ++
          "': " ++ err.message))) ∧
      (reconcile P C cluster config orders request r).2 = ⟨r.store, r.events ++ [.get request] ++
        (listLinkInfos P deployment orders manifest (cluster.listing r.store)).2.map .list⟩) ∨
    ∃ deployment manifest, cluster.get request r.store = .ok deployment ∧
      P.meltdownContains config.meltdownDuration deployment.lastReconcile (cluster.now r.store) =
        false ∧
      resolveManifest C deployment = .ok manifest ∧
      (listLinkInfos P deployment orders manifest (cluster.listing r.store)).1.err = none ∧
      reconcile P C cluster config orders request r =
        syncDerived P C cluster request deployment
          (listLinkInfos P deployment orders manifest (cluster.listing r.store)).1.manifest
          (listLinkInfos P deployment orders manifest (cluster.listing r.store)).1.linkInfos
          ⟨r.store, r.events ++ [.get request] ++
            (listLinkInfos P deployment orders manifest (cluster.listing r.store)).2.map .list⟩ := by
  unfold reconcile
  simp only [ReconcileM.bind_run, getDeployment_run]
  rcases hg : cluster.get request r.store with err | deployment
  · refine .inl ⟨err, rfl, ?_⟩
    by_cases hn : err.isNotFound <;> simp [hn]
  simp only [ReconcileM.bind_run, timeNow_run]
  by_cases hm : P.meltdownContains config.meltdownDuration deployment.lastReconcile
    (cluster.now r.store)
  · refine .inr (.inl ⟨deployment, rfl, hm, ?_⟩)
    simp only [hm]
    exact ⟨rfl, rfl⟩
  have hm' := Bool.of_not_eq_true hm
  rw [if_neg hm]
  simp only [ReconcileM.bind_run, ReconcileM.pure_run]
  rcases hres : resolveManifest C deployment with err | manifest
  · exact .inr (.inr (.inl ⟨deployment, err, rfl, hm', hres, rfl, rfl⟩))
  simp only [ReconcileM.bind_run, withListing_run]
  rcases hl : (listLinkInfos P deployment orders manifest (cluster.listing r.store)).1.err with
    _ | err
  · exact .inr (.inr (.inr (.inr ⟨deployment, manifest, rfl, hm', hres, hl, rfl⟩)))
  · exact .inr (.inr (.inr (.inl ⟨deployment, manifest, err, rfl, hm', hres, hl, rfl, rfl⟩)))

end CfOperator.Steps
