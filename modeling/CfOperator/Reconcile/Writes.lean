import CfOperator.Reconcile.Steps

namespace CfOperator.Writes

open Steps

/-- The objects a reconcile of `deployment` syncs once its link resolution has left `manifest`
and `linkInfos`, each as its collaborator produces it. -/
structure Plan where
  deployment : BOSHDeployment
  manifestSecret : Except Error Secret
  quarksSecrets : Except Error (List QuarksSecret)
  interpolationJob : Except Error QuarksJob
  instanceGroupJob : Except Error QuarksJob

def Plan.of (P : Packages) (C : Collaborators) (deployment : BOSHDeployment)
    (manifest : Manifest) (linkInfos : LinkInfos) : Plan where
  deployment := deployment
  manifestSecret := manifestWithOpsSecret P deployment <$> P.marshal manifest
  quarksSecrets := C.convertVariables deployment.name manifest.vars
  interpolationJob := C.variableInterpolationJob deployment.name manifest
  instanceGroupJob :=
    C.instanceGroupManifestJob deployment.name manifest linkInfos (deployment.generation == 1)

inductive WriteStage where
  | manifestSecret
  | quarksSecrets (rest : List QuarksSecret)
  | statusReset (var : QuarksSecret) (rest : List QuarksSecret)
  | instanceGroupJob
  | deploymentStatus
  | stopped
  deriving DecidableEq

/-- The writes of a reconcile in the order it must make them: the manifest-with-ops secret,
each QuarksSecret followed by the reset of its status exactly when its write reported an
update, the two jobs, and the deployment's status. A failed write stops the sequence. -/
def WriteStage.next (plan : Plan) : WriteStage → Event → Option WriteStage
  | .manifestSecret, .createOrUpdate (.secret s) result =>
    if plan.manifestSecret = .ok s then
      some (match result, plan.quarksSecrets with
        | .ok _, .ok vars => .quarksSecrets vars
        | _, _ => .stopped)
    else none
  | .quarksSecrets (var :: rest), .createOrUpdate (.quarksSecret q) result =>
    if q = var then
      some (match result with
        | .ok .updated => .statusReset var rest
        | .ok _ => .quarksSecrets rest
        | .error _ => .stopped)
    else none
  | .statusReset var rest, .updateStatus (.quarksSecret q) result =>
    if q = { var with generated := false } then
      some (if result = none then .quarksSecrets rest else .stopped)
    else none
  | .quarksSecrets [], .createOrUpdate (.quarksJob qJob) result =>
    if plan.interpolationJob = .ok qJob then
      some (match result with
        | .ok _ => .instanceGroupJob
        | .error _ => .stopped)
    else none
  | .instanceGroupJob, .createOrUpdate (.quarksJob qJob) result =>
    if plan.instanceGroupJob = .ok qJob then
      some (match result with
        | .ok _ => .deploymentStatus
        | .error _ => .stopped)
    else none
  | .deploymentStatus, .updateStatus (.deployment d) _ =>
    if d = { plan.deployment with lastReconcile := d.lastReconcile } ∧ d.lastReconcile.isSome
    then some .stopped else none
  | _, _ => none

def WriteStage.Pending : WriteStage → Prop
  | .statusReset .. => True
  | _ => False

def WriteStage.after (plan : Plan) (stage : WriteStage) (events : List Event) :
    Option WriteStage :=
  (events.filter Event.isWrite).foldlM (WriteStage.next plan) stage

variable {plan : Plan}

namespace WriteStage

@[simp] theorem after_nil (stage : WriteStage) : stage.after plan [] = some stage := rfl

theorem after_append (stage : WriteStage) (xs ys : List Event) :
    stage.after plan (xs ++ ys) = (stage.after plan xs).bind fun s => s.after plan ys := by
  simp only [after, List.filter_append, List.foldlM_append]
  rfl

@[simp] theorem after_cons_of_isWrite {e : Event} (h : e.isWrite) (stage : WriteStage)
    (events : List Event) :
    stage.after plan (e :: events) = (stage.next plan e).bind fun s => s.after plan events := by
  simp only [after, List.filter_cons, h, if_true, List.foldlM_cons]
  rfl

@[simp] theorem after_cons_of_not_isWrite {e : Event} (h : e.isWrite = false)
    (stage : WriteStage) (events : List Event) :
    stage.after plan (e :: events) = stage.after plan events := by
  simp [after, List.filter_cons, h]

@[simp] theorem after_map_list_append (stage : WriteStage) (calls : List ListCall)
    (events : List Event) :
    stage.after plan (calls.map .list ++ events) = stage.after plan events := by
  induction calls with
  | nil => rfl
  | cons call calls ih => exact (after_cons_of_not_isWrite (e := .list call) rfl _ _).trans ih

theorem next_manifestSecret {s : Secret} (h : plan.manifestSecret = .ok s)
    (result : Except Error OperationResult) :
    manifestSecret.next plan (.createOrUpdate (.secret s) result) =
      some (match result, plan.quarksSecrets with
        | .ok _, .ok vars => .quarksSecrets vars
        | _, _ => .stopped) := if_pos h

theorem next_quarksSecret (var : QuarksSecret) (rest : List QuarksSecret)
    (result : Except Error OperationResult) :
    (quarksSecrets (var :: rest)).next plan (.createOrUpdate (.quarksSecret var) result) =
      some (match result with
        | .ok .updated => .statusReset var rest
        | .ok _ => .quarksSecrets rest
        | .error _ => .stopped) := if_pos rfl

theorem next_statusReset (var : QuarksSecret) (rest : List QuarksSecret) (result : Option Error) :
    (statusReset var rest).next plan
      (.updateStatus (.quarksSecret { var with generated := false }) result) =
      some (if result = none then .quarksSecrets rest else .stopped) := if_pos rfl

theorem next_interpolationJob {qJob : QuarksJob} (h : plan.interpolationJob = .ok qJob)
    (result : Except Error OperationResult) :
    (quarksSecrets []).next plan (.createOrUpdate (.quarksJob qJob) result) =
      some (match result with
        | .ok _ => .instanceGroupJob
        | .error _ => .stopped) := if_pos h

theorem next_instanceGroupJob {qJob : QuarksJob} (h : plan.instanceGroupJob = .ok qJob)
    (result : Except Error OperationResult) :
    instanceGroupJob.next plan (.createOrUpdate (.quarksJob qJob) result) =
      some (match result with
        | .ok _ => .deploymentStatus
        | .error _ => .stopped) := if_pos h

theorem next_deploymentStatus {deployment : BOSHDeployment} (h : plan.deployment = deployment)
    (t : Time) (result : Option Error) :
    deploymentStatus.next plan
      (.updateStatus (.deployment { deployment with lastReconcile := some t }) result) =
      some .stopped := by
  subst h
  exact if_pos ⟨rfl, rfl⟩

end WriteStage

variable {σ : Type} {P : Packages} {C : Collaborators} {cluster : Cluster σ}

@[simp] theorem isWrite_createOrUpdate (object : Object) (result : Except Error OperationResult) :
    (Event.createOrUpdate object result).isWrite := rfl

@[simp] theorem isWrite_updateStatus (object : Object) (result : Option Error) :
    (Event.updateStatus object result).isWrite := rfl

@[simp] theorem isWrite_setReference (owner object : Object) (result : Option Error) :
    (Event.setReference owner object result).isWrite = false := rfl

@[simp] theorem isWrite_get (key : NamespacedName) : (Event.get key).isWrite = false := rfl

@[simp] theorem isWrite_list (call : ListCall) : (Event.list call).isWrite = false := rfl

theorem after_refThenWrite (stage : WriteStage) (owner object : Object) (s : σ) :
    stage.after plan (refThenWrite C cluster owner object s) =
      match C.setReference owner object with
      | some _ => some stage
      | none => stage.next plan (.createOrUpdate object (cluster.createOrUpdate object s).1) := by
  unfold refThenWrite
  rcases C.setReference owner object with _ | err
  · simp only [WriteStage.after_cons_of_not_isWrite, isWrite_setReference,
      WriteStage.after_cons_of_isWrite, isWrite_createOrUpdate, WriteStage.after_nil]
    cases stage.next plan _ <;> rfl
  · simp

theorem after_refThenWrite_of_next (plan : Plan) (stage next : WriteStage) (owner object : Object)
    (s : σ) (hnext : ∀ result, stage.next plan (.createOrUpdate object result) =
      some (match result with | .ok _ => next | .error _ => .stopped)) :
    ∃ stage', stage.after plan (refThenWrite C cluster owner object s) = some stage' ∧
      (¬ stage.Pending → ¬ next.Pending → ¬ stage'.Pending) ∧
      (Written C cluster owner object s → stage' = next) := by
  rw [after_refThenWrite]
  unfold Written
  rcases C.setReference owner object with _ | err
  · rcases (cluster.createOrUpdate object s).1 with err | op
    · exact ⟨.stopped, hnext _, fun _ _ => nofun, by simp [Except.toBool]⟩
    · exact ⟨next, hnext _, fun _ h => h, fun _ => rfl⟩
  · exact ⟨stage, rfl, fun h _ => h, by simp⟩

theorem createQuarksSecrets_writes (manifestSecret : Secret) :
    ∀ (vars : List QuarksSecret) (r : Run σ), ∃ events,
      (createQuarksSecrets C cluster manifestSecret vars r).2.events = r.events ++ events ∧
      (∀ d result, Event.updateStatus (.deployment d) result ∉ events) ∧
      ∃ stage, (WriteStage.quarksSecrets vars).after plan events = some stage ∧ ¬ stage.Pending ∧
        ((createQuarksSecrets C cluster manifestSecret vars r).1 = none →
          stage = .quarksSecrets [])
  | [], r => ⟨[], by simp [createQuarksSecrets], by simp, _, rfl, nofun, fun _ => rfl⟩
  | var :: vars, r => by
    rcases createQuarksSecrets_cons manifestSecret var vars r with
      ⟨hw, hsome, he⟩ | ⟨op, s, hr, hc, h⟩
    · refine ⟨_, by rw [he], fun _ _ => updateStatus_not_mem_refThenWrite _ _ _ _ _, ?_⟩
      rw [after_refThenWrite]
      unfold Written at hw
      rcases hr : C.setReference (.secret manifestSecret) (.quarksSecret var) with _ | err
      · rcases hc : cluster.createOrUpdate (.quarksSecret var) r.store with ⟨err | op, s⟩
        · exact ⟨.stopped, WriteStage.next_quarksSecret _ _ _, nofun,
            fun h => absurd h (Option.isSome_iff_ne_none.mp hsome)⟩
        · exact (hw ⟨hr, by rw [hc]; rfl⟩).elim
      · exact ⟨_, rfl, nofun, fun h => absurd h (Option.isSome_iff_ne_none.mp hsome)⟩
    have hstep : (WriteStage.quarksSecrets (var :: vars)).after plan
        (refThenWrite C cluster (.secret manifestSecret) (.quarksSecret var) r.store) =
        some (if op = .updated then .statusReset var vars else .quarksSecrets vars) := by
      rw [after_refThenWrite, hr, hc, WriteStage.next_quarksSecret]
      cases op <;> rfl
    split_ifs at h hstep with hop
    · rcases h with ⟨hu, hsome, he⟩ | ⟨hu, he⟩
      · refine ⟨_, by rw [he, List.append_assoc], by simp, .stopped, ?_, nofun,
          fun h => absurd h (Option.isSome_iff_ne_none.mp hsome)⟩
        rw [WriteStage.after_append, hstep, Option.some_bind,
          WriteStage.after_cons_of_isWrite (isWrite_updateStatus _ _), WriteStage.next_statusReset,
          if_neg (Option.isSome_iff_ne_none.mp hu)]
        rfl
      · obtain ⟨events, he', hd, stage, hs, hp, hn⟩ :=
          createQuarksSecrets_writes manifestSecret vars _
        rw [he]
        refine ⟨_, by rw [he', List.append_assoc, List.append_assoc],
          by simpa using hd, stage, ?_, hp, hn⟩
        rw [WriteStage.after_append, hstep, Option.some_bind, List.singleton_append,
          WriteStage.after_cons_of_isWrite (isWrite_updateStatus _ _), WriteStage.next_statusReset,
          if_pos rfl, Option.some_bind]
        exact hs
    · obtain ⟨events, he', hd, stage, hs, hp, hn⟩ := createQuarksSecrets_writes manifestSecret vars _
      rw [h]
      refine ⟨_, by rw [he', List.append_assoc], by simpa using hd, stage, ?_, hp, hn⟩
      rw [WriteStage.after_append, hstep]
      exact hs

theorem syncJobs_writes (request : NamespacedName) (deployment : BOSHDeployment)
    (manifest : Manifest) (linkInfos : LinkInfos) (r : Run σ) :
    ∃ events, (syncJobs C cluster request deployment manifest linkInfos r).2.events =
        r.events ++ events ∧
      ∃ stage, (WriteStage.quarksSecrets []).after (Plan.of P C deployment manifest linkInfos)
          events = some stage ∧ ¬ stage.Pending ∧
        ((syncJobs C cluster request deployment manifest linkInfos r).1.2 = none ↔
          ∃ d result, Event.updateStatus (.deployment d) result ∈ events) := by
  unfold syncJobs
  rcases hv : C.variableInterpolationJob deployment.name manifest with err | job₁
  · exact ⟨[], by simp, _, rfl, nofun, by simp⟩
  simp only [ReconcileM.bind_run]
  obtain ⟨he₁, hw₁⟩ := @createQuarksJob_run _ C cluster deployment job₁ r
  obtain ⟨st₁, hs₁, hp₁, hn₁⟩ := @after_refThenWrite_of_next _ C cluster
    (Plan.of P C deployment manifest linkInfos) (.quarksSecrets []) .instanceGroupJob
    (.deployment deployment) (.quarksJob job₁) r.store (WriteStage.next_interpolationJob hv)
  rcases hj₁ : (createQuarksJob C cluster deployment job₁ r).1 with _ | err
  swap
  · exact ⟨_, by simp [he₁], st₁, hs₁, hp₁ nofun nofun, by simp⟩
  rw [he₁]
  rcases hg : C.instanceGroupManifestJob deployment.name manifest linkInfos
    (deployment.generation == 1) with err | job₂
  · exact ⟨_, rfl, st₁, hs₁, hp₁ nofun nofun, by simp⟩
  simp only [ReconcileM.bind_run]
  obtain ⟨he₂, hw₂⟩ := @createQuarksJob_run _ C cluster deployment job₂
    ⟨storeAfter C cluster (.deployment deployment) (.quarksJob job₁) r.store,
      r.events ++ refThenWrite C cluster (.deployment deployment) (.quarksJob job₁) r.store⟩
  obtain ⟨st₂, hs₂, hp₂, hn₂⟩ := @after_refThenWrite_of_next _ C cluster
    (Plan.of P C deployment manifest linkInfos) .instanceGroupJob .deploymentStatus
    (.deployment deployment) (.quarksJob job₂)
    (storeAfter C cluster (.deployment deployment) (.quarksJob job₁) r.store)
    (WriteStage.next_instanceGroupJob hg)
  obtain rfl := hn₁ (hw₁.mp hj₁)
  rcases hj₂ : (createQuarksJob C cluster deployment job₂ _).1 with _ | err
  swap
  · rw [he₂]
    refine ⟨_, List.append_assoc _ _ _, st₂, ?_, hp₂ nofun nofun, by simp⟩
    rw [WriteStage.after_append, hs₁]
    exact hs₂
  obtain rfl := hn₂ (hw₂.mp hj₂)
  rw [he₂]
  simp only [ReconcileM.bind_run, timeNow_run, updateStatus_run]
  generalize cluster.updateStatus _ _ = u
  rcases u with ⟨_ | err, s⟩
  all_goals
    simp only [ReconcileM.pure_run]
    refine ⟨_, (List.append_assoc _ _ _).trans (List.append_assoc _ _ _), .stopped, ?_, nofun,
      by simp⟩
    rw [WriteStage.after_append, hs₁, Option.some_bind, WriteStage.after_append, hs₂,
      Option.some_bind, WriteStage.after_cons_of_isWrite (isWrite_updateStatus _ _),
      @WriteStage.next_deploymentStatus (Plan.of P C deployment manifest linkInfos) deployment rfl]
    rfl

theorem syncDerived_writes (request : NamespacedName) (deployment : BOSHDeployment)
    (manifest : Manifest) (linkInfos : LinkInfos) (r : Run σ) :
    ∃ events, (syncDerived P C cluster request deployment manifest linkInfos r).2.events =
        r.events ++ events ∧
      ∃ stage, WriteStage.manifestSecret.after (Plan.of P C deployment manifest linkInfos)
          events = some stage ∧ ¬ stage.Pending ∧
        ((syncDerived P C cluster request deployment manifest linkInfos r).1.2 = none ↔
          ∃ d result, Event.updateStatus (.deployment d) result ∈ events) := by
  unfold syncDerived
  simp only [ReconcileM.bind_run]
  obtain ⟨he, hok⟩ := @createManifestWithOps_run _ P C cluster deployment manifest r
  rcases hb : P.marshal manifest with err | manifestBytes
  · rcases hm : (createManifestWithOps P C cluster deployment manifest r).1 with err' | ms
    · exact ⟨[], by simp [he, hb], _, rfl, nofun, by simp⟩
    · obtain ⟨_, h, -⟩ := (hok ms).mp hm
      simp [hb] at h
  simp only [hb] at he
  have hms : (Plan.of P C deployment manifest linkInfos).manifestSecret =
      .ok (manifestWithOpsSecret P deployment manifestBytes) :=
    congrArg (manifestWithOpsSecret P deployment <$> ·) hb
  rcases hv : C.convertVariables deployment.name manifest.vars with err | vars
  all_goals
    obtain ⟨st, hs, hp, hn⟩ := @after_refThenWrite_of_next _ C cluster
      (Plan.of P C deployment manifest linkInfos) .manifestSecret
      (match C.convertVariables deployment.name manifest.vars with
        | .ok vars => .quarksSecrets vars | .error _ => .stopped)
      (.deployment deployment) (.secret (manifestWithOpsSecret P deployment manifestBytes)) r.store
      fun result => by
        rw [WriteStage.next_manifestSecret hms]
        cases result <;> simp only [Plan.of, hv]
    simp only [hv] at hp hn
    rcases hm : (createManifestWithOps P C cluster deployment manifest r).1 with err' | ms
    · exact ⟨_, by simp [he], st, hs, hp nofun nofun, by simp⟩
    obtain ⟨_, hb', rfl, hw⟩ := (hok ms).mp hm
    obtain rfl := Except.ok.inj (hb.symm.trans hb')
    obtain rfl := hn hw
  · exact ⟨_, by simp [he], _, hs, nofun, by simp⟩
  obtain ⟨r₁, hr₁, hev₁⟩ :
      ∃ r₁, (createManifestWithOps P C cluster deployment manifest r).2 = r₁ ∧
        r₁.events = r.events ++ refThenWrite C cluster (.deployment deployment)
          (.secret (manifestWithOpsSecret P deployment manifestBytes)) r.store := ⟨_, he, rfl⟩
  simp only [hr₁, ite_createQuarksSecrets, ReconcileM.bind_run]
  obtain ⟨events, he', hd, stage, hs', hp', hn'⟩ := @createQuarksSecrets_writes
    (Plan.of P C deployment manifest linkInfos) _ C cluster
    (manifestWithOpsSecret P deployment manifestBytes) vars r₁
  rw [hev₁] at he'
  rcases hq : (createQuarksSecrets C cluster (manifestWithOpsSecret P deployment manifestBytes)
    vars r₁).1 with _ | err
  swap
  · simp only [ReconcileM.pure_run, he']
    refine ⟨_, List.append_assoc _ _ _, stage, ?_, hp', by simp [hd]⟩
    rw [WriteStage.after_append, hs, Option.some_bind, hs']
  obtain rfl := hn' hq
  obtain ⟨events', he'', stage', hs'', hp'', hu⟩ :=
    @syncJobs_writes _ P C cluster request deployment manifest linkInfos
      (createQuarksSecrets C cluster (manifestWithOpsSecret P deployment manifestBytes) vars r₁).2
  simp only [he'', he']
  refine ⟨_, (List.append_assoc _ _ _).trans (List.append_assoc _ _ _), stage', ?_, hp'', ?_⟩
  · rw [WriteStage.after_append, hs, Option.some_bind, WriteStage.after_append, hs',
      Option.some_bind, hs'']
  · simp [hu, hd]

/-- A reconcile writes nothing unless it finds the deployment outside its meltdown window and
resolves its manifest and links; its writes then follow the plan for that deployment. It
reports no error exactly when the deployment is gone or in meltdown, or when it reached the
deployment's status update. -/
theorem reconcile_writes_in_order (config : Config) (orders : RangeOrders)
    (request : NamespacedName) (r : Run σ) :
    ∃ events, (reconcile P C cluster config orders request r).2.events = r.events ++ events ∧
      ((∀ e ∈ events, e.isWrite = false) ∨
        ∃ deployment manifest linked, cluster.get request r.store = .ok deployment ∧
          P.meltdownContains config.meltdownDuration deployment.lastReconcile
            (cluster.now r.store) = false ∧
          resolveManifest C deployment = .ok manifest ∧
          (listLinkInfos P deployment orders manifest (cluster.listing r.store)).1 = linked ∧
          linked.err = none ∧
          ∃ stage, WriteStage.manifestSecret.after
            (Plan.of P C deployment linked.manifest linked.linkInfos) events = some stage ∧
            ¬ stage.Pending) ∧
      ((reconcile P C cluster config orders request r).1.2 = none ↔
        (∃ err, cluster.get request r.store = .error err ∧ err.isNotFound) ∨
        (∃ deployment, cluster.get request r.store = .ok deployment ∧
          P.meltdownContains config.meltdownDuration deployment.lastReconcile (cluster.now r.store)) ∨
        ∃ deployment result, Event.updateStatus (.deployment deployment) result ∈ events) := by
  rcases reconcile_cases P config orders request r with
    ⟨err, hg, h, he⟩ | ⟨deployment, hg, hm, h, he⟩ | ⟨deployment, err, hg, hm, -, h, he⟩ |
      ⟨deployment, manifest, err, hg, hm, -, -, h, he⟩ |
      ⟨deployment, manifest, hg, hm, hres, hl, he⟩
  · exact ⟨[.get request], by rw [he], .inl (by simp),
      by by_cases hn : err.isNotFound <;> simp [h, hn, hg]⟩
  · exact ⟨[.get request], by rw [he], .inl (by simp), by simp [h, hg, hm]⟩
  · exact ⟨[.get request], by rw [he], .inl (by simp), by simp [h, hg, hm]⟩
  · exact ⟨_, by rw [he, List.append_assoc], .inl (by simp), by simp [h, hg, hm]⟩
  obtain ⟨events, he', stage, hs, hp, hu⟩ := @syncDerived_writes _ P C cluster request deployment
    (listLinkInfos P deployment orders manifest (cluster.listing r.store)).1.manifest
    (listLinkInfos P deployment orders manifest (cluster.listing r.store)).1.linkInfos
    ⟨r.store, r.events ++ [.get request] ++
      (listLinkInfos P deployment orders manifest (cluster.listing r.store)).2.map .list⟩
  rw [he, he', hu]
  refine ⟨_, (List.append_assoc _ _ _).trans (List.append_assoc _ _ _),
    .inr ⟨deployment, manifest, _, hg, hm, hres, rfl, hl, stage, by simpa using hs, hp⟩, ?_⟩
  simp [hg, hm]

theorem reconcile_succeeds_of_status (config : Config) (orders : RangeOrders)
    (request : NamespacedName) (r : Run σ)
    (hno : ∀ d result, Event.updateStatus (.deployment d) result ∉ r.events)
    (h : ∃ d result, Event.updateStatus (.deployment d) result ∈
      (reconcile P C cluster config orders request r).2.events) :
    (reconcile P C cluster config orders request r).1.2 = none := by
  obtain ⟨events, he, -, hiff⟩ := reconcile_writes_in_order config orders request r
  obtain ⟨d, result, h⟩ := h
  rw [he, List.mem_append] at h
  exact hiff.mpr (.inr (.inr ⟨d, result, h.resolve_left (hno d result)⟩))

end CfOperator.Writes
