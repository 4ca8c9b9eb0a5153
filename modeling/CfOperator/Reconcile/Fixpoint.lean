import CfOperator.Reconcile.Store
import CfOperator.Reconcile.Writes

namespace CfOperator.Fixpoint

open Steps Writes

/-- The store holds the derived objects of `plan` as the plan builds them: the with-ops
manifest secret verbatim, and each QuarksSecret and QuarksJob with its spec. -/
structure Holds (plan : Plan) (st : Store) : Prop where
  manifestSecret : ∀ s, plan.manifestSecret = .ok s → s ∈ st.secrets
  quarksSecrets : ∀ vars, plan.quarksSecrets = .ok vars → ∀ q ∈ vars,
    ∃ x, st.quarksSecrets q.name = some x ∧ x.spec = q.spec
  interpolationJob : ∀ j, plan.interpolationJob = .ok j →
    ∃ x, st.quarksJobs j.name = some x ∧ x.spec = j.spec
  instanceGroupJob : ∀ j, plan.instanceGroupJob = .ok j →
    ∃ x, st.quarksJobs j.name = some x ∧ x.spec = j.spec

/-- The calls of a run over a store that already holds its plan: each write reports no change,
and no QuarksSecret status is reset. -/
def Quiet (events : List Event) : Prop :=
  (∀ object result, Event.createOrUpdate object result ∈ events → result = .ok .none) ∧
  ∀ q result, Event.updateStatus (.quarksSecret q) result ∉ events

theorem quiet_nil : Quiet [] := ⟨by simp, by simp⟩

theorem Quiet.append {xs ys : List Event} (hx : Quiet xs) (hy : Quiet ys) : Quiet (xs ++ ys) :=
  ⟨fun object result h => (List.mem_append.mp h).elim (hx.1 object result) (hy.1 object result),
    fun q result h => (List.mem_append.mp h).elim (hx.2 q result) (hy.2 q result)⟩

variable {P : Packages} {C : Collaborators}

theorem quiet_refThenWrite (C : Collaborators) (owner : Object) {object : Object} {s : Store}
    (h : Store.createOrUpdate object s = (.ok .none, s)) :
    Quiet (refThenWrite C Store.cluster owner object s) ∧
      storeAfter C Store.cluster owner object s = s := by
  unfold refThenWrite storeAfter
  rw [Store.cluster_createOrUpdate, h]
  cases C.setReference owner object <;> exact ⟨by simp [Quiet], rfl⟩

theorem createQuarksSecrets_quiet (manifestSecret : Secret) :
    ∀ (vars : List QuarksSecret) (r : Run Store),
      (∀ q ∈ vars, ∃ x, r.store.quarksSecrets q.name = some x ∧ x.spec = q.spec) →
      ∃ events, (createQuarksSecrets C Store.cluster manifestSecret vars r).2 =
        ⟨r.store, r.events ++ events⟩ ∧ Quiet events
  | [], r, _ => ⟨[], by simp [createQuarksSecrets], quiet_nil⟩
  | var :: vars, r, hheld => by
    obtain ⟨x, hx, hs⟩ := hheld var (List.mem_cons_self _ _)
    have hcu := Store.createOrUpdate_of_spec_quarksSecret hx hs
    obtain ⟨hq, hsa⟩ := quiet_refThenWrite C (.secret manifestSecret) hcu
    rcases @createQuarksSecrets_cons _ C Store.cluster manifestSecret var vars r with
      ⟨-, -, he⟩ | ⟨op, s, -, hc, h⟩
    · exact ⟨_, by rw [he, hsa], hq⟩
    rw [Store.cluster_createOrUpdate, hcu, Prod.mk.injEq, Except.ok.injEq] at hc
    obtain ⟨rfl, rfl⟩ := hc
    rw [if_neg nofun] at h
    obtain ⟨events, he, hq'⟩ := createQuarksSecrets_quiet manifestSecret vars
      ⟨r.store, r.events ++ refThenWrite C Store.cluster (.secret manifestSecret)
        (.quarksSecret var) r.store⟩ fun q hq => hheld q (List.mem_cons_of_mem _ hq)
    exact ⟨_, by rw [h, he, List.append_assoc], hq.append hq'⟩

theorem createQuarksJob_quiet (deployment : BOSHDeployment) {qJob x : QuarksJob} (r : Run Store)
    (hx : r.store.quarksJobs qJob.name = some x) (hs : x.spec = qJob.spec) :
    ∃ events, (createQuarksJob C Store.cluster deployment qJob r).2 =
      ⟨r.store, r.events ++ events⟩ ∧ Quiet events := by
  obtain ⟨hq, hsa⟩ := quiet_refThenWrite C (.deployment deployment)
    (Store.createOrUpdate_of_spec_quarksJob hx hs)
  exact ⟨_, by rw [(createQuarksJob_run deployment qJob r).1, hsa], hq⟩

theorem createManifestWithOps_quiet (deployment : BOSHDeployment) (manifest : Manifest)
    (r : Run Store) (h : ∀ manifestBytes, P.marshal manifest = .ok manifestBytes →
      manifestWithOpsSecret P deployment manifestBytes ∈ r.store.secrets) :
    ∃ events, (createManifestWithOps P C Store.cluster deployment manifest r).2 =
      ⟨r.store, r.events ++ events⟩ ∧ Quiet events := by
  rw [(createManifestWithOps_run P deployment manifest r).1]
  rcases hb : P.marshal manifest with err | manifestBytes
  · exact ⟨[], by simp, quiet_nil⟩
  obtain ⟨hq, hsa⟩ := quiet_refThenWrite C (.deployment deployment)
    (Store.createOrUpdate_of_mem (h _ hb))
  exact ⟨_, by simp only [hsa], hq⟩

theorem syncJobs_quiet (request : NamespacedName) (deployment : BOSHDeployment)
    (manifest : Manifest) (linkInfos : LinkInfos) (r : Run Store)
    (hholds : Holds (Plan.of P C deployment manifest linkInfos) r.store) :
    ∃ events, (syncJobs C Store.cluster request deployment manifest linkInfos r).2.events =
        r.events ++ events ∧ Quiet events ∧
      ((syncJobs C Store.cluster request deployment manifest linkInfos r).2.store = r.store ∨
        (syncJobs C Store.cluster request deployment manifest linkInfos r).2.store =
          r.store.withLastReconcile deployment.key (some (wholeSeconds r.store.clock))) := by
  unfold syncJobs
  rcases hv : C.variableInterpolationJob deployment.name manifest with err | job₁
  · exact ⟨[], by simp, quiet_nil, .inl rfl⟩
  obtain ⟨x₁, hx₁, hs₁⟩ := hholds.interpolationJob job₁ hv
  obtain ⟨ev₁, he₁, hq₁⟩ := createQuarksJob_quiet (C := C) deployment r hx₁ hs₁
  simp only [ReconcileM.bind_run, he₁]
  rcases (createQuarksJob C Store.cluster deployment job₁ r).1 with _ | err
  swap
  · exact ⟨ev₁, rfl, hq₁, .inl rfl⟩
  rcases hg : C.instanceGroupManifestJob deployment.name manifest linkInfos
    (deployment.generation == 1) with err | job₂
  · exact ⟨ev₁, rfl, hq₁, .inl rfl⟩
  obtain ⟨x₂, hx₂, hs₂⟩ := hholds.instanceGroupJob job₂ hg
  obtain ⟨ev₂, he₂, hq₂⟩ := createQuarksJob_quiet (C := C) deployment
    ⟨r.store, r.events ++ ev₁⟩ hx₂ hs₂
  simp only [ReconcileM.bind_run, he₂]
  rcases (createQuarksJob C Store.cluster deployment job₂ ⟨r.store, r.events ++ ev₁⟩).1 with
    _ | err
  swap
  · exact ⟨ev₁ ++ ev₂, List.append_assoc _ _ _, hq₁.append hq₂, .inl rfl⟩
  simp only [ReconcileM.bind_run, timeNow_run, updateStatus_run, Store.cluster_now,
    Store.cluster_updateStatus, Store.updateStatus_deployment_store]
  generalize (Store.updateStatus _ _).1 = result
  rcases result with _ | err
  all_goals exact ⟨_, (List.append_assoc _ _ _).trans (List.append_assoc _ _ _),
    hq₁.append (hq₂.append (by simp [Quiet])), .inr rfl⟩

theorem syncDerived_quiet (request : NamespacedName) (deployment : BOSHDeployment)
    (manifest : Manifest) (linkInfos : LinkInfos) (r : Run Store)
    (hholds : Holds (Plan.of P C deployment manifest linkInfos) r.store) :
    ∃ events, (syncDerived P C Store.cluster request deployment manifest linkInfos r).2.events =
        r.events ++ events ∧ Quiet events ∧
      ((syncDerived P C Store.cluster request deployment manifest linkInfos r).2.store = r.store ∨
        (syncDerived P C Store.cluster request deployment manifest linkInfos r).2.store =
          r.store.withLastReconcile deployment.key (some (wholeSeconds r.store.clock))) := by
  unfold syncDerived
  obtain ⟨ev₀, he₀, hq₀⟩ := createManifestWithOps_quiet (P := P) (C := C) deployment manifest r
    fun _ hb => hholds.manifestSecret _ (by simp only [Plan.of, hb]; rfl)
  simp only [ReconcileM.bind_run, he₀]
  rcases (createManifestWithOps P C Store.cluster deployment manifest r).1 with err | ms
  · exact ⟨ev₀, rfl, hq₀, .inl rfl⟩
  rcases hv : C.convertVariables deployment.name manifest.vars with err | vars
  · exact ⟨ev₀, rfl, hq₀, .inl rfl⟩
  simp only [ite_createQuarksSecrets, ReconcileM.bind_run]
  obtain ⟨ev₁, he₁, hq₁⟩ :=
    createQuarksSecrets_quiet (C := C) ms vars ⟨r.store, r.events ++ ev₀⟩
    (hholds.quarksSecrets vars hv)
  rw [he₁]
  rcases (createQuarksSecrets C Store.cluster ms vars ⟨r.store, r.events ++ ev₀⟩).1 with _ | err
  swap
  · exact ⟨ev₀ ++ ev₁, List.append_assoc _ _ _, hq₀.append hq₁, .inl rfl⟩
  obtain ⟨ev₂, he₂, hq₂, hs₂⟩ := syncJobs_quiet request deployment manifest linkInfos
    ⟨r.store, r.events ++ ev₀ ++ ev₁⟩ hholds
  exact ⟨ev₀ ++ ev₁ ++ ev₂, by rw [he₂]; simp, (hq₀.append hq₁).append hq₂, hs₂⟩

theorem reconcile_quiet (cached : Store → Listing) (config : Config) (orders : RangeOrders)
    (request : NamespacedName) (r : Run Store)
    (hholds : ∀ deployment manifest, Store.get request r.store = .ok deployment →
      resolveManifest C deployment = .ok manifest →
      (listLinkInfos P deployment orders manifest (cached r.store)).1.err = none →
      Holds (Plan.of P C deployment
        (listLinkInfos P deployment orders manifest (cached r.store)).1.manifest
        (listLinkInfos P deployment orders manifest (cached r.store)).1.linkInfos) r.store) :
    ∃ events, (reconcile P C (Store.cachedCluster cached) config orders request r).2.events =
        r.events ++ events ∧ Quiet events ∧
      ((reconcile P C (Store.cachedCluster cached) config orders request r).2.store = r.store ∨
        (reconcile P C (Store.cachedCluster cached) config orders request r).2.store =
          r.store.withLastReconcile request (some (wholeSeconds r.store.clock))) := by
  rcases @reconcile_cases _ P C (Store.cachedCluster cached) config orders request r with
    ⟨_, -, -, he⟩ | ⟨_, -, -, -, he⟩ | ⟨_, _, -, -, -, -, he⟩ |
      ⟨_, _, _, -, -, -, -, -, he⟩ | ⟨deployment, manifest, hg, -, hres, hl, he⟩
  iterate 3
    rw [he]
    exact ⟨[.get request], rfl, by simp [Quiet], .inl rfl⟩
  · rw [he]
    exact ⟨_, List.append_assoc _ _ _, by simp [Quiet], .inl rfl⟩
  simp only [Store.cachedCluster_get, Store.cachedCluster_listing, Store.syncDerived_cachedCluster]
    at hg hl he
  obtain ⟨events, he', hq, hs⟩ := syncDerived_quiet request deployment _ _
    ⟨r.store, r.events ++ [.get request] ++
      (listLinkInfos P deployment orders manifest (cached r.store)).2.map .list⟩
    (hholds deployment manifest hg hres hl)
  have hkey := r.store.deployments_key request deployment (Store.get_eq_ok.mp hg)
  rw [he, he']
  exact ⟨_, (List.append_assoc _ _ _).trans (List.append_assoc _ _ _),
    Quiet.append (by simp [Quiet]) (Quiet.append (by simp [Quiet]) hq), hkey ▸ hs⟩

/-- The collaborators build the objects of `plan` as `ms`, `vars`, `j₁` and `j₂`, and set every
owner reference a run of the plan asks for. -/
structure Builds (C : Collaborators) (plan : Plan) (ms : Secret) (vars : List QuarksSecret)
    (j₁ j₂ : QuarksJob) : Prop where
  manifestSecret_ok : plan.manifestSecret = .ok ms
  quarksSecrets_ok : plan.quarksSecrets = .ok vars
  interpolationJob_ok : plan.interpolationJob = .ok j₁
  instanceGroupJob_ok : plan.instanceGroupJob = .ok j₂
  secretRef : C.setReference (.deployment plan.deployment) (.secret ms) = none
  quarksSecretRefs : ∀ q ∈ vars, C.setReference (.secret ms) (.quarksSecret q) = none
  interpolationJobRef : C.setReference (.deployment plan.deployment) (.quarksJob j₁) = none
  instanceGroupJobRef : C.setReference (.deployment plan.deployment) (.quarksJob j₂) = none

section Builds

variable {σ : Type} {cluster : Cluster σ}

theorem createQuarksSecrets_refs (manifestSecret : Secret) :
    ∀ (vars : List QuarksSecret) (r : Run σ),
      (createQuarksSecrets C cluster manifestSecret vars r).1 = none →
      ∀ q ∈ vars, C.setReference (.secret manifestSecret) (.quarksSecret q) = none
  | [], _, _ => fun _ h => absurd h (List.not_mem_nil _)
  | var :: vars, r, hnone => by
    rcases @createQuarksSecrets_cons _ C cluster manifestSecret var vars r with
      ⟨-, hsome, -⟩ | ⟨op, s, href, -, h⟩
    · simp [hnone] at hsome
    have next : ∀ r', createQuarksSecrets C cluster manifestSecret (var :: vars) r =
        createQuarksSecrets C cluster manifestSecret vars r' →
        ∀ q ∈ var :: vars, C.setReference (.secret manifestSecret) (.quarksSecret q) = none :=
      fun r' he => by
        rw [he] at hnone
        rintro q (_ | ⟨_, hq⟩)
        exacts [href, createQuarksSecrets_refs manifestSecret vars r' hnone q hq]
    split_ifs at h
    · rcases h with ⟨-, hsome, -⟩ | ⟨-, h⟩
      · simp [hnone] at hsome
      · exact next _ h
    · exact next _ h

theorem builds_jobs_of_syncJobs (request : NamespacedName) (deployment : BOSHDeployment)
    (manifest : Manifest) (linkInfos : LinkInfos) (r : Run σ)
    (h : (syncJobs C cluster request deployment manifest linkInfos r).1.2 = none) :
    ∃ j₁ j₂, C.variableInterpolationJob deployment.name manifest = .ok j₁ ∧
      C.instanceGroupManifestJob deployment.name manifest linkInfos
        (deployment.generation == 1) = .ok j₂ ∧
      C.setReference (.deployment deployment) (.quarksJob j₁) = none ∧
      C.setReference (.deployment deployment) (.quarksJob j₂) = none := by
  revert h
  unfold syncJobs
  rcases hv : C.variableInterpolationJob deployment.name manifest with err | j₁
  · nofun
  simp only [ReconcileM.bind_run]
  rcases hj₁ : (createQuarksJob C cluster deployment j₁ r).1 with _ | err
  swap
  · nofun
  rcases hg : C.instanceGroupManifestJob deployment.name manifest linkInfos
    (deployment.generation == 1) with err | j₂
  · nofun
  simp only [ReconcileM.bind_run]
  rcases hj₂ : (createQuarksJob C cluster deployment j₂ _).1 with _ | err
  swap
  · nofun
  exact fun _ => ⟨j₁, j₂, rfl, rfl, ((createQuarksJob_run deployment j₁ r).2.mp hj₁).1,
    ((createQuarksJob_run deployment j₂ _).2.mp hj₂).1⟩

theorem builds_of_syncDerived (request : NamespacedName) (deployment : BOSHDeployment)
    (manifest : Manifest) (linkInfos : LinkInfos) (r : Run σ)
    (h : (syncDerived P C cluster request deployment manifest linkInfos r).1.2 = none) :
    ∃ ms vars j₁ j₂, Builds C (Plan.of P C deployment manifest linkInfos) ms vars j₁ j₂ := by
  revert h
  unfold syncDerived
  simp only [ReconcileM.bind_run]
  rcases hm : (createManifestWithOps P C cluster deployment manifest r).1 with err | ms
  · nofun
  obtain ⟨b, hb, rfl, hw⟩ := ((createManifestWithOps_run P deployment manifest r).2 _).mp hm
  rcases hv : C.convertVariables deployment.name manifest.vars with err | vars
  · nofun
  simp only [ite_createQuarksSecrets, ReconcileM.bind_run]
  rcases hq : (createQuarksSecrets C cluster (manifestWithOpsSecret P deployment b) vars
    (createManifestWithOps P C cluster deployment manifest r).2).1 with _ | err
  swap
  · nofun
  intro h
  obtain ⟨j₁, j₂, hj₁, hj₂, hr₁, hr₂⟩ := builds_jobs_of_syncJobs request deployment manifest
    linkInfos _ h
  exact ⟨_, vars, j₁, j₂, by simp only [Plan.of, hb]; rfl, hv, hj₁, hj₂, hw.1,
    createQuarksSecrets_refs _ vars _ hq, hr₁, hr₂⟩

end Builds

theorem createQuarksSecrets_first (manifestSecret : Secret) :
    ∀ (vars : List QuarksSecret) (r : Run Store), (vars.map QuarksSecret.name).Nodup →
      (createQuarksSecrets C Store.cluster manifestSecret vars r).1 = none →
      ∃ qs, (createQuarksSecrets C Store.cluster manifestSecret vars r).2.store =
          { r.store with quarksSecrets := qs } ∧
        (∀ q ∈ vars, ∃ x, qs q.name = some x ∧ x.spec = q.spec) ∧
        ∀ name, name ∉ vars.map QuarksSecret.name → qs name = r.store.quarksSecrets name
  | [], r, _, _ => ⟨r.store.quarksSecrets, rfl, by simp, fun _ _ => rfl⟩
  | var :: vars, r, hnd, hnone => by
    obtain ⟨hvar, hnd⟩ := List.nodup_cons.mp hnd
    have next : ∀ (y : QuarksSecret) (r' : Run Store), y.spec = var.spec →
        r'.store = { r.store with
          quarksSecrets := Function.update r.store.quarksSecrets var.name (some y) } →
        createQuarksSecrets C Store.cluster manifestSecret (var :: vars) r =
          createQuarksSecrets C Store.cluster manifestSecret vars r' →
        ∃ qs, (createQuarksSecrets C Store.cluster manifestSecret (var :: vars) r).2.store =
            { r.store with quarksSecrets := qs } ∧
          (∀ q ∈ var :: vars, ∃ x, qs q.name = some x ∧ x.spec = q.spec) ∧
          ∀ name, name ∉ (var :: vars).map QuarksSecret.name →
            qs name = r.store.quarksSecrets name := by
      intro y r' hy hr' he
      rw [he] at hnone ⊢
      obtain ⟨qs, hs, hheld, hframe⟩ := createQuarksSecrets_first manifestSecret vars r' hnd hnone
      refine ⟨qs, by rw [hs, hr'], ?_, fun name hname => ?_⟩
      · rintro q (_ | ⟨_, hq⟩)
        · exact ⟨y, by simp only [hframe _ hvar, hr', Function.update_same], hy⟩
        · exact hheld q hq
      · simp only [List.map_cons, List.mem_cons, not_or] at hname
        simp only [hframe _ hname.2, hr', Function.update_noteq hname.1]
    rcases @createQuarksSecrets_cons _ C Store.cluster manifestSecret var vars r with
      ⟨-, hsome, -⟩ | ⟨op, s, -, hc, h⟩
    · simp [hnone] at hsome
    obtain ⟨x, hxs, hcu⟩ := Store.createOrUpdate_quarksSecret var r.store
    rw [Store.cluster_createOrUpdate] at hc
    obtain rfl : s = _ := (congrArg Prod.snd hc).symm.trans hcu
    split_ifs at h
    · have hu := @Store.updateStatus_quarksSecret { var with generated := false }
        { r.store with quarksSecrets := Function.update r.store.quarksSecrets var.name (some x) }
        x (Function.update_same _ _ _)
      rw [Store.cluster_updateStatus, hu] at h
      rcases h with ⟨hsome, -⟩ | ⟨-, h⟩
      · simp at hsome
      · exact next { x with generated := false } _ hxs (by simp [Function.update_idem]) h
    · exact next x _ hxs rfl h

theorem createQuarksJob_first (deployment : BOSHDeployment) (qJob : QuarksJob) (r : Run Store)
    (hw : Written C Store.cluster (.deployment deployment) (.quarksJob qJob) r.store) :
    ∃ x, x.spec = qJob.spec ∧ (createQuarksJob C Store.cluster deployment qJob r).2.store =
      { r.store with quarksJobs := Function.update r.store.quarksJobs qJob.name (some x) } := by
  obtain ⟨x, hx, hcu⟩ := Store.createOrUpdate_quarksJob qJob r.store
  refine ⟨x, hx, ?_⟩
  rw [(createQuarksJob_run deployment qJob r).1]
  simp only [storeAfter, hw.1, Store.cluster_createOrUpdate, hcu]

theorem createManifestWithOps_first (deployment : BOSHDeployment) (manifest : Manifest)
    (r : Run Store) {manifestSecret : Secret}
    (h : (createManifestWithOps P C Store.cluster deployment manifest r).1 = .ok manifestSecret) :
    ∃ manifestBytes, P.marshal manifest = .ok manifestBytes ∧
      manifestWithOpsSecret P deployment manifestBytes = manifestSecret ∧
      (createManifestWithOps P C Store.cluster deployment manifest r).2.store =
        r.store.withSecret manifestSecret := by
  obtain ⟨he, hok⟩ := createManifestWithOps_run P deployment manifest r
  obtain ⟨manifestBytes, hb, rfl, hw⟩ := (hok _).mp h
  refine ⟨manifestBytes, hb, rfl, ?_⟩
  simp only [he, hb, storeAfter, hw.1, Store.cluster_createOrUpdate, Store.createOrUpdate_secret]

theorem syncJobs_first (request : NamespacedName) (deployment : BOSHDeployment)
    (manifest : Manifest) (linkInfos : LinkInfos) (r : Run Store)
    (hjobs : ∀ j₁ j₂, C.variableInterpolationJob deployment.name manifest = .ok j₁ →
      C.instanceGroupManifestJob deployment.name manifest linkInfos (deployment.generation == 1) =
        .ok j₂ → j₁.name ≠ j₂.name)
    (hnone : (syncJobs C Store.cluster request deployment manifest linkInfos r).1.2 = none) :
    ∃ jobs, (syncJobs C Store.cluster request deployment manifest linkInfos r).2.store =
        ({ r.store with quarksJobs := jobs }).withLastReconcile deployment.key
          (some (wholeSeconds r.store.clock)) ∧
      (∀ j, C.variableInterpolationJob deployment.name manifest = .ok j →
        ∃ x, jobs j.name = some x ∧ x.spec = j.spec) ∧
      (∀ j, C.instanceGroupManifestJob deployment.name manifest linkInfos
        (deployment.generation == 1) = .ok j → ∃ x, jobs j.name = some x ∧ x.spec = j.spec) := by
  revert hnone
  unfold syncJobs
  rcases hv : C.variableInterpolationJob deployment.name manifest with err | job₁
  · nofun
  simp only [ReconcileM.bind_run]
  obtain ⟨-, hw₁⟩ := @createQuarksJob_run _ C Store.cluster deployment job₁ r
  rcases hj₁ : (createQuarksJob C Store.cluster deployment job₁ r).1 with _ | err
  swap
  · nofun
  obtain ⟨x₁, hx₁, hs₁⟩ := createQuarksJob_first deployment job₁ r (hw₁.mp hj₁)
  rcases hg : C.instanceGroupManifestJob deployment.name manifest linkInfos
    (deployment.generation == 1) with err | job₂
  · nofun
  simp only [ReconcileM.bind_run]
  obtain ⟨-, hw₂⟩ := @createQuarksJob_run _ C Store.cluster deployment job₂
    (createQuarksJob C Store.cluster deployment job₁ r).2
  rcases hj₂ : (createQuarksJob C Store.cluster deployment job₂ _).1 with _ | err
  swap
  · nofun
  obtain ⟨x₂, hx₂, hs₂⟩ := createQuarksJob_first deployment job₂ _ (hw₂.mp hj₂)
  have hne := hjobs job₁ job₂ hv hg
  intro _
  refine ⟨Function.update (Function.update r.store.quarksJobs job₁.name (some x₁)) job₂.name
    (some x₂), ?_, ?_, ?_⟩
  · simp only [ReconcileM.bind_run, timeNow_run, updateStatus_run, Store.cluster_now,
      Store.cluster_updateStatus, Store.updateStatus_deployment_store, hs₂, hs₁]
    generalize (Store.updateStatus _ _).1 = u
    cases u <;> rfl
  · rintro j ⟨⟩
    exact ⟨x₁, by rw [Function.update_noteq hne, Function.update_same], hx₁⟩
  · rintro j ⟨⟩
    exact ⟨x₂, Function.update_same _ _ _, hx₂⟩

theorem syncDerived_first (request : NamespacedName) (deployment : BOSHDeployment)
    (manifest : Manifest) (linkInfos : LinkInfos) (r : Run Store)
    (hvars : ∀ vars, C.convertVariables deployment.name manifest.vars = .ok vars →
      (vars.map QuarksSecret.name).Nodup)
    (hjobs : ∀ j₁ j₂, C.variableInterpolationJob deployment.name manifest = .ok j₁ →
      C.instanceGroupManifestJob deployment.name manifest linkInfos (deployment.generation == 1) =
        .ok j₂ → j₁.name ≠ j₂.name)
    (hnone : (syncDerived P C Store.cluster request deployment manifest linkInfos r).1.2 = none) :
    ∃ manifestBytes quarksSecrets quarksJobs, P.marshal manifest = .ok manifestBytes ∧
      (syncDerived P C Store.cluster request deployment manifest linkInfos r).2.store =
        ({ r.store.withSecret (manifestWithOpsSecret P deployment manifestBytes) with
          quarksSecrets, quarksJobs }).withLastReconcile deployment.key
            (some (wholeSeconds r.store.clock)) ∧
      Holds (Plan.of P C deployment manifest linkInfos)
        (syncDerived P C Store.cluster request deployment manifest linkInfos r).2.store := by
  revert hnone
  unfold syncDerived
  simp only [ReconcileM.bind_run]
  rcases hm : (createManifestWithOps P C Store.cluster deployment manifest r).1 with err | ms
  · nofun
  obtain ⟨manifestBytes, hb, rfl, hs₀⟩ := createManifestWithOps_first deployment manifest r hm
  rcases hv : C.convertVariables deployment.name manifest.vars with err | vars
  · nofun
  simp only [ite_createQuarksSecrets, ReconcileM.bind_run]
  rcases hq : (createQuarksSecrets C Store.cluster (manifestWithOpsSecret P deployment manifestBytes)
    vars (createManifestWithOps P C Store.cluster deployment manifest r).2).1 with _ | err
  swap
  · nofun
  obtain ⟨qs, hqs, hheld, -⟩ := createQuarksSecrets_first _ vars _ (hvars vars hv) hq
  intro hnone
  obtain ⟨js, hjs, hvij, higj⟩ := syncJobs_first request deployment manifest linkInfos _ hjobs hnone
  rw [hjs, hqs, hs₀]
  refine ⟨manifestBytes, qs, js, hb, rfl, ?_, ?_, hvij, higj⟩
  · intro s hs
    simp only [Plan.of, hb, Except.map_ok, Except.ok.injEq] at hs
    exact hs ▸ Store.mem_upsert _ _
  · intro vars' hv'
    simp only [Plan.of, hv, Except.ok.injEq] at hv'
    exact hv' ▸ hheld

theorem reconcile_first (cached : Store → Listing) (config : Config) (orders : RangeOrders)
    (request : NamespacedName) (s : Store)
    (hvars : ∀ name vars quarksSecrets, C.convertVariables name vars = .ok quarksSecrets →
      (quarksSecrets.map QuarksSecret.name).Nodup)
    (hjobs : ∀ name manifest manifest' linkInfos firstGeneration j₁ j₂,
      C.variableInterpolationJob name manifest = .ok j₁ →
      C.instanceGroupManifestJob name manifest' linkInfos firstGeneration = .ok j₂ →
      j₁.name ≠ j₂.name)
    (hstatus : ∃ d result, Event.updateStatus (.deployment d) result ∈
      (reconcile P C (Store.cachedCluster cached) config orders request ⟨s, []⟩).2.events) :
    ∃ deployment manifest, Store.get request s = .ok deployment ∧
      P.meltdownContains config.meltdownDuration deployment.lastReconcile s.clock = false ∧
      resolveManifest C deployment = .ok manifest ∧
      (listLinkInfos P deployment orders manifest (cached s)).1.err = none ∧
      ∃ manifestBytes quarksSecrets quarksJobs,
        P.marshal (listLinkInfos P deployment orders manifest (cached s)).1.manifest =
          .ok manifestBytes ∧
        (reconcile P C (Store.cachedCluster cached) config orders request ⟨s, []⟩).2.store =
          ({ s.withSecret (manifestWithOpsSecret P deployment manifestBytes) with
            quarksSecrets, quarksJobs }).withLastReconcile request (some (wholeSeconds s.clock)) ∧
        Holds (Plan.of P C deployment
          (listLinkInfos P deployment orders manifest (cached s)).1.manifest
          (listLinkInfos P deployment orders manifest (cached s)).1.linkInfos)
          (reconcile P C (Store.cachedCluster cached) config orders request ⟨s, []⟩).2.store ∧
        ∃ ms vars j₁ j₂, Builds C (Plan.of P C deployment
          (listLinkInfos P deployment orders manifest (cached s)).1.manifest
          (listLinkInfos P deployment orders manifest (cached s)).1.linkInfos) ms vars j₁ j₂ := by
  obtain ⟨d, result, hmem⟩ := hstatus
  rcases @reconcile_cases _ P C (Store.cachedCluster cached) config orders request ⟨s, []⟩ with
    ⟨_, -, -, he⟩ | ⟨_, -, -, -, he⟩ | ⟨_, _, -, -, -, -, he⟩ |
      ⟨_, _, _, -, -, -, -, -, he⟩ | ⟨deployment, manifest, hg, hm, hres, hl, he⟩
  iterate 4
    rw [he] at hmem
    simp at hmem
  simp only [Store.cachedCluster_get, Store.cachedCluster_listing, Store.cachedCluster_now,
    Store.syncDerived_cachedCluster] at hg hm hl he
  obtain ⟨events, he', -, -, -, hiff⟩ := @syncDerived_writes _ P C Store.cluster request deployment
    (listLinkInfos P deployment orders manifest (cached s)).1.manifest
    (listLinkInfos P deployment orders manifest (cached s)).1.linkInfos
    ⟨s, [] ++ [.get request] ++
      (listLinkInfos P deployment orders manifest (cached s)).2.map .list⟩
  rw [he, he'] at hmem
  have hnone := hiff.mpr ⟨d, result, by simpa using hmem⟩
  obtain ⟨b, qs, js, hb, hst, hholds⟩ := syncDerived_first request deployment _ _ _
    (hvars _ _) (hjobs _ _ _ _ _) hnone
  have hkey := s.deployments_key request deployment (Store.get_eq_ok.mp hg)
  rw [he]
  exact ⟨deployment, manifest, hg, hm, hres, hl, b, qs, js, hb, by rw [hst, hkey], hholds,
    builds_of_syncDerived request deployment _ _ _ hnone⟩

theorem resolveManifest_lastReconcile
    (hwithOps : ∀ d lastReconcile ns,
      C.withOpsManifest { d with lastReconcile } ns = C.withOpsManifest d ns)
    (deployment : BOSHDeployment) (lastReconcile : Option Time) :
    resolveManifest C { deployment with lastReconcile } = resolveManifest C deployment := by
  simp only [resolveManifest, hwithOps]

theorem holds_lastReconcile (deployment : BOSHDeployment) (lastReconcile : Option Time)
    (manifest : Manifest) (linkInfos : LinkInfos) (st : Store) :
    Holds (Plan.of P C { deployment with lastReconcile } manifest linkInfos) st ↔
      Holds (Plan.of P C deployment manifest linkInfos) st :=
  ⟨fun h => ⟨h.1, h.2, h.3, h.4⟩, fun h => ⟨h.1, h.2, h.3, h.4⟩⟩

theorem Holds.of_store {plan : Plan} {st st' : Store} (h : Holds plan st)
    (hs : st'.secrets = st.secrets) (hq : st'.quarksSecrets = st.quarksSecrets)
    (hj : st'.quarksJobs = st.quarksJobs) : Holds plan st' :=
  ⟨fun _ hm => hs ▸ h.1 _ hm, fun _ hv q hmem => hq ▸ h.2 _ hv q hmem,
    fun _ hm => hj ▸ h.3 _ hm, fun _ hm => hj ▸ h.4 _ hm⟩

def quietWrite (owner object : Object) : List Event :=
  [.setReference owner object none, .createOrUpdate object (.ok .none)]

def quietWrites (deployment : BOSHDeployment) (ms : Secret) (vars : List QuarksSecret)
    (j₁ j₂ : QuarksJob) : List Event :=
  quietWrite (.deployment deployment) (.secret ms) ++
    vars.flatMap (fun q => quietWrite (.secret ms) (.quarksSecret q)) ++
    quietWrite (.deployment deployment) (.quarksJob j₁) ++
    quietWrite (.deployment deployment) (.quarksJob j₂)

theorem refThenWrite_quiet {owner object : Object} {s : Store}
    (href : C.setReference owner object = none) (h : Store.createOrUpdate object s = (.ok .none, s)) :
    refThenWrite C Store.cluster owner object s = quietWrite owner object ∧
      storeAfter C Store.cluster owner object s = s := by
  simp [refThenWrite, storeAfter, quietWrite, href, h]

theorem createQuarksSecrets_settled (manifestSecret : Secret) (st : Store) :
    ∀ (vars : List QuarksSecret) (events : List Event),
      (∀ q ∈ vars, ∃ x, st.quarksSecrets q.name = some x ∧ x.spec = q.spec) →
      (∀ q ∈ vars, C.setReference (.secret manifestSecret) (.quarksSecret q) = none) →
      createQuarksSecrets C Store.cluster manifestSecret vars ⟨st, events⟩ = (none, ⟨st, events ++
        vars.flatMap fun q => quietWrite (.secret manifestSecret) (.quarksSecret q)⟩)
  | [], _, _, _ => by simp [createQuarksSecrets]
  | var :: vars, events, hheld, hrefs => by
    obtain ⟨x, hx, hs⟩ := hheld var (List.mem_cons_self _ _)
    rcases @createQuarksSecrets_cons _ C Store.cluster manifestSecret var vars ⟨st, events⟩ with
      ⟨hw, -⟩ | ⟨op, s, -, hc, h⟩
    · exact absurd ⟨hrefs var (List.mem_cons_self _ _), by
        simp [Store.createOrUpdate_of_spec_quarksSecret hx hs, Except.toBool]⟩ hw
    rw [Store.cluster_createOrUpdate, Store.createOrUpdate_of_spec_quarksSecret hx hs,
      Prod.mk.injEq, Except.ok.injEq] at hc
    obtain ⟨rfl, rfl⟩ := hc
    rw [if_neg nofun, (refThenWrite_quiet (hrefs var (List.mem_cons_self _ _))
      (Store.createOrUpdate_of_spec_quarksSecret hx hs)).1] at h
    rw [h, createQuarksSecrets_settled manifestSecret st vars _
      (fun q hq => hheld q (List.mem_cons_of_mem _ hq))
      (fun q hq => hrefs q (List.mem_cons_of_mem _ hq))]
    simp [List.append_assoc]

theorem createQuarksJob_settled (deployment : BOSHDeployment) {qJob x : QuarksJob} {st : Store}
    (hx : st.quarksJobs qJob.name = some x) (hs : x.spec = qJob.spec)
    (href : C.setReference (.deployment deployment) (.quarksJob qJob) = none)
    (events : List Event) :
    createQuarksJob C Store.cluster deployment qJob ⟨st, events⟩ =
      (none, ⟨st, events ++ quietWrite (.deployment deployment) (.quarksJob qJob)⟩) := by
  simp [createQuarksJob, href, Store.createOrUpdate_of_spec_quarksJob hx hs, quietWrite]

theorem syncDerived_settled (request : NamespacedName) (deployment : BOSHDeployment)
    (manifest : Manifest) (linkInfos : LinkInfos) (r : Run Store) {ms : Secret}
    {vars : List QuarksSecret} {j₁ j₂ : QuarksJob}
    (hb : Builds C (Plan.of P C deployment manifest linkInfos) ms vars j₁ j₂)
    (hholds : Holds (Plan.of P C deployment manifest linkInfos) r.store)
    (hd : (r.store.deployments deployment.key).isSome) :
    syncDerived P C Store.cluster request deployment manifest linkInfos r =
      ((⟨false, 0⟩, none), ⟨r.store.withLastReconcile deployment.key
          (some (wholeSeconds r.store.clock)), r.events ++ quietWrites deployment ms vars j₁ j₂ ++
        [.updateStatus (.deployment { deployment with lastReconcile := some r.store.clock }) none]⟩) := by
  have hms := hb.manifestSecret_ok
  simp only [Plan.of] at hms
  rcases hbytes : P.marshal manifest with err | bytes
  · rw [hbytes] at hms
    cases hms
  rw [hbytes] at hms
  obtain rfl : manifestWithOpsSecret P deployment bytes = ms := Except.ok.inj hms
  obtain ⟨x₁, hx₁, hs₁⟩ := hholds.interpolationJob j₁ hb.interpolationJob_ok
  obtain ⟨x₂, hx₂, hs₂⟩ := hholds.instanceGroupJob j₂ hb.instanceGroupJob_ok
  obtain ⟨d', hd'⟩ := Option.isSome_iff_exists.mp hd
  have href : C.setReference (.deployment deployment)
      (.secret (manifestWithOpsSecret P deployment bytes)) = none := hb.secretRef
  have hw := refThenWrite_quiet href (Store.createOrUpdate_of_mem
    (hholds.manifestSecret _ hb.manifestSecret_ok))
  have hm : createManifestWithOps P C Store.cluster deployment manifest r =
      (.ok (manifestWithOpsSecret P deployment bytes), ⟨r.store, r.events ++
        quietWrite (.deployment deployment) (.secret (manifestWithOpsSecret P deployment bytes))⟩) := by
    obtain ⟨he, hok⟩ := createManifestWithOps_run P deployment manifest r
    refine Prod.ext ((hok _).mpr ⟨bytes, hbytes, rfl, href, ?_⟩) ?_
    · simp [hw, Store.createOrUpdate_of_mem (hholds.manifestSecret _ hb.manifestSecret_ok),
        Except.toBool]
    · simp only [he, hbytes, hw.1, hw.2]
  have hv : C.convertVariables deployment.name manifest.vars = .ok vars := hb.quarksSecrets_ok
  unfold syncDerived syncJobs
  simp only [ReconcileM.bind_run, hm, hv, ite_createQuarksSecrets,
    createQuarksSecrets_settled _ r.store vars _ (hholds.quarksSecrets vars hv) hb.quarksSecretRefs,
    show C.variableInterpolationJob deployment.name manifest = .ok j₁ from hb.interpolationJob_ok,
    show C.instanceGroupManifestJob deployment.name manifest linkInfos
      (deployment.generation == 1) = .ok j₂ from hb.instanceGroupJob_ok,
    createQuarksJob_settled deployment hx₁ hs₁ hb.interpolationJobRef,
    createQuarksJob_settled deployment hx₂ hs₂ hb.instanceGroupJobRef, timeNow_run,
    updateStatus_run, Store.cluster_now, Store.cluster_updateStatus, Store.updateStatus,
    BOSHDeployment.key_withLastReconcile, hd']
  simp [quietWrites, List.append_assoc]

theorem reconcile_settled (cached : Store → Listing) (config : Config) (orders : RangeOrders)
    (request : NamespacedName) (st : Store) {deployment : BOSHDeployment} {manifest : Manifest}
    {ms : Secret} {vars : List QuarksSecret} {j₁ j₂ : QuarksJob}
    (hg : Store.get request st = .ok deployment)
    (hm : P.meltdownContains config.meltdownDuration deployment.lastReconcile st.clock = false)
    (hres : resolveManifest C deployment = .ok manifest)
    (hl : (listLinkInfos P deployment orders manifest (cached st)).1.err = none)
    (hb : Builds C (Plan.of P C deployment
      (listLinkInfos P deployment orders manifest (cached st)).1.manifest
      (listLinkInfos P deployment orders manifest (cached st)).1.linkInfos) ms vars j₁ j₂)
    (hholds : Holds (Plan.of P C deployment
      (listLinkInfos P deployment orders manifest (cached st)).1.manifest
      (listLinkInfos P deployment orders manifest (cached st)).1.linkInfos) st) :
    reconcile P C (Store.cachedCluster cached) config orders request ⟨st, []⟩ =
      ((⟨false, 0⟩, none), ⟨st.withLastReconcile request (some (wholeSeconds st.clock)),
        .get request :: (listLinkInfos P deployment orders manifest (cached st)).2.map .list ++
          quietWrites deployment ms vars j₁ j₂ ++
          [.updateStatus (.deployment { deployment with lastReconcile := some st.clock }) none]⟩) := by
  have hd := Store.get_eq_ok.mp hg
  have hkey := st.deployments_key request deployment hd
  unfold reconcile
  simp only [ReconcileM.bind_run, ReconcileM.pure_run, getDeployment_run,
    Store.cachedCluster_get, hg, timeNow_run, Store.cachedCluster_now, hm, if_false, hres,
    withListing_run, Store.cachedCluster_listing, hl, Bool.false_eq_true,
    Store.syncDerived_cachedCluster]
  rw [syncDerived_settled request deployment _ _ _ hb hholds (by simp [hkey, hd]), hkey]
  simp

end CfOperator.Fixpoint
