import CfOperator.Reconcile.Reset
import CfOperator.Reconcile.Meltdown

namespace CfOperator.BestEffort

open Steps Writes Effects Results Fixpoint Idempotence Converge Reset Meltdown

theorem withLastReconcile_restore (st : Store) (key : NamespacedName)
    (lastReconcile : Option Time) :
    (st.withLastReconcile key lastReconcile).withLastReconcile key
      ((st.deployments key).bind BOSHDeployment.lastReconcile) = st := by
  refine Store.ext (funext fun k => ?_) rfl rfl rfl rfl rfl rfl
  by_cases hk : k = key
  · subst hk
    rcases hd : st.deployments k with _ | d <;> simp [Store.withLastReconcile, hd]
  · simp [Store.withLastReconcile, Function.update_noteq hk]

theorem convergedAt_of_withLastReconcile {P : Packages} {C : Collaborators}
    (hwithOps : ∀ d lastReconcile ns,
      C.withOpsManifest { d with lastReconcile } ns = C.withOpsManifest d ns)
    {key key' : NamespacedName} {st : Store} {lastReconcile : Option Time}
    (h : ConvergedAt P C key (st.withLastReconcile key' lastReconcile)) : ConvergedAt P C key st := by
  by_cases hk : key' = key
  · subst hk
    rw [← withLastReconcile_restore st key' lastReconcile]
    exact h.withLastReconcile hwithOps _
  · intro orders d m hg hres hl
    exact (h orders d m (by rwa [Store.get_withLastReconcile_of_ne (Ne.symm hk)]) hres hl).of_store
      rfl rfl rfl

/-- The end `r` of a run on an API server that may refuse a deployment's status update, against
the end `r'` of the same run on the store: the same, or the same calls from the same store up to
a status update of a deployment, refused in `r` and made in `r'`. -/
def Stamped (r r' : Run Store) : Prop :=
  r = r' ∨ ∃ s events d err, r = ⟨s, events ++ [.updateStatus (.deployment d) (some err)]⟩ ∧
    r' = ⟨(Store.updateStatus (.deployment d) s).2,
      events ++ [.updateStatus (.deployment d) (Store.updateStatus (.deployment d) s).1]⟩

theorem Stamped.quiet {r r' : Run Store} (h : Stamped r r') (hq : Quiet r'.events) :
    Quiet r.events := by
  rcases h with rfl | ⟨s, events, d, err, rfl, rfl⟩
  · exact hq
  have hq₀ : Quiet events := ⟨fun object result he => hq.1 object result
    (List.mem_append_left _ he), fun q result he => hq.2 q result (List.mem_append_left _ he)⟩
  exact hq₀.append ⟨by simp, by simp⟩

theorem Stamped.status {r r' : Run Store} (h : Stamped r r')
    (hs : ∃ d result, Event.updateStatus (.deployment d) result ∈ r.events) :
    ∃ d result, Event.updateStatus (.deployment d) result ∈ r'.events := by
  rcases h with rfl | ⟨s, events, d, err, -, rfl⟩
  · exact hs
  · exact ⟨d, _, List.mem_append_right _ (List.mem_singleton_self _)⟩

theorem Stamped.convergedAt {P : Packages} {C : Collaborators}
    (hwithOps : ∀ d lastReconcile ns,
      C.withOpsManifest { d with lastReconcile } ns = C.withOpsManifest d ns)
    {key : NamespacedName} {r r' : Run Store} (h : Stamped r r')
    (hc : ConvergedAt P C key r'.store) : ConvergedAt P C key r.store := by
  rcases h with rfl | ⟨s, events, d, err, rfl, rfl⟩
  · exact hc
  · rw [Store.updateStatus_deployment_store] at hc
    exact convergedAt_of_withLastReconcile hwithOps hc

section Refusing

/-- `failingCluster` as the reconciler's cached client reaches it: each `List` call answers with
`cached`. -/
def cachedFailingCluster (fails : Object → Option Error) (cached : Store → Listing) :
    Cluster Store :=
  { failingCluster fails with listing := cached }

@[simp] theorem cachedFailingCluster_get (fails : Object → Option Error)
    (cached : Store → Listing) : (cachedFailingCluster fails cached).get = Store.get := rfl

@[simp] theorem cachedFailingCluster_listing (fails : Object → Option Error)
    (cached : Store → Listing) : (cachedFailingCluster fails cached).listing = cached := rfl

@[simp] theorem cachedFailingCluster_now (fails : Object → Option Error)
    (cached : Store → Listing) : (cachedFailingCluster fails cached).now = Store.clock := rfl

variable {P : Packages} {C : Collaborators} {fails : Object → Option Error}
  (hfails : ∀ q, fails (.quarksSecret q) = none)

theorem createQuarksJob_failingCluster (deployment : BOSHDeployment) (qJob : QuarksJob) :
    createQuarksJob C (failingCluster fails) deployment qJob =
      createQuarksJob C Store.cluster deployment qJob := rfl

theorem createManifestWithOps_failingCluster (deployment : BOSHDeployment) (manifest : Manifest) :
    createManifestWithOps P C (failingCluster fails) deployment manifest =
      createManifestWithOps P C Store.cluster deployment manifest := rfl

theorem syncDerived_cachedFailingCluster (cached : Store → Listing) :
    syncDerived P C (cachedFailingCluster fails cached) = syncDerived P C (failingCluster fails) :=
  Store.syncDerived_withListing P C _ cached

theorem stamp_stamped {α : Type} (d : BOSHDeployment) (x : α)
    (k : Option Error → ReconcileM Store α) (hk : ∀ res, k res = pure x) (r : Run Store) :
    ((updateStatus (failingCluster fails) (.deployment d) >>= k) r).1 =
        ((updateStatus Store.cluster (.deployment d) >>= k) r).1 ∧
      Stamped ((updateStatus (failingCluster fails) (.deployment d) >>= k) r).2
        ((updateStatus Store.cluster (.deployment d) >>= k) r).2 := by
  simp only [ReconcileM.bind_run, hk, ReconcileM.pure_run, updateStatus_run,
    Store.cluster_updateStatus]
  unfold failingCluster
  dsimp only
  split
  · exact ⟨trivial, .inr ⟨_, _, _, _, rfl, rfl⟩⟩
  · exact ⟨trivial, .inl rfl⟩

theorem syncJobs_stamped (request : NamespacedName) (deployment : BOSHDeployment)
    (manifest : Manifest) (linkInfos : LinkInfos) (r : Run Store) :
    (syncJobs C (failingCluster fails) request deployment manifest linkInfos r).1 =
        (syncJobs C Store.cluster request deployment manifest linkInfos r).1 ∧
      Stamped (syncJobs C (failingCluster fails) request deployment manifest linkInfos r).2
        (syncJobs C Store.cluster request deployment manifest linkInfos r).2 := by
  unfold syncJobs
  rcases C.variableInterpolationJob deployment.name manifest with err | job₁
  · exact ⟨rfl, .inl rfl⟩
  simp only [ReconcileM.bind_run, createQuarksJob_failingCluster]
  rcases (createQuarksJob C Store.cluster deployment job₁ r).1 with _ | err
  swap
  · exact ⟨rfl, .inl rfl⟩
  rcases C.instanceGroupManifestJob deployment.name manifest linkInfos
    (deployment.generation == 1) with err | job₂
  · exact ⟨rfl, .inl rfl⟩
  simp only [ReconcileM.bind_run, createQuarksJob_failingCluster]
  rcases (createQuarksJob C Store.cluster deployment job₂ _).1 with _ | err
  swap
  · exact ⟨rfl, .inl rfl⟩
  dsimp only
  simp only [ReconcileM.bind_run (timeNow _), timeNow_run, failingCluster_now, Store.cluster_now]
  refine stamp_stamped _ (⟨false, 0⟩, none) _ (fun res => ?_) _
  cases res <;> rfl

include hfails

theorem updateStatus_failingCluster_quarksSecret (q : QuarksSecret) :
    updateStatus (failingCluster fails) (.quarksSecret q) =
      updateStatus Store.cluster (.quarksSecret q) := by
  funext r
  simp only [updateStatus_run, failingCluster, hfails]
  rfl

theorem createQuarksSecrets_failingCluster (manifestSecret : Secret) :
    ∀ vars, createQuarksSecrets C (failingCluster fails) manifestSecret vars =
      createQuarksSecrets C Store.cluster manifestSecret vars
  | [] => rfl
  | var :: vars => by
    rw [createQuarksSecrets, createQuarksSecrets,
      updateStatus_failingCluster_quarksSecret hfails,
      createQuarksSecrets_failingCluster manifestSecret vars]
    rfl

theorem syncDerived_stamped (request : NamespacedName) (deployment : BOSHDeployment)
    (manifest : Manifest) (linkInfos : LinkInfos) (r : Run Store) :
    (syncDerived P C (failingCluster fails) request deployment manifest linkInfos r).1 =
        (syncDerived P C Store.cluster request deployment manifest linkInfos r).1 ∧
      Stamped (syncDerived P C (failingCluster fails) request deployment manifest linkInfos r).2
        (syncDerived P C Store.cluster request deployment manifest linkInfos r).2 := by
  unfold syncDerived
  simp only [ReconcileM.bind_run, createManifestWithOps_failingCluster]
  rcases (createManifestWithOps P C Store.cluster deployment manifest r).1 with err | ms
  · exact ⟨rfl, .inl rfl⟩
  rcases C.convertVariables deployment.name manifest.vars with err | vars
  · exact ⟨rfl, .inl rfl⟩
  simp only [ite_createQuarksSecrets, ReconcileM.bind_run,
    createQuarksSecrets_failingCluster hfails]
  rcases (createQuarksSecrets C Store.cluster ms vars _).1 with _ | err
  · exact syncJobs_stamped request deployment manifest linkInfos _
  · exact ⟨rfl, .inl rfl⟩

theorem reconcile_stamped (cached : Store → Listing) (config : Config) (orders : RangeOrders)
    (request : NamespacedName) (r : Run Store) :
    (reconcile P C (cachedFailingCluster fails cached) config orders request r).1 =
        (reconcile P C (Store.cachedCluster cached) config orders request r).1 ∧
      Stamped (reconcile P C (cachedFailingCluster fails cached) config orders request r).2
        (reconcile P C (Store.cachedCluster cached) config orders request r).2 := by
  unfold reconcile
  simp only [ReconcileM.bind_run, getDeployment_run, cachedFailingCluster_get,
    Store.cachedCluster_get]
  rcases Store.get request r.store with err | deployment
  · exact ⟨rfl, .inl rfl⟩
  simp only [ReconcileM.bind_run, timeNow_run, cachedFailingCluster_now, Store.cachedCluster_now]
  by_cases hm : P.meltdownContains config.meltdownDuration deployment.lastReconcile r.store.clock
  · simp only [hm, if_true]
    exact ⟨trivial, .inl rfl⟩
  simp only [hm, Bool.false_eq_true, if_false, ReconcileM.bind_run, ReconcileM.pure_run]
  rcases resolveManifest C deployment with err | manifest
  · exact ⟨rfl, .inl rfl⟩
  simp only [ReconcileM.bind_run, withListing_run, cachedFailingCluster_listing,
    Store.cachedCluster_listing]
  rcases (listLinkInfos P deployment orders manifest (cached r.store)).1.err with _ | err
  · rw [syncDerived_cachedFailingCluster, Store.syncDerived_cachedCluster]
    exact syncDerived_stamped hfails request deployment _ _ _
  · exact ⟨rfl, .inl rfl⟩

/-- An API server that refuses the status update of the deployment leaves every deployment as
it was: every other write keeps them. -/
theorem reconcile_deployments_of_refused (cached : Store → Listing) (config : Config)
    (orders : RangeOrders) (key : NamespacedName) (st : Store)
    (hrefuse : ∀ d, d.key = key → fails (.deployment d) ≠ none) :
    (reconcile P C (cachedFailingCluster fails cached) config orders key
      ⟨st, []⟩).2.store.deployments = st.deployments := by
  refine (reconcile_keeps config orders key ⟨st, []⟩ fun d hg =>
    ⟨fun _ => sameDeployments_createOrUpdate _, fun lastReconcile s => ?_,
      fun _ => sameDeployments_createOrUpdate _, fun q s => ?_,
      fun _ => sameDeployments_createOrUpdate _⟩ : SameDeployments st _).1
  · have hk : d.key = key := st.deployments_key _ _ (Store.get_eq_ok.mp hg)
    obtain ⟨err, hf⟩ := Option.ne_none_iff_exists'.mp (hrefuse { d with lastReconcile } hk)
    simp only [cachedFailingCluster, failingCluster, hf]
    exact refl_of SameDeployments s
  · simp only [cachedFailingCluster, failingCluster, hfails]
    exact sameDeployments_updateStatus_quarksSecret q s

end Refusing

section Converges

variable {P : Packages} {C : Collaborators} {fails : Object → Option Error}
  (hvarsApart : ∀ name name' q q', name ≠ name' → VarOf C name q → VarOf C name' q' →
    q.name ≠ q'.name)
  (hjobsApart : ∀ name name' j j', name ≠ name' → JobOf C name j → JobOf C name' j' →
    j.name ≠ j'.name)
  (hsecretName : ∀ name name',
    P.deploymentSecretName P.deploymentSecretTypeManifestWithOps name "" =
      P.deploymentSecretName P.deploymentSecretTypeManifestWithOps name' "" → name = name')
  (hwithOps : ∀ d lastReconcile ns,
    C.withOpsManifest { d with lastReconcile } ns = C.withOpsManifest d ns)
  (hvars : ∀ name vars quarksSecrets, C.convertVariables name vars = .ok quarksSecrets →
    (quarksSecrets.map QuarksSecret.name).Nodup)
  (hjobs : ∀ name manifest manifest' linkInfos firstGeneration j₁ j₂,
    C.variableInterpolationJob name manifest = .ok j₁ →
    C.instanceGroupManifestJob name manifest' linkInfos firstGeneration = .ok j₂ →
    j₁.name ≠ j₂.name)
  (hfails : ∀ q, fails (.quarksSecret q) = none)
include hvarsApart hjobsApart hsecretName hwithOps hvars hjobs hfails

/-- The status update that ends a reconcile is best effort. On the cached client of an API
server that may refuse the status update of a deployment, and of no QuarksSecret, a reconcile from
a store with its names apart that reaches its status update reports success, refused or not. It
leaves the deployment converged, and every next reconcile of it, at any time, in any map iteration
order and on any cached client, writes nothing new. When the API server refuses the update, every
deployment keeps its last reconcile, so the meltdown guard does not hold back that next
reconcile. -/
theorem reconcile_status_best_effort
    (hlinkOrder : ∀ name manifest linkInfos linkInfos' firstGeneration,
      linkInfos.Perm linkInfos' → C.instanceGroupManifestJob name manifest linkInfos
        firstGeneration = C.instanceGroupManifestJob name manifest linkInfos' firstGeneration)
    (cached : Store → Listing) (hc : Reorders cached) (hpods : ∀ st, (cached st).pods = st.pods)
    (config : Config) (orders : RangeOrders) (key : NamespacedName) (st : Store)
    (ha : Apart P st)
    (hstatus : ∃ d result, Event.updateStatus (.deployment d) result ∈
      (reconcile P C (cachedFailingCluster fails cached) config orders key ⟨st, []⟩).2.events) :
    let r := reconcile P C (cachedFailingCluster fails cached) config orders key ⟨st, []⟩
    r.1.2 = none ∧ ConvergedAt P C key r.2.store ∧
      (∀ cached', Reorders cached' → (∀ st, (cached' st).pods = st.pods) → ∀ orders' clock,
        Quiet (reconcile P C (cachedFailingCluster fails cached') config orders' key
          ⟨{ r.2.store with clock }, []⟩).2.events) ∧
      ((∀ d, d.key = key → fails (.deployment d) ≠ none) →
        r.2.store.deployments = st.deployments) := by
  intro r
  obtain ⟨-, hst⟩ := reconcile_stamped hfails cached config orders key ⟨st, []⟩
  -- The run on the store reaches its status update too, and leaves the deployment converged.
  have hconv : ConvergedAt P C key r.2.store := hst.convergedAt hwithOps <|
    convergedAt_reconcile_cached hvarsApart hjobsApart hsecretName hwithOps hvars hjobs hlinkOrder
      cached hc hpods config orders key st ha key (.inr ⟨rfl, hst.status hstatus⟩)
  refine ⟨reconcile_succeeds_of_status config orders key _ (fun _ _ => List.not_mem_nil _) hstatus,
    hconv, fun cached' hc' hpods' orders' clock => ?_,
    reconcile_deployments_of_refused hfails cached config orders key st⟩
  obtain ⟨events, he, hq, -⟩ := reconcile_quiet cached' config orders' key
    ⟨{ r.2.store with clock }, []⟩ fun d m hg hres hl =>
      (hconv.withClock clock).holds_cached hlinkOrder hc' (hpods' _) orders' d m hg hres hl
  refine (reconcile_stamped hfails cached' config orders' key _).2.quiet ?_
  rw [he, List.nil_append]
  exact hq

end Converges

def refuseDeploymentStatus : Object → Option Error
  | .deployment _ => some (.status .other "conflict")
  | _ => none

theorem reconcile_status_best_effort_sample :
    let r := reconcile linklessPackages namedCollaborators
      (cachedFailingCluster refuseDeploymentStatus reversedListing) sampleConfig sampleOrders
      sampleDeployment.key ⟨pairStore, []⟩
    r.1.2 = none ∧ ConvergedAt linklessPackages namedCollaborators sampleDeployment.key r.2.store ∧
      (∀ cached', Reorders cached' → (∀ st, (cached' st).pods = st.pods) → ∀ orders' clock,
        Quiet (reconcile linklessPackages namedCollaborators
          (cachedFailingCluster refuseDeploymentStatus cached') sampleConfig orders'
          sampleDeployment.key ⟨{ r.2.store with clock }, []⟩).2.events) ∧
      ((∀ d, d.key = sampleDeployment.key → refuseDeploymentStatus (.deployment d) ≠ none) →
        r.2.store.deployments = pairStore.deployments) :=
  reconcile_status_best_effort namedCollaborators_varsApart namedCollaborators_jobsApart
    linklessPackages_secretName namedCollaborators_withOpsManifest namedCollaborators_vars_nodup
    namedCollaborators_jobs_ne (fun _ => rfl) (fun _ _ _ _ _ _ => rfl) reversedListing
    reorders_reversedListing (fun _ => rfl) sampleConfig sampleOrders sampleDeployment.key
    pairStore pairStore_apart
    ⟨{ sampleDeployment with lastReconcile := some (100 * second) },
      some (.status .other "conflict"), by decide⟩

/- In that run `cf` keeps no last reconcile: the next reconcile, even at once, is not held back
by the meltdown guard. -/
example : (reconcile linklessPackages namedCollaborators
    (cachedFailingCluster refuseDeploymentStatus reversedListing) sampleConfig sampleOrders
    sampleDeployment.key ⟨pairStore, []⟩).2.store.deployments sampleDeployment.key =
      some sampleDeployment := by
  decide

end CfOperator.BestEffort
