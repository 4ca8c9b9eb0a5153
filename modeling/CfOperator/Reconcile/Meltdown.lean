import CfOperator.Reconcile.Effects
import CfOperator.Reconcile.Writes
import CfOperator.Reconcile.Idempotence

namespace CfOperator.Meltdown

open Steps Effects Writes Results Idempotence

/-- From `r` to `r'` a run makes writes that keep `R` and no status update of a deployment, and
then at most the status update that stamps `deployment` with the time of the store it reached. -/
def StampsLast {σ : Type} (cluster : Cluster σ) (R : σ → σ → Prop) (deployment : BOSHDeployment)
    (r r' : Run σ) : Prop :=
  ∃ s events, R r.store s ∧ (∀ d result, Event.updateStatus (.deployment d) result ∉ events) ∧
    (r' = ⟨s, r.events ++ events⟩ ∨ ∃ result,
      r' = ⟨(cluster.updateStatus
          (.deployment { deployment with lastReconcile := some (cluster.now s) }) s).2,
        r.events ++ events ++ [.updateStatus
          (.deployment { deployment with lastReconcile := some (cluster.now s) }) result]⟩)

section

variable {σ : Type} {P : Packages} {C : Collaborators} {cluster : Cluster σ}
  {R : σ → σ → Prop} [IsPreorder σ R] {deployment : BOSHDeployment}

theorem StampsLast.refl (r : Run σ) : StampsLast cluster R deployment r r :=
  ⟨r.store, [], refl_of R _, fun _ _ => List.not_mem_nil _, .inl (by rw [List.append_nil])⟩

theorem StampsLast.of_writes {r r₁ r' : Run σ} {events : List Event}
    (hev : r₁.events = r.events ++ events) (hR : R r.store r₁.store)
    (hno : ∀ d result, Event.updateStatus (.deployment d) result ∉ events)
    (h : StampsLast cluster R deployment r₁ r') : StampsLast cluster R deployment r r' := by
  obtain ⟨s, events₁, hs, hno₁, h⟩ := h
  refine ⟨s, events ++ events₁, trans_of R hR hs, fun d result he => ?_, ?_⟩
  · rcases List.mem_append.mp he with he | he
    exacts [hno d result he, hno₁ d result he]
  · rw [hev] at h
    simpa only [List.append_assoc] using h

theorem StampsLast.stamp (r : Run σ) (result : Option Error) :
    StampsLast cluster R deployment r
      ⟨(cluster.updateStatus
          (.deployment { deployment with lastReconcile := some (cluster.now r.store) }) r.store).2,
        r.events ++ [.updateStatus
          (.deployment { deployment with lastReconcile := some (cluster.now r.store) }) result]⟩ :=
  ⟨r.store, [], refl_of R _, fun _ _ => List.not_mem_nil _, .inr ⟨result, by rw [List.append_nil]⟩⟩

theorem createManifestWithOps_events (manifest : Manifest) (r : Run σ) :
    ∃ events, (createManifestWithOps P C cluster deployment manifest r).2.events =
      r.events ++ events ∧ ∀ d result, Event.updateStatus (.deployment d) result ∉ events := by
  rw [(createManifestWithOps_run P deployment manifest r).1]
  split
  · exact ⟨[], (List.append_nil _).symm, fun _ _ => List.not_mem_nil _⟩
  · exact ⟨_, rfl, fun _ _ => updateStatus_not_mem_refThenWrite _ _ _ _ _⟩

theorem createManifestWithOps_stamps
    (hsecret : ∀ manifestBytes s,
      R s (cluster.createOrUpdate (.secret (manifestWithOpsSecret P deployment manifestBytes)) s).2)
    (manifest : Manifest) {r r' : Run σ}
    (h : StampsLast cluster R deployment (createManifestWithOps P C cluster deployment manifest r).2
      r') : StampsLast cluster R deployment r r' := by
  obtain ⟨events, he, hno⟩ := @createManifestWithOps_events σ P C cluster deployment manifest r
  exact .of_writes he (createManifestWithOps_keeps hsecret manifest r) hno h

theorem createQuarksJob_stamps (hjob : ∀ qJob s, R s (cluster.createOrUpdate (.quarksJob qJob) s).2)
    (qJob : QuarksJob) {r r' : Run σ}
    (h : StampsLast cluster R deployment (createQuarksJob C cluster deployment qJob r).2 r') :
    StampsLast cluster R deployment r r' :=
  .of_writes (congrArg Run.events (createQuarksJob_run deployment qJob r).1)
    (createQuarksJob_keeps hjob deployment qJob r)
    (fun _ _ => updateStatus_not_mem_refThenWrite _ _ _ _ _) h

theorem syncJobs_status (hjob : ∀ qJob s, R s (cluster.createOrUpdate (.quarksJob qJob) s).2)
    (request : NamespacedName) (manifest : Manifest) (linkInfos : LinkInfos) (r : Run σ) :
    StampsLast cluster R deployment r
      (syncJobs C cluster request deployment manifest linkInfos r).2 := by
  unfold syncJobs
  rcases C.variableInterpolationJob deployment.name manifest with err | job₁
  · exact .refl r
  simp only [ReconcileM.bind_run]
  refine createQuarksJob_stamps (C := C) hjob job₁ ?_
  rcases (createQuarksJob C cluster deployment job₁ r).1 with _ | err
  swap
  · exact .refl _
  rcases C.instanceGroupManifestJob deployment.name manifest linkInfos
    (deployment.generation == 1) with err | job₂
  · exact .refl _
  simp only [ReconcileM.bind_run]
  refine createQuarksJob_stamps (C := C) hjob job₂ ?_
  rcases (createQuarksJob C cluster deployment job₂ _).1 with _ | err
  swap
  · exact .refl _
  simp only [ReconcileM.bind_run, timeNow_run, updateStatus_run]
  generalize (cluster.updateStatus _ _).1 = result
  rcases result with _ | err
  exacts [.stamp _ none, .stamp _ (some err)]

theorem syncDerived_status
    (hsecret : ∀ manifestBytes s,
      R s (cluster.createOrUpdate (.secret (manifestWithOpsSecret P deployment manifestBytes)) s).2)
    (hq : ∀ q s, R s (cluster.createOrUpdate (.quarksSecret q) s).2)
    (hqs : ∀ q s, R s (cluster.updateStatus (.quarksSecret q) s).2)
    (hjob : ∀ qJob s, R s (cluster.createOrUpdate (.quarksJob qJob) s).2)
    (request : NamespacedName) (manifest : Manifest) (linkInfos : LinkInfos) (r : Run σ) :
    StampsLast cluster R deployment r
      (syncDerived P C cluster request deployment manifest linkInfos r).2 := by
  unfold syncDerived
  simp only [ReconcileM.bind_run]
  refine createManifestWithOps_stamps (C := C) hsecret manifest ?_
  rcases (createManifestWithOps P C cluster deployment manifest r).1 with err | ms
  · exact .refl _
  rcases C.convertVariables deployment.name manifest.vars with err | vars
  · exact .refl _
  simp only [ite_createQuarksSecrets, ReconcileM.bind_run]
  obtain ⟨events, he, hno, -⟩ := @createQuarksSecrets_writes
    (Plan.of P C deployment manifest linkInfos) σ C cluster ms vars
    (createManifestWithOps P C cluster deployment manifest r).2
  refine .of_writes he (createQuarksSecrets_keeps hq hqs ms vars _) hno ?_
  rcases (createQuarksSecrets C cluster ms vars _).1 with _ | err
  · exact syncJobs_status hjob request manifest linkInfos _
  · exact .refl _

end

def SameDeployments (st st' : Store) : Prop :=
  st'.deployments = st.deployments ∧ st'.clock = st.clock

instance isPreorder_sameDeployments : IsPreorder Store SameDeployments where
  refl _ := ⟨rfl, rfl⟩
  trans _ _ _ h₁ h₂ := ⟨h₂.1.trans h₁.1, h₂.2.trans h₁.2⟩

theorem sameDeployments_createOrUpdate (object : Object) (st : Store) :
    SameDeployments st (Store.createOrUpdate object st).2 := by
  unfold Store.createOrUpdate
  repeat' split
  all_goals exact ⟨rfl, rfl⟩

theorem sameDeployments_updateStatus_quarksSecret (q : QuarksSecret) (st : Store) :
    SameDeployments st (Store.updateStatus (.quarksSecret q) st).2 := by
  simp only [Store.updateStatus]
  split <;> exact ⟨rfl, rfl⟩

def lastReconcileOf (request : NamespacedName) (st : Store) : Option Time :=
  (st.deployments request).bind BOSHDeployment.lastReconcile

theorem lastReconcileOf_withLastReconcile_self {st : Store} {key : NamespacedName}
    {d : BOSHDeployment} (h : st.deployments key = some d) (lastReconcile : Option Time) :
    lastReconcileOf key (st.withLastReconcile key lastReconcile) = lastReconcile := by
  simp [lastReconcileOf, Store.withLastReconcile, h]

theorem lastReconcileOf_withLastReconcile_of_ne {request key : NamespacedName} (h : request ≠ key)
    (st : Store) (lastReconcile : Option Time) :
    lastReconcileOf request (st.withLastReconcile key lastReconcile) =
      lastReconcileOf request st := by
  simp only [lastReconcileOf, Store.withLastReconcile, Function.update_noteq h]

def statusKey : Event → Option NamespacedName
  | .updateStatus (.deployment d) _ => some d.key
  | _ => none

def syncs (request : NamespacedName) (events : List Event) : Bool :=
  events.any fun e => statusKey e = some request

theorem syncs_eq_false {events : List Event}
    (hno : ∀ d result, Event.updateStatus (.deployment d) result ∉ events)
    (request : NamespacedName) : syncs request events = false := by
  rw [syncs, List.any_eq_false]
  intro e he
  unfold statusKey
  split
  · exact absurd he (hno _ _)
  · simp

theorem syncs_stamp {events : List Event}
    (hno : ∀ d result, Event.updateStatus (.deployment d) result ∉ events)
    (request : NamespacedName) (d : BOSHDeployment) (result : Option Error) :
    syncs request (events ++ [.updateStatus (.deployment d) result]) =
      decide (d.key = request) := by
  have h := syncs_eq_false hno request
  unfold syncs at h ⊢
  rw [List.any_append, h]
  simp [statusKey]

variable {P : Packages} {C : Collaborators}

theorem reconcile_stamps (cached : Store → Listing) (config : Config) (orders : RangeOrders)
    (request : NamespacedName) (r : Run Store) :
    (∃ events, (reconcile P C (Store.cachedCluster cached) config orders request r).2 =
        ⟨r.store, r.events ++ events⟩ ∧
      ∀ d result, Event.updateStatus (.deployment d) result ∉ events) ∨
    ∃ deployment, Store.get request r.store = .ok deployment ∧
      P.meltdownContains config.meltdownDuration deployment.lastReconcile r.store.clock = false ∧
      StampsLast (Store.cachedCluster cached) SameDeployments deployment r
        (reconcile P C (Store.cachedCluster cached) config orders request r).2 := by
  rcases @reconcile_cases _ P C (Store.cachedCluster cached) config orders request r with
    ⟨_, -, -, he⟩ | ⟨_, -, -, -, he⟩ | ⟨_, _, -, -, -, -, he⟩ | ⟨_, _, _, -, -, -, -, -, he⟩ |
      ⟨deployment, manifest, hg, hm, -, -, he⟩
  iterate 3 exact .inl ⟨[.get request], he, by simp⟩
  · exact .inl ⟨_, by rw [he, List.append_assoc], by simp⟩
  · refine .inr ⟨deployment, hg, hm, ?_⟩
    rw [he]
    refine .of_writes (List.append_assoc _ _ _) ?_ ?_
      (syncDerived_status (fun _ => sameDeployments_createOrUpdate _)
        (fun _ => sameDeployments_createOrUpdate _) sameDeployments_updateStatus_quarksSecret
        (fun _ => sameDeployments_createOrUpdate _) request _ _ _)
    · exact refl_of _ _
    · simp

theorem reconcile_lastReconcileOf (cached : Store → Listing) (config : Config)
    (orders : RangeOrders) (request' : NamespacedName) (r : Run Store) (request : NamespacedName) :
    ∃ events, (reconcile P C (Store.cachedCluster cached) config orders request' r).2.events =
        r.events ++ events ∧
      if syncs request events then
        P.meltdownContains config.meltdownDuration (lastReconcileOf request r.store)
          r.store.clock = false ∧
        lastReconcileOf request
            (reconcile P C (Store.cachedCluster cached) config orders request' r).2.store =
          some (wholeSeconds r.store.clock)
      else
        lastReconcileOf request
            (reconcile P C (Store.cachedCluster cached) config orders request' r).2.store =
          lastReconcileOf request r.store := by
  rcases reconcile_stamps cached config orders request' r with
    ⟨events, he, hno⟩ | ⟨deployment, hg, hm, s, events, ⟨hd, hc⟩, hno, h | ⟨result, h⟩⟩
  · exact ⟨events, by rw [he], by simp [syncs_eq_false hno, he]⟩
  · exact ⟨events, by rw [h], by simp [syncs_eq_false hno, h, lastReconcileOf, hd]⟩
  have hr := Store.get_eq_ok.mp hg
  refine ⟨_, by rw [h, List.append_assoc], ?_⟩
  rw [syncs_stamp hno, h, Store.cachedCluster_updateStatus, Store.updateStatus_deployment_store]
  simp only [BOSHDeployment.key_withLastReconcile, r.store.deployments_key _ _ hr,
    decide_eq_true_eq]
  split_ifs with hk
  · subst hk
    refine ⟨by rwa [lastReconcileOf, hr, Option.some_bind], ?_⟩
    rw [lastReconcileOf_withLastReconcile_self (hd ▸ hr), Store.cachedCluster_now, hc,
      Option.map_some']
  · rw [lastReconcileOf_withLastReconcile_of_ne (Ne.symm hk)]
    simp only [lastReconcileOf, hd]

/-- Two sync times of one deployment, `t` and then `t'`: the same, or `t'` at least `d` after
the stamp `t` left, which is `t` in whole seconds. -/
def Apart (d : Duration) (t t' : Time) : Prop := t' = t ∨ wholeSeconds t + d ≤ t'

theorem Apart.trans {d : Duration} {t t' t'' : Time} (h₁ : Apart d t t') (h₂ : Apart d t' t'') :
    Apart d t t'' := by
  unfold Apart wholeSeconds second at *
  dsimp only [Time, Duration] at *
  omega

theorem apart_of_meltdownContains {d : Duration}
    (hwindow : ∀ t now, t < now → now < t + d → P.meltdownContains d (some t) now = true)
    {t now : Time} (ht : t ≤ now) (h : P.meltdownContains d (some (wholeSeconds t)) now = false) :
    Apart d t now := by
  have hle := wholeSeconds_le t
  by_contra hc
  unfold Apart at hc
  dsimp only [Time, Duration] at ht hc hle
  refine Bool.false_ne_true (h ▸ hwindow _ now ?_ ?_)
  all_goals dsimp only [Time, Duration]; omega

/-- The clocks of the runs whose events sync the deployment under `request`. -/
def syncTimes (request : NamespacedName) : List CachedRun → List (Run Store) → List Time
  | run :: runs, r :: rs =>
    if syncs request r.events then run.clock :: syncTimes request runs rs
    else syncTimes request runs rs
  | _, _ => []

theorem after_lastReconcileOf (config : Config) (run : CachedRun) (s : Store)
    (request : NamespacedName) :
    if syncs request (run.after P C config s).events then
      P.meltdownContains config.meltdownDuration (lastReconcileOf request s) run.clock = false ∧
      lastReconcileOf request (run.after P C config s).store = some (wholeSeconds run.clock)
    else
      lastReconcileOf request (run.after P C config s).store = lastReconcileOf request s := by
  obtain ⟨events, he, hrun⟩ := reconcile_lastReconcileOf (P := P) (C := C) run.listing config
    run.orders run.request ⟨{ s with clock := run.clock }, []⟩ request
  rw [List.nil_append] at he
  rwa [CachedRun.after, he]

theorem syncTimes_cachedRuns (config : Config)
    (hwindow : ∀ t now, t < now → now < t + config.meltdownDuration →
      P.meltdownContains config.meltdownDuration (some t) now = true)
    (request : NamespacedName) :
    ∀ (runs : List CachedRun) (s : Store), runs.Pairwise (fun run run' => run.clock ≤ run'.clock) →
      (syncTimes request runs (cachedRuns P C config runs s)).Pairwise
          (Apart config.meltdownDuration) ∧
        ∀ t, lastReconcileOf request s = some (wholeSeconds t) → (∀ run ∈ runs, t ≤ run.clock) →
          ∀ t' ∈ syncTimes request runs (cachedRuns P C config runs s),
            Apart config.meltdownDuration t t'
  | [], _, _ => ⟨List.Pairwise.nil, fun _ _ _ _ h => nomatch h⟩
  | run :: runs, s, hclock => by
    obtain ⟨hfirst, hclock⟩ := List.pairwise_cons.mp hclock
    have hrun := @after_lastReconcileOf P C config run s request
    obtain ⟨hpair, hafter⟩ := syncTimes_cachedRuns config hwindow request runs _ hclock
    simp only [cachedRuns, syncTimes]
    split_ifs at hrun ⊢ with hs
    · obtain ⟨hm, hlast⟩ := hrun
      refine ⟨List.pairwise_cons.mpr ⟨hafter run.clock hlast hfirst, hpair⟩,
        fun t ht hle t' ht' => ?_⟩
      have hc : Apart config.meltdownDuration t run.clock :=
        apart_of_meltdownContains hwindow (hle _ (List.mem_cons_self _ _)) (ht ▸ hm)
      rcases List.mem_cons.mp ht' with rfl | ht'
      · exact hc
      · exact hc.trans (hafter run.clock hlast hfirst t' ht')
    · exact ⟨hpair, fun t ht hle => hafter t (hrun.trans ht)
        fun run hr => hle run (List.mem_cons_of_mem _ hr)⟩

theorem samplePackages_meltdownContains :
    ∀ t now, t < now → now < t + sampleConfig.meltdownDuration →
      samplePackages.meltdownContains sampleConfig.meltdownDuration (some t) now = true := by
  intro t now _ h
  simp only [samplePackages, Option.any_some, decide_eq_true_eq]
  dsimp only [Time, Duration] at *
  omega

def sampleRun (clock : Time) : CachedRun :=
  ⟨sampleDeployment.key, sampleOrders, Store.listing, .self, fun _ => rfl, clock⟩

/-- Three reconciles of `sampleDeployment`: the one at 100.5 s stamps 100 s, the one at 105 s
falls in that stamp's window, and the one at 110.2 s is past it, 9.7 s after the first sync. -/
def windowRuns : List CachedRun :=
  [sampleRun (100 * second + second / 2), sampleRun (105 * second),
    sampleRun (110 * second + second / 5)]

example : syncTimes sampleDeployment.key windowRuns
    (cachedRuns samplePackages (sampleCollaborators []) sampleConfig windowRuns sampleStore) =
      [100 * second + second / 2, 110 * second + second / 5] := by
  decide

theorem reconcile_meltdown (config : Config) (orders : RangeOrders) {request : NamespacedName}
    {r : Run Store} {d : BOSHDeployment} (hg : Store.get request r.store = .ok d)
    (hm : P.meltdownContains config.meltdownDuration d.lastReconcile r.store.clock = true) :
    reconcile P C Store.cluster config orders request r =
      ((⟨false, config.meltdownRequeueAfter⟩, none), ⟨r.store, r.events ++ [.get request]⟩) := by
  unfold reconcile
  simp [hg, hm]

def requeueRuns (P : Packages) (C : Collaborators) (config : Config) (orders : RangeOrders)
    (request : NamespacedName) : Nat → Store → List Store
  | 0, _ => []
  | fuel + 1, s =>
    s :: if (reconcile P C Store.cluster config orders request ⟨s, []⟩).1.1.requeueAfter = 0 then []
      else requeueRuns P C config orders request fuel
        { (reconcile P C Store.cluster config orders request ⟨s, []⟩).2.store with
          clock := s.clock +
            (reconcile P C Store.cluster config orders request ⟨s, []⟩).1.1.requeueAfter }

/-- Meltdown never starves a deployment: when the meltdown window of a last reconcile `t` holds
no time from `t + meltdownDuration` on, and none without a last reconcile, the requeues of a
request reach a run outside the window of its deployment within `fuel` requeues, as soon as
`t + meltdownDuration` is at most `fuel` requeue delays after the first run. -/
theorem requeueRuns_leave_meltdown (config : Config) (orders : RangeOrders)
    (hend : ∀ t now, t + config.meltdownDuration ≤ now →
      P.meltdownContains config.meltdownDuration (some t) now = false)
    (hnone : ∀ now, P.meltdownContains config.meltdownDuration none now = false)
    (request : NamespacedName) :
    ∀ (fuel : Nat) (s : Store), (∀ d t, Store.get request s = .ok d → d.lastReconcile = some t →
        t + config.meltdownDuration ≤ s.clock + fuel * config.meltdownRequeueAfter) →
      ∃ s' ∈ requeueRuns P C config orders request (fuel + 1) s, ∀ d,
        Store.get request s' = .ok d →
          P.meltdownContains config.meltdownDuration d.lastReconcile s'.clock = false := by
  have hpass : ∀ (s : Store) d, Store.get request s = .ok d →
      (∀ t, d.lastReconcile = some t → t + config.meltdownDuration ≤ s.clock) →
      P.meltdownContains config.meltdownDuration d.lastReconcile s.clock = false := by
    intro s d _ ht
    rcases h : d.lastReconcile with _ | t
    · exact hnone _
    · exact hend t _ (ht t h)
  intro fuel
  induction fuel with
  | zero =>
    intro s hfuel
    refine ⟨s, List.mem_cons_self _ _, fun d hg => hpass s d hg fun t ht => ?_⟩
    simpa using hfuel d t hg ht
  | succ fuel ih =>
    intro s hfuel
    by_cases hs : ∀ d, Store.get request s = .ok d →
        P.meltdownContains config.meltdownDuration d.lastReconcile s.clock = false
    · exact ⟨s, List.mem_cons_self _ _, hs⟩
    push_neg at hs
    obtain ⟨d, hg, hm⟩ := hs
    rw [ne_eq, Bool.not_eq_false] at hm
    have hrun := reconcile_meltdown (C := C) config orders (r := ⟨s, []⟩) hg hm
    have hra : config.meltdownRequeueAfter ≠ 0 := by
      intro h0
      refine absurd (hpass s d hg fun t ht => ?_) (by rw [hm]; decide)
      simpa [h0] using hfuel d t hg ht
    obtain ⟨s', hmem, h⟩ := ih { s with clock := s.clock + config.meltdownRequeueAfter }
      fun d' t hg' ht => by
        have := hfuel d' t hg' ht
        dsimp only [Time, Duration] at this ⊢
        rw [Nat.succ_mul] at this
        omega
    refine ⟨s', ?_, h⟩
    simp only [requeueRuns, hrun, if_neg hra]
    exact List.mem_cons_of_mem _ hmem

def stampedStore : Store :=
  (reconcile samplePackages (sampleCollaborators []) Store.cluster sampleConfig sampleOrders
    sampleDeployment.key ⟨sampleStore, []⟩).2.store

theorem stampedStore_get :
    Store.get sampleDeployment.key stampedStore =
      .ok { sampleDeployment with lastReconcile := some (100 * second) } := by
  rfl

theorem samplePackages_meltdownContains_end :
    ∀ t now, t + sampleConfig.meltdownDuration ≤ now →
      samplePackages.meltdownContains sampleConfig.meltdownDuration (some t) now = false := by
  intro t now h
  simp only [samplePackages, Option.any_some, decide_eq_false_iff_not, not_and, not_lt]
  dsimp only [Time, Duration] at *
  omega

/- The runs at 100 s and 105 s fall in the window of the stamp at 100 s; the one at 110 s is past
it. -/
example : (requeueRuns samplePackages (sampleCollaborators []) sampleConfig sampleOrders
    sampleDeployment.key 5 stampedStore).map Store.clock =
      [100 * second, 105 * second, 110 * second] := by
  decide

theorem requeueRuns_leave_meltdown_sample :
    ∃ s' ∈ requeueRuns samplePackages (sampleCollaborators []) sampleConfig sampleOrders
        sampleDeployment.key 3 stampedStore, ∀ d, Store.get sampleDeployment.key s' = .ok d →
      samplePackages.meltdownContains sampleConfig.meltdownDuration d.lastReconcile s'.clock =
        false :=
  requeueRuns_leave_meltdown sampleConfig sampleOrders samplePackages_meltdownContains_end
    (fun _ => rfl) _ 2 _ fun d t hg ht => by
      rw [stampedStore_get, Except.ok.injEq] at hg
      subst hg
      cases ht
      decide

end CfOperator.Meltdown
