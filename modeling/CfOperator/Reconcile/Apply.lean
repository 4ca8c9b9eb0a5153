import CfOperator.Reconcile.Regenerate

namespace CfOperator.Apply

open Steps Writes Regenerate

inductive Write where
  | secret (s : Secret)
  | quarksSecret (q : QuarksSecret)
  | quarksJob (j : QuarksJob)
  | stamp (key : NamespacedName)

/-- A write as the store applies it: `CreateOrUpdate` of the object, for a QuarksSecret followed
by the reset of its status after an update, and the status update that sets the deployment's
last reconcile to the store's time in whole seconds. -/
def Write.apply : Write → Store → Store
  | .secret s, st => (Store.createOrUpdate (.secret s) st).2
  | .quarksSecret q, st => { st with quarksSecrets := Store.turnQuarksSecrets st.quarksSecrets q }
  | .quarksJob j, st => (Store.createOrUpdate (.quarksJob j) st).2
  | .stamp key, st => st.withLastReconcile key (some (wholeSeconds st.clock))

def applyWrites (writes : List Write) (st : Store) : Store :=
  writes.foldl (fun st w => w.apply st) st

def jobWrites (plan : Plan) : List Write :=
  match plan.interpolationJob, plan.instanceGroupJob with
  | .ok j₁, .ok j₂ => [.quarksJob j₁, .quarksJob j₂, .stamp plan.deployment.key]
  | .ok j₁, .error _ => [.quarksJob j₁]
  | .error _, _ => []

/-- The writes of a plan in the order a reconcile makes them, up to the first object a
collaborator fails to build. -/
def planWrites (plan : Plan) : List Write :=
  match plan.manifestSecret, plan.quarksSecrets with
  | .ok s, .ok vars => .secret s :: (vars.map .quarksSecret ++ jobWrites plan)
  | .ok s, .error _ => [.secret s]
  | .error _, _ => []

theorem applyWrites_append (writes writes' : List Write) (st : Store) :
    applyWrites (writes ++ writes') st = applyWrites writes' (applyWrites writes st) :=
  List.foldl_append _ _ _ _

theorem applyWrites_quarksSecrets :
    ∀ (vars : List QuarksSecret) (st : Store), applyWrites (vars.map .quarksSecret) st =
      { st with quarksSecrets := vars.foldl Store.turnQuarksSecrets st.quarksSecrets }
  | [], _ => rfl
  | _ :: vars, _ => applyWrites_quarksSecrets vars _

/-- A run from `st` to `st'` that reports `err` applied a prefix of `writes`, and all of them
when it reports no error. -/
def AppliesPrefix (writes : List Write) (st st' : Store) (err : Option Error) : Prop :=
  ∃ pre, pre <+: writes ∧ st' = applyWrites pre st ∧ (err = none → pre = writes)

namespace AppliesPrefix

variable {writes : List Write} {st st' : Store}

theorem stop (writes : List Write) (st : Store) (err : Error) :
    AppliesPrefix writes st st (some err) :=
  ⟨[], List.nil_prefix, rfl, nofun⟩

theorem nil (st : Store) : AppliesPrefix [] st st none :=
  ⟨[], List.nil_prefix, rfl, fun _ => rfl⟩

theorem append {writes₁ : List Write} {st₁ : Store} {err : Option Error}
    (h₁ : applyWrites writes₁ st = st₁) (h : AppliesPrefix writes st₁ st' err) :
    AppliesPrefix (writes₁ ++ writes) st st' err := by
  obtain ⟨pre, hpre, hs, hall⟩ := h
  refine ⟨writes₁ ++ pre, (List.prefix_append_right_inj writes₁).mpr hpre, ?_, fun he => ?_⟩
  · rw [applyWrites_append, h₁, hs]
  · rw [hall he]

theorem cons {w : Write} {st₁ : Store} {err : Option Error} (h₁ : w.apply st = st₁)
    (h : AppliesPrefix writes st₁ st' err) : AppliesPrefix (w :: writes) st st' err :=
  append (show applyWrites [w] st = st₁ from h₁) h

end AppliesPrefix

variable {P : Packages} {C : Collaborators}

theorem storeAfter_of_written {owner object : Object} {st : Store}
    (h : Written C Store.cluster owner object st) :
    storeAfter C Store.cluster owner object st = (Store.createOrUpdate object st).2 := by
  unfold storeAfter
  rw [h.1]
  rfl

theorem createQuarksJob_applies (deployment : BOSHDeployment) (qJob : QuarksJob) (r : Run Store) :
    ((createQuarksJob C Store.cluster deployment qJob r).1 = none ∧
      (createQuarksJob C Store.cluster deployment qJob r).2.store =
        (Write.quarksJob qJob).apply r.store) ∨
    ∃ err, (createQuarksJob C Store.cluster deployment qJob r).1 = some err ∧
      (createQuarksJob C Store.cluster deployment qJob r).2.store = r.store := by
  obtain ⟨he, hw⟩ := @createQuarksJob_run Store C Store.cluster deployment qJob r
  rw [he]
  by_cases h : Written C Store.cluster (.deployment deployment) (.quarksJob qJob) r.store
  · exact .inl ⟨hw.mpr h, storeAfter_of_written h⟩
  · rcases hn : (createQuarksJob C Store.cluster deployment qJob r).1 with _ | err
    · exact absurd (hw.mp hn) h
    · exact .inr ⟨err, rfl, storeAfter_of_not_written h⟩

theorem createManifestWithOps_applies (deployment : BOSHDeployment) (manifest : Manifest)
    (r : Run Store) :
    (∃ manifestSecret, manifestWithOpsSecret P deployment <$> P.marshal manifest =
        .ok manifestSecret ∧
      (createManifestWithOps P C Store.cluster deployment manifest r).1 = .ok manifestSecret ∧
      (createManifestWithOps P C Store.cluster deployment manifest r).2.store =
        (Write.secret manifestSecret).apply r.store) ∨
    ∃ err, (createManifestWithOps P C Store.cluster deployment manifest r).1 = .error err ∧
      (createManifestWithOps P C Store.cluster deployment manifest r).2.store = r.store := by
  obtain ⟨he, hok⟩ := @createManifestWithOps_run Store P C Store.cluster deployment manifest r
  rw [he]
  rcases hm : P.marshal manifest with err | bytes
  · rcases h : (createManifestWithOps P C Store.cluster deployment manifest r).1 with err' | ms
    · exact .inr ⟨err', rfl, rfl⟩
    · obtain ⟨_, hm', -⟩ := (hok ms).mp h
      rw [hm] at hm'
      cases hm'
  by_cases hw : Written C Store.cluster (.deployment deployment)
      (.secret (manifestWithOpsSecret P deployment bytes)) r.store
  · exact .inl ⟨_, rfl, (hok _).mpr ⟨bytes, hm, rfl, hw⟩, storeAfter_of_written hw⟩
  rcases h : (createManifestWithOps P C Store.cluster deployment manifest r).1 with err' | ms
  · exact .inr ⟨err', rfl, storeAfter_of_not_written hw⟩
  · obtain ⟨bytes', hm', rfl, hw'⟩ := (hok ms).mp h
    rw [hm, Except.ok.injEq] at hm'
    exact absurd (hm' ▸ hw') hw

theorem syncJobs_applies (request : NamespacedName) (deployment : BOSHDeployment)
    (manifest : Manifest) (linkInfos : LinkInfos) (r : Run Store) :
    AppliesPrefix (jobWrites (Plan.of P C deployment manifest linkInfos)) r.store
      (syncJobs C Store.cluster request deployment manifest linkInfos r).2.store
      (syncJobs C Store.cluster request deployment manifest linkInfos r).1.2 := by
  unfold syncJobs jobWrites
  simp only [Plan.of]
  rcases C.variableInterpolationJob deployment.name manifest with err | job₁
  · exact .stop _ _ _
  simp only [ReconcileM.bind_run]
  rcases @createQuarksJob_applies C deployment job₁ r with ⟨h₁, hs₁⟩ | ⟨err, h₁, hs₁⟩
  swap
  · rw [h₁]
    exact hs₁ ▸ .stop _ _ _
  rw [h₁]
  rcases C.instanceGroupManifestJob deployment.name manifest linkInfos
    (deployment.generation == 1) with err | job₂
  · exact .cons hs₁.symm (.stop _ _ _)
  simp only [ReconcileM.bind_run]
  refine .cons hs₁.symm ?_
  rcases @createQuarksJob_applies C deployment job₂ _ with ⟨h₂, hs₂⟩ | ⟨err, h₂, hs₂⟩
  swap
  · rw [h₂]
    exact hs₂ ▸ .stop _ _ _
  rw [h₂]
  refine .cons hs₂.symm ?_
  simp only [ReconcileM.bind_run, timeNow_run, updateStatus_run, Store.cluster_updateStatus,
    Store.updateStatus_deployment_store, Store.cluster_now]
  generalize (Store.updateStatus _ _).1 = result
  rcases result with _ | err
  all_goals exact .cons rfl (.nil _)

theorem syncDerived_applies (request : NamespacedName) (deployment : BOSHDeployment)
    (manifest : Manifest) (linkInfos : LinkInfos) (r : Run Store) :
    AppliesPrefix (planWrites (Plan.of P C deployment manifest linkInfos)) r.store
      (syncDerived P C Store.cluster request deployment manifest linkInfos r).2.store
      (syncDerived P C Store.cluster request deployment manifest linkInfos r).1.2 := by
  unfold syncDerived
  simp only [ReconcileM.bind_run]
  rcases @createManifestWithOps_applies P C deployment manifest r with
    ⟨ms, hplan, h₀, hs₀⟩ | ⟨err, h₀, hs₀⟩
  swap
  · rw [h₀]
    exact hs₀ ▸ .stop _ _ _
  rw [h₀]
  unfold planWrites
  simp only [Plan.of] at hplan ⊢
  rw [hplan]
  rcases C.convertVariables deployment.name manifest.vars with err | vars
  · exact .cons hs₀.symm (.stop _ _ _)
  refine .cons hs₀.symm ?_
  simp only [ite_createQuarksSecrets, ReconcileM.bind_run]
  obtain ⟨pre, hpre, hs, hall⟩ := createQuarksSecrets_quarksSecrets (C := C) ms vars
    (createManifestWithOps P C Store.cluster deployment manifest r).2
  rcases h : (createQuarksSecrets C Store.cluster ms vars _).1 with _ | err
  · rw [hall h] at hs
    exact .append (by rw [applyWrites_quarksSecrets, hs])
      (syncJobs_applies (P := P) request deployment manifest linkInfos _)
  · refine ⟨pre.map .quarksSecret, (hpre.map _).trans (List.prefix_append _ _), ?_, nofun⟩
    rw [applyWrites_quarksSecrets]
    exact hs

/-- A reconcile over the store that finds its deployment out of the meltdown window, resolves its
manifest and links it applies in order a prefix of the writes of the plan it derived, all of
them when it reports no error: the writes succeed on the store, so the run stops only where a
collaborator or a reference fails. A reconcile that stops at one of these checks leaves the
store as it was. -/
theorem reconcile_applies_plan (config : Config) (orders : RangeOrders)
    (request : NamespacedName) (r : Run Store) :
    (∀ deployment manifest, Store.get request r.store = .ok deployment →
      P.meltdownContains config.meltdownDuration deployment.lastReconcile r.store.clock = false →
      resolveManifest C deployment = .ok manifest →
      (listLinkInfos P deployment orders manifest (Store.listing r.store)).1.err = none →
      AppliesPrefix
        (planWrites (Plan.of P C deployment
          (listLinkInfos P deployment orders manifest (Store.listing r.store)).1.manifest
          (listLinkInfos P deployment orders manifest (Store.listing r.store)).1.linkInfos))
        r.store (reconcile P C Store.cluster config orders request r).2.store
        (reconcile P C Store.cluster config orders request r).1.2) ∧
    ((∀ deployment manifest, Store.get request r.store = .ok deployment →
      P.meltdownContains config.meltdownDuration deployment.lastReconcile r.store.clock = false →
      resolveManifest C deployment = .ok manifest →
      (listLinkInfos P deployment orders manifest (Store.listing r.store)).1.err ≠ none) →
      (reconcile P C Store.cluster config orders request r).2.store = r.store) := by
  rcases reconcile_cases P config orders request r with
    ⟨_, hg, -, he⟩ | ⟨_, hg, hmelt, -, he⟩ | ⟨_, _, hg, -, hres, -, he⟩ |
      ⟨_, _, _, hg, -, hres, hl, -, he⟩ | ⟨deployment, manifest, hg, hm, hres, hl, he⟩
  · refine ⟨fun d _ h _ _ _ => ?_, fun _ => by rw [he]⟩
    cases hg.symm.trans h
  · refine ⟨fun d _ h hm _ _ => ?_, fun _ => by rw [he]⟩
    cases hg.symm.trans h
    cases hmelt.symm.trans hm
  · refine ⟨fun d _ h _ hres' _ => ?_, fun _ => by rw [he]⟩
    cases hg.symm.trans h
    cases hres.symm.trans hres'
  · refine ⟨fun d _ h _ hres' hl' => ?_, fun _ => by rw [he]⟩
    cases hg.symm.trans h
    cases hres.symm.trans hres'
    cases hl.symm.trans hl'
  · refine ⟨fun d m h _ hres' _ => ?_, fun hstop => absurd hl (hstop _ _ hg hm hres)⟩
    cases hg.symm.trans h
    cases hres.symm.trans hres'
    rw [he]
    exact syncDerived_applies request deployment _ _ _

end CfOperator.Apply
