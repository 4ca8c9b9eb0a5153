import CfOperator.Reconcile.Store
import CfOperator.Reconcile.Steps

namespace CfOperator.Effects

open Steps

section

variable {σ : Type} {P : Packages} {C : Collaborators} {cluster : Cluster σ}

/-- A relation on stores that each write of a reconcile of `deployment` keeps: the with-ops
secret of the deployment and the deployment's status, and any QuarksSecret, QuarksSecret status
and QuarksJob. -/
structure KeepsWrites (P : Packages) (cluster : Cluster σ) (R : σ → σ → Prop)
    (deployment : BOSHDeployment) : Prop where
  manifestSecret : ∀ manifestBytes s,
    R s (cluster.createOrUpdate (.secret (manifestWithOpsSecret P deployment manifestBytes)) s).2
  status : ∀ lastReconcile s,
    R s (cluster.updateStatus (.deployment { deployment with lastReconcile }) s).2
  quarksSecret : ∀ q s, R s (cluster.createOrUpdate (.quarksSecret q) s).2
  quarksSecretStatus : ∀ q s, R s (cluster.updateStatus (.quarksSecret q) s).2
  quarksJob : ∀ qJob s, R s (cluster.createOrUpdate (.quarksJob qJob) s).2

variable {R : σ → σ → Prop} [IsPreorder σ R] {deployment : BOSHDeployment}

theorem storeAfter_keeps {owner object : Object} {s : σ}
    (h : R s (cluster.createOrUpdate object s).2) : R s (storeAfter C cluster owner object s) := by
  unfold storeAfter
  split
  · exact refl_of R s
  · exact h

theorem createQuarksSecrets_keeps (hq : ∀ q s, R s (cluster.createOrUpdate (.quarksSecret q) s).2)
    (hqs : ∀ q s, R s (cluster.updateStatus (.quarksSecret q) s).2) (manifestSecret : Secret) :
    ∀ (vars : List QuarksSecret) (r : Run σ),
      R r.store (createQuarksSecrets C cluster manifestSecret vars r).2.store
  | [], r => refl_of R r.store
  | var :: vars, r => by
    rcases createQuarksSecrets_cons manifestSecret var vars r with
      ⟨-, -, he⟩ | ⟨op, s, -, hc, h⟩
    · rw [he]
      exact storeAfter_keeps (hq var r.store)
    have hs := hq var r.store
    rw [hc] at hs
    have hnext := createQuarksSecrets_keeps hq hqs manifestSecret vars
    split_ifs at h
    · rcases h with ⟨-, -, he⟩ | ⟨-, he⟩ <;> rw [he]
      · exact trans_of R hs (hqs _ s)
      · exact trans_of R (trans_of R hs (hqs _ s)) (hnext ⟨_, _⟩)
    · rw [h]
      exact trans_of R hs (hnext ⟨_, _⟩)

theorem createQuarksJob_keeps (hjob : ∀ qJob s, R s (cluster.createOrUpdate (.quarksJob qJob) s).2)
    (owner : BOSHDeployment) (qJob : QuarksJob) (r : Run σ) :
    R r.store (createQuarksJob C cluster owner qJob r).2.store := by
  rw [(createQuarksJob_run owner qJob r).1]
  exact storeAfter_keeps (hjob qJob r.store)

theorem createManifestWithOps_keeps
    (hsecret : ∀ manifestBytes s,
      R s (cluster.createOrUpdate (.secret (manifestWithOpsSecret P deployment manifestBytes)) s).2)
    (manifest : Manifest) (r : Run σ) :
    R r.store (createManifestWithOps P C cluster deployment manifest r).2.store := by
  rw [(createManifestWithOps_run P deployment manifest r).1]
  split
  · exact refl_of R r.store
  · exact storeAfter_keeps (hsecret _ r.store)

theorem syncJobs_keeps
    (hstatus : ∀ lastReconcile s,
      R s (cluster.updateStatus (.deployment { deployment with lastReconcile }) s).2)
    (hjob : ∀ qJob s, R s (cluster.createOrUpdate (.quarksJob qJob) s).2)
    (request : NamespacedName) (manifest : Manifest) (linkInfos : LinkInfos) (r : Run σ) :
    R r.store (syncJobs C cluster request deployment manifest linkInfos r).2.store := by
  unfold syncJobs
  rcases C.variableInterpolationJob deployment.name manifest with err | job₁
  · exact refl_of R r.store
  have h₁ := createQuarksJob_keeps (C := C) hjob deployment job₁ r
  simp only [ReconcileM.bind_run]
  rcases (createQuarksJob C cluster deployment job₁ r).1 with _ | err
  swap
  · exact h₁
  rcases C.instanceGroupManifestJob deployment.name manifest linkInfos
    (deployment.generation == 1) with err | job₂
  · exact h₁
  have h₂ := trans_of R h₁ (createQuarksJob_keeps (C := C) hjob deployment job₂
    (createQuarksJob C cluster deployment job₁ r).2)
  simp only [ReconcileM.bind_run]
  rcases (createQuarksJob C cluster deployment job₂ _).1 with _ | err
  swap
  · exact h₂
  simp only [ReconcileM.bind_run, timeNow_run, updateStatus_run]
  generalize (cluster.updateStatus _ _).1 = result
  rcases result with _ | err
  all_goals exact trans_of R h₂ (hstatus _ _)

theorem syncDerived_keeps (hK : KeepsWrites P cluster R deployment) (request : NamespacedName)
    (manifest : Manifest) (linkInfos : LinkInfos) (r : Run σ) :
    R r.store (syncDerived P C cluster request deployment manifest linkInfos r).2.store := by
  unfold syncDerived
  have h₀ := createManifestWithOps_keeps (C := C) hK.manifestSecret manifest r
  simp only [ReconcileM.bind_run]
  rcases (createManifestWithOps P C cluster deployment manifest r).1 with err | ms
  · exact h₀
  rcases C.convertVariables deployment.name manifest.vars with err | vars
  · exact h₀
  simp only [ite_createQuarksSecrets, ReconcileM.bind_run]
  have h₁ := trans_of R h₀ (createQuarksSecrets_keeps (C := C) hK.quarksSecret
    hK.quarksSecretStatus ms vars (createManifestWithOps P C cluster deployment manifest r).2)
  rcases (createQuarksSecrets C cluster ms vars _).1 with _ | err
  · exact trans_of R h₁ (syncJobs_keeps hK.status hK.quarksJob request manifest linkInfos _)
  · exact h₁

theorem reconcile_keeps (config : Config) (orders : RangeOrders) (request : NamespacedName)
    (r : Run σ) (hK : ∀ d, cluster.get request r.store = .ok d → KeepsWrites P cluster R d) :
    R r.store (reconcile P C cluster config orders request r).2.store := by
  rcases reconcile_cases P config orders request r with
    ⟨_, -, -, he⟩ | ⟨_, -, -, -, he⟩ | ⟨_, _, -, -, -, -, he⟩ | ⟨_, _, _, -, -, -, -, -, he⟩ |
      ⟨deployment, manifest, hg, -, -, -, he⟩
  any_goals rw [he]; exact refl_of R r.store
  rw [he]
  exact syncDerived_keeps (hK deployment hg) request _ _ ⟨r.store, r.events ++ [.get request] ++
    (listLinkInfos P deployment orders manifest (cluster.listing r.store)).2.map .list⟩

/-- What a reconcile returns once past its meltdown check: the empty result, with no error or with
one of its own reports, a text that starts with "failed to ". -/
def Reported (out : Result × Option Error) : Prop :=
  out = (⟨false, 0⟩, none) ∨ ∃ rest, out = (⟨false, 0⟩, some (.text ("failed to " ++ rest)))

theorem Reported.fst {out : Result × Option Error} (h : Reported out) : out.1 = ⟨false, 0⟩ := by
  rcases h with rfl | ⟨_, rfl⟩ <;> rfl

theorem syncJobs_reported (request : NamespacedName) (manifest : Manifest)
    (linkInfos : LinkInfos) (r : Run σ) :
    Reported (syncJobs C cluster request deployment manifest linkInfos r).1 := by
  unfold syncJobs
  rcases C.variableInterpolationJob deployment.name manifest with err | job₁
  · exact Or.inr ⟨_, by simp only [String.append_assoc]; rfl⟩
  simp only [ReconcileM.bind_run]
  rcases (createQuarksJob C cluster deployment job₁ r).1 with _ | err
  swap
  · exact Or.inr ⟨_, by simp only [String.append_assoc]; rfl⟩
  rcases C.instanceGroupManifestJob deployment.name manifest linkInfos
    (deployment.generation == 1) with err | job₂
  · exact Or.inr ⟨_, by simp only [String.append_assoc]; rfl⟩
  simp only [ReconcileM.bind_run]
  rcases (createQuarksJob C cluster deployment job₂ _).1 with _ | err
  swap
  · exact Or.inr ⟨_, by simp only [String.append_assoc]; rfl⟩
  simp only [ReconcileM.bind_run, timeNow_run, updateStatus_run]
  generalize (cluster.updateStatus _ _).1 = result
  rcases result with _ | err <;> exact Or.inl rfl

theorem syncDerived_reported (request : NamespacedName) (manifest : Manifest)
    (linkInfos : LinkInfos) (r : Run σ) :
    Reported (syncDerived P C cluster request deployment manifest linkInfos r).1 := by
  unfold syncDerived
  simp only [ReconcileM.bind_run]
  rcases (createManifestWithOps P C cluster deployment manifest r).1 with err | ms
  · exact Or.inr ⟨_, by simp only [String.append_assoc]; rfl⟩
  rcases C.convertVariables deployment.name manifest.vars with err | vars
  · exact Or.inr ⟨_, by simp only [Error.message, String.append_assoc]; rfl⟩
  simp only [ite_createQuarksSecrets, ReconcileM.bind_run]
  rcases (createQuarksSecrets C cluster ms vars _).1 with _ | err
  · exact syncJobs_reported request manifest linkInfos _
  · exact Or.inr ⟨_, by simp only [String.append_assoc]; rfl⟩

/-- A reconcile never asks for an immediate requeue; it asks to be called again after
`meltdownRequeueAfter` exactly when it stops because the deployment is in its meltdown window,
and otherwise returns the empty result. -/
theorem reconcile_result (config : Config) (orders : RangeOrders) (request : NamespacedName)
    (r : Run σ) :
    (reconcile P C cluster config orders request r).1.1 =
      match cluster.get request r.store with
      | .ok d =>
        if P.meltdownContains config.meltdownDuration d.lastReconcile (cluster.now r.store) then
          ⟨false, config.meltdownRequeueAfter⟩
        else ⟨false, 0⟩
      | .error _ => ⟨false, 0⟩ := by
  rcases reconcile_cases P config orders request r with
    ⟨_, hg, h, -⟩ | ⟨_, hg, hm, h, -⟩ | ⟨_, _, hg, hm, -, h, -⟩ |
      ⟨_, _, _, hg, hm, -, -, h, -⟩ | ⟨_, _, hg, hm, -, -, h⟩
  · rw [h, hg]
  · rw [h, hg]
    exact (if_pos hm).symm
  · rw [h, hg]
    exact (if_neg (ne_true_of_eq_false hm)).symm
  · rw [h, hg]
    exact (if_neg (ne_true_of_eq_false hm)).symm
  · rw [h, (syncDerived_reported _ _ _ _).fst, hg]
    exact (if_neg (ne_true_of_eq_false hm)).symm

end

def withOpsKey (P : Packages) (key : NamespacedName) : NamespacedName :=
  ⟨key.ns, P.deploymentSecretName P.deploymentSecretTypeManifestWithOps key.name ""⟩

/-- What a reconcile of `request` may change in the store: the status of the deployment under
`request`, the secret under its with-ops key, and the QuarksSecrets and QuarksJobs. Every other
deployment and secret, the deployment apart from its status, the services, the pods and the
clock are kept, and no secret, QuarksSecret or QuarksJob is deleted. -/
structure Frame (P : Packages) (request : NamespacedName) (st st' : Store) : Prop where
  deployments : ∀ key, key ≠ request → st'.deployments key = st.deployments key
  spec : (st'.deployments request).map ({ · with lastReconcile := none }) =
    (st.deployments request).map ({ · with lastReconcile := none })
  secrets : ∀ s, s.key ≠ withOpsKey P request → (s ∈ st'.secrets ↔ s ∈ st.secrets)
  secretKeys : ∀ key ∈ st.secrets.map Secret.key, key ∈ st'.secrets.map Secret.key
  quarksSecretNames : ∀ name, (st.quarksSecrets name).isSome → (st'.quarksSecrets name).isSome
  quarksJobNames : ∀ name, (st.quarksJobs name).isSome → (st'.quarksJobs name).isSome
  services : st'.services = st.services
  pods : st'.pods = st.pods
  clock : st'.clock = st.clock

variable {P : Packages} {request : NamespacedName} {st st₁ st₂ : Store}

theorem Frame.refl (st : Store) : Frame P request st st :=
  ⟨fun _ _ => rfl, rfl, fun _ _ => Iff.rfl, fun _ => id, fun _ => id, fun _ => id, rfl, rfl, rfl⟩

theorem Frame.trans (h₁ : Frame P request st st₁) (h₂ : Frame P request st₁ st₂) :
    Frame P request st st₂ :=
  ⟨fun key hkey => (h₂.deployments key hkey).trans (h₁.deployments key hkey),
    h₂.spec.trans h₁.spec, fun s hs => (h₂.secrets s hs).trans (h₁.secrets s hs),
    fun key h => h₂.secretKeys key (h₁.secretKeys key h),
    fun name h => h₂.quarksSecretNames name (h₁.quarksSecretNames name h),
    fun name h => h₂.quarksJobNames name (h₁.quarksJobNames name h),
    h₂.services.trans h₁.services, h₂.pods.trans h₁.pods, h₂.clock.trans h₁.clock⟩

instance isPreorder_frame : IsPreorder Store (Frame P request) where
  refl := Frame.refl
  trans _ _ _ := Frame.trans

theorem Frame.withSecret {s : Secret} (hs : s.key = withOpsKey P request) :
    Frame P request st (st.withSecret s) := by
  refine ⟨fun _ _ => rfl, rfl, fun _ hx => Store.mem_upsert_of_key_ne (hs ▸ hx),
    fun key hkey => ?_, fun _ => id, fun _ => id, rfl, rfl, rfl⟩
  show key ∈ (Store.upsert st.secrets s).map Secret.key
  rw [Store.upsert_keys]
  split_ifs
  · exact hkey
  · exact List.mem_append_left _ hkey

theorem isSome_update_some {α : Type} {f : String → Option α} {name name' : String} (x : α)
    (h : (f name').isSome) : (Function.update f name (some x) name').isSome := by
  rw [Function.update_apply]
  split_ifs
  · rfl
  · exact h

theorem Frame.updateQuarksSecret (name : String) (x : QuarksSecret) :
    Frame P request st
      { st with quarksSecrets := Function.update st.quarksSecrets name (some x) } :=
  ⟨fun _ _ => rfl, rfl, fun _ _ => Iff.rfl, fun _ => id, fun _ => isSome_update_some x,
    fun _ => id, rfl, rfl, rfl⟩

theorem Frame.updateQuarksJob (name : String) (x : QuarksJob) :
    Frame P request st { st with quarksJobs := Function.update st.quarksJobs name (some x) } :=
  ⟨fun _ _ => rfl, rfl, fun _ _ => Iff.rfl, fun _ => id, fun _ => id,
    fun _ => isSome_update_some x, rfl, rfl, rfl⟩

theorem Frame.withLastReconcile (lastReconcile : Option Time) :
    Frame P request st (st.withLastReconcile request lastReconcile) := by
  refine ⟨fun key hkey => Function.update_noteq hkey _ _, ?_, fun _ _ => Iff.rfl, fun _ => id,
    fun _ => id, fun _ => id, rfl, rfl, rfl⟩
  simp only [Store.withLastReconcile, Function.update_same, Option.map_map]
  rfl

theorem frame_createOrUpdate (object : Object) (st : Store)
    (hobj : ∀ s, object = .secret s → s.key = withOpsKey P request) :
    Frame P request st (Store.createOrUpdate object st).2 := by
  cases object with
  | secret s =>
    rw [Store.createOrUpdate_secret]
    exact Frame.withSecret (hobj s rfl)
  | quarksSecret q =>
    obtain ⟨_, -, h⟩ := Store.createOrUpdate_quarksSecret q st
    rw [h]
    exact Frame.updateQuarksSecret _ _
  | quarksJob qJob =>
    obtain ⟨_, -, h⟩ := Store.createOrUpdate_quarksJob qJob st
    rw [h]
    exact Frame.updateQuarksJob _ _
  | deployment _ => exact Frame.refl st

theorem frame_updateStatus (object : Object) (st : Store)
    (hobj : ∀ d, object = .deployment d → d.key = request) :
    Frame P request st (Store.updateStatus object st).2 := by
  cases object with
  | deployment d =>
    rw [Store.updateStatus_deployment_store, hobj d rfl]
    exact Frame.withLastReconcile _
  | quarksSecret q =>
    simp only [Store.updateStatus]
    split
    · exact Frame.refl st
    · exact Frame.updateQuarksSecret _ _
  | secret _ | quarksJob _ => exact Frame.refl st

theorem keepsWrites_frame {deployment : BOSHDeployment} (hkey : deployment.key = request) :
    KeepsWrites P Store.cluster (Frame P request) deployment where
  manifestSecret _ st := frame_createOrUpdate _ st fun _ h => by cases h; rw [← hkey]; rfl
  status _ st := frame_updateStatus _ st fun _ h => by cases h; exact hkey
  quarksSecret _ st := frame_createOrUpdate _ st nofun
  quarksSecretStatus _ st := frame_updateStatus _ st nofun
  quarksJob _ st := frame_createOrUpdate _ st nofun

/-- A reconcile of `request` leaves every other deployment, the requested deployment apart from
its status, every secret but the one under the with-ops key, the services, the pods and the
clock as they were. -/
theorem reconcile_frame (C : Collaborators) (config : Config) (orders : RangeOrders)
    (request : NamespacedName) (r : Run Store) :
    Frame P request r.store (reconcile P C Store.cluster config orders request r).2.store :=
  reconcile_keeps config orders request r fun d hd =>
    keepsWrites_frame (r.store.deployments_key request d (Store.get_eq_ok.mp hd))

end CfOperator.Effects
