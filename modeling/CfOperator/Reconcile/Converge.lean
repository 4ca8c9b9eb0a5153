import CfOperator.Reconcile.Apply

namespace CfOperator.Converge

open Steps Writes Scan Spec Results Congr Fixpoint Idempotence Apply Regenerate
open Effects (withOpsKey)

variable {P : Packages} {C : Collaborators}

def VarOf (C : Collaborators) (name : String) (q : QuarksSecret) : Prop :=
  ∃ vars quarksSecrets, C.convertVariables name vars = .ok quarksSecrets ∧ q ∈ quarksSecrets

def JobOf (C : Collaborators) (name : String) (j : QuarksJob) : Prop :=
  (∃ manifest, C.variableInterpolationJob name manifest = .ok j) ∨
    ∃ manifest linkInfos firstGeneration,
      C.instanceGroupManifestJob name manifest linkInfos firstGeneration = .ok j

inductive WriteOf (P : Packages) (C : Collaborators) (deployment : BOSHDeployment) : Write → Prop
  | secret (manifestBytes : String) :
    WriteOf P C deployment (.secret (manifestWithOpsSecret P deployment manifestBytes))
  | quarksSecret {q : QuarksSecret} (h : VarOf C deployment.name q) :
    WriteOf P C deployment (.quarksSecret q)
  | quarksJob {j : QuarksJob} (h : JobOf C deployment.name j) :
    WriteOf P C deployment (.quarksJob j)
  | stamp : WriteOf P C deployment (.stamp deployment.key)

theorem writeOf_of_mem_planWrites {deployment : BOSHDeployment} {manifest : Manifest}
    {linkInfos : LinkInfos} {w : Write}
    (h : w ∈ planWrites (Plan.of P C deployment manifest linkInfos)) :
    WriteOf P C deployment w := by
  unfold planWrites jobWrites at h
  rcases hm : P.marshal manifest with err | bytes
  · simp [Plan.of, hm] at h
  have hs : manifestWithOpsSecret P deployment <$> P.marshal manifest =
      .ok (manifestWithOpsSecret P deployment bytes) := by rw [hm]; rfl
  rcases hv : C.convertVariables deployment.name manifest.vars with err | vars
  · simp only [Plan.of, hs, hv, List.mem_singleton] at h
    exact h ▸ .secret bytes
  simp only [Plan.of, hs, hv, List.mem_cons, List.mem_append, List.mem_map] at h
  rcases h with rfl | ⟨q, hq, rfl⟩ | h
  · exact .secret bytes
  · exact .quarksSecret ⟨_, _, hv, hq⟩
  rcases h₁ : C.variableInterpolationJob deployment.name manifest with err | j₁ <;>
    rcases h₂ : C.instanceGroupManifestJob deployment.name manifest linkInfos
      (deployment.generation == 1) with err | j₂ <;>
    simp only [h₁, h₂, List.mem_cons, List.mem_singleton, List.not_mem_nil, or_false] at h
  · exact h ▸ .quarksJob (.inl ⟨_, h₁⟩)
  · rcases h with rfl | rfl | rfl
    exacts [.quarksJob (.inl ⟨_, h₁⟩), .quarksJob (.inr ⟨_, _, _, h₂⟩), .stamp]

/-- The store keeps the names of its deployments apart, and no secret stored under a with-ops
secret's name declares a link. -/
structure Apart (P : Packages) (st : Store) : Prop where
  names : ∀ key key' d d', st.deployments key = some d → st.deployments key' = some d' →
    d.name = d'.name → key = key'
  unlinked : ∀ x ∈ st.secrets, ∀ name,
    x.name = P.deploymentSecretName P.deploymentSecretTypeManifestWithOps name "" →
    x.annotations.lookup P.labelDeploymentName = none

theorem eq_or_mem_of_mem_upsert {secrets : List Secret} {s x : Secret}
    (h : x ∈ Store.upsert secrets s) : x = s ∨ x ∈ secrets := by
  unfold Store.upsert at h
  split_ifs at h
  · obtain ⟨y, hy, rfl⟩ := List.mem_map.mp h
    split_ifs
    exacts [.inl rfl, .inr hy]
  · simpa [or_comm] using h

theorem exists_of_withLastReconcile {st : Store} {key key' : NamespacedName}
    {lastReconcile : Option Time} {d' : BOSHDeployment}
    (h : (st.withLastReconcile key lastReconcile).deployments key' = some d') :
    ∃ d, st.deployments key' = some d ∧ d.name = d'.name := by
  by_cases hk : key' = key
  · subst hk
    simp only [Store.withLastReconcile, Function.update_same, Option.map_eq_some'] at h
    obtain ⟨d, hd, rfl⟩ := h
    exact ⟨d, hd, rfl⟩
  · simp only [Store.withLastReconcile, Function.update_noteq hk] at h
    exact ⟨d', h, rfl⟩

theorem deployments_apply_of_ne {deployment : BOSHDeployment} {w : Write}
    (hw : WriteOf P C deployment w) {key : NamespacedName} (hkey : key ≠ deployment.key)
    (st : Store) : (w.apply st).deployments key = st.deployments key := by
  cases hw with
  | secret => rw [Write.apply, Store.createOrUpdate_secret]; rfl
  | quarksSecret => rfl
  | @quarksJob j _ =>
    obtain ⟨x, -, he⟩ := Store.createOrUpdate_quarksJob j st
    rw [Write.apply, he]
  | stamp => exact Function.update_noteq hkey _ _

theorem Apart.apply {st : Store} (h : Apart P st) {deployment : BOSHDeployment} {w : Write}
    (hw : WriteOf P C deployment w) : Apart P (w.apply st) := by
  cases hw with
  | secret =>
    rw [Write.apply, Store.createOrUpdate_secret]
    refine ⟨h.names, fun x hx name hn => ?_⟩
    rcases eq_or_mem_of_mem_upsert hx with rfl | hx
    exacts [rfl, h.unlinked x hx name hn]
  | quarksSecret => exact ⟨h.names, h.unlinked⟩
  | @quarksJob j _ =>
    obtain ⟨x, -, he⟩ := Store.createOrUpdate_quarksJob j st
    rw [Write.apply, he]
    exact ⟨h.names, h.unlinked⟩
  | stamp =>
    refine ⟨fun key key' d d' hd hd' hn => ?_, h.unlinked⟩
    obtain ⟨d₀, hd₀, hn₀⟩ := exists_of_withLastReconcile hd
    obtain ⟨d₀', hd₀', hn₀'⟩ := exists_of_withLastReconcile hd'
    exact h.names key key' d₀ d₀' hd₀ hd₀' (hn₀.trans (hn.trans hn₀'.symm))

theorem Apart.applyWrites {deployment : BOSHDeployment} :
    ∀ (writes : List Write) {st : Store}, Apart P st → (∀ w ∈ writes, WriteOf P C deployment w) →
      Apart P (applyWrites writes st)
  | [], _, h, _ => h
  | w :: writes, _, h, hw => Apart.applyWrites writes (h.apply (hw w (List.mem_cons_self _ _)))
      fun w' h' => hw w' (List.mem_cons_of_mem _ h')

theorem Apart.not_matching {st : Store} (h : Apart P st) {x : Secret} (hx : x ∈ st.secrets)
    {deployment other : BOSHDeployment} (hk : x.key = withOpsKey P other.key) :
    ¬ Matching P deployment x := fun hm =>
  Option.noConfusion ((h.unlinked x hx other.name (congrArg NamespacedName.name hk)).symm.trans hm)

theorem deployments_applyWrites_of_ne {deployment : BOSHDeployment} {key : NamespacedName}
    (hkey : key ≠ deployment.key) :
    ∀ {writes : List Write} (st : Store), (∀ w ∈ writes, WriteOf P C deployment w) →
      (applyWrites writes st).deployments key = st.deployments key
  | [], _, _ => rfl
  | w :: _, st, hw =>
    (deployments_applyWrites_of_ne hkey (w.apply st)
      fun w' h' => hw w' (List.mem_cons_of_mem _ h')).trans
      (deployments_apply_of_ne (hw w (List.mem_cons_self _ _)) hkey st)

theorem reconcile_writesOf (cached : Store → Listing) (config : Config) (orders : RangeOrders)
    (request : NamespacedName) (r : Run Store) :
    (reconcile P C (Store.cachedCluster cached) config orders request r).2.store = r.store ∨
    ∃ deployment writes, Store.get request r.store = .ok deployment ∧
      (∀ w ∈ writes, WriteOf P C deployment w) ∧
      (reconcile P C (Store.cachedCluster cached) config orders request r).2.store =
        applyWrites writes r.store := by
  rcases @reconcile_cases _ P C (Store.cachedCluster cached) config orders request r with
    ⟨_, -, -, he⟩ | ⟨_, -, -, -, he⟩ | ⟨_, _, -, -, -, -, he⟩ | ⟨_, _, _, -, -, -, -, -, he⟩ |
      ⟨deployment, manifest, hg, -, -, -, he⟩
  iterate 4 exact .inl (by rw [he])
  rw [he, Store.syncDerived_cachedCluster]
  exact .inr ⟨deployment, (syncDerived_applies request deployment _ _ _).imp
    fun pre ⟨hpre, hs, _⟩ => ⟨hg, fun w hw => writeOf_of_mem_planWrites (hpre.subset hw), hs⟩⟩

/-- From `st` to `st'` nothing changes that `deployment` reads or owns: its entry in the store,
the secrets of its namespace that declare its links, the services and pods, the secret under its
with-ops key, and the QuarksSecrets and QuarksJobs under the names its collaborators give. -/
structure Spares (P : Packages) (C : Collaborators) (deployment : BOSHDeployment)
    (st st' : Store) : Prop where
  entry : st'.deployments deployment.key = st.deployments deployment.key
  links : (st'.secrets.filter (·.ns = deployment.ns)).filter (Matching P deployment) =
    (st.secrets.filter (·.ns = deployment.ns)).filter (Matching P deployment)
  services : st'.services = st.services
  pods : st'.pods = st.pods
  withOps : ∀ x ∈ st.secrets, x.key = withOpsKey P deployment.key → x ∈ st'.secrets
  quarksSecrets : ∀ q, VarOf C deployment.name q →
    st'.quarksSecrets q.name = st.quarksSecrets q.name
  quarksJobs : ∀ j, JobOf C deployment.name j → st'.quarksJobs j.name = st.quarksJobs j.name

namespace Spares

variable {deployment : BOSHDeployment} {st st₁ st₂ : Store}

theorem refl (st : Store) : Spares P C deployment st st :=
  ⟨rfl, rfl, rfl, rfl, fun _ h _ => h, fun _ _ => rfl, fun _ _ => rfl⟩

theorem trans (h₁ : Spares P C deployment st st₁) (h₂ : Spares P C deployment st₁ st₂) :
    Spares P C deployment st st₂ :=
  ⟨h₂.entry.trans h₁.entry, h₂.links.trans h₁.links, h₂.services.trans h₁.services,
    h₂.pods.trans h₁.pods, fun x hx hk => h₂.withOps x (h₁.withOps x hx hk) hk,
    fun q hq => (h₂.quarksSecrets q hq).trans (h₁.quarksSecrets q hq),
    fun j hj => (h₂.quarksJobs j hj).trans (h₁.quarksJobs j hj)⟩

theorem of_secrets (hentry : st₁.deployments deployment.key = st.deployments deployment.key)
    (hsecrets : st₁.secrets = st.secrets) (hservices : st₁.services = st.services)
    (hpods : st₁.pods = st.pods)
    (hq : ∀ q, VarOf C deployment.name q → st₁.quarksSecrets q.name = st.quarksSecrets q.name)
    (hj : ∀ j, JobOf C deployment.name j → st₁.quarksJobs j.name = st.quarksJobs j.name) :
    Spares P C deployment st st₁ :=
  ⟨hentry, by rw [hsecrets], hservices, hpods, fun _ hx _ => hsecrets ▸ hx, hq, hj⟩

end Spares

section Links

variable {deployment : BOSHDeployment}

theorem passes_congr {l l' : Listing} {M : StringMap Bool} {secrets secrets' : List Secret}
    {services : List Service}
    (hm : secrets.filter (Matching P deployment) = secrets'.filter (Matching P deployment))
    (hp : l.pods deployment.ns = l'.pods deployment.ns) :
    Passes P deployment l M secrets services ↔ Passes P deployment l' M secrets' services := by
  have hc : claims P deployment M secrets = claims P deployment M secrets' := by
    rw [← claims_filter_matching, hm, claims_filter_matching]
  have hmem : ∀ s,
      s ∈ secrets ∧ Matching P deployment s ↔ s ∈ secrets' ∧ Matching P deployment s :=
    fun s => by
      simpa only [List.mem_filter, decide_eq_true_eq] using Iff.of_eq (congrArg (s ∈ ·) hm)
  simp only [Passes, Clean, ← and_imp, hmem, hc, hp]

theorem err_congr (orders : RangeOrders) (manifest : Manifest) {l l' : Listing}
    {secrets secrets' : SecretList} (hs : l.secrets deployment.ns = .ok secrets)
    (hs' : l'.secrets deployment.ns = .ok secrets')
    (hm : secrets.items.filter (Matching P deployment) =
      secrets'.items.filter (Matching P deployment))
    (hv : l.services deployment.ns = l'.services deployment.ns)
    (hp : l.pods deployment.ns = l'.pods deployment.ns) :
    (listLinkInfos P deployment orders manifest l).1.err = none ↔
      (listLinkInfos P deployment orders manifest l').1.err = none := by
  by_cases h : P.listMissingProviders manifest = ∅
  · simp [listLinkInfos_of_empty _ h]
  rw [err_eq_none_iff orders h, err_eq_none_iff orders h, hs, hs', ← hv]
  simp [passes_congr hm hp]

end Links

/-- The store holds the plan of the deployment under `key` when it resolves and links, whatever
the orders of the map iterations: `Converged` for one key. -/
def ConvergedAt (P : Packages) (C : Collaborators) (key : NamespacedName) (st : Store) : Prop :=
  ∀ orders deployment manifest, Store.get key st = .ok deployment →
    resolveManifest C deployment = .ok manifest →
    (listLinkInfos P deployment orders manifest (Store.listing st)).1.err = none →
    Holds (Plan.of P C deployment
      (listLinkInfos P deployment orders manifest (Store.listing st)).1.manifest
      (listLinkInfos P deployment orders manifest (Store.listing st)).1.linkInfos) st

theorem holds_of_spares {deployment : BOSHDeployment} {manifest : Manifest}
    {linkInfos : LinkInfos} {st st' : Store}
    (h : Holds (Plan.of P C deployment manifest linkInfos) st) (hs : Spares P C deployment st st') :
    Holds (Plan.of P C deployment manifest linkInfos) st' where
  manifestSecret s hms := by
    refine hs.withOps s (h.manifestSecret s hms) ?_
    simp only [Plan.of] at hms
    rcases hm : P.marshal manifest with err | bytes <;> rw [hm] at hms <;> cases hms
    rfl
  quarksSecrets vars hv q hq := hs.quarksSecrets q ⟨_, _, hv, hq⟩ ▸ h.quarksSecrets vars hv q hq
  interpolationJob j hj := hs.quarksJobs j (.inl ⟨_, hj⟩) ▸ h.interpolationJob j hj
  instanceGroupJob j hj := hs.quarksJobs j (.inr ⟨_, _, _, hj⟩) ▸ h.instanceGroupJob j hj

namespace ConvergedAt

variable {key : NamespacedName} {st : Store}

theorem of_none (h : st.deployments key = none) : ConvergedAt P C key st :=
  fun _ _ _ hg => absurd (Store.get_eq_ok.mp hg) (by simp [h])

theorem withClock (h : ConvergedAt P C key st) (clock : Time) :
    ConvergedAt P C key { st with clock } :=
  fun orders d m hg hres hl => (h orders d m hg hres hl).of_store rfl rfl rfl

theorem withLastReconcile
    (hwithOps : ∀ d lastReconcile ns,
      C.withOpsManifest { d with lastReconcile } ns = C.withOpsManifest d ns)
    (h : ConvergedAt P C key st) (lastReconcile : Option Time) :
    ConvergedAt P C key (st.withLastReconcile key lastReconcile) := by
  intro orders d' m hg hres hl
  obtain ⟨d, hd, rfl⟩ := Store.exists_of_get_withLastReconcile hg
  rw [resolveManifest_lastReconcile hwithOps] at hres
  rw [@Congr.listLinkInfos_deployment_congr P { d with lastReconcile } d rfl rfl] at hl ⊢
  exact ((holds_lastReconcile d lastReconcile _ _ _).mpr (h orders d m hd hres hl)).of_store
    rfl rfl rfl

theorem holds_cached (h : ConvergedAt P C key st)
    (hlinkOrder : ∀ name manifest linkInfos linkInfos' firstGeneration,
      linkInfos.Perm linkInfos' → C.instanceGroupManifestJob name manifest linkInfos
        firstGeneration = C.instanceGroupManifestJob name manifest linkInfos' firstGeneration)
    {cached : Store → Listing} (hc : Reorders cached) (hpods : (cached st).pods = st.pods)
    (orders : RangeOrders) (deployment : BOSHDeployment) (manifest : Manifest)
    (hg : Store.get key st = .ok deployment) (hres : resolveManifest C deployment = .ok manifest)
    (hl : (listLinkInfos P deployment orders manifest (cached st)).1.err = none) :
    Holds (Plan.of P C deployment
      (listLinkInfos P deployment orders manifest (cached st)).1.manifest
      (listLinkInfos P deployment orders manifest (cached st)).1.linkInfos) st :=
  holds_of_sameLinks hlinkOrder (hc.sameLinks hpods deployment).symm orders orders manifest hl
    (h orders deployment manifest hg hres)

theorem of_spares {deployment : BOSHDeployment} {st' : Store}
    (h : ConvergedAt P C deployment.key st) (hd : st.deployments deployment.key = some deployment)
    (hs : Spares P C deployment st st') : ConvergedAt P C deployment.key st' := by
  intro orders d m hg hres hl'
  obtain rfl : deployment = d := by
    rw [Store.get_eq_ok, hs.entry, hd] at hg
    exact Option.some.inj hg
  have hv : (Store.listing st).services deployment.ns =
      (Store.listing st').services deployment.ns := congrFun hs.services.symm _
  have hp : (Store.listing st).pods deployment.ns = (Store.listing st').pods deployment.ns :=
    congrFun hs.pods.symm _
  have hl := (err_congr orders m rfl rfl hs.links.symm hv hp).mpr hl'
  obtain ⟨hli, hman⟩ := linked_congr orders orders m rfl rfl hs.links.symm hv hp hl hl'
  rw [hli, hman]
  exact holds_of_spares (h orders deployment m (Store.get_eq_ok.mpr hd) hres hl) hs

end ConvergedAt

theorem reconcile_apart (cached : Store → Listing) (config : Config) (orders : RangeOrders)
    (request : NamespacedName) (r : Run Store) (ha : Apart P r.store) :
    Apart P (reconcile P C (Store.cachedCluster cached) config orders request r).2.store := by
  rcases reconcile_writesOf cached config orders request r with h | ⟨_, writes, -, hw, h⟩ <;>
    rw [h]
  exacts [ha, ha.applyWrites writes hw]

theorem deployments_reconcile_of_ne (cached : Store → Listing) (config : Config)
    (orders : RangeOrders) (request : NamespacedName) (r : Run Store) {key : NamespacedName}
    (hkey : key ≠ request) :
    (reconcile P C (Store.cachedCluster cached) config orders request r).2.store.deployments key =
      r.store.deployments key := by
  rcases reconcile_writesOf cached config orders request r with h | ⟨d, writes, hg, hw, h⟩ <;>
    rw [h]
  exact deployments_applyWrites_of_ne
    (r.store.deployments_key request d (Store.get_eq_ok.mp hg) ▸ hkey) r.store hw

/-- Some run of `runs` from `s` is of `key` and reaches its deployment's status update. -/
def Synced (P : Packages) (C : Collaborators) (config : Config) (key : NamespacedName)
    (runs : List CachedRun) (s : Store) : Prop :=
  ∃ run ∈ runs.zip (cachedRuns P C config runs s), run.1.request = key ∧
    ∃ d result, Event.updateStatus (.deployment d) result ∈ run.2.events

section Apartness

variable
  (hvarsApart : ∀ name name' q q', name ≠ name' → VarOf C name q → VarOf C name' q' →
    q.name ≠ q'.name)
  (hjobsApart : ∀ name name' j j', name ≠ name' → JobOf C name j → JobOf C name' j' →
    j.name ≠ j'.name)
  (hsecretName : ∀ name name',
    P.deploymentSecretName P.deploymentSecretTypeManifestWithOps name "" =
      P.deploymentSecretName P.deploymentSecretTypeManifestWithOps name' "" → name = name')
include hvarsApart hjobsApart hsecretName

theorem spares_apply {st : Store} (ha : Apart P st) {deployment other : BOSHDeployment}
    (hname : deployment.name ≠ other.name) {w : Write} (hw : WriteOf P C other w) :
    Spares P C deployment st (w.apply st) := by
  cases hw with
  | secret bytes =>
    rw [Write.apply, Store.createOrUpdate_secret]
    refine ⟨rfl, ?_, rfl, rfl, fun x hx hk => (Store.mem_upsert_of_key_ne ?_).mpr hx,
      fun _ _ => rfl, fun _ _ => rfl⟩
    · simp only [Store.withSecret]
      rw [List.filter_filter, List.filter_filter, Store.filter_upsert]
      · simp [not_matching_manifestWithOpsSecret]
      · intro x hx hk
        simp [ha.not_matching hx hk]
    · rw [hk]
      exact fun he => hname (hsecretName _ _ (congrArg NamespacedName.name he))
  | quarksSecret hq =>
    exact .of_secrets rfl rfl rfl rfl
      (fun _ hq' => turnQuarksSecrets_of_ne _ _ (hvarsApart _ _ _ _ hname hq' hq)) fun _ _ => rfl
  | @quarksJob j hj =>
    obtain ⟨x, -, he⟩ := Store.createOrUpdate_quarksJob j st
    rw [Write.apply, he]
    exact .of_secrets rfl rfl rfl rfl (fun _ _ => rfl)
      fun _ hj' => Function.update_noteq (hjobsApart _ _ _ _ hname hj' hj) _ _
  | stamp =>
    exact .of_secrets
      (Function.update_noteq (fun he => hname (congrArg NamespacedName.name he)) _ _)
      rfl rfl rfl (fun _ _ => rfl) fun _ _ => rfl

theorem spares_applyWrites {deployment other : BOSHDeployment}
    (hname : deployment.name ≠ other.name) :
    ∀ (writes : List Write) {st : Store}, Apart P st → (∀ w ∈ writes, WriteOf P C other w) →
      Spares P C deployment st (applyWrites writes st)
  | [], st, _, _ => .refl st
  | w :: writes, _, ha, hw =>
    have hw₀ := hw w (List.mem_cons_self _ _)
    (spares_apply hvarsApart hjobsApart hsecretName ha hname hw₀).trans
      (spares_applyWrites hname writes (ha.apply hw₀)
        fun w' h' => hw w' (List.mem_cons_of_mem _ h'))

theorem reconcile_spares (cached : Store → Listing) (config : Config) (orders : RangeOrders)
    (request : NamespacedName) (r : Run Store) (ha : Apart P r.store)
    {deployment : BOSHDeployment} (hd : r.store.deployments deployment.key = some deployment)
    (hkey : deployment.key ≠ request) :
    Spares P C deployment r.store
      (reconcile P C (Store.cachedCluster cached) config orders request r).2.store := by
  rcases reconcile_writesOf cached config orders request r with h | ⟨other, writes, hg, hw, h⟩ <;>
    rw [h]
  · exact .refl _
  · exact spares_applyWrites hvarsApart hjobsApart hsecretName
      (fun hn => hkey (ha.names _ _ _ _ hd (Store.get_eq_ok.mp hg) hn)) writes ha hw

theorem convergedAt_reconcile_of_ne (cached : Store → Listing) (config : Config)
    (orders : RangeOrders) (request : NamespacedName) (st : Store) (ha : Apart P st)
    {key : NamespacedName} (hk : key ≠ request) (h : ConvergedAt P C key st) :
    ConvergedAt P C key
      (reconcile P C (Store.cachedCluster cached) config orders request ⟨st, []⟩).2.store := by
  rcases hd : st.deployments key with _ | d
  · exact .of_none (by rw [deployments_reconcile_of_ne cached config orders request ⟨st, []⟩ hk, hd])
  · obtain rfl := st.deployments_key key d hd
    exact h.of_spares hd (reconcile_spares hvarsApart hjobsApart hsecretName cached config orders
      request ⟨st, []⟩ ha hd hk)

section Runs

variable
  (hwithOps : ∀ d lastReconcile ns,
    C.withOpsManifest { d with lastReconcile } ns = C.withOpsManifest d ns)
  (hvars : ∀ name vars quarksSecrets, C.convertVariables name vars = .ok quarksSecrets →
    (quarksSecrets.map QuarksSecret.name).Nodup)
  (hjobs : ∀ name manifest manifest' linkInfos firstGeneration j₁ j₂,
    C.variableInterpolationJob name manifest = .ok j₁ →
    C.instanceGroupManifestJob name manifest' linkInfos firstGeneration = .ok j₂ →
    j₁.name ≠ j₂.name)
include hwithOps hvars hjobs

theorem convergedAt_reconcile (config : Config) (orders : RangeOrders) (request : NamespacedName)
    (st : Store) (ha : Apart P st) (key : NamespacedName)
    (h : ConvergedAt P C key st ∨ key = request ∧ ∃ d result, Event.updateStatus (.deployment d)
      result ∈ (reconcile P C Store.cluster config orders request ⟨st, []⟩).2.events) :
    ConvergedAt P C key (reconcile P C Store.cluster config orders request ⟨st, []⟩).2.store := by
  rw [← Store.cachedCluster_self] at h ⊢
  by_cases hk : key = request
  · subst hk
    rcases h with h | ⟨-, hstatus⟩
    · obtain ⟨-, -, -, hs⟩ := reconcile_quiet Store.listing config orders key ⟨st, []⟩ (h orders)
      rcases hs with hs | hs <;> rw [hs]
      exacts [h, h.withLastReconcile hwithOps _]
    · exact fun orders₂ d m hg hres hl => settled_holds_listing config Store.listing orders key st
        hvars hjobs (fun _ _ _ hx hk => ha.not_matching hx hk) hstatus hwithOps rfl orders₂ _
        (.refl _) d m hg hres hl
  · exact convergedAt_reconcile_of_ne hvarsApart hjobsApart hsecretName Store.listing config
      orders request st ha hk (h.resolve_right fun h' => hk h'.1)

theorem convergedAt_reconcile_cached
    (hlinkOrder : ∀ name manifest linkInfos linkInfos' firstGeneration,
      linkInfos.Perm linkInfos' → C.instanceGroupManifestJob name manifest linkInfos
        firstGeneration = C.instanceGroupManifestJob name manifest linkInfos' firstGeneration)
    (cached : Store → Listing) (hc : Reorders cached) (hpods : ∀ st, (cached st).pods = st.pods)
    (config : Config) (orders : RangeOrders) (request : NamespacedName) (st : Store)
    (ha : Apart P st) (key : NamespacedName)
    (h : ConvergedAt P C key st ∨ key = request ∧ ∃ d result, Event.updateStatus (.deployment d)
      result ∈ (reconcile P C (Store.cachedCluster cached) config orders request
        ⟨st, []⟩).2.events) :
    ConvergedAt P C key
      (reconcile P C (Store.cachedCluster cached) config orders request ⟨st, []⟩).2.store := by
  by_cases hk : key = request
  · subst hk
    rcases h with h | ⟨-, hstatus⟩
    · obtain ⟨-, -, -, hs⟩ := reconcile_quiet cached config orders key ⟨st, []⟩
        (h.holds_cached hlinkOrder hc (hpods st) orders)
      rcases hs with hs | hs <;> rw [hs]
      exacts [h, h.withLastReconcile hwithOps _]
    · exact fun orders₂ d m hg hres hl => settled_holds config cached orders key st hvars hjobs
        (fun _ _ _ hx hk => ha.not_matching hx hk) hstatus hwithOps hlinkOrder hc Store.listing
        .self orders₂ _ (.refl _)
        ((first_keeps config cached orders key st hvars hjobs hstatus).2.trans (hpods st).symm)
        d m hg hres hl
  · exact convergedAt_reconcile_of_ne hvarsApart hjobsApart hsecretName cached config orders
      request st ha hk (h.resolve_right fun h' => hk h'.1)

theorem cachedRunsStore_convergedAt
    (hlinkOrder : ∀ name manifest linkInfos linkInfos' firstGeneration,
      linkInfos.Perm linkInfos' → C.instanceGroupManifestJob name manifest linkInfos
        firstGeneration = C.instanceGroupManifestJob name manifest linkInfos' firstGeneration)
    (config : Config) (key : NamespacedName) :
    ∀ (runs : List CachedRun) (s : Store), Apart P s →
      (ConvergedAt P C key s ∨ Synced P C config key runs s) →
      ConvergedAt P C key (cachedRunsStore P C config runs s)
  | [], _, _, h => h.resolve_right fun ⟨_, h, _⟩ => nomatch h
  | run :: runs, s, ha, h => by
    have ha' : Apart P { s with clock := run.clock } := ⟨ha.names, ha.unlinked⟩
    have hstep := convergedAt_reconcile_cached hvarsApart hjobsApart hsecretName hwithOps hvars
      hjobs hlinkOrder run.listing run.reorders run.keepsPods config run.orders run.request _ ha'
      key
    refine cachedRunsStore_convergedAt hlinkOrder config key runs _
      (reconcile_apart run.listing config run.orders run.request _ ha') ?_
    rcases h with h | ⟨r, hr, hkey, hstatus⟩
    · exact .inl (hstep (.inl (h.withClock run.clock)))
    rcases List.mem_cons.mp hr with rfl | hr
    · exact .inl (hstep (.inr ⟨hkey.symm, hstatus⟩))
    · exact .inr ⟨r, hr, hkey, hstatus⟩

theorem cachedRuns_converge (config : Config)
    (hlinkOrder : ∀ name manifest linkInfos linkInfos' firstGeneration,
      linkInfos.Perm linkInfos' → C.instanceGroupManifestJob name manifest linkInfos
        firstGeneration = C.instanceGroupManifestJob name manifest linkInfos' firstGeneration)
    (runs : List CachedRun) (s : Store) (ha : Apart P s)
    (hsynced : ∀ key d, s.deployments key = some d → Synced P C config key runs s) :
    Converged P C (cachedRunsStore P C config runs s) ∧
      ∀ later, ∀ r ∈ cachedRuns P C config later (cachedRunsStore P C config runs s),
        Quiet r.events := by
  have hc : Converged P C (cachedRunsStore P C config runs s) := fun key =>
    cachedRunsStore_convergedAt hvarsApart hjobsApart hsecretName hwithOps hvars hjobs hlinkOrder
      config key runs s ha (by
        rcases hd : s.deployments key with _ | d
        exacts [.inl (.of_none hd), .inr (hsynced key d hd)])
  exact ⟨hc, fun later => cachedRuns_forall config (Converged P C) (fun _ => True)
    (fun r => Quiet r.events)
    (fun run _ _ hs => converged_quiet config run.orders run.request hwithOps hlinkOrder
      run.reorders (run.keepsPods _) (hs.withClock run.clock)) later _ (fun _ _ => trivial) hc⟩

end Runs

end Apartness

def linklessPackages : Packages := { samplePackages with listMissingProviders := fun _ => ∅ }

/-- Collaborators that name a deployment's one variable after it and its two jobs after it with
a prefix each, and set every reference. -/
def namedCollaborators : Collaborators where
  withOpsManifest _ _ := .ok ⟨none, []⟩
  convertVariables name _ := .ok [⟨name, "password", false⟩]
  variableInterpolationJob name _ := .ok ⟨"dm-" ++ name, "dm"⟩
  instanceGroupManifestJob name _ _ _ := .ok ⟨"ig-" ++ name, "ig"⟩
  setReference _ _ := none

def uaaDeployment : BOSHDeployment := ⟨"uaa", "default", 1, none⟩

def pairStore : Store where
  deployments key :=
    if key = sampleDeployment.key then some sampleDeployment
    else if key = uaaDeployment.key then some uaaDeployment else none
  deployments_key key d h := by
    dsimp only at h
    split_ifs at h with h₁ h₂ <;> cases h
    exacts [h₁.symm, h₂.symm]
  secrets := []
  secrets_nodup := List.nodup_nil
  quarksSecrets _ := none
  quarksJobs _ := none
  services _ := .ok []
  pods _ _ := .ok []
  clock := 100 * second

def pairRuns : List CachedRun :=
  [⟨sampleDeployment.key, sampleOrders, reversedListing, reorders_reversedListing, fun _ => rfl,
      100 * second⟩,
    ⟨uaaDeployment.key, sampleOrders, Store.listing, .self, fun _ => rfl, 101 * second⟩]

theorem pairStore_apart : Apart linklessPackages pairStore where
  names key key' d d' hd hd' hn := by
    simp only [pairStore] at hd hd'
    split_ifs at hd hd' <;> cases hd <;> cases hd' <;> subst_vars <;>
      first | rfl | exact absurd hn (by decide)
  unlinked _ h := absurd h (List.not_mem_nil _)

theorem namedCollaborators_varsApart (name name' : String) (q q' : QuarksSecret)
    (hn : name ≠ name') (h : VarOf namedCollaborators name q)
    (h' : VarOf namedCollaborators name' q') : q.name ≠ q'.name := by
  obtain ⟨_, _, h, hq⟩ := h
  obtain ⟨_, _, h', hq'⟩ := h'
  cases h; cases h'
  rw [List.mem_singleton.mp hq, List.mem_singleton.mp hq']
  exact hn

theorem namedCollaborators_jobsApart (name name' : String) (j j' : QuarksJob)
    (hn : name ≠ name') (h : JobOf namedCollaborators name j)
    (h' : JobOf namedCollaborators name' j') : j.name ≠ j'.name := by
  rcases h with ⟨_, h⟩ | ⟨_, _, _, h⟩ <;> rcases h' with ⟨_, h'⟩ | ⟨_, _, _, h'⟩ <;>
    cases h <;> cases h' <;> simp only [ne_eq, String.ext_iff, String.data_append] at hn ⊢ <;>
    simp [hn]

theorem linklessPackages_secretName (name name' : String)
    (h : linklessPackages.deploymentSecretName
        linklessPackages.deploymentSecretTypeManifestWithOps name "" =
      linklessPackages.deploymentSecretName
        linklessPackages.deploymentSecretTypeManifestWithOps name' "") :
    name = name' := by
  simpa [String.ext_iff, linklessPackages, samplePackages] using h

theorem namedCollaborators_withOpsManifest (d : BOSHDeployment) (lastReconcile : Option Time)
    (ns : String) :
    namedCollaborators.withOpsManifest { d with lastReconcile } ns =
      namedCollaborators.withOpsManifest d ns := rfl

theorem namedCollaborators_vars_nodup (name : String) (vars : List Variable)
    (quarksSecrets : List QuarksSecret)
    (h : namedCollaborators.convertVariables name vars = .ok quarksSecrets) :
    (quarksSecrets.map QuarksSecret.name).Nodup := by
  cases h
  exact List.nodup_singleton _

theorem namedCollaborators_jobs_ne (name : String) (manifest manifest' : Manifest)
    (linkInfos : LinkInfos) (firstGeneration : Bool) (j₁ j₂ : QuarksJob)
    (h₁ : namedCollaborators.variableInterpolationJob name manifest = .ok j₁)
    (h₂ : namedCollaborators.instanceGroupManifestJob name manifest' linkInfos firstGeneration =
      .ok j₂) : j₁.name ≠ j₂.name := by
  cases h₁; cases h₂
  simp [String.ext_iff]

theorem cachedRuns_converge_sample :
    Converged linklessPackages namedCollaborators
        (cachedRunsStore linklessPackages namedCollaborators sampleConfig pairRuns pairStore) ∧
      ∀ later, ∀ r ∈ cachedRuns linklessPackages namedCollaborators sampleConfig later
        (cachedRunsStore linklessPackages namedCollaborators sampleConfig pairRuns pairStore),
        Quiet r.events :=
  cachedRuns_converge namedCollaborators_varsApart namedCollaborators_jobsApart
    linklessPackages_secretName namedCollaborators_withOpsManifest namedCollaborators_vars_nodup
    namedCollaborators_jobs_ne sampleConfig (fun _ _ _ _ _ _ => rfl) pairRuns pairStore
    pairStore_apart fun key d hd => by
      simp only [pairStore] at hd
      split_ifs at hd with h₁ h₂
      · exact ⟨_, List.mem_cons_self _ _, h₁.symm,
          { sampleDeployment with lastReconcile := some (100 * second) }, none, by decide⟩
      · exact ⟨_, List.mem_cons_of_mem _ (List.mem_cons_self _ _), h₂.symm,
          { uaaDeployment with lastReconcile := some (101 * second) }, none, by decide⟩

end CfOperator.Converge
