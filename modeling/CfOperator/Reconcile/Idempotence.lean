import CfOperator.Reconcile.Fixpoint
import CfOperator.LinkInfos.Congr

namespace CfOperator.Idempotence

open Steps Writes Scan Order Results Congr Fixpoint

variable {P : Packages} {C : Collaborators}

theorem not_matching_manifestWithOpsSecret (deployment deployment' : BOSHDeployment)
    (manifestBytes : String) :
    ¬ Matching P deployment (manifestWithOpsSecret P deployment' manifestBytes) := by
  simp [Matching, manifestWithOpsSecret]

/-- What a cached client's `List` may answer: the secrets of a namespace, its services and the
pods of a selector that the store holds, each in any order. -/
structure Reorders (cached : Store → Listing) : Prop where
  secrets : ∀ st ns,
    SameItems SecretList.items ((cached st).secrets ns) ((Store.listing st).secrets ns)
  services : ∀ st ns, SameItems id ((cached st).services ns) (st.services ns)
  pods : ∀ st ns selector, SameItems id ((cached st).pods ns selector) (st.pods ns selector)

theorem Reorders.self : Reorders Store.listing where
  secrets _ _ := List.Perm.refl _
  services st ns := sameItems_refl (st.services ns)
  pods st ns selector := sameItems_refl (st.pods ns selector)

theorem Reorders.sameLinks {cached : Store → Listing} (h : Reorders cached) {st : Store}
    (hpods : (cached st).pods = st.pods) (deployment : BOSHDeployment) :
    SameLinks P deployment (cached st) (Store.listing st) :=
  ⟨sameItems_filter (h.secrets st _), h.services st _, congrFun hpods _⟩

section LinkOrder

variable (hlinkOrder : ∀ name manifest linkInfos linkInfos' firstGeneration,
  linkInfos.Perm linkInfos' → C.instanceGroupManifestJob name manifest linkInfos firstGeneration =
    C.instanceGroupManifestJob name manifest linkInfos' firstGeneration)
include hlinkOrder

theorem plan_perm (deployment : BOSHDeployment) (manifest : Manifest)
    {linkInfos linkInfos' : LinkInfos} (h : linkInfos.Perm linkInfos') :
    Plan.of P C deployment manifest linkInfos = Plan.of P C deployment manifest linkInfos' := by
  simp only [Plan.of, hlinkOrder _ _ _ _ _ h]

/-- A store that holds the plan of one link resolution holds the plan of another that reads
alike, when the instance-group builder does not read the order of the link infos. -/
theorem holds_of_sameLinks {deployment : BOSHDeployment} {l l' : Listing}
    (h : SameLinks P deployment l l') (orders orders' : RangeOrders) (manifest : Manifest)
    (hok' : (listLinkInfos P deployment orders' manifest l').1.err = none) {st : Store}
    (hholds : (listLinkInfos P deployment orders manifest l).1.err = none →
      Holds (Plan.of P C deployment (listLinkInfos P deployment orders manifest l).1.manifest
        (listLinkInfos P deployment orders manifest l).1.linkInfos) st) :
    Holds (Plan.of P C deployment (listLinkInfos P deployment orders' manifest l').1.manifest
      (listLinkInfos P deployment orders' manifest l').1.linkInfos) st := by
  have hok := (h.err_iff orders orders' manifest).mpr hok'
  obtain ⟨hli, hman⟩ := h.linked orders orders' manifest hok hok'
  rw [← hman, ← plan_perm hlinkOrder _ _ hli]
  exact hholds hok

end LinkOrder

theorem Builds.withLastReconcile
    (hsetReference : ∀ d lastReconcile object,
      C.setReference (.deployment { d with lastReconcile }) object =
        C.setReference (.deployment d) object)
    {deployment : BOSHDeployment} {manifest : Manifest} {linkInfos : LinkInfos} {ms : Secret}
    {vars : List QuarksSecret} {j₁ j₂ : QuarksJob}
    (h : Builds C (Plan.of P C deployment manifest linkInfos) ms vars j₁ j₂)
    (lastReconcile : Option Time) :
    Builds C (Plan.of P C { deployment with lastReconcile } manifest linkInfos) ms vars j₁ j₂ :=
  ⟨h.1, h.2, h.3, h.4, (hsetReference _ _ _).trans h.5, h.6, (hsetReference _ _ _).trans h.7,
    (hsetReference _ _ _).trans h.8⟩

/-- `s` is `s₁` with at most its clock and the last reconcile of the deployment under `request`
changed: what the passing of time and quiet runs leave of a store. -/
structure Settled (request : NamespacedName) (s₁ s : Store) : Prop where
  deployments : ∀ key, key ≠ request → s.deployments key = s₁.deployments key
  spec : (s.deployments request).map ({ · with lastReconcile := none }) =
    (s₁.deployments request).map ({ · with lastReconcile := none })
  secrets : s.secrets = s₁.secrets
  quarksSecrets : s.quarksSecrets = s₁.quarksSecrets
  quarksJobs : s.quarksJobs = s₁.quarksJobs
  services : s.services = s₁.services
  pods : s.pods = s₁.pods

namespace Settled

variable {request : NamespacedName} {s₁ s : Store}

theorem refl (s₁ : Store) : Settled request s₁ s₁ :=
  ⟨fun _ _ => rfl, rfl, rfl, rfl, rfl, rfl, rfl⟩

theorem withClock (h : Settled request s₁ s) (clock : Time) :
    Settled request s₁ { s with clock } :=
  ⟨h.deployments, h.spec, h.secrets, h.quarksSecrets, h.quarksJobs, h.services, h.pods⟩

theorem withLastReconcile (h : Settled request s₁ s) (lastReconcile : Option Time) :
    Settled request s₁ (s.withLastReconcile request lastReconcile) := by
  refine ⟨fun key hkey => (Function.update_noteq hkey _ _).trans (h.deployments key hkey), ?_,
    h.secrets, h.quarksSecrets, h.quarksJobs, h.services, h.pods⟩
  simp only [Store.withLastReconcile, Function.update_same, Option.map_map]
  exact h.spec

theorem holds (h : Settled request s₁ s) {plan : Plan} (hp : Holds plan s₁) : Holds plan s :=
  hp.of_store h.secrets h.quarksSecrets h.quarksJobs

theorem deployment_eq (h : Settled request s₁ s) {d₁ d : BOSHDeployment}
    (h₁ : Store.get request s₁ = .ok d₁) (hd : Store.get request s = .ok d) :
    { d with lastReconcile := none } = { d₁ with lastReconcile := none } := by
  have hspec := h.spec
  rw [Store.get_eq_ok.mp h₁, Store.get_eq_ok.mp hd] at hspec
  exact Option.some.inj hspec

end Settled

/-- Every deployment of the store is converged: the store holds the plan of each one that
resolves and links, whatever the orders of the map iterations. -/
def Converged (P : Packages) (C : Collaborators) (st : Store) : Prop :=
  ∀ request orders deployment manifest, Store.get request st = .ok deployment →
    resolveManifest C deployment = .ok manifest →
    (listLinkInfos P deployment orders manifest (Store.listing st)).1.err = none →
    Holds (Plan.of P C deployment
      (listLinkInfos P deployment orders manifest (Store.listing st)).1.manifest
      (listLinkInfos P deployment orders manifest (Store.listing st)).1.linkInfos) st

namespace Converged

variable {s : Store}

theorem withClock (h : Converged P C s) (clock : Time) : Converged P C { s with clock } :=
  fun request orders d m hg hres hl => (h request orders d m hg hres hl).of_store rfl rfl rfl

theorem withLastReconcile
    (hwithOps : ∀ d lastReconcile ns,
      C.withOpsManifest { d with lastReconcile } ns = C.withOpsManifest d ns)
    (h : Converged P C s) (request : NamespacedName) (lastReconcile : Option Time) :
    Converged P C (s.withLastReconcile request lastReconcile) := by
  intro request' orders d' m hg hres hl
  by_cases hr : request' = request
  · subst hr
    obtain ⟨d, hd, rfl⟩ := Store.exists_of_get_withLastReconcile hg
    rw [resolveManifest_lastReconcile hwithOps] at hres
    rw [@Congr.listLinkInfos_deployment_congr P { d with lastReconcile } d rfl rfl] at hl ⊢
    exact ((holds_lastReconcile d lastReconcile _ _ _).mpr
      (h request' orders d m hd hres hl)).of_store rfl rfl rfl
  · rw [Store.get_withLastReconcile_of_ne hr] at hg
    exact (h request' orders d' m hg hres hl).of_store rfl rfl rfl

end Converged

namespace Converged

variable {s : Store}

theorem holds_cached (h : Converged P C s)
    (hlinkOrder : ∀ name manifest linkInfos linkInfos' firstGeneration,
      linkInfos.Perm linkInfos' → C.instanceGroupManifestJob name manifest linkInfos
        firstGeneration = C.instanceGroupManifestJob name manifest linkInfos' firstGeneration)
    {cached : Store → Listing} (hc : Reorders cached) (hpods : (cached s).pods = s.pods)
    (request : NamespacedName) (orders : RangeOrders) (deployment : BOSHDeployment)
    (manifest : Manifest) (hg : Store.get request s = .ok deployment)
    (hres : resolveManifest C deployment = .ok manifest)
    (hl : (listLinkInfos P deployment orders manifest (cached s)).1.err = none) :
    Holds (Plan.of P C deployment (listLinkInfos P deployment orders manifest (cached s)).1.manifest
      (listLinkInfos P deployment orders manifest (cached s)).1.linkInfos) s :=
  holds_of_sameLinks hlinkOrder (hc.sameLinks hpods deployment).symm orders orders manifest hl
    (h request orders deployment manifest hg hres)

end Converged

theorem converged_quiet (config : Config) (orders : RangeOrders) (request : NamespacedName)
    (hwithOps : ∀ d lastReconcile ns,
      C.withOpsManifest { d with lastReconcile } ns = C.withOpsManifest d ns)
    (hlinkOrder : ∀ name manifest linkInfos linkInfos' firstGeneration,
      linkInfos.Perm linkInfos' → C.instanceGroupManifestJob name manifest linkInfos
        firstGeneration = C.instanceGroupManifestJob name manifest linkInfos' firstGeneration)
    {cached : Store → Listing} (hc : Reorders cached) {s : Store} (hpods : (cached s).pods = s.pods)
    (h : Converged P C s) :
    Quiet (reconcile P C (Store.cachedCluster cached) config orders request ⟨s, []⟩).2.events ∧
      Converged P C (reconcile P C (Store.cachedCluster cached) config orders request ⟨s, []⟩).2.store := by
  obtain ⟨events, he, hq, hs⟩ := reconcile_quiet cached config orders request ⟨s, []⟩
    (h.holds_cached hlinkOrder hc hpods request orders)
  rw [he, List.nil_append]
  refine ⟨hq, ?_⟩
  rcases hs with hs | hs <;> rw [hs]
  · exact h
  · exact h.withLastReconcile hwithOps _ _

/-- A reconcile of a sequence on the cached client: its request, the orders of its map
iterations, the listing its `List` calls answer with, which keeps the pods in the store's order,
and the time it runs at. -/
structure CachedRun where
  request : NamespacedName
  orders : RangeOrders
  listing : Store → Listing
  reorders : Reorders listing
  keepsPods : ∀ st, (listing st).pods = st.pods
  clock : Time

def CachedRun.after (P : Packages) (C : Collaborators) (config : Config) (run : CachedRun)
    (s : Store) : Run Store :=
  (reconcile P C (Store.cachedCluster run.listing) config run.orders run.request
    ⟨{ s with clock := run.clock }, []⟩).2

def cachedRuns (P : Packages) (C : Collaborators) (config : Config) :
    List CachedRun → Store → List (Run Store)
  | [], _ => []
  | run :: runs, s => run.after P C config s :: cachedRuns P C config runs (run.after P C config s).store

def cachedRunsStore (P : Packages) (C : Collaborators) (config : Config) :
    List CachedRun → Store → Store
  | [], s => s
  | run :: runs, s => cachedRunsStore P C config runs (run.after P C config s).store

/-- The run lemma: a property of each run's outcome holds along a sequence whose runs are
allowed, when a run of an allowed reconcile from a store with the invariant `inv` has it and
keeps `inv`. -/
theorem cachedRuns_forall (config : Config) (inv : Store → Prop) (allowed : CachedRun → Prop)
    (Q : Run Store → Prop)
    (hstep : ∀ run s, allowed run → inv s →
      Q (run.after P C config s) ∧ inv (run.after P C config s).store) :
    ∀ runs s, (∀ run ∈ runs, allowed run) → inv s → ∀ r ∈ cachedRuns P C config runs s, Q r
  | [], _, _, _ => fun _ h => absurd h (List.not_mem_nil _)
  | run :: runs, s, hallowed, hs => by
    obtain ⟨hq, hnext⟩ := hstep run s (hallowed run (List.mem_cons_self _ _)) hs
    rintro r (_ | ⟨_, hmem⟩)
    · exact hq
    · exact cachedRuns_forall config inv allowed Q hstep runs _
        (fun run' h => hallowed run' (List.mem_cons_of_mem _ h)) hnext r hmem

/-- From a store that holds the plan of every deployment, any sequence of reconciles on a cached
client, of any requests, with the clock moved between them, writes nothing new and resets no
status, and the store stays converged after every run. -/
theorem reconcile_converged_quiet (config : Config)
    (hwithOps : ∀ d lastReconcile ns,
      C.withOpsManifest { d with lastReconcile } ns = C.withOpsManifest d ns)
    (hlinkOrder : ∀ name manifest linkInfos linkInfos' firstGeneration,
      linkInfos.Perm linkInfos' → C.instanceGroupManifestJob name manifest linkInfos
        firstGeneration = C.instanceGroupManifestJob name manifest linkInfos' firstGeneration)
    (runs : List CachedRun) (s : Store) (h : Converged P C s) :
    ∀ r ∈ cachedRuns P C config runs s, Quiet r.events ∧ Converged P C r.store :=
  cachedRuns_forall config (Converged P C) (fun _ => True)
    (fun r => Quiet r.events ∧ Converged P C r.store)
    (fun run _ _ hs =>
      have h := converged_quiet config run.orders run.request hwithOps hlinkOrder run.reorders
        (run.keepsPods _) (hs.withClock run.clock)
      ⟨h, h.2⟩) runs s (fun _ _ => trivial) h

def sampleCollaborators (vars : List QuarksSecret) : Collaborators where
  withOpsManifest _ _ := .ok ⟨none, []⟩
  convertVariables _ _ := .ok vars
  variableInterpolationJob _ _ := .ok ⟨"dm", "dm"⟩
  instanceGroupManifestJob _ _ _ _ := .ok ⟨"ig", "ig"⟩
  setReference _ _ := none

def sampleStore : Store where
  deployments key := if key = sampleDeployment.key then some sampleDeployment else none
  deployments_key key d h := by
    by_cases hk : key = sampleDeployment.key
    · simp only [hk, if_true, Option.some.injEq] at h
      exact h ▸ hk.symm
    · simp [hk] at h
  secrets := [natsSecret ""]
  secrets_nodup := by decide
  quarksSecrets _ := none
  quarksJobs _ := none
  services := (sampleListing ⟨[], List.nodup_nil⟩).services
  pods := (sampleListing ⟨[], List.nodup_nil⟩).pods
  clock := 100 * second

def sampleConfig : Config := ⟨10 * second, 5 * second⟩

theorem sampleCollaborators_vars_nodup (var : QuarksSecret) :
    ∀ name vars quarksSecrets,
      (sampleCollaborators [var]).convertVariables name vars = .ok quarksSecrets →
      (quarksSecrets.map QuarksSecret.name).Nodup :=
  fun _ _ _ h => Except.ok.inj h ▸ List.nodup_singleton _

theorem sampleCollaborators_jobs_apart (vars : List QuarksSecret) :
    ∀ name manifest manifest' linkInfos firstGeneration j₁ j₂,
      (sampleCollaborators vars).variableInterpolationJob name manifest = .ok j₁ →
      (sampleCollaborators vars).instanceGroupManifestJob name manifest' linkInfos
        firstGeneration = .ok j₂ → j₁.name ≠ j₂.name :=
  fun _ _ _ _ _ _ _ h₁ h₂ => Except.ok.inj h₁ ▸ Except.ok.inj h₂ ▸ by decide

theorem sampleStore_first_status :
    ∃ d result, Event.updateStatus (.deployment d) result ∈
      (reconcile samplePackages (sampleCollaborators [⟨"var-a", "password", false⟩])
        Store.cluster sampleConfig sampleOrders sampleDeployment.key ⟨sampleStore, []⟩).2.events :=
  ⟨{ sampleDeployment with lastReconcile := some (100 * second) }, none, by decide⟩

def linkedPackages : Packages :=
  { samplePackages with
    marshal := fun manifest => .ok (match manifest.property "quarks_links" with
      | some (.quarksLinks links) => String.join ((RangeOrder.ascending.keys links.keys).map
          fun q => q ++ ":" ++ ((links.lookup q).elim "" fun link =>
            String.intercalate "," (link.instances.map JobInstance.id)) ++ ";")
      | _ => "") }

/-- `sampleCollaborators` of one variable, with an instance-group job that counts the link
infos it is given. -/
def linkedCollaborators : Collaborators :=
  { sampleCollaborators [⟨"var-a", "password", false⟩] with
    instanceGroupManifestJob := fun _ _ linkInfos _ => .ok ⟨"ig", toString linkInfos.length⟩ }

def linkedStore : Store :=
  { sampleStore with secrets := [natsSecret "nats", otherSecret], secrets_nodup := by decide }

theorem linkedCollaborators_linkOrder : ∀ name manifest linkInfos linkInfos' firstGeneration,
    linkInfos.Perm linkInfos' → linkedCollaborators.instanceGroupManifestJob name manifest
      linkInfos firstGeneration =
      linkedCollaborators.instanceGroupManifestJob name manifest linkInfos' firstGeneration :=
  fun _ _ _ _ _ h => by simp only [linkedCollaborators, h.length_eq]

theorem linkedCollaborators_vars_nodup :
    ∀ name vars quarksSecrets, linkedCollaborators.convertVariables name vars = .ok quarksSecrets →
      (quarksSecrets.map QuarksSecret.name).Nodup :=
  sampleCollaborators_vars_nodup _

theorem linkedCollaborators_jobs_apart :
    ∀ name manifest manifest' linkInfos firstGeneration j₁ j₂,
      linkedCollaborators.variableInterpolationJob name manifest = .ok j₁ →
      linkedCollaborators.instanceGroupManifestJob name manifest' linkInfos
        firstGeneration = .ok j₂ → j₁.name ≠ j₂.name :=
  fun _ _ _ _ _ _ _ h₁ h₂ => by
    obtain rfl := Except.ok.inj h₁
    obtain rfl := Except.ok.inj h₂
    exact (by decide : "dm" ≠ "ig")

theorem linkedStore_withOpsKey_free : ∀ d, Store.get sampleDeployment.key linkedStore = .ok d →
    ∀ x ∈ linkedStore.secrets, x.key = ⟨d.ns, linkedPackages.deploymentSecretName
      linkedPackages.deploymentSecretTypeManifestWithOps d.name ""⟩ →
    ¬ Matching linkedPackages d x := by
  intro d hd x hx hk
  obtain rfl : sampleDeployment = d := Except.ok.inj hd
  rcases List.mem_pair.mp hx with rfl | rfl <;> exact absurd hk (by decide)

theorem linkedStore_first_status :
    ∃ d result, Event.updateStatus (.deployment d) result ∈
      (reconcile linkedPackages linkedCollaborators (Store.cachedCluster Store.listing)
        sampleConfig sampleOrders sampleDeployment.key ⟨linkedStore, []⟩).2.events :=
  ⟨{ sampleDeployment with lastReconcile := some (100 * second) }, none, by decide⟩

def reversedListing (st : Store) : Listing where
  secrets ns := .ok ⟨(st.secrets.filter (·.ns = ns)).reverse, by
    rw [List.map_reverse, List.nodup_reverse]
    exact nodup_names_filter_ns st.secrets_nodup ns⟩
  services ns := (st.services ns).map List.reverse
  pods := st.pods

theorem reorders_reversedListing : Reorders reversedListing where
  secrets _ _ := List.reverse_perm _
  services st ns := by
    show SameItems id ((st.services ns).map List.reverse) (st.services ns)
    rcases st.services ns with _ | _
    exacts [trivial, List.reverse_perm _]
  pods st ns selector := sameItems_refl (st.pods ns selector)

def reversedPods (st : Store) : Listing :=
  { Store.listing st with pods := fun ns selector => (st.pods ns selector).map List.reverse }

section Runs

variable (config : Config) (cached₁ : Store → Listing) (orders₁ : RangeOrders)
  (request : NamespacedName) (s : Store)
  (hvars : ∀ name vars quarksSecrets, C.convertVariables name vars = .ok quarksSecrets →
    (quarksSecrets.map QuarksSecret.name).Nodup)
  (hjobs : ∀ name manifest manifest' linkInfos firstGeneration j₁ j₂,
    C.variableInterpolationJob name manifest = .ok j₁ →
    C.instanceGroupManifestJob name manifest' linkInfos firstGeneration = .ok j₂ →
    j₁.name ≠ j₂.name)
  (hsecret : ∀ d, Store.get request s = .ok d → ∀ x ∈ s.secrets,
    x.key = ⟨d.ns, P.deploymentSecretName P.deploymentSecretTypeManifestWithOps d.name ""⟩ →
    ¬ Matching P d x)
  (hstatus : ∃ d result, Event.updateStatus (.deployment d) result ∈
    (reconcile P C (Store.cachedCluster cached₁) config orders₁ request ⟨s, []⟩).2.events)
include hvars hjobs hsecret hstatus

omit hsecret in
theorem first_keeps :
    (reconcile P C (Store.cachedCluster cached₁) config orders₁ request ⟨s, []⟩).2.store.services =
        s.services ∧
      (reconcile P C (Store.cachedCluster cached₁) config orders₁ request ⟨s, []⟩).2.store.pods =
        s.pods := by
  obtain ⟨_, _, -, -, -, -, _, _, _, -, hst, -⟩ :=
    reconcile_first cached₁ config orders₁ request s hvars hjobs hstatus
  rw [hst]
  exact ⟨rfl, rfl⟩

theorem settled_matching (s' : Store)
    (hs' : Settled request
      (reconcile P C (Store.cachedCluster cached₁) config orders₁ request ⟨s, []⟩).2.store s')
    {deployment : BOSHDeployment} (hg : Store.get request s = .ok deployment) :
    (s'.secrets.filter (·.ns = deployment.ns)).filter (Matching P deployment) =
      (s.secrets.filter (·.ns = deployment.ns)).filter (Matching P deployment) := by
  obtain ⟨d, -, hg', -, -, -, b, qs, js, -, hst, -⟩ :=
    reconcile_first cached₁ config orders₁ request s hvars hjobs hstatus
  obtain rfl : d = deployment := Except.ok.inj (hg'.symm.trans hg)
  rw [hst] at hs'
  rw [show s'.secrets = Store.upsert s.secrets (manifestWithOpsSecret P d b) from hs'.secrets,
    List.filter_filter, List.filter_filter, Store.filter_upsert]
  · simp [not_matching_manifestWithOpsSecret]
  · intro x hx hk
    simp [hsecret d hg x hx hk]

theorem settled_sameLinks (hc₁ : Reorders cached₁) (cached₂ : Store → Listing)
    (hc₂ : Reorders cached₂) (s' : Store)
    (hs' : Settled request
      (reconcile P C (Store.cachedCluster cached₁) config orders₁ request ⟨s, []⟩).2.store s')
    (hpods : (cached₂ s').pods = (cached₁ s).pods) {deployment : BOSHDeployment}
    (hg : Store.get request s = .ok deployment) :
    SameLinks P deployment (cached₁ s) (cached₂ s') := by
  have hmatching : SameItems (fun secrets : SecretList => secrets.items.filter
      (Matching P deployment)) ((Store.listing s).secrets deployment.ns)
      ((Store.listing s').secrets deployment.ns) :=
    List.Perm.of_eq (settled_matching config cached₁ orders₁ request s hvars hjobs hsecret hstatus
      s' hs' hg).symm
  have hservices : s'.services = s.services :=
    hs'.services.trans (first_keeps config cached₁ orders₁ request s hvars hjobs hstatus).1
  exact ⟨sameItems_trans (sameItems_filter (hc₁.secrets s _))
      (sameItems_trans hmatching (sameItems_symm (sameItems_filter (hc₂.secrets s' _)))),
    sameItems_trans (hc₁.services s _) (hservices ▸ sameItems_symm (hc₂.services s' _)),
    congrFun hpods.symm _⟩

omit hsecret in
theorem settled_deployment
    (hwithOps : ∀ d lastReconcile ns,
      C.withOpsManifest { d with lastReconcile } ns = C.withOpsManifest d ns)
    (s' : Store)
    (hs' : Settled request
      (reconcile P C (Store.cachedCluster cached₁) config orders₁ request ⟨s, []⟩).2.store s')
    {d₂ : BOSHDeployment} {m₂ : Manifest} (hg₂ : Store.get request s' = .ok d₂)
    (hres₂ : resolveManifest C d₂ = .ok m₂) :
    ∃ d, Store.get request s = .ok d ∧ d₂ = { d with lastReconcile := d₂.lastReconcile } ∧
      (listLinkInfos P d orders₁ m₂ (cached₁ s)).1.err = none ∧
      Holds (Plan.of P C d (listLinkInfos P d orders₁ m₂ (cached₁ s)).1.manifest
        (listLinkInfos P d orders₁ m₂ (cached₁ s)).1.linkInfos) s' := by
  obtain ⟨d, m, hg, -, hres, hl, b, qs, js, -, hst, hholds, -⟩ :=
    reconcile_first cached₁ config orders₁ request s hvars hjobs hstatus
  rw [hst] at hs' hholds
  have hd₂ : d₂ = { d with lastReconcile := d₂.lastReconcile } :=
    congrArg ({ · with lastReconcile := d₂.lastReconcile })
      (hs'.deployment_eq (Store.get_withLastReconcile hg _) hg₂)
  rw [hd₂, resolveManifest_lastReconcile hwithOps, hres] at hres₂
  obtain rfl := Except.ok.inj hres₂
  exact ⟨d, hg, hd₂, hl, hs'.holds hholds⟩

theorem settled_holds
    (hwithOps : ∀ d lastReconcile ns,
      C.withOpsManifest { d with lastReconcile } ns = C.withOpsManifest d ns)
    (hlinkOrder : ∀ name manifest linkInfos linkInfos' firstGeneration,
      linkInfos.Perm linkInfos' → C.instanceGroupManifestJob name manifest linkInfos
        firstGeneration = C.instanceGroupManifestJob name manifest linkInfos' firstGeneration)
    (hc₁ : Reorders cached₁) (cached₂ : Store → Listing) (hc₂ : Reorders cached₂)
    (orders₂ : RangeOrders) (s' : Store)
    (hs' : Settled request
      (reconcile P C (Store.cachedCluster cached₁) config orders₁ request ⟨s, []⟩).2.store s')
    (hpods : (cached₂ s').pods = (cached₁ s).pods)
    (d₂ : BOSHDeployment) (m₂ : Manifest) (hg₂ : Store.get request s' = .ok d₂)
    (hres₂ : resolveManifest C d₂ = .ok m₂)
    (hl₂ : (listLinkInfos P d₂ orders₂ m₂ (cached₂ s')).1.err = none) :
    Holds (Plan.of P C d₂ (listLinkInfos P d₂ orders₂ m₂ (cached₂ s')).1.manifest
      (listLinkInfos P d₂ orders₂ m₂ (cached₂ s')).1.linkInfos) s' := by
  obtain ⟨d, hg, hd₂, -, hholds⟩ := settled_deployment config cached₁ orders₁ request s hvars hjobs
    hstatus hwithOps s' hs' hg₂ hres₂
  obtain ⟨lastReconcile, rfl⟩ : ∃ lastReconcile, d₂ = { d with lastReconcile } := ⟨_, hd₂⟩
  rw [@Congr.listLinkInfos_deployment_congr P { d with lastReconcile } d rfl rfl] at hl₂ ⊢
  exact (holds_lastReconcile d _ _ _ _).mpr (holds_of_sameLinks hlinkOrder
    (settled_sameLinks config cached₁ orders₁ request s hvars hjobs hsecret hstatus hc₁ cached₂
      hc₂ s' hs' hpods hg) orders₁ orders₂ m₂ hl₂ fun _ => hholds)

theorem settled_holds_listing
    (hwithOps : ∀ d lastReconcile ns,
      C.withOpsManifest { d with lastReconcile } ns = C.withOpsManifest d ns)
    (h₁ : cached₁ = Store.listing) (orders₂ : RangeOrders) (s' : Store)
    (hs' : Settled request
      (reconcile P C (Store.cachedCluster cached₁) config orders₁ request ⟨s, []⟩).2.store s')
    (d₂ : BOSHDeployment) (m₂ : Manifest) (hg₂ : Store.get request s' = .ok d₂)
    (hres₂ : resolveManifest C d₂ = .ok m₂)
    (hl₂ : (listLinkInfos P d₂ orders₂ m₂ (Store.listing s')).1.err = none) :
    Holds (Plan.of P C d₂ (listLinkInfos P d₂ orders₂ m₂ (Store.listing s')).1.manifest
      (listLinkInfos P d₂ orders₂ m₂ (Store.listing s')).1.linkInfos) s' := by
  subst h₁
  obtain ⟨d, hg, hd₂, hl, hholds⟩ := settled_deployment config Store.listing orders₁ request s
    hvars hjobs hstatus hwithOps s' hs' hg₂ hres₂
  have hkeeps := first_keeps config Store.listing orders₁ request s hvars hjobs hstatus
  obtain ⟨lastReconcile, rfl⟩ : ∃ lastReconcile, d₂ = { d with lastReconcile } := ⟨_, hd₂⟩
  rw [@Congr.listLinkInfos_deployment_congr P { d with lastReconcile } d rfl rfl] at hl₂ ⊢
  obtain ⟨hli, hman⟩ := Congr.linked_congr orders₁ orders₂ _ (l := Store.listing s) rfl
    (rfl : (Store.listing s').secrets d.ns = _)
    (settled_matching config Store.listing orders₁ request s hvars hjobs hsecret hstatus s' hs'
      hg).symm
    (congrFun (hs'.services.trans hkeeps.1).symm _) (congrFun (hs'.pods.trans hkeeps.2).symm _)
    hl hl₂
  rw [hli, hman]
  exact (holds_lastReconcile d _ _ _ _).mpr hholds

theorem settled_quiet
    (hwithOps : ∀ d lastReconcile ns,
      C.withOpsManifest { d with lastReconcile } ns = C.withOpsManifest d ns)
    (hlinkOrder : ∀ name manifest linkInfos linkInfos' firstGeneration,
      linkInfos.Perm linkInfos' → C.instanceGroupManifestJob name manifest linkInfos
        firstGeneration = C.instanceGroupManifestJob name manifest linkInfos' firstGeneration)
    (hc₁ : Reorders cached₁) (cached₂ : Store → Listing) (hc₂ : Reorders cached₂)
    (orders₂ : RangeOrders) (s' : Store)
    (hs' : Settled request
      (reconcile P C (Store.cachedCluster cached₁) config orders₁ request ⟨s, []⟩).2.store s')
    (hpods : (cached₂ s').pods = (cached₁ s).pods) :
    Quiet (reconcile P C (Store.cachedCluster cached₂) config orders₂ request ⟨s', []⟩).2.events ∧
      ((reconcile P C (Store.cachedCluster cached₂) config orders₂ request ⟨s', []⟩).2.store =
          s' ∨
        (reconcile P C (Store.cachedCluster cached₂) config orders₂ request ⟨s', []⟩).2.store =
          s'.withLastReconcile request (some (wholeSeconds s'.clock))) := by
  obtain ⟨events, he, hq, hs₂⟩ := reconcile_quiet cached₂ config orders₂ request ⟨s', []⟩
    (settled_holds config cached₁ orders₁ request s hvars hjobs hsecret hstatus hwithOps
      hlinkOrder hc₁ cached₂ hc₂ orders₂ s' hs' hpods)
  rw [he, List.nil_append]
  exact ⟨hq, hs₂⟩

theorem converged_first
    (hwithOps : ∀ d lastReconcile ns,
      C.withOpsManifest { d with lastReconcile } ns = C.withOpsManifest d ns)
    (hlinkOrder : ∀ name manifest linkInfos linkInfos' firstGeneration,
      linkInfos.Perm linkInfos' → C.instanceGroupManifestJob name manifest linkInfos
        firstGeneration = C.instanceGroupManifestJob name manifest linkInfos' firstGeneration)
    (hc₁ : Reorders cached₁) (hpods₁ : (cached₁ s).pods = s.pods)
    (hsole : ∀ key, key ≠ request → s.deployments key = none) :
    Converged P C (reconcile P C (Store.cachedCluster cached₁) config orders₁ request ⟨s, []⟩).2.store := by
  intro request' orders₂ d₂ m₂ hg₂ hres₂ hl₂
  by_cases hr : request' = request
  · subst hr
    exact settled_holds config cached₁ orders₁ request' s hvars hjobs hsecret hstatus hwithOps
      hlinkOrder hc₁ Store.listing .self orders₂ _ (.refl _)
      ((first_keeps config cached₁ orders₁ request' s hvars hjobs hstatus).2.trans
        hpods₁.symm) d₂ m₂ hg₂ hres₂ hl₂
  · obtain ⟨_, _, -, -, -, -, _, _, _, -, hst, -⟩ :=
      reconcile_first cached₁ config orders₁ request s hvars hjobs hstatus
    rw [hst, Store.get_withLastReconcile_of_ne hr, Store.get_eq_ok] at hg₂
    exact absurd hg₂ (by simp [Store.withSecret, hsole request' hr])

/-- After a reconcile that reaches its deployment's status update, every later reconcile of the
deployment on a cached client that lists the pods as the store keeps them, with only the clock
moved between runs, writes nothing new and resets no status. -/
theorem reconcile_runs_quiet
    (hwithOps : ∀ d lastReconcile ns,
      C.withOpsManifest { d with lastReconcile } ns = C.withOpsManifest d ns)
    (hlinkOrder : ∀ name manifest linkInfos linkInfos' firstGeneration,
      linkInfos.Perm linkInfos' → C.instanceGroupManifestJob name manifest linkInfos
        firstGeneration = C.instanceGroupManifestJob name manifest linkInfos' firstGeneration)
    (hc₁ : Reorders cached₁) (hpods₁ : (cached₁ s).pods = s.pods)
    (runs : List CachedRun) (hruns : ∀ run ∈ runs, run.request = request) :
    ∀ r ∈ cachedRuns P C config runs
      (reconcile P C (Store.cachedCluster cached₁) config orders₁ request ⟨s, []⟩).2.store,
      Quiet r.events := by
  have hfirst := (first_keeps config cached₁ orders₁ request s hvars hjobs hstatus).2
  refine cachedRuns_forall config
    (Settled request (reconcile P C (Store.cachedCluster cached₁) config orders₁ request
      ⟨s, []⟩).2.store) (·.request = request) (fun r => Quiet r.events)
    (fun run s' hr hs' => ?_) runs _ hruns (.refl _)
  have hs₁ := hs'.withClock run.clock
  obtain ⟨hq, hst⟩ := settled_quiet config cached₁ orders₁ request s hvars hjobs hsecret hstatus
    hwithOps hlinkOrder hc₁ run.listing run.reorders run.orders _ hs₁
    (((run.keepsPods _).trans hs₁.pods).trans (hfirst.trans hpods₁.symm))
  rw [CachedRun.after, hr]
  refine ⟨hq, ?_⟩
  rcases hst with h | h <;> rw [h]
  · exact hs₁
  · exact hs₁.withLastReconcile _

end Runs

def sampleRuns : List CachedRun :=
  [⟨sampleDeployment.key, sampleOrders, reversedListing, reorders_reversedListing, fun _ => rfl,
      200 * second⟩,
    ⟨sampleDeployment.key, sampleOrders, Store.listing, .self, fun _ => rfl, 300 * second⟩]

theorem reconcile_runs_quiet_sample :
    (cachedRuns linkedPackages linkedCollaborators sampleConfig sampleRuns
      (reconcile linkedPackages linkedCollaborators (Store.cachedCluster Store.listing)
        sampleConfig sampleOrders sampleDeployment.key ⟨linkedStore, []⟩).2.store).Forall
      fun r => Quiet r.events :=
  List.forall_iff_forall_mem.mpr <| reconcile_runs_quiet sampleConfig Store.listing sampleOrders
    sampleDeployment.key linkedStore linkedCollaborators_vars_nodup
    linkedCollaborators_jobs_apart linkedStore_withOpsKey_free linkedStore_first_status
    (fun _ _ _ => rfl) linkedCollaborators_linkOrder Reorders.self rfl sampleRuns (by decide)

theorem reconcile_converged_quiet_sample :
    (cachedRuns linkedPackages linkedCollaborators sampleConfig
      (sampleRuns ++ [⟨⟨"default", "other"⟩, sampleOrders, reversedListing,
        reorders_reversedListing, fun _ => rfl, 400 * second⟩])
      (reconcile linkedPackages linkedCollaborators (Store.cachedCluster Store.listing)
        sampleConfig sampleOrders sampleDeployment.key ⟨linkedStore, []⟩).2.store).Forall
      fun r => Quiet r.events ∧ Converged linkedPackages linkedCollaborators r.store :=
  List.forall_iff_forall_mem.mpr <| reconcile_converged_quiet sampleConfig (fun _ _ _ => rfl)
    linkedCollaborators_linkOrder _ _
    (converged_first sampleConfig Store.listing sampleOrders sampleDeployment.key linkedStore
      linkedCollaborators_vars_nodup linkedCollaborators_jobs_apart
      linkedStore_withOpsKey_free linkedStore_first_status (fun _ _ _ => rfl)
      linkedCollaborators_linkOrder Reorders.self rfl fun key hk => by
        simp [linkedStore, sampleStore, hk])

/-- Reconciling a deployment a second time, outside the meltdown window the first run's stamp
opens, over the store the first run left with only the clock moved, on a cached client that
lists the pods as the first run's did: the second run fetches the deployment the first run
stamped, lists again, issues every
`CreateOrUpdate` of the first run's plan (the with-ops manifest secret, each QuarksSecret and both
QuarksJobs), each reporting no change, resets no QuarksSecret status, and rewrites only the
deployment's last reconcile. Variables and jobs must be named apart, the with-ops manifest and
`SetControllerReference` must not read the deployment's last reconcile, the instance-group builder
must not read the order of the link infos, and a secret stored under the with-ops secret's key
before the first run must not be one of the deployment's link providers. -/
theorem reconcile_twice_unchanged (config : Config) (cached₁ cached₂ : Store → Listing)
    (orders₁ orders₂ : RangeOrders) (request : NamespacedName) (s : Store) (clock : Time)
    (hc₁ : Reorders cached₁) (hc₂ : Reorders cached₂)
    (hwithOps : ∀ d lastReconcile ns,
      C.withOpsManifest { d with lastReconcile } ns = C.withOpsManifest d ns)
    (hsetReference : ∀ d lastReconcile object,
      C.setReference (.deployment { d with lastReconcile }) object =
        C.setReference (.deployment d) object)
    (hlinkOrder : ∀ name manifest linkInfos linkInfos' firstGeneration,
      linkInfos.Perm linkInfos' → C.instanceGroupManifestJob name manifest linkInfos
        firstGeneration = C.instanceGroupManifestJob name manifest linkInfos' firstGeneration)
    (hvars : ∀ name vars quarksSecrets, C.convertVariables name vars = .ok quarksSecrets →
      (quarksSecrets.map QuarksSecret.name).Nodup)
    (hjobs : ∀ name manifest manifest' linkInfos firstGeneration j₁ j₂,
      C.variableInterpolationJob name manifest = .ok j₁ →
      C.instanceGroupManifestJob name manifest' linkInfos firstGeneration = .ok j₂ →
      j₁.name ≠ j₂.name)
    (hsecret : ∀ d, Store.get request s = .ok d → ∀ x ∈ s.secrets,
      x.key = ⟨d.ns, P.deploymentSecretName P.deploymentSecretTypeManifestWithOps d.name ""⟩ →
      ¬ Matching P d x)
    (hstatus : ∃ d result, Event.updateStatus (.deployment d) result ∈
      (reconcile P C (Store.cachedCluster cached₁) config orders₁ request ⟨s, []⟩).2.events)
    (hmeltdown :
      P.meltdownContains config.meltdownDuration (some (wholeSeconds s.clock)) clock = false) :
    let s₁ := { (reconcile P C (Store.cachedCluster cached₁) config orders₁ request
      ⟨s, []⟩).2.store with clock }
    (cached₂ s₁).pods = (cached₁ s).pods →
    ∃ deployment manifest ms vars j₁ j₂, ∃ calls : List ListCall,
      Store.get request s = .ok deployment ∧ resolveManifest C deployment = .ok manifest ∧
      Builds C (Plan.of P C deployment
        (listLinkInfos P deployment orders₁ manifest (cached₁ s)).1.manifest
        (listLinkInfos P deployment orders₁ manifest (cached₁ s)).1.linkInfos) ms vars j₁ j₂ ∧
      reconcile P C (Store.cachedCluster cached₂) config orders₂ request ⟨s₁, []⟩ =
        ((⟨false, 0⟩, none), ⟨s₁.withLastReconcile request (some (wholeSeconds clock)),
          .get request :: calls.map .list ++
            quietWrites { deployment with lastReconcile := some (wholeSeconds s.clock) }
              ms vars j₁ j₂ ++
            [.updateStatus (.deployment { deployment with lastReconcile := some clock }) none]⟩) := by
  intro s₁ hpods
  have hs₁ : Settled request _ s₁ := (Settled.refl _).withClock clock
  obtain ⟨d, m, hg, -, hres, hl, b, qs, js, -, hst, -, ms, vars, j₁, j₂, hb⟩ :=
    reconcile_first cached₁ config orders₁ request s hvars hjobs hstatus
  have hg₂ : Store.get request s₁ = .ok { d with lastReconcile := some (wholeSeconds s.clock) } := by
    show Store.get request (reconcile P C _ config orders₁ request ⟨s, []⟩).2.store = _
    rw [hst]
    exact Store.get_withLastReconcile (show Store.get request
      { s.withSecret (manifestWithOpsSecret P d b) with quarksSecrets := qs, quarksJobs := js } =
        .ok d from hg) _
  have hres₂ : resolveManifest C { d with lastReconcile := some (wholeSeconds s.clock) } = .ok m :=
    (resolveManifest_lastReconcile hwithOps d _).trans hres
  have hcongr := @Congr.listLinkInfos_deployment_congr P
    { d with lastReconcile := some (wholeSeconds s.clock) } d rfl rfl
  have hsame := settled_sameLinks config cached₁ orders₁ request s hvars hjobs hsecret hstatus
    hc₁ cached₂ hc₂ s₁ hs₁ hpods hg
  have hl₂ := (hsame.err_iff orders₁ orders₂ m).mp hl
  obtain ⟨hli, hman⟩ := hsame.linked orders₁ orders₂ m hl hl₂
  rw [← hcongr] at hl₂
  have hb₂ := Builds.withLastReconcile hsetReference hb (some (wholeSeconds s.clock))
  rw [plan_perm hlinkOrder _ _ hli, hman, ← hcongr] at hb₂
  refine ⟨d, m, ms, vars, j₁, j₂, _, hg, hres, hb, reconcile_settled cached₂ config orders₂
    request s₁ hg₂ hmeltdown hres₂ hl₂ hb₂ (settled_holds config cached₁ orders₁ request
      s hvars hjobs hsecret hstatus hwithOps hlinkOrder hc₁ cached₂ hc₂ orders₂ s₁ hs₁ hpods _ m
      hg₂ hres₂ hl₂)⟩

theorem reconcile_twice_unchanged_sample :
    let s₁ := { (reconcile linkedPackages linkedCollaborators (Store.cachedCluster Store.listing)
      sampleConfig sampleOrders sampleDeployment.key ⟨linkedStore, []⟩).2.store with
      clock := 200 * second }
    ∃ deployment manifest ms vars j₁ j₂, ∃ calls : List ListCall,
      Store.get sampleDeployment.key linkedStore = .ok deployment ∧
      resolveManifest linkedCollaborators deployment = .ok manifest ∧
      Builds linkedCollaborators (Plan.of linkedPackages linkedCollaborators deployment
        (listLinkInfos linkedPackages deployment sampleOrders manifest
          (Store.listing linkedStore)).1.manifest
        (listLinkInfos linkedPackages deployment sampleOrders manifest
          (Store.listing linkedStore)).1.linkInfos) ms vars j₁ j₂ ∧
      reconcile linkedPackages linkedCollaborators (Store.cachedCluster reversedListing)
          sampleConfig sampleOrders sampleDeployment.key ⟨s₁, []⟩ =
        ((⟨false, 0⟩, none), ⟨s₁.withLastReconcile sampleDeployment.key
            (some (wholeSeconds (200 * second))),
          .get sampleDeployment.key :: calls.map .list ++
            quietWrites { deployment with lastReconcile := some (wholeSeconds linkedStore.clock) }
              ms vars j₁ j₂ ++
            [.updateStatus (.deployment { deployment with lastReconcile := some (200 * second) })
              none]⟩) :=
  reconcile_twice_unchanged sampleConfig Store.listing reversedListing sampleOrders sampleOrders
    sampleDeployment.key linkedStore (200 * second) Reorders.self reorders_reversedListing
    (fun _ _ _ => rfl) (fun _ _ _ => rfl) linkedCollaborators_linkOrder
    linkedCollaborators_vars_nodup linkedCollaborators_jobs_apart linkedStore_withOpsKey_free
    linkedStore_first_status (by decide)
    (first_keeps sampleConfig Store.listing sampleOrders sampleDeployment.key linkedStore
      linkedCollaborators_vars_nodup linkedCollaborators_jobs_apart linkedStore_first_status).2

theorem reconcile_twice_rewrites :
    (let C := sampleCollaborators [⟨"var-a", "password", false⟩, ⟨"var-a", "certificate", false⟩]
      let run₁ := reconcile samplePackages C Store.cluster sampleConfig sampleOrders
        sampleDeployment.key ⟨sampleStore, []⟩
      let run₂ := reconcile samplePackages C Store.cluster sampleConfig sampleOrders
        sampleDeployment.key ⟨{ run₁.2.store with clock := 200 * second }, []⟩
      Event.updateStatus (.deployment { sampleDeployment with lastReconcile := some (100 * second) })
          none ∈ run₁.2.events ∧
        Event.createOrUpdate (.quarksSecret ⟨"var-a", "password", false⟩) (.ok .updated) ∈
          run₂.2.events) ∧
    (let run₁ := reconcile linkedPackages linkedCollaborators (Store.cachedCluster Store.listing)
        sampleConfig sampleOrders sampleDeployment.key ⟨linkedStore, []⟩
      let run₂ := reconcile linkedPackages linkedCollaborators (Store.cachedCluster reversedPods)
        sampleConfig sampleOrders sampleDeployment.key
        ⟨{ run₁.2.store with clock := 200 * second }, []⟩
      Event.updateStatus (.deployment { sampleDeployment with lastReconcile := some (100 * second) })
          none ∈ run₁.2.events ∧
        Event.createOrUpdate (.secret (manifestWithOpsSecret linkedPackages sampleDeployment
          "nats-secret:uid-1,uid-0;")) (.ok .updated) ∈ run₂.2.events) ∧
    samplePackages.meltdownContains sampleConfig.meltdownDuration (some (100 * second))
      (200 * second) = false := by
  decide

/-- A reconcile that reaches its deployment's status update leaves the store holding the plan of
the deployment it fetched: the with-ops manifest secret, and each QuarksSecret and QuarksJob with
its spec, when the variables and the jobs are named apart. -/
theorem reconcile_holds_plan (config : Config) (orders : RangeOrders) (request : NamespacedName)
    (s : Store)
    (hvars : ∀ name vars quarksSecrets, C.convertVariables name vars = .ok quarksSecrets →
      (quarksSecrets.map QuarksSecret.name).Nodup)
    (hjobs : ∀ name manifest manifest' linkInfos firstGeneration j₁ j₂,
      C.variableInterpolationJob name manifest = .ok j₁ →
      C.instanceGroupManifestJob name manifest' linkInfos firstGeneration = .ok j₂ →
      j₁.name ≠ j₂.name)
    (hstatus : ∃ d result, Event.updateStatus (.deployment d) result ∈
      (reconcile P C Store.cluster config orders request ⟨s, []⟩).2.events) :
    ∃ deployment manifest, Store.get request s = .ok deployment ∧
      resolveManifest C deployment = .ok manifest ∧
      Holds (Plan.of P C deployment
          (listLinkInfos P deployment orders manifest (Store.listing s)).1.manifest
          (listLinkInfos P deployment orders manifest (Store.listing s)).1.linkInfos)
        (reconcile P C Store.cluster config orders request ⟨s, []⟩).2.store := by
  obtain ⟨deployment, manifest, hg, -, hres, -, _, _, _, -, -, hholds, -⟩ :=
    reconcile_first Store.listing config orders request s hvars hjobs hstatus
  exact ⟨deployment, manifest, hg, hres, hholds⟩

theorem reconcile_holds_plan_sample :
    ∃ deployment manifest, Store.get sampleDeployment.key sampleStore = .ok deployment ∧
      resolveManifest (sampleCollaborators [⟨"var-a", "password", false⟩]) deployment =
        .ok manifest ∧
      Holds (Plan.of samplePackages (sampleCollaborators [⟨"var-a", "password", false⟩])
          deployment
          (listLinkInfos samplePackages deployment sampleOrders manifest
            (Store.listing sampleStore)).1.manifest
          (listLinkInfos samplePackages deployment sampleOrders manifest
            (Store.listing sampleStore)).1.linkInfos)
        (reconcile samplePackages (sampleCollaborators [⟨"var-a", "password", false⟩])
          Store.cluster sampleConfig sampleOrders sampleDeployment.key ⟨sampleStore, []⟩).2.store :=
  reconcile_holds_plan sampleConfig sampleOrders sampleDeployment.key sampleStore
    (sampleCollaborators_vars_nodup _) (sampleCollaborators_jobs_apart _) sampleStore_first_status

end CfOperator.Idempotence
