import CfOperator.Reconcile.Store
import CfOperator.Reconcile.Steps

namespace CfOperator.Reads

open Steps

def callNamespace : ListCall → String
  | .secrets ns => ns
  | .services ns => ns
  | .pods ns _ => ns

section Links

variable (P : Packages) (deployment : BOSHDeployment)

theorem listPodsFromSelector_snd (ns : String) (selector : StringMap String) (l : Listing) :
    (listPodsFromSelector P ns selector l).2 = [.pods ns selector] := by
  simp only [listPodsFromSelector, LinkM.bind_snd, listPods]
  rcases l.pods ns selector with err | _ | ⟨p, ps⟩ <;> rfl

theorem resolveLink_calls (l : Listing) (serviceRecords : StringMap ServiceRecord)
    (quarksLinks : StringMap QuarksLink) (qName : String) :
    ∀ call ∈ (resolveLink P deployment serviceRecords quarksLinks qName l).2,
      callNamespace call = deployment.ns := by
  unfold resolveLink
  rcases serviceRecords.lookup qName with _ | r
  · nofun
  simp only [LinkM.bind_snd, listPodsFromSelector_snd, List.singleton_append,
    List.forall_mem_cons]
  refine ⟨rfl, ?_⟩
  rcases (listPodsFromSelector P deployment.ns r.selector l).1 with err | pods
  · simp
  rcases h : jobInstances qName 0 pods with err | jobsInstances <;> simp [h]

theorem resolveLinks_calls (l : Listing) (serviceRecords : StringMap ServiceRecord) :
    ∀ (quarksLinks : StringMap QuarksLink) (qNames : List String),
      ∀ call ∈ (resolveLinks P deployment serviceRecords quarksLinks qNames l).2,
        callNamespace call = deployment.ns
  | _, [] => nofun
  | quarksLinks, qName :: qNames => by
    simp only [resolveLinks, LinkM.bind_snd, List.forall_mem_append]
    refine ⟨resolveLink_calls P deployment l serviceRecords quarksLinks qName, ?_⟩
    rcases (resolveLink P deployment serviceRecords quarksLinks qName l).1 with err | links
    · simp
    · exact resolveLinks_calls l serviceRecords links qNames

theorem listLinkInfos_calls (orders : RangeOrders) (manifest : Manifest) (l : Listing) :
    ∀ call ∈ (listLinkInfos P deployment orders manifest l).2,
      callNamespace call = deployment.ns := by
  unfold listLinkInfos
  split
  · nofun
  simp only [LinkM.bind_snd, listSecrets, List.singleton_append, List.forall_mem_cons]
  refine ⟨rfl, ?_⟩
  rcases l.secrets deployment.ns with err | secrets
  · simp
  simp only [LinkM.bind_snd, listServices, List.singleton_append, List.forall_mem_cons]
  refine ⟨rfl, ?_⟩
  rcases l.services deployment.ns with err | services
  · simp
  rcases scanSecrets P deployment ⟨[], P.listMissingProviders manifest, ∅⟩ secrets.items with
    ⟨scan, _ | err⟩
  swap
  · simp
  rcases h : getServiceRecords P deployment.ns deployment.name services with err | serviceRecords
  · simp [h]
  simp only [h, LinkM.bind_snd, List.forall_mem_append]
  refine ⟨resolveLinks_calls P deployment l _ _ _, ?_⟩
  rcases (resolveLinks P deployment serviceRecords scan.quarksLinks
    (orders.quarksLinks.keys scan.quarksLinks.keys) l).1 with err | links <;> simp

end Links

/-- From `r` to `r'` a run only adds calls that satisfy `Q`. -/
def Adds {σ : Type} (Q : Event → Prop) (r r' : Run σ) : Prop :=
  ∃ events, r'.events = r.events ++ events ∧ ∀ e ∈ events, Q e

section Writes

variable {σ : Type} {P : Packages} {C : Collaborators} {cluster : Cluster σ}
  {Q : Event → Prop}

theorem Adds.refl (r : Run σ) : Adds Q r r :=
  ⟨[], (List.append_nil _).symm, List.forall_mem_nil _⟩

theorem Adds.trans {r₁ r₂ r₃ : Run σ} (h₁ : Adds Q r₁ r₂) (h₂ : Adds Q r₂ r₃) : Adds Q r₁ r₃ := by
  obtain ⟨events₁, he₁, hq₁⟩ := h₁
  obtain ⟨events₂, he₂, hq₂⟩ := h₂
  refine ⟨events₁ ++ events₂, by rw [he₂, he₁, List.append_assoc], fun e he => ?_⟩
  rcases List.mem_append.mp he with he | he
  exacts [hq₁ e he, hq₂ e he]

theorem Adds.mem_events {r r' : Run σ} (h : Adds Q r r') {e : Event} (he : e ∈ r'.events)
    (hQ : ¬ Q e) : e ∈ r.events := by
  obtain ⟨events, hr, hq⟩ := h
  rw [hr] at he
  exact (List.mem_append.mp he).resolve_right fun h => hQ (hq e h)

variable (hQ : ∀ owner object s, ∀ e ∈ refThenWrite C cluster owner object s, Q e)

theorem list_not_mem_refThenWrite (owner object : Object) (s : σ) (call : ListCall) :
    Event.list call ∉ refThenWrite C cluster owner object s := by
  unfold refThenWrite
  split <;> simp

include hQ

theorem adds_refThenWrite (owner object : Object) (r : Run σ) :
    Adds Q r ⟨storeAfter C cluster owner object r.store,
      r.events ++ refThenWrite C cluster owner object r.store⟩ :=
  ⟨_, rfl, hQ owner object r.store⟩

theorem createManifestWithOps_adds (deployment : BOSHDeployment) (manifest : Manifest)
    (r : Run σ) : Adds Q r (createManifestWithOps P C cluster deployment manifest r).2 := by
  rw [(createManifestWithOps_run P deployment manifest r).1]
  split
  · exact .refl r
  · exact adds_refThenWrite hQ _ _ r

theorem createQuarksSecrets_adds (hU : ∀ q result, Q (.updateStatus (.quarksSecret q) result))
    (manifestSecret : Secret) :
    ∀ (vars : List QuarksSecret) (r : Run σ),
      Adds Q r (createQuarksSecrets C cluster manifestSecret vars r).2
  | [], r => .refl r
  | var :: vars, r => by
    rcases createQuarksSecrets_cons manifestSecret var vars r with
      ⟨-, -, he⟩ | ⟨op, s, -, -, h⟩
    · rw [he]
      exact adds_refThenWrite hQ _ _ r
    have hw : Adds Q r ⟨s, r.events ++ refThenWrite C cluster (.secret manifestSecret)
        (.quarksSecret var) r.store⟩ := ⟨_, rfl, hQ _ _ r.store⟩
    have hreset : ∀ result, Adds Q r ⟨(cluster.updateStatus
        (.quarksSecret { var with generated := false }) s).2,
        r.events ++ refThenWrite C cluster (.secret manifestSecret) (.quarksSecret var) r.store ++
          [.updateStatus (.quarksSecret { var with generated := false }) result]⟩ :=
      fun result => hw.trans ⟨_, rfl, by simpa using hU _ result⟩
    split_ifs at h
    · rcases h with ⟨-, -, he⟩ | ⟨-, he⟩ <;> rw [he]
      · exact hreset _
      · exact (hreset none).trans (createQuarksSecrets_adds hU manifestSecret vars _)
    · rw [h]
      exact hw.trans (createQuarksSecrets_adds hU manifestSecret vars _)

theorem syncJobs_adds (hU : ∀ d result, Q (.updateStatus (.deployment d) result))
    (request : NamespacedName) (deployment : BOSHDeployment)
    (manifest : Manifest) (linkInfos : LinkInfos) (r : Run σ) :
    Adds Q r (syncJobs C cluster request deployment manifest linkInfos r).2 := by
  unfold syncJobs
  rcases C.variableInterpolationJob deployment.name manifest with err | job₁
  · exact .refl r
  simp only [ReconcileM.bind_run]
  have h₁ := (@createQuarksJob_run σ C cluster deployment job₁ r).1
  refine (h₁ ▸ adds_refThenWrite hQ _ _ r).trans ?_
  rcases (createQuarksJob C cluster deployment job₁ r).1 with _ | err
  swap
  · exact .refl _
  rcases C.instanceGroupManifestJob deployment.name manifest linkInfos
    (deployment.generation == 1) with err | job₂
  · exact .refl _
  simp only [ReconcileM.bind_run]
  have h₂ := (@createQuarksJob_run σ C cluster deployment job₂
    (createQuarksJob C cluster deployment job₁ r).2).1
  refine (h₂ ▸ adds_refThenWrite hQ _ _ _).trans ?_
  rcases (createQuarksJob C cluster deployment job₂ _).1 with _ | err
  swap
  · exact .refl _
  simp only [ReconcileM.bind_run, timeNow_run, updateStatus_run]
  generalize (cluster.updateStatus _ _).1 = result
  rcases result with _ | err
  all_goals exact ⟨_, rfl, List.forall_mem_singleton.mpr (hU _ _)⟩

theorem syncDerived_adds (hUq : ∀ q result, Q (.updateStatus (.quarksSecret q) result))
    (hUd : ∀ d result, Q (.updateStatus (.deployment d) result))
    (request : NamespacedName) (deployment : BOSHDeployment)
    (manifest : Manifest) (linkInfos : LinkInfos) (r : Run σ) :
    Adds Q r (syncDerived P C cluster request deployment manifest linkInfos r).2 := by
  unfold syncDerived
  simp only [ReconcileM.bind_run]
  refine (createManifestWithOps_adds (P := P) hQ deployment manifest r).trans ?_
  rcases (createManifestWithOps P C cluster deployment manifest r).1 with err | ms
  · exact .refl _
  rcases C.convertVariables deployment.name manifest.vars with err | vars
  · exact .refl _
  simp only [ite_createQuarksSecrets, ReconcileM.bind_run]
  refine (createQuarksSecrets_adds hQ hUq ms vars _).trans ?_
  rcases (createQuarksSecrets C cluster ms vars _).1 with _ | err
  · exact syncJobs_adds hQ hUd request deployment manifest linkInfos _
  · exact .refl _

end Writes

variable {P : Packages} {C : Collaborators}

/-- A reconcile over the store lists only in the namespace of its request: every `List` call it
sends, of secrets, services or pods, names that namespace. -/
theorem reconcile_lists_in_namespace (config : Config) (orders : RangeOrders)
    (request : NamespacedName) (r : Run Store) :
    ∃ events, (reconcile P C Store.cluster config orders request r).2.events =
        r.events ++ events ∧
      ∀ call, Event.list call ∈ events → callNamespace call = request.ns := by
  have hcalls : ∀ deployment manifest, Store.get request r.store = .ok deployment →
      ∀ rest : List Event, (∀ e ∈ rest, ∀ call, e ≠ .list call) → ∀ call, Event.list call ∈
        [.get request] ++ (listLinkInfos P deployment orders manifest
          (Store.cluster.listing r.store)).2.map .list ++ rest →
        callNamespace call = request.ns := by
    intro deployment manifest hg rest hrest call hc
    simp only [List.mem_append, List.mem_singleton, List.mem_map] at hc
    rcases hc with (hc | ⟨call', hc', he⟩) | hc
    · cases hc
    · cases he
      rw [listLinkInfos_calls P deployment orders manifest _ call hc',
        ← r.store.deployments_key _ _ (Store.get_eq_ok.mp hg)]
      rfl
    · exact absurd rfl (hrest _ hc call)
  rcases reconcile_cases P config orders request r with
    ⟨_, -, -, he⟩ | ⟨_, -, -, -, he⟩ | ⟨_, _, -, -, -, -, he⟩ |
      ⟨deployment, manifest, _, hg, -, -, -, -, he⟩ | ⟨deployment, manifest, hg, -, -, -, he⟩
  iterate 3 exact ⟨[.get request], by rw [he], by simp⟩
  · exact ⟨_ ++ [], by simp only [he, List.append_nil, List.append_assoc],
      hcalls deployment manifest hg [] (List.forall_mem_nil _)⟩
  · obtain ⟨events, hev, hno⟩ := @syncDerived_adds Store P C Store.cluster
      (fun e => ∀ call, e ≠ .list call)
      (fun _ _ _ _ he call h => list_not_mem_refThenWrite _ _ _ call (h ▸ he))
      (fun _ _ _ => Event.noConfusion) (fun _ _ _ => Event.noConfusion) request deployment
      (listLinkInfos P deployment orders manifest (Store.cluster.listing r.store)).1.manifest
      (listLinkInfos P deployment orders manifest (Store.cluster.listing r.store)).1.linkInfos
      ⟨r.store, r.events ++ [.get request] ++
        (listLinkInfos P deployment orders manifest (Store.cluster.listing r.store)).2.map .list⟩
    exact ⟨_, by rw [he, hev]; simp only [List.append_assoc],
      hcalls deployment manifest hg events hno⟩

end CfOperator.Reads
