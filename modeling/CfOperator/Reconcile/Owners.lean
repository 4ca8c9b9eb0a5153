import CfOperator.Reconcile.Steps

namespace CfOperator.Owners

open Steps

/-- The owner `Reconcile` gives a derived object: the BOSHDeployment for the with-ops manifest
secret and the QuarksJobs, and the with-ops manifest secret for a QuarksSecret. -/
def designatedOwner (deployment : BOSHDeployment) (manifestSecret : Secret) : Object → Object
  | .quarksSecret _ => .secret manifestSecret
  | _ => .deployment deployment

/-- What the ownership rule asks of two consecutive calls: nothing follows a reference that
could not be set, and a write comes right after its object's reference to `owner` was set. -/
def RefBefore (owner : Object → Object) (a b : Event) : Prop :=
  (∀ o object err, a ≠ .setReference o object (some err)) ∧
    ∀ object result, b = .createOrUpdate object result →
      a = .setReference (owner object) object none

/-- The ownership rule over a stretch of calls: each reference is set to the designated owner
and records what `setReference` answered, no write opens the stretch, and consecutive calls
keep `RefBefore`. -/
structure RefsFirst (C : Collaborators) (owner : Object → Object) (events : List Event) :
    Prop where
  setReference_mem : ∀ o object result, Event.setReference o object result ∈ events →
    o = owner object ∧ result = C.setReference o object
  head : ∀ object result, events.head? ≠ some (.createOrUpdate object result)
  chain : events.Chain' (RefBefore owner)

variable {σ : Type} {P : Packages} {C : Collaborators} {cluster : Cluster σ}
  {owner : Object → Object}

namespace RefsFirst

theorem nil : RefsFirst C owner [] := ⟨by simp, by simp, List.chain'_nil⟩

theorem append {xs ys : List Event} (hx : RefsFirst C owner xs) (hy : RefsFirst C owner ys)
    (hok : ∀ o object err, Event.setReference o object (some err) ∉ xs) :
    RefsFirst C owner (xs ++ ys) where
  setReference_mem o object result h :=
    (List.mem_append.mp h).elim (hx.setReference_mem o object result)
      (hy.setReference_mem o object result)
  head object result := by
    cases xs with
    | nil => exact hy.head object result
    | cons x xs => exact hx.head object result
  chain := hx.chain.append hy.chain fun _ hl _ hh =>
    ⟨fun o object err h => hok o object err (h ▸ List.mem_of_getLast?_eq_some hl),
      fun object result h => (hy.head object result (h ▸ hh)).elim⟩

theorem of_plain {events : List Event} (h : ∀ e ∈ events, e.isPlain) :
    RefsFirst C owner events where
  setReference_mem o object result hm := (Bool.false_ne_true (h _ hm)).elim
  head object result he := Bool.false_ne_true (h _ (List.mem_of_mem_head? he))
  chain := List.Pairwise.chain' <| List.pairwise_of_forall_mem_list fun a ha b hb =>
    ⟨fun o object err he => by subst he; exact Bool.false_ne_true (h _ ha),
      fun object result he => by subst he; exact (Bool.false_ne_true (h _ hb)).elim⟩

theorem getElem?_createOrUpdate {events : List Event} (h : RefsFirst C owner events) {i : Nat}
    {object : Object} {result : Except Error OperationResult}
    (hi : events[i]? = some (.createOrUpdate object result)) :
    0 < i ∧ events[i - 1]? = some (.setReference (owner object) object none) := by
  cases i with
  | zero => exact absurd (events.head?_eq_getElem? ▸ hi) (h.head object result)
  | succ j =>
    obtain ⟨hj, he⟩ := List.getElem?_eq_some_iff.mp hi
    have hr := List.chain'_iff_get.mp h.chain j (by omega)
    simp only [List.get_eq_getElem, he] at hr
    exact ⟨j.succ_pos, by
      rw [Nat.add_sub_cancel, List.getElem?_eq_getElem (by omega), hr.2 object result rfl]⟩

theorem createOrUpdate_not_mem {events : List Event} (h : RefsFirst C owner events)
    {o object : Object} {err : Error} (hf : Event.setReference o object (some err) ∈ events)
    (result : Except Error OperationResult) : Event.createOrUpdate object result ∉ events := by
  intro hw
  obtain ⟨i, hi⟩ := List.mem_iff_getElem?.mp hw
  have hr := (h.getElem?_createOrUpdate hi).2
  have hnone := (h.setReference_mem _ _ _ (List.mem_iff_getElem?.mpr ⟨_, hr⟩)).2
  obtain ⟨rfl, hsome⟩ := h.setReference_mem _ _ _ hf
  exact Option.noConfusion (hnone.trans hsome.symm)

end RefsFirst

theorem refsFirst_refThenWrite {o object : Object} (s : σ) (ho : o = owner object) :
    RefsFirst C owner (refThenWrite C cluster o object s) := by
  subst ho
  refine ⟨by rintro _ _ _ h; simp at h; simp [h], ?_, ?_⟩ <;> unfold refThenWrite <;>
    rcases hr : C.setReference (owner object) object with _ | err
  all_goals simp [RefBefore, hr]

theorem setReference_not_mem_refThenWrite (cluster : Cluster σ) {o object : Object} (s : σ)
    (h : C.setReference o object = none) (o' object' : Object) (err : Error) :
    Event.setReference o' object' (some err) ∉ refThenWrite C cluster o object s := by
  simp [h]

theorem createQuarksSecrets_refsFirst (deployment : BOSHDeployment) (manifestSecret : Secret) :
    ∀ (vars : List QuarksSecret) (r : Run σ), ∃ events,
      (createQuarksSecrets C cluster manifestSecret vars r).2.events = r.events ++ events ∧
      RefsFirst C (designatedOwner deployment manifestSecret) events ∧
      ∀ o object err, Event.setReference o object (some err) ∈ events →
        (createQuarksSecrets C cluster manifestSecret vars r).1.isSome
  | [], r => ⟨[], by simp [createQuarksSecrets], .nil, by simp⟩
  | var :: vars, r => by
    have hrw : RefsFirst C (designatedOwner deployment manifestSecret)
        (refThenWrite C cluster (.secret manifestSecret) (.quarksSecret var) r.store) :=
      refsFirst_refThenWrite r.store rfl
    rcases createQuarksSecrets_cons manifestSecret var vars r with
      ⟨-, hsome, he⟩ | ⟨op, s, hr, -, h⟩
    · exact ⟨_, by rw [he], hrw, fun _ _ _ _ => hsome⟩
    have hok := setReference_not_mem_refThenWrite cluster r.store hr
    have hrwu : ∀ reset result, RefsFirst C (designatedOwner deployment manifestSecret)
        (refThenWrite C cluster (.secret manifestSecret) (.quarksSecret var) r.store ++
          [.updateStatus reset result]) :=
      fun _ _ => hrw.append (.of_plain (by simp [Event.isPlain])) hok
    split_ifs at h
    · rcases h with ⟨-, hsome, he⟩ | ⟨-, he⟩
      · exact ⟨_, by rw [he, List.append_assoc], hrwu _ _, fun _ _ _ _ => hsome⟩
      · obtain ⟨events, he', hrf, hf⟩ := createQuarksSecrets_refsFirst deployment manifestSecret
          vars _
        rw [he]
        refine ⟨_, by rw [he', List.append_assoc, List.append_assoc],
          List.append_assoc _ _ events ▸ (hrwu _ _).append hrf (by simp [hr]),
          fun o object err hm => hf o object err (by simpa [hr] using hm)⟩
    · obtain ⟨events, he', hrf, hf⟩ := createQuarksSecrets_refsFirst deployment manifestSecret
        vars _
      rw [h]
      exact ⟨_, by rw [he', List.append_assoc], hrw.append hrf hok,
        fun o object err hm => hf o object err (by simpa [hr] using hm)⟩

theorem syncJobs_refsFirst (manifestSecret : Secret) (request : NamespacedName)
    (deployment : BOSHDeployment) (manifest : Manifest) (linkInfos : LinkInfos) (r : Run σ) :
    ∃ events, (syncJobs C cluster request deployment manifest linkInfos r).2.events =
        r.events ++ events ∧
      RefsFirst C (designatedOwner deployment manifestSecret) events ∧
      ∀ o object err, Event.setReference o object (some err) ∈ events →
        (syncJobs C cluster request deployment manifest linkInfos r).1.2.isSome := by
  unfold syncJobs
  rcases hv : C.variableInterpolationJob deployment.name manifest with err | job₁
  · exact ⟨[], by simp, .nil, by simp⟩
  simp only [ReconcileM.bind_run]
  obtain ⟨he₁, hw₁⟩ := @createQuarksJob_run _ C cluster deployment job₁ r
  have hrf₁ : RefsFirst C (designatedOwner deployment manifestSecret)
      (refThenWrite C cluster (.deployment deployment) (.quarksJob job₁) r.store) :=
    refsFirst_refThenWrite r.store rfl
  rcases hj₁ : (createQuarksJob C cluster deployment job₁ r).1 with _ | err
  swap
  · exact ⟨_, by simp [he₁], hrf₁, by simp⟩
  have hok₁ := setReference_not_mem_refThenWrite cluster r.store (hw₁.mp hj₁).1
  rw [he₁]
  rcases hg : C.instanceGroupManifestJob deployment.name manifest linkInfos
    (deployment.generation == 1) with err | job₂
  · exact ⟨_, rfl, hrf₁, by simp⟩
  simp only [ReconcileM.bind_run]
  obtain ⟨he₂, hw₂⟩ := @createQuarksJob_run _ C cluster deployment job₂
    ⟨storeAfter C cluster (.deployment deployment) (.quarksJob job₁) r.store,
      r.events ++ refThenWrite C cluster (.deployment deployment) (.quarksJob job₁) r.store⟩
  have hrf₂ : RefsFirst C (designatedOwner deployment manifestSecret)
      (refThenWrite C cluster (.deployment deployment) (.quarksJob job₂)
        (storeAfter C cluster (.deployment deployment) (.quarksJob job₁) r.store)) :=
    refsFirst_refThenWrite _ rfl
  rcases hj₂ : (createQuarksJob C cluster deployment job₂ _).1 with _ | err
  swap
  · rw [he₂]
    exact ⟨_, List.append_assoc _ _ _, hrf₁.append hrf₂ hok₁, by simp⟩
  have hok₂ := setReference_not_mem_refThenWrite cluster
    (storeAfter C cluster (.deployment deployment) (.quarksJob job₁) r.store) (hw₂.mp hj₂).1
  rw [he₂]
  simp only [ReconcileM.bind_run, timeNow_run, updateStatus_run]
  generalize cluster.updateStatus _ _ = u
  rcases u with ⟨_ | err, s⟩
  all_goals
    simp only [ReconcileM.pure_run]
    exact ⟨_, (List.append_assoc _ _ _).trans (List.append_assoc _ _ _),
      hrf₁.append (hrf₂.append (.of_plain (by simp [Event.isPlain])) hok₂) hok₁,
      by simp [(hw₁.mp hj₁).1, (hw₂.mp hj₂).1]⟩

theorem syncDerived_refsFirst (request : NamespacedName) (deployment : BOSHDeployment)
    (manifest : Manifest) (linkInfos : LinkInfos) (r : Run σ) :
    ∃ manifestBytes events,
      (syncDerived P C cluster request deployment manifest linkInfos r).2.events =
        r.events ++ events ∧
      RefsFirst C (designatedOwner deployment (manifestWithOpsSecret P deployment manifestBytes))
        events ∧
      (∀ o object err, Event.setReference o object (some err) ∈ events →
        (syncDerived P C cluster request deployment manifest linkInfos r).1.2.isSome) ∧
      ∀ q result, Event.createOrUpdate (.quarksSecret q) result ∈ events →
        ∃ op, Event.createOrUpdate (.secret (manifestWithOpsSecret P deployment manifestBytes))
          (.ok op) ∈ events := by
  unfold syncDerived
  simp only [ReconcileM.bind_run]
  obtain ⟨he, hok⟩ := @createManifestWithOps_run _ P C cluster deployment manifest r
  rcases hb : P.marshal manifest with err | manifestBytes
  · rcases hm : (createManifestWithOps P C cluster deployment manifest r).1 with err' | ms
    · exact ⟨"", [], by simp [he, hb], .nil, by simp, by simp⟩
    · obtain ⟨_, h, -⟩ := (hok ms).mp hm
      simp [hb] at h
  simp only [hb] at he
  refine ⟨manifestBytes, ?_⟩
  have hrf₀ : RefsFirst C (designatedOwner deployment (manifestWithOpsSecret P deployment
      manifestBytes)) (refThenWrite C cluster (.deployment deployment)
        (.secret (manifestWithOpsSecret P deployment manifestBytes)) r.store) :=
    refsFirst_refThenWrite r.store rfl
  rcases hm : (createManifestWithOps P C cluster deployment manifest r).1 with err' | ms
  · exact ⟨_, by simp [he], hrf₀, by simp, by simp⟩
  obtain ⟨_, hb', rfl, hw⟩ := (hok ms).mp hm
  obtain rfl := Except.ok.inj (hb.symm.trans hb')
  have hok₀ := setReference_not_mem_refThenWrite cluster r.store hw.1
  obtain ⟨op, hop⟩ := hw.createOrUpdate_ok
  have hsecret : Event.createOrUpdate (.secret (manifestWithOpsSecret P deployment manifestBytes))
      (.ok op) ∈ refThenWrite C cluster (.deployment deployment)
        (.secret (manifestWithOpsSecret P deployment manifestBytes)) r.store := by
    simp [hw.1, hop]
  rcases hv : C.convertVariables deployment.name manifest.vars with err | vars
  · exact ⟨_, by simp [he], hrf₀, by simp, fun _ _ _ => ⟨op, hsecret⟩⟩
  obtain ⟨r₁, hr₁, hev₁⟩ :
      ∃ r₁, (createManifestWithOps P C cluster deployment manifest r).2 = r₁ ∧
        r₁.events = r.events ++ refThenWrite C cluster (.deployment deployment)
          (.secret (manifestWithOpsSecret P deployment manifestBytes)) r.store := ⟨_, he, rfl⟩
  simp only [hr₁, ite_createQuarksSecrets, ReconcileM.bind_run]
  obtain ⟨events, he', hrf, hf⟩ := @createQuarksSecrets_refsFirst _ C cluster deployment
    (manifestWithOpsSecret P deployment manifestBytes) vars r₁
  rw [hev₁] at he'
  rcases hq : (createQuarksSecrets C cluster (manifestWithOpsSecret P deployment manifestBytes)
    vars r₁).1 with _ | err
  swap
  · simp only [ReconcileM.pure_run, he']
    exact ⟨_, List.append_assoc _ _ _, hrf₀.append hrf hok₀, by simp,
      fun _ _ _ => ⟨op, List.mem_append_left _ hsecret⟩⟩
  have hok₁ : ∀ o object err, Event.setReference o object (some err) ∉ events :=
    fun o object err hm => by simpa [hq] using hf o object err hm
  obtain ⟨events', he'', hrf', hf'⟩ := @syncJobs_refsFirst _ C cluster
    (manifestWithOpsSecret P deployment manifestBytes) request deployment manifest linkInfos
    (createQuarksSecrets C cluster (manifestWithOpsSecret P deployment manifestBytes) vars r₁).2
  simp only [he'', he']
  refine ⟨_, (List.append_assoc _ _ _).trans (List.append_assoc _ _ _),
    hrf₀.append (hrf.append hrf' hok₁) hok₀, fun o object err hm => ?_,
    fun _ _ _ => ⟨op, List.mem_append_left _ hsecret⟩⟩
  simp only [List.mem_append] at hm
  rcases hm with hm | hm | hm
  · exact absurd hm (hok₀ o object err)
  · exact absurd hm (hok₁ o object err)
  · exact hf' o object err hm

theorem reconcile_refsFirst (config : Config) (orders : RangeOrders) (request : NamespacedName)
    (r : Run σ) :
    ∃ events, (reconcile P C cluster config orders request r).2.events = r.events ++ events ∧
      (∀ o object err, Event.setReference o object (some err) ∈ events →
        (reconcile P C cluster config orders request r).1.2.isSome) ∧
      ((∀ e ∈ events, e.isPlain) ∨
        ∃ deployment manifestBytes, cluster.get request r.store = .ok deployment ∧
          RefsFirst C (designatedOwner deployment (manifestWithOpsSecret P deployment manifestBytes))
            events ∧
          ∀ q result, Event.createOrUpdate (.quarksSecret q) result ∈ events →
            ∃ op, Event.createOrUpdate (.secret (manifestWithOpsSecret P deployment manifestBytes))
              (.ok op) ∈ events) := by
  rcases reconcile_cases P config orders request r with
    ⟨_, -, -, he⟩ | ⟨_, -, -, -, he⟩ | ⟨_, _, -, -, -, -, he⟩ |
      ⟨deployment, manifest, _, -, -, -, -, -, he⟩ | ⟨deployment, manifest, hg, -, -, -, he⟩
  iterate 3
    rw [he]
    exact ⟨[.get request], rfl, by simp, .inl (by simp [Event.isPlain])⟩
  · rw [he]
    exact ⟨_, List.append_assoc _ _ _, by simp, .inl (by simp [Event.isPlain])⟩
  have hplain : ∀ e ∈ Event.get request ::
      (listLinkInfos P deployment orders manifest (cluster.listing r.store)).2.map .list,
      e.isPlain := by
    simp [Event.isPlain]
  obtain ⟨manifestBytes, events, he', hrf, hf, hq⟩ := @syncDerived_refsFirst _ P C cluster request
    deployment (listLinkInfos P deployment orders manifest (cluster.listing r.store)).1.manifest
    (listLinkInfos P deployment orders manifest (cluster.listing r.store)).1.linkInfos
    ⟨r.store, r.events ++ [.get request] ++
      (listLinkInfos P deployment orders manifest (cluster.listing r.store)).2.map .list⟩
  rw [he, he']
  refine ⟨_, (List.append_assoc _ _ _).trans (List.append_assoc _ _ _), fun o object err hm => ?_,
    .inr ⟨deployment, manifestBytes, hg, (RefsFirst.of_plain hplain).append hrf
      fun o object err h => Bool.false_ne_true (hplain _ h), fun q result hm => ?_⟩⟩
  · simp only [List.singleton_append, List.mem_cons, List.mem_append, List.mem_map] at hm
    rcases hm with hm | ⟨_, -, hm⟩ | hm
    · cases hm
    · cases hm
    · exact hf o object err hm
  · simp only [List.singleton_append, List.mem_cons, List.mem_append, List.mem_map] at hm ⊢
    rcases hm with hm | ⟨_, -, hm⟩ | hm
    · cases hm
    · cases hm
    · exact (hq q result hm).imp fun _ h => .inr (.inr h)

/-- In a reconcile every write comes right after the successful setting of its object's
designated owner: the fetched deployment, or for a QuarksSecret the with-ops manifest secret
the run wrote. An object whose reference could not be set is never written, and the run fails. -/
theorem reconcile_refs_before_writes (config : Config) (orders : RangeOrders)
    (request : NamespacedName) (r : Run σ) :
    ∃ events, (reconcile P C cluster config orders request r).2.events = r.events ++ events ∧
      (∀ i object result, events[i]? = some (.createOrUpdate object result) →
        ∃ deployment manifestSecret, cluster.get request r.store = .ok deployment ∧
          (∃ manifestBytes, manifestSecret = manifestWithOpsSecret P deployment manifestBytes) ∧
          0 < i ∧ events[i - 1]? =
            some (.setReference (designatedOwner deployment manifestSecret object) object none) ∧
          ∀ q, object = .quarksSecret q →
            ∃ op, Event.createOrUpdate (.secret manifestSecret) (.ok op) ∈ events) ∧
      ∀ owner object err, Event.setReference owner object (some err) ∈ events →
        (∀ result, Event.createOrUpdate object result ∉ events) ∧
        (reconcile P C cluster config orders request r).1.2.isSome := by
  obtain ⟨events, he, hf, hplain | ⟨deployment, manifestBytes, hg, hrf, hq⟩⟩ :=
    @reconcile_refsFirst _ P C cluster config orders request r
  · refine ⟨events, he, fun i object result hi => ?_, fun o object err hm => ?_⟩
    · exact (Bool.false_ne_true (hplain _ (List.mem_iff_getElem?.mpr ⟨i, hi⟩))).elim
    · exact (Bool.false_ne_true (hplain _ hm)).elim
  refine ⟨events, he, fun i object result hi => ?_, fun o object err hm =>
    ⟨hrf.createOrUpdate_not_mem hm, hf o object err hm⟩⟩
  obtain ⟨hpos, hprev⟩ := hrf.getElem?_createOrUpdate hi
  refine ⟨deployment, _, hg, ⟨manifestBytes, rfl⟩, hpos, hprev, ?_⟩
  rintro q rfl
  exact hq q result (List.mem_iff_getElem?.mpr ⟨i, hi⟩)

end CfOperator.Owners
