import CfOperator.Reconcile

namespace CfOperator

def BOSHDeployment.key (d : BOSHDeployment) : NamespacedName := ⟨d.ns, d.name⟩

def Secret.key (s : Secret) : NamespacedName := ⟨s.ns, s.name⟩

@[simp] theorem BOSHDeployment.key_withLastReconcile (d : BOSHDeployment)
    (lastReconcile : Option Time) : { d with lastReconcile }.key = d.key := rfl

theorem nodup_names_filter_ns {secrets : List Secret} (h : (secrets.map Secret.key).Nodup)
    (ns : String) : ((secrets.filter (·.ns = ns)).map Secret.name).Nodup := by
  have hk := (h.sublist ((List.filter_sublist _).map Secret.key) :
    ((secrets.filter (·.ns = ns)).map Secret.key).Nodup)
  refine List.Nodup.map_on (fun x hx y hy hxy => ?_) (hk.of_map Secret.key)
  have hx' := (of_decide_eq_true (List.mem_filter.mp hx).2 : x.ns = ns)
  have hy' := (of_decide_eq_true (List.mem_filter.mp hy).2 : y.ns = ns)
  refine List.inj_on_of_nodup_map hk hx hy ?_
  simp [Secret.key, hx', hy', hxy]

/-- The API server's objects as a reconcile reaches them: BOSHDeployments by key, the secrets
in the order `List` returns them, QuarksSecrets and QuarksJobs by name (the model gives them
no namespace), the services and pods, which a reconcile only reads, and the clock. -/
@[ext] structure Store where
  deployments : NamespacedName → Option BOSHDeployment
  deployments_key : ∀ key d, deployments key = some d → d.key = key
  secrets : List Secret
  secrets_nodup : (secrets.map Secret.key).Nodup
  quarksSecrets : String → Option QuarksSecret
  quarksJobs : String → Option QuarksJob
  services : String → Except Error (List Service)
  pods : String → StringMap String → Except Error (List Pod)
  clock : Time

namespace Store

def upsert (secrets : List Secret) (s : Secret) : List Secret :=
  if s.key ∈ secrets.map Secret.key then secrets.map fun x => if x.key = s.key then s else x
  else secrets ++ [s]

theorem upsert_keys (secrets : List Secret) (s : Secret) :
    (upsert secrets s).map Secret.key =
      if s.key ∈ secrets.map Secret.key then secrets.map Secret.key
      else secrets.map Secret.key ++ [s.key] := by
  unfold upsert
  split_ifs
  · simp only [List.map_map]
    exact List.map_congr_left fun x _ => by by_cases h : x.key = s.key <;> simp [h]
  · simp

theorem nodup_upsert {secrets : List Secret} (h : (secrets.map Secret.key).Nodup) (s : Secret) :
    ((upsert secrets s).map Secret.key).Nodup := by
  rw [upsert_keys]
  split_ifs with hs
  · exact h
  · exact h.append (List.nodup_singleton _) (by simpa using hs)

def withSecret (st : Store) (s : Secret) : Store :=
  { st with secrets := upsert st.secrets s, secrets_nodup := nodup_upsert st.secrets_nodup s }

def withLastReconcile (st : Store) (key : NamespacedName) (lastReconcile : Option Time) : Store :=
  { st with
    deployments := Function.update st.deployments key
      ((st.deployments key).map ({ · with lastReconcile := lastReconcile }))
    deployments_key := fun k d h => by
      by_cases hk : k = key
      · subst hk
        simp only [Function.update_same, Option.map_eq_some'] at h
        obtain ⟨d', hd', rfl⟩ := h
        exact st.deployments_key k d' hd'
      · rw [Function.update_noteq hk] at h
        exact st.deployments_key k d h }

def notFound (name : String) : Error := .status .notFound ("\"" ++ name ++ "\" not found")

def get (key : NamespacedName) (st : Store) : Except Error BOSHDeployment :=
  match st.deployments key with
  | some d => .ok d
  | none => .error (notFound key.name)

def listing (st : Store) : Listing where
  secrets ns := .ok ⟨st.secrets.filter (·.ns = ns), nodup_names_filter_ns st.secrets_nodup ns⟩
  services := st.services
  pods := st.pods

/-- `controllerutil.CreateOrUpdate` with the operator's mutate functions, which copy a secret's
labels, annotations and data and a Quarks object's spec: create the object when its key is
free; otherwise copy the desired content over the stored object, reporting `none` when that
changes nothing. A created QuarksSecret starts with an empty status. The reconciler never
writes a BOSHDeployment, and the model leaves the store as it is. -/
def createOrUpdate : Object → Store → Except Error OperationResult × Store
  | .secret s, st =>
    match st.secrets.find? (·.key = s.key) with
    | none => (.ok .created, st.withSecret s)
    | some x => if x = s then (.ok .none, st) else (.ok .updated, st.withSecret s)
  | .quarksSecret q, st =>
    match st.quarksSecrets q.name with
    | none => (.ok .created, { st with
        quarksSecrets :=
          Function.update st.quarksSecrets q.name (some { q with generated := false }) })
    | some x => if x.spec = q.spec then (.ok .none, st) else (.ok .updated, { st with
        quarksSecrets := Function.update st.quarksSecrets q.name (some { x with spec := q.spec }) })
  | .quarksJob j, st =>
    match st.quarksJobs j.name with
    | none => (.ok .created, { st with quarksJobs := Function.update st.quarksJobs j.name (some j) })
    | some x => if x.spec = j.spec then (.ok .none, st) else (.ok .updated, { st with
        quarksJobs := Function.update st.quarksJobs j.name (some { x with spec := j.spec }) })
  | .deployment _, st => (.ok .none, st)

/-- `Status().Update`: the status of the stored object under the object's key, with a time in
whole seconds. -/
def updateStatus : Object → Store → Option Error × Store
  | .deployment d, st =>
    match st.deployments d.key with
    | none => (some (notFound d.name), st)
    | some _ => (none, st.withLastReconcile d.key (d.lastReconcile.map wholeSeconds))
  | .quarksSecret q, st =>
    match st.quarksSecrets q.name with
    | none => (some (notFound q.name), st)
    | some x => (none, { st with
        quarksSecrets :=
          Function.update st.quarksSecrets q.name (some { x with generated := q.generated }) })
  | .secret s, st => (some (notFound s.name), st)
  | .quarksJob j, st => (some (notFound j.name), st)

def cluster : Cluster Store := ⟨get, listing, clock, createOrUpdate, updateStatus⟩

theorem get_eq_ok {key : NamespacedName} {st : Store} {d : BOSHDeployment} :
    get key st = .ok d ↔ st.deployments key = some d := by
  unfold get
  split <;> simp_all

@[simp] theorem cluster_get : cluster.get = get := rfl

@[simp] theorem cluster_listing : cluster.listing = listing := rfl

@[simp] theorem cluster_now : cluster.now = clock := rfl

@[simp] theorem cluster_createOrUpdate : cluster.createOrUpdate = createOrUpdate := rfl

@[simp] theorem cluster_updateStatus : cluster.updateStatus = updateStatus := rfl

/-- The API server as the reconciler's cached client reaches it: single objects are read and
written on the store, and each `List` call answers with `cached`, which may list the objects
in another order on every call. -/
def cachedCluster (cached : Store → Listing) : Cluster Store := { cluster with listing := cached }

@[simp] theorem cachedCluster_get (cached : Store → Listing) : (cachedCluster cached).get = get :=
  rfl

@[simp] theorem cachedCluster_listing (cached : Store → Listing) :
    (cachedCluster cached).listing = cached := rfl

@[simp] theorem cachedCluster_now (cached : Store → Listing) :
    (cachedCluster cached).now = clock := rfl

@[simp] theorem cachedCluster_createOrUpdate (cached : Store → Listing) :
    (cachedCluster cached).createOrUpdate = createOrUpdate := rfl

@[simp] theorem cachedCluster_updateStatus (cached : Store → Listing) :
    (cachedCluster cached).updateStatus = updateStatus := rfl

theorem cachedCluster_self : cachedCluster listing = cluster := rfl

theorem createQuarksSecrets_withListing {σ : Type} (C : Collaborators) (K : Cluster σ)
    (l : σ → Listing) (manifestSecret : Secret) :
    createQuarksSecrets C { K with listing := l } manifestSecret =
      createQuarksSecrets C K manifestSecret := by
  funext vars
  induction vars with
  | nil => rfl
  | cons var vars ih => simp only [createQuarksSecrets, ih]; rfl

theorem syncDerived_withListing {σ : Type} (P : Packages) (C : Collaborators) (K : Cluster σ)
    (l : σ → Listing) : syncDerived P C { K with listing := l } = syncDerived P C K := by
  unfold syncDerived
  simp only [createQuarksSecrets_withListing]
  rfl

theorem syncDerived_cachedCluster (P : Packages) (C : Collaborators) (cached : Store → Listing) :
    syncDerived P C (cachedCluster cached) = syncDerived P C cluster :=
  syncDerived_withListing P C cluster cached

theorem updateStatus_deployment_store (d : BOSHDeployment) (st : Store) :
    (updateStatus (.deployment d) st).2 =
      st.withLastReconcile d.key (d.lastReconcile.map wholeSeconds) := by
  simp only [updateStatus]
  split
  · rename_i h
    ext1
    all_goals first | rfl | simp [withLastReconcile, h]
  · rfl

theorem get_withLastReconcile {key : NamespacedName} {st : Store} {d : BOSHDeployment}
    (h : get key st = .ok d) (lastReconcile : Option Time) :
    get key (st.withLastReconcile key lastReconcile) = .ok { d with lastReconcile } := by
  rw [get_eq_ok] at h ⊢
  simp [withLastReconcile, h]

theorem exists_of_get_withLastReconcile {key : NamespacedName} {st : Store}
    {lastReconcile : Option Time} {d' : BOSHDeployment}
    (h : get key (st.withLastReconcile key lastReconcile) = .ok d') :
    ∃ d, get key st = .ok d ∧ d' = { d with lastReconcile } := by
  rw [get_eq_ok] at h
  simp only [withLastReconcile, Function.update_same, Option.map_eq_some'] at h
  obtain ⟨d, hd, rfl⟩ := h
  exact ⟨d, get_eq_ok.mpr hd, rfl⟩

theorem get_withLastReconcile_of_ne {key key' : NamespacedName} (hk : key' ≠ key) (st : Store)
    (lastReconcile : Option Time) :
    get key' (st.withLastReconcile key lastReconcile) = get key' st := by
  simp only [get, withLastReconcile, Function.update_noteq hk]

theorem upsert_of_mem {secrets : List Secret} (h : (secrets.map Secret.key).Nodup) {s : Secret}
    (hs : s ∈ secrets) : upsert secrets s = secrets := by
  rw [upsert, if_pos (List.mem_map_of_mem _ hs)]
  refine (List.map_congr_left fun x hx => ?_).trans (List.map_id _)
  split_ifs with hk
  · exact (List.inj_on_of_nodup_map h hx hs hk).symm
  · rfl

theorem mem_upsert (secrets : List Secret) (s : Secret) : s ∈ upsert secrets s := by
  unfold upsert
  split_ifs with hs
  · obtain ⟨x, hx, hk⟩ := List.mem_map.mp hs
    exact List.mem_map.mpr ⟨x, hx, if_pos hk⟩
  · simp

theorem mem_upsert_of_key_ne {secrets : List Secret} {s x : Secret} (h : x.key ≠ s.key) :
    x ∈ upsert secrets s ↔ x ∈ secrets := by
  unfold upsert
  split_ifs
  · refine ⟨fun hx => ?_, fun hx => List.mem_map.mpr ⟨x, hx, if_neg h⟩⟩
    obtain ⟨y, hy, hyx⟩ := List.mem_map.mp hx
    by_cases hk : y.key = s.key
    · rw [if_pos hk] at hyx
      exact absurd (congrArg Secret.key hyx).symm h
    · rw [if_neg hk] at hyx
      exact hyx ▸ hy
  · rw [List.mem_append, List.mem_singleton, or_iff_left fun hxs : x = s => h (hxs ▸ rfl)]

theorem filter_upsert {p : Secret → Bool} {s : Secret} (hs : p s = false) {secrets : List Secret}
    (hx : ∀ x ∈ secrets, x.key = s.key → p x = false) :
    (upsert secrets s).filter p = secrets.filter p := by
  unfold upsert
  split_ifs
  · clear ‹_ ∈ _›
    induction secrets with
    | nil => rfl
    | cons x xs ih =>
      have ih := ih fun y hy => hx y (List.mem_cons_of_mem x hy)
      by_cases hk : x.key = s.key
      · simp [List.filter_cons, hk, hs, hx x (List.mem_cons_self x xs) hk, ih]
      · simp [List.filter_cons, hk, ih]
  · simp [List.filter_append, hs]

theorem createOrUpdate_ok (object : Object) (st : Store) :
    ∃ op, (createOrUpdate object st).1 = .ok op := by
  unfold createOrUpdate
  repeat' split
  all_goals exact ⟨_, rfl⟩

theorem createOrUpdate_secret (s : Secret) (st : Store) :
    (createOrUpdate (.secret s) st).2 = st.withSecret s := by
  simp only [createOrUpdate]
  split
  · rfl
  · rename_i x hx
    split_ifs with hxs
    · subst hxs
      ext1
      all_goals first | rfl | exact (upsert_of_mem st.secrets_nodup (List.mem_of_find?_eq_some hx)).symm
    · rfl

theorem createOrUpdate_quarksSecret (q : QuarksSecret) (st : Store) :
    ∃ x, x.spec = q.spec ∧ (createOrUpdate (.quarksSecret q) st).2 =
      { st with quarksSecrets := Function.update st.quarksSecrets q.name (some x) } := by
  simp only [createOrUpdate]
  split
  · exact ⟨{ q with generated := false }, rfl, rfl⟩
  · rename_i x hx
    split_ifs with hxs
    · exact ⟨x, hxs, by rw [← hx, Function.update_eq_self]⟩
    · exact ⟨{ x with spec := q.spec }, rfl, rfl⟩

theorem createOrUpdate_quarksJob (j : QuarksJob) (st : Store) :
    ∃ x, x.spec = j.spec ∧ (createOrUpdate (.quarksJob j) st).2 =
      { st with quarksJobs := Function.update st.quarksJobs j.name (some x) } := by
  simp only [createOrUpdate]
  split
  · exact ⟨j, rfl, rfl⟩
  · rename_i x hx
    split_ifs with hxs
    · exact ⟨x, hxs, by rw [← hx, Function.update_eq_self]⟩
    · exact ⟨{ x with spec := j.spec }, rfl, rfl⟩

theorem createOrUpdate_of_mem {s : Secret} {st : Store} (hs : s ∈ st.secrets) :
    createOrUpdate (.secret s) st = (.ok .none, st) := by
  obtain ⟨x, hx⟩ := Option.isSome_iff_exists.mp
    (List.find?_isSome.mpr ⟨s, hs, by simp⟩ : (st.secrets.find? (·.key = s.key)).isSome)
  have hxs := List.inj_on_of_nodup_map st.secrets_nodup (List.mem_of_find?_eq_some hx) hs
    (by simpa using List.find?_some hx)
  simp [createOrUpdate, hx, hxs]

theorem createOrUpdate_of_spec_quarksSecret {q : QuarksSecret} {st : Store} {x : QuarksSecret}
    (hx : st.quarksSecrets q.name = some x) (hs : x.spec = q.spec) :
    createOrUpdate (.quarksSecret q) st = (.ok .none, st) := by
  simp [createOrUpdate, hx, hs]

theorem createOrUpdate_of_spec_quarksJob {j : QuarksJob} {st : Store} {x : QuarksJob}
    (hx : st.quarksJobs j.name = some x) (hs : x.spec = j.spec) :
    createOrUpdate (.quarksJob j) st = (.ok .none, st) := by
  simp [createOrUpdate, hx, hs]

theorem updateStatus_quarksSecret {q : QuarksSecret} {st : Store} {x : QuarksSecret}
    (hx : st.quarksSecrets q.name = some x) :
    updateStatus (.quarksSecret q) st = (none, { st with
      quarksSecrets :=
        Function.update st.quarksSecrets q.name (some { x with generated := q.generated }) }) := by
  simp [updateStatus, hx]

/-- The QuarksSecrets after one turn of `createQuarksSecrets` on `q`: `CreateOrUpdate` stores `q`
with an empty status, or copies its spec over the stored one; an update is then followed by the
reset of the stored status to not generated. -/
def turnQuarksSecrets (qs : String → Option QuarksSecret) (q : QuarksSecret) :
    String → Option QuarksSecret :=
  match qs q.name with
  | none => Function.update qs q.name (some { q with generated := false })
  | some x =>
    if x.spec = q.spec then qs
    else Function.update qs q.name (some { x with spec := q.spec, generated := false })

theorem createOrUpdate_quarksSecret_turn {q : QuarksSecret} {st s : Store} {op : OperationResult}
    (hc : createOrUpdate (.quarksSecret q) st = (.ok op, s)) :
    (op = .updated → updateStatus (.quarksSecret { q with generated := false }) s =
      (none, { st with quarksSecrets := turnQuarksSecrets st.quarksSecrets q })) ∧
    (op ≠ .updated → s = { st with quarksSecrets := turnQuarksSecrets st.quarksSecrets q }) := by
  unfold createOrUpdate at hc
  unfold turnQuarksSecrets
  rcases hx : st.quarksSecrets q.name with _ | x
  · simp only [hx, Prod.mk.injEq, Except.ok.injEq] at hc
    obtain ⟨rfl, rfl⟩ := hc
    exact ⟨nofun, fun _ => rfl⟩
  by_cases hs : x.spec = q.spec
  · simp only [hx, hs, if_true, Prod.mk.injEq, Except.ok.injEq] at hc
    obtain ⟨rfl, rfl⟩ := hc
    exact ⟨nofun, fun _ => by simp only [hs, if_true]⟩
  · simp only [hx, hs, if_false, Prod.mk.injEq, Except.ok.injEq] at hc
    obtain ⟨rfl, rfl⟩ := hc
    refine ⟨fun _ => ?_, fun h => absurd rfl h⟩
    rw [updateStatus_quarksSecret (Function.update_same _ _ _)]
    simp only [hs, if_false, Function.update_idem]

theorem quarksSecrets_createOrUpdate_of_ne {q : QuarksSecret} {name : String} (h : name ≠ q.name)
    (st : Store) :
    (createOrUpdate (.quarksSecret q) st).2.quarksSecrets name = st.quarksSecrets name := by
  obtain ⟨x, -, he⟩ := createOrUpdate_quarksSecret q st
  rw [he]
  exact Function.update_noteq h _ _

theorem createOrUpdate_quarksSecret_updated {q : QuarksSecret} {st s : Store}
    (h : createOrUpdate (.quarksSecret q) st = (.ok .updated, s)) :
    ∃ x, st.quarksSecrets q.name = some x ∧ x.spec ≠ q.spec ∧
      s.quarksSecrets q.name = some { x with spec := q.spec } := by
  unfold createOrUpdate at h
  rcases hx : st.quarksSecrets q.name with _ | x <;> simp only [hx] at h
  · cases h
  · split_ifs at h with hs
    · cases h
    · obtain ⟨-, rfl⟩ := Prod.mk.inj h
      exact ⟨x, rfl, hs, Function.update_same _ _ _⟩

theorem updateStatus_of_isSome {object : Object} {st : Store}
    (h : (updateStatus object st).1.isSome) : (updateStatus object st).2 = st := by
  cases object with
  | deployment d | quarksSecret q =>
    revert h
    simp only [updateStatus]
    split <;> simp
  | secret | quarksJob => rfl

end Store

end CfOperator
