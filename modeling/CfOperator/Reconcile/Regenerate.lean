import CfOperator.Reconcile.Effects
import CfOperator.Reconcile.Idempotence

namespace CfOperator.Regenerate

open Steps Effects Results Idempotence

/-- Every QuarksSecret `qs'` marks generated is one `qs` holds with the same spec, marked
generated: `qs'` leaves to the QuarksSecret controller every spec `qs` had not generated. -/
def Regenerates (qs qs' : String → Option QuarksSecret) : Prop :=
  ∀ name x', qs' name = some x' → x'.generated = true →
    ∃ x, qs name = some x ∧ x.spec = x'.spec ∧ x.generated = true

/-- Every QuarksSecret held in both with the same spec keeps its `generated` status. -/
def KeepsGenerated (qs qs' : String → Option QuarksSecret) : Prop :=
  ∀ name x x', qs name = some x → qs' name = some x' → x'.spec = x.spec →
    x'.generated = x.generated

theorem Regenerates.refl (qs : String → Option QuarksSecret) : Regenerates qs qs :=
  fun _ x' h hg => ⟨x', h, rfl, hg⟩

theorem Regenerates.trans {qs₁ qs₂ qs₃ : String → Option QuarksSecret}
    (h₁ : Regenerates qs₁ qs₂) (h₂ : Regenerates qs₂ qs₃) : Regenerates qs₁ qs₃ := by
  intro name x₃ h hg
  obtain ⟨x₂, h₂', hs₂, hg₂⟩ := h₂ name x₃ h hg
  obtain ⟨x₁, h₁', hs₁, hg₁⟩ := h₁ name x₂ h₂' hg₂
  exact ⟨x₁, h₁', hs₁.trans hs₂, hg₁⟩

section Turns

variable (qs : String → Option QuarksSecret) (q : QuarksSecret)

theorem turnQuarksSecrets_of_ne {name : String} (h : name ≠ q.name) :
    Store.turnQuarksSecrets qs q name = qs name := by
  unfold Store.turnQuarksSecrets
  rcases qs q.name with _ | x
  · exact Function.update_noteq h _ _
  · dsimp only
    split_ifs
    · rfl
    · exact Function.update_noteq h _ _

theorem turnQuarksSecrets_self :
    ∃ y, Store.turnQuarksSecrets qs q q.name = some y ∧ y.spec = q.spec ∧
      (qs q.name = some y ∨ y.generated = false ∧ ∀ x, qs q.name = some x → x.spec ≠ q.spec) := by
  unfold Store.turnQuarksSecrets
  rcases hx : qs q.name with _ | x
  · exact ⟨{ q with generated := false }, Function.update_same _ _ _, rfl, .inr ⟨rfl, nofun⟩⟩
  by_cases hs : x.spec = q.spec
  · exact ⟨x, by simp only [hs, if_true, hx], hs, .inl rfl⟩
  · refine ⟨{ x with spec := q.spec, generated := false },
      by simp only [hs, if_false, Function.update_same], rfl, .inr ⟨rfl, ?_⟩⟩
    rintro _ ⟨⟩
    exact hs

theorem regenerates_turn : Regenerates qs (Store.turnQuarksSecrets qs q) := by
  intro name x' h hg
  by_cases hn : name = q.name
  · subst hn
    obtain ⟨y, hy, hs, hq | ⟨hfalse, -⟩⟩ := turnQuarksSecrets_self qs q
    · obtain rfl := Option.some.inj (hy.symm.trans h)
      exact ⟨y, hq, rfl, hg⟩
    · obtain rfl := Option.some.inj (hy.symm.trans h)
      exact absurd hg (by rw [hfalse]; decide)
  · rw [turnQuarksSecrets_of_ne qs q hn] at h
    exact ⟨x', h, rfl, hg⟩

end Turns

theorem foldl_turnQuarksSecrets_of_not_mem {name : String} :
    ∀ (pre : List QuarksSecret) (qs : String → Option QuarksSecret),
      name ∉ pre.map QuarksSecret.name → pre.foldl Store.turnQuarksSecrets qs name = qs name
  | [], _, _ => rfl
  | q :: pre, qs, h => by
    simp only [List.map_cons, List.mem_cons, not_or] at h
    rw [List.foldl_cons, foldl_turnQuarksSecrets_of_not_mem pre _ h.2,
      turnQuarksSecrets_of_ne qs q h.1]

theorem regenerates_foldl :
    ∀ (pre : List QuarksSecret) (qs : String → Option QuarksSecret),
      Regenerates qs (pre.foldl Store.turnQuarksSecrets qs)
  | [], qs => .refl qs
  | q :: pre, qs => (regenerates_turn qs q).trans (regenerates_foldl pre _)

theorem keepsGenerated_foldl :
    ∀ (pre : List QuarksSecret) (qs : String → Option QuarksSecret),
      (pre.map QuarksSecret.name).Nodup → KeepsGenerated qs (pre.foldl Store.turnQuarksSecrets qs)
  | [], _, _ => fun _ x x' h h' _ => by rw [(Option.some.inj (h.symm.trans h'))]
  | q :: pre, qs, hnd => by
    obtain ⟨hq, hnd⟩ := List.nodup_cons.mp hnd
    intro name x x' h h' hs
    rw [List.foldl_cons] at h'
    by_cases hn : name = q.name
    · subst hn
      rw [foldl_turnQuarksSecrets_of_not_mem pre _ hq] at h'
      obtain ⟨y, hy, hys, hkept | ⟨-, hnew⟩⟩ := turnQuarksSecrets_self qs q
      · obtain rfl := Option.some.inj (hy.symm.trans h')
        rw [Option.some.inj (h.symm.trans hkept)]
      · obtain rfl := Option.some.inj (hy.symm.trans h')
        exact absurd (hs.symm.trans hys) (hnew x h)
    · exact keepsGenerated_foldl pre _ hnd name x x'
        (by rw [turnQuarksSecrets_of_ne qs q hn]; exact h) h' hs

variable {P : Packages} {C : Collaborators}

theorem storeAfter_of_not_written {owner object : Object} {st : Store}
    (h : ¬ Written C Store.cluster owner object st) :
    storeAfter C Store.cluster owner object st = st := by
  unfold storeAfter
  split
  · rfl
  · rename_i hr
    obtain ⟨op, hop⟩ := Store.createOrUpdate_ok object st
    exact absurd ⟨hr, by simp [hop, Except.toBool]⟩ h

theorem createQuarksSecrets_quarksSecrets (manifestSecret : Secret) :
    ∀ (vars : List QuarksSecret) (r : Run Store), ∃ pre, pre <+: vars ∧
      (createQuarksSecrets C Store.cluster manifestSecret vars r).2.store =
        { r.store with quarksSecrets := pre.foldl Store.turnQuarksSecrets r.store.quarksSecrets } ∧
      ((createQuarksSecrets C Store.cluster manifestSecret vars r).1 = none → pre = vars)
  | [], _ => ⟨[], List.nil_prefix, rfl, fun _ => rfl⟩
  | var :: vars, r => by
    rcases @createQuarksSecrets_cons _ C Store.cluster manifestSecret var vars r with
      ⟨hw, hsome, he⟩ | ⟨op, s, -, hc, h⟩
    · refine ⟨[], List.nil_prefix, by rw [he, storeAfter_of_not_written hw]; rfl, fun hn => ?_⟩
      rw [hn] at hsome
      cases hsome
    obtain ⟨hup, hnot⟩ := Store.createOrUpdate_quarksSecret_turn hc
    have hnext : ∀ r' : Run Store,
        r'.store = { r.store with
          quarksSecrets := Store.turnQuarksSecrets r.store.quarksSecrets var } →
        createQuarksSecrets C Store.cluster manifestSecret (var :: vars) r =
          createQuarksSecrets C Store.cluster manifestSecret vars r' →
        ∃ pre, pre <+: var :: vars ∧
          (createQuarksSecrets C Store.cluster manifestSecret (var :: vars) r).2.store =
            { r.store with
              quarksSecrets := pre.foldl Store.turnQuarksSecrets r.store.quarksSecrets } ∧
          ((createQuarksSecrets C Store.cluster manifestSecret (var :: vars) r).1 = none →
            pre = var :: vars) := by
      intro r' hr' he
      obtain ⟨pre, hpre, hs, hall⟩ := createQuarksSecrets_quarksSecrets manifestSecret vars r'
      refine ⟨var :: pre, (List.prefix_cons_inj var).mpr hpre, by rw [he, hs, hr']; rfl, ?_⟩
      rw [he]
      exact fun hn => congrArg (var :: ·) (hall hn)
    split_ifs at h with hop
    · rw [Store.cluster_updateStatus, hup hop] at h
      rcases h with ⟨hsome, -, -⟩ | ⟨-, he⟩
      · cases hsome
      · exact hnext _ rfl he
    · exact hnext _ (hnot hop) h

def SameQuarksSecrets (st st' : Store) : Prop := st'.quarksSecrets = st.quarksSecrets

instance isPreorder_sameQuarksSecrets : IsPreorder Store SameQuarksSecrets where
  refl _ := rfl
  trans _ _ _ h₁ h₂ := h₂.trans h₁

theorem sameQuarksSecrets_createOrUpdate_secret (s : Secret) (st : Store) :
    SameQuarksSecrets st (Store.cluster.createOrUpdate (.secret s) st).2 := by
  unfold SameQuarksSecrets
  rw [Store.cluster_createOrUpdate, Store.createOrUpdate_secret]
  rfl

theorem sameQuarksSecrets_createOrUpdate_quarksJob (qJob : QuarksJob) (st : Store) :
    SameQuarksSecrets st (Store.cluster.createOrUpdate (.quarksJob qJob) st).2 := by
  obtain ⟨_, -, h⟩ := Store.createOrUpdate_quarksJob qJob st
  unfold SameQuarksSecrets
  rw [Store.cluster_createOrUpdate, h]

theorem sameQuarksSecrets_updateStatus_deployment (d : BOSHDeployment) (st : Store) :
    SameQuarksSecrets st (Store.cluster.updateStatus (.deployment d) st).2 := by
  unfold SameQuarksSecrets
  rw [Store.cluster_updateStatus, Store.updateStatus_deployment_store]
  rfl

theorem syncDerived_quarksSecrets (request : NamespacedName) (deployment : BOSHDeployment)
    (manifest : Manifest) (linkInfos : LinkInfos) (r : Run Store) :
    ∃ pre, (pre = [] ∨ ∃ vars, C.convertVariables deployment.name manifest.vars = .ok vars ∧
        pre <+: vars) ∧
      (syncDerived P C Store.cluster request deployment manifest linkInfos r).2.store.quarksSecrets =
        pre.foldl Store.turnQuarksSecrets r.store.quarksSecrets := by
  unfold syncDerived
  have h₀ : SameQuarksSecrets r.store
      (createManifestWithOps P C Store.cluster deployment manifest r).2.store :=
    createManifestWithOps_keeps (fun _ => sameQuarksSecrets_createOrUpdate_secret _) manifest r
  simp only [ReconcileM.bind_run]
  rcases (createManifestWithOps P C Store.cluster deployment manifest r).1 with err | ms
  · exact ⟨[], .inl rfl, h₀⟩
  rcases C.convertVariables deployment.name manifest.vars with err | vars
  · exact ⟨[], .inl rfl, h₀⟩
  simp only [ite_createQuarksSecrets, ReconcileM.bind_run]
  obtain ⟨pre, hpre, hs, -⟩ := createQuarksSecrets_quarksSecrets (C := C) ms vars
    (createManifestWithOps P C Store.cluster deployment manifest r).2
  refine ⟨pre, .inr ⟨vars, rfl, hpre⟩, ?_⟩
  rcases (createQuarksSecrets C Store.cluster ms vars _).1 with _ | err
  · rw [syncJobs_keeps (R := SameQuarksSecrets)
      (fun _ => sameQuarksSecrets_updateStatus_deployment _)
      sameQuarksSecrets_createOrUpdate_quarksJob request manifest linkInfos _, hs, h₀]
  · simp only [ReconcileM.pure_run]
    rw [hs, h₀]

theorem reconcile_quarksSecrets (cached : Store → Listing) (config : Config)
    (orders : RangeOrders) (request : NamespacedName) (r : Run Store) :
    ∃ pre, (pre = [] ∨ ∃ name vars quarksSecrets,
        C.convertVariables name vars = .ok quarksSecrets ∧ pre <+: quarksSecrets) ∧
      (reconcile P C (Store.cachedCluster cached) config orders request r).2.store.quarksSecrets =
        pre.foldl Store.turnQuarksSecrets r.store.quarksSecrets := by
  rcases @reconcile_cases _ P C (Store.cachedCluster cached) config orders request r with
    ⟨_, -, -, he⟩ | ⟨_, -, -, -, he⟩ | ⟨_, _, -, -, -, -, he⟩ | ⟨_, _, _, -, -, -, -, -, he⟩ |
      ⟨deployment, manifest, -, -, -, -, he⟩
  iterate 4
    rw [he]
    exact ⟨[], .inl rfl, rfl⟩
  rw [he, Store.syncDerived_cachedCluster]
  obtain ⟨pre, hpre, hs⟩ := syncDerived_quarksSecrets (P := P) (C := C) request deployment _ _
    ⟨r.store, r.events ++ [.get request] ++
      (listLinkInfos P deployment orders manifest (cached r.store)).2.map .list⟩
  exact ⟨pre, hpre.imp_right fun ⟨vars, hv, hp⟩ => ⟨_, _, vars, hv, hp⟩, hs⟩

/-- A reconcile leaves no QuarksSecret marked generated that was not stored before with the same
spec and marked generated: every QuarksSecret it creates or whose spec it changes is left for
the QuarksSecret controller to generate. -/
theorem reconcile_regenerates (config : Config) (orders : RangeOrders)
    (request : NamespacedName) (r : Run Store) :
    Regenerates r.store.quarksSecrets
      (reconcile P C Store.cluster config orders request r).2.store.quarksSecrets := by
  obtain ⟨pre, -, hs⟩ :=
    reconcile_quarksSecrets (P := P) (C := C) Store.listing config orders request r
  rw [← Store.cachedCluster_self, hs]
  exact regenerates_foldl pre _

/-- When the variables are named apart, a reconcile keeps the `generated` status of every
QuarksSecret whose spec it leaves as it was, so it never has a variable generated again for
nothing. -/
theorem reconcile_keeps_generated
    (hvars : ∀ name vars quarksSecrets, C.convertVariables name vars = .ok quarksSecrets →
      (quarksSecrets.map QuarksSecret.name).Nodup)
    (config : Config) (orders : RangeOrders) (request : NamespacedName) (r : Run Store) :
    KeepsGenerated r.store.quarksSecrets
      (reconcile P C Store.cluster config orders request r).2.store.quarksSecrets := by
  obtain ⟨pre, hpre, hs⟩ :=
    reconcile_quarksSecrets (P := P) (C := C) Store.listing config orders request r
  rw [← Store.cachedCluster_self, hs]
  refine keepsGenerated_foldl pre _ ?_
  rcases hpre with rfl | ⟨name, vars, quarksSecrets, hv, hp⟩
  · exact List.nodup_nil
  · exact (hvars name vars quarksSecrets hv).sublist (hp.sublist.map _)

def generatedStore : Store :=
  { sampleStore with
    quarksSecrets := fun name => if name = "var-a" then some ⟨"var-a", "password", true⟩ else none }

theorem reconcile_keeps_generated_sample :
    KeepsGenerated generatedStore.quarksSecrets
      (reconcile samplePackages (sampleCollaborators [⟨"var-a", "password", false⟩]) Store.cluster
        sampleConfig sampleOrders sampleDeployment.key
        ⟨generatedStore, []⟩).2.store.quarksSecrets :=
  reconcile_keeps_generated (sampleCollaborators_vars_nodup _) sampleConfig sampleOrders
    sampleDeployment.key ⟨generatedStore, []⟩

/- A new spec for `var-a` is written with its `generated` status reset. -/
example : (reconcile samplePackages (sampleCollaborators [⟨"var-a", "certificate", false⟩])
    Store.cluster sampleConfig sampleOrders sampleDeployment.key
    ⟨generatedStore, []⟩).2.store.quarksSecrets "var-a" = some ⟨"var-a", "certificate", false⟩ := by
  decide

end CfOperator.Regenerate
