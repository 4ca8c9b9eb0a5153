import CfOperator.Reconcile.Converge
import CfOperator.Reconcile.Reads

namespace CfOperator.Reset

open Steps Effects Results Idempotence Regenerate Converge Reads

/-- The API server, where the status updates that `fails` names are refused with an error. -/
def failingCluster (fails : Object → Option Error) : Cluster Store :=
  { Store.cluster with
    updateStatus := fun object st =>
      match fails object with
      | some err => (some err, st)
      | none => Store.updateStatus object st }

variable (fails : Object → Option Error)

@[simp] theorem failingCluster_get : (failingCluster fails).get = Store.get := rfl

@[simp] theorem failingCluster_listing : (failingCluster fails).listing = Store.listing := rfl

@[simp] theorem failingCluster_now : (failingCluster fails).now = Store.clock := rfl

@[simp] theorem failingCluster_createOrUpdate :
    (failingCluster fails).createOrUpdate = Store.createOrUpdate := rfl

theorem quarksSecrets_updateStatus_of_ne {q : QuarksSecret} {name : String} (h : name ≠ q.name)
    (st : Store) :
    ((failingCluster fails).updateStatus (.quarksSecret q) st).2.quarksSecrets name =
      st.quarksSecrets name := by
  simp only [failingCluster]
  rcases fails (.quarksSecret q) with _ | err
  · simp only [Store.updateStatus]
    split
    · rfl
    · exact Function.update_noteq h _ _
  · rfl

theorem updateStatus_of_isSome {object : Object} {st : Store}
    (h : ((failingCluster fails).updateStatus object st).1.isSome) :
    ((failingCluster fails).updateStatus object st).2 = st := by
  revert h
  unfold failingCluster
  dsimp only
  split
  · exact fun _ => rfl
  · exact Store.updateStatus_of_isSome

section Refused

variable {P : Packages} {C : Collaborators} (q : QuarksSecret) (err : Error)

def refusedReset : Event := .updateStatus (.quarksSecret { q with generated := false }) (some err)

/-- A refused reset left the QuarksSecret under `q`'s name with `q`'s spec and the status it had
before its spec changed. -/
def Stale (st st' : Store) : Prop :=
  ∃ x, st.quarksSecrets q.name = some x ∧ x.spec ≠ q.spec ∧
    st'.quarksSecrets q.name = some { x with spec := q.spec }

theorem Stale.of_entry_eq {q : QuarksSecret} {st s st' : Store}
    (h : s.quarksSecrets q.name = st.quarksSecrets q.name) (hs : Stale q s st') :
    Stale q st st' := by
  obtain ⟨x, hx, hne, hx'⟩ := hs
  exact ⟨x, h ▸ hx, hne, hx'⟩

theorem createQuarksSecrets_reset_refused (manifestSecret : Secret) :
    ∀ (vars : List QuarksSecret) (r : Run Store), (vars.map QuarksSecret.name).Nodup →
      refusedReset q err ∉ r.events →
      refusedReset q err ∈
        (createQuarksSecrets C (failingCluster fails) manifestSecret vars r).2.events →
      q.name ∈ vars.map QuarksSecret.name ∧
        (createQuarksSecrets C (failingCluster fails) manifestSecret vars r).1.isSome ∧
        Stale q r.store (createQuarksSecrets C (failingCluster fails) manifestSecret vars r).2.store
  | [], r, _, hnew, hin => absurd hin hnew
  | var :: vars, r, hnd, hnew, hin => by
    obtain ⟨hvar, hnd⟩ := List.nodup_cons.mp hnd
    have hwrite : ∀ s events, refusedReset q err ∉ events →
        refusedReset q err ∉ events ++ refThenWrite C (failingCluster fails)
          (.secret manifestSecret) (.quarksSecret var) s := fun s events h he =>
      (List.mem_append.mp he).elim h (updateStatus_not_mem_refThenWrite _ _ _ _ _)
    -- A later turn stops: `var` is another QuarksSecret, so its turn kept `q`'s entry.
    have later : ∀ s events, (var.name ≠ q.name →
          s.quarksSecrets q.name = r.store.quarksSecrets q.name) → refusedReset q err ∉ events →
        let run := createQuarksSecrets C (failingCluster fails) manifestSecret vars ⟨s, events⟩
        refusedReset q err ∈ run.2.events →
        q.name ∈ (var :: vars).map QuarksSecret.name ∧ run.1.isSome ∧
          Stale q r.store run.2.store := by
      intro s events hs hnew' run hin'
      obtain ⟨hq, hsome, hstale⟩ :=
        createQuarksSecrets_reset_refused manifestSecret vars ⟨s, events⟩ hnd hnew' hin'
      have hne : var.name ≠ q.name := fun h => hvar (h ▸ hq)
      exact ⟨List.mem_cons_of_mem _ hq, hsome, hstale.of_entry_eq (hs hne)⟩
    rcases createQuarksSecrets_cons manifestSecret var vars r with ⟨-, -, he⟩ | ⟨op, s, -, hc, h⟩
    · rw [he] at hin
      exact absurd hin (hwrite _ _ hnew)
    rw [failingCluster_createOrUpdate] at hc
    have hkept : var.name ≠ q.name → s.quarksSecrets q.name = r.store.quarksSecrets q.name :=
      fun hne => by rw [← Store.quarksSecrets_createOrUpdate_of_ne (Ne.symm hne) r.store, hc]
    split_ifs at h with hop
    · rcases h with ⟨hrefused, hsome, he⟩ | ⟨-, he⟩
      · -- This turn's reset is the refused one.
        rw [he] at hin ⊢
        rcases List.mem_append.mp hin with hin | hin
        · exact absurd hin (hwrite _ _ hnew)
        obtain ⟨hreset, -⟩ := Event.updateStatus.inj (List.mem_singleton.mp hin)
        obtain ⟨hname, hspec⟩ : var.name = q.name ∧ var.spec = q.spec := by
          cases var; cases q; cases Object.quarksSecret.inj hreset; exact ⟨rfl, rfl⟩
        obtain ⟨x, hx, hne, hx'⟩ := Store.createOrUpdate_quarksSecret_updated (hop ▸ hc)
        refine ⟨hname ▸ List.mem_cons_self _ _, hsome, x, hname ▸ hx, hspec ▸ hne, ?_⟩
        rw [updateStatus_of_isSome fails hrefused, ← hname, ← hspec]
        exact hx'
      · rw [he] at hin ⊢
        refine later _ _ (fun hne => ?_) (fun hin' => ?_) hin
        · exact (quarksSecrets_updateStatus_of_ne fails (q := { var with generated := false })
            (Ne.symm hne) s).trans (hkept hne)
        · rcases List.mem_append.mp hin' with hin' | hin'
          · exact hwrite _ _ hnew hin'
          · cases (Event.updateStatus.inj (List.mem_singleton.mp hin')).2
    · rw [h] at hin ⊢
      exact later _ _ hkept (hwrite _ _ hnew) hin

variable {q err}

theorem ne_refusedReset_of_refThenWrite {σ : Type} {cluster : Cluster σ} (owner object : Object)
    (s : σ) : ∀ e ∈ refThenWrite C cluster owner object s, e ≠ refusedReset q err :=
  fun _ he h => updateStatus_not_mem_refThenWrite owner object _ s _ (h ▸ he)

theorem syncDerived_reset_refused
    (hvars : ∀ name vars quarksSecrets, C.convertVariables name vars = .ok quarksSecrets →
      (quarksSecrets.map QuarksSecret.name).Nodup)
    (request : NamespacedName) (deployment : BOSHDeployment) (manifest : Manifest)
    (linkInfos : LinkInfos) (r : Run Store) (hnew : refusedReset q err ∉ r.events)
    (hin : refusedReset q err ∈
      (syncDerived P C (failingCluster fails) request deployment manifest linkInfos r).2.events) :
    (syncDerived P C (failingCluster fails) request deployment manifest linkInfos r).1.2.isSome ∧
      Stale q r.store (syncDerived P C (failingCluster fails) request deployment manifest
        linkInfos r).2.store := by
  unfold syncDerived at hin ⊢
  simp only [ReconcileM.bind_run] at hin ⊢
  set r₀ := (createManifestWithOps P C (failingCluster fails) deployment manifest r).2
  have hnew₀ : refusedReset q err ∉ r₀.events := fun h =>
    hnew ((createManifestWithOps_adds (P := P) ne_refusedReset_of_refThenWrite deployment manifest
      r).mem_events h (· rfl))
  have hqs₀ : r₀.store.quarksSecrets = r.store.quarksSecrets :=
    createManifestWithOps_keeps (R := SameQuarksSecrets)
      (fun _ => sameQuarksSecrets_createOrUpdate_secret _) manifest r
  revert hin
  rcases (createManifestWithOps P C (failingCluster fails) deployment manifest r).1 with _ | ms
  · exact fun hin => absurd hin hnew₀
  rcases hv : C.convertVariables deployment.name manifest.vars with _ | vars
  · exact fun hin => absurd hin hnew₀
  simp only [ite_createQuarksSecrets, ReconcileM.bind_run]
  have hloop := createQuarksSecrets_reset_refused fails (C := C) q err ms vars r₀ (hvars _ _ _ hv)
    hnew₀
  rcases hres : (createQuarksSecrets C (failingCluster fails) ms vars r₀).1 with _ | e
  · -- The loop went through: the refused reset is not among its calls, nor among the jobs'.
    intro hin
    set r₁ := (createQuarksSecrets C (failingCluster fails) ms vars r₀).2
    have hjobs : Adds (· ≠ refusedReset q err) r₁
        (syncJobs C (failingCluster fails) request deployment manifest linkInfos r₁).2 :=
      syncJobs_adds ne_refusedReset_of_refThenWrite
        (fun _ _ h => Object.noConfusion (Event.updateStatus.inj h).1) request deployment manifest
        linkInfos _
    have := (hloop (hjobs.mem_events hin (· rfl))).2.1
    rw [hres] at this
    cases this
  · exact fun hin => ⟨rfl, (hloop hin).2.2.of_entry_eq (congrFun hqs₀ q.name)⟩

theorem reconcile_reset_refused
    (hvars : ∀ name vars quarksSecrets, C.convertVariables name vars = .ok quarksSecrets →
      (quarksSecrets.map QuarksSecret.name).Nodup)
    (config : Config) (orders : RangeOrders) (request : NamespacedName) (r : Run Store)
    (hnew : refusedReset q err ∉ r.events)
    (hin : refusedReset q err ∈
      (reconcile P C (failingCluster fails) config orders request r).2.events) :
    (reconcile P C (failingCluster fails) config orders request r).1.2.isSome ∧
      Stale q r.store (reconcile P C (failingCluster fails) config orders request r).2.store := by
  have hpre : ∀ calls : List ListCall,
      refusedReset q err ∉ r.events ++ [.get request] ++ calls.map .list := by
    intro calls h
    simp only [List.mem_append, List.mem_singleton, List.mem_map] at h
    rcases h with (h | h) | ⟨_, _, h⟩
    exacts [hnew h, Event.noConfusion h, Event.noConfusion h]
  rcases @reconcile_cases Store P C (failingCluster fails) config orders request r with
    ⟨_, -, -, he⟩ | ⟨_, -, -, -, he⟩ | ⟨_, _, -, -, -, -, he⟩ | ⟨_, _, _, -, -, -, -, -, he⟩ |
      ⟨deployment, manifest, -, -, -, -, he⟩ <;> rw [he] at hin
  iterate 3 exact absurd (List.mem_append_left _ hin) (hpre [])
  · exact absurd hin (hpre _)
  · rw [he]
    exact syncDerived_reset_refused fails hvars request deployment _ _ _ (hpre _) hin

end Refused

def runsStore (P : Packages) (C : Collaborators) (config : Config) :
    List (NamespacedName × RangeOrders × Time) → Store → Store
  | [], s => s
  | (request, orders, clock) :: runs, s => runsStore P C config runs
      (reconcile P C Store.cluster config orders request ⟨{ s with clock }, []⟩).2.store

section Settled

variable {P : Packages} {C : Collaborators} {q : QuarksSecret}
  (hspec : ∀ name vars quarksSecrets, C.convertVariables name vars = .ok quarksSecrets →
    ∀ v ∈ quarksSecrets, v.name = q.name → v.spec = q.spec)

theorem foldl_turnQuarksSecrets_keeps {y : QuarksSecret} (hys : y.spec = q.spec) :
    ∀ (pre : List QuarksSecret) (qs : String → Option QuarksSecret),
      (∀ v ∈ pre, v.name = q.name → v.spec = q.spec) → qs q.name = some y →
      pre.foldl Store.turnQuarksSecrets qs q.name = some y
  | [], _, _, hy => hy
  | v :: pre, qs, hpre, hy => by
    refine foldl_turnQuarksSecrets_keeps hys pre _ (fun v' hv' => hpre v' (.tail _ hv')) ?_
    by_cases hn : q.name = v.name
    · have hvs : y.spec = v.spec := hys.trans (hpre v (.head _) hn.symm).symm
      unfold Store.turnQuarksSecrets
      rw [← hn, hy]
      simp only [hvs, if_true, hy]
    · rw [turnQuarksSecrets_of_ne qs v hn, hy]

include hspec

theorem reconcile_keeps_quarksSecret (config : Config) (orders : RangeOrders)
    (request : NamespacedName) (r : Run Store) {y : QuarksSecret}
    (hy : r.store.quarksSecrets q.name = some y) (hys : y.spec = q.spec) :
    (reconcile P C Store.cluster config orders request r).2.store.quarksSecrets q.name =
      some y := by
  obtain ⟨pre, hpre, hs⟩ :=
    reconcile_quarksSecrets (P := P) (C := C) Store.listing config orders request r
  rw [← Store.cachedCluster_self, hs]
  refine foldl_turnQuarksSecrets_keeps hys pre _ ?_ hy
  rcases hpre with rfl | ⟨name, vars, quarksSecrets, hv, hp⟩
  · exact List.forall_mem_nil _
  · exact fun v hv' => hspec name vars quarksSecrets hv v (hp.subset hv')

theorem runsStore_keeps_quarksSecret (config : Config) {y : QuarksSecret} (hys : y.spec = q.spec) :
    ∀ (runs : List (NamespacedName × RangeOrders × Time)) (s : Store),
      s.quarksSecrets q.name = some y →
      (runsStore P C config runs s).quarksSecrets q.name = some y
  | [], _, hy => hy
  | (request, orders, clock) :: runs, s, hy =>
    runsStore_keeps_quarksSecret config hys runs _
      (reconcile_keeps_quarksSecret hspec config orders request ⟨{ s with clock }, []⟩ hy hys)

end Settled

variable {P : Packages} {C : Collaborators} {q : QuarksSecret} {err : Error}

/-- A reset the API server refuses is never retried. The reconcile returns the error and leaves
the QuarksSecret with its new spec and the `generated` status it had for its old one; every later
run, on an API server that refuses nothing, leaves it so, as long as the variables under its
name keep the new spec. A QuarksSecret generated for its old spec stays marked generated. -/
theorem reconcile_reset_refused_persists
    (hvars : ∀ name vars quarksSecrets, C.convertVariables name vars = .ok quarksSecrets →
      (quarksSecrets.map QuarksSecret.name).Nodup)
    (hspec : ∀ name vars quarksSecrets, C.convertVariables name vars = .ok quarksSecrets →
      ∀ v ∈ quarksSecrets, v.name = q.name → v.spec = q.spec)
    (config : Config) (orders : RangeOrders) (request : NamespacedName) (r : Run Store)
    (hnew : refusedReset q err ∉ r.events)
    (hin : refusedReset q err ∈
      (reconcile P C (failingCluster fails) config orders request r).2.events) :
    (reconcile P C (failingCluster fails) config orders request r).1.2.isSome ∧
      ∃ x, r.store.quarksSecrets q.name = some x ∧ x.spec ≠ q.spec ∧
        ∀ runs, (runsStore P C config runs
          (reconcile P C (failingCluster fails) config orders request r).2.store).quarksSecrets
            q.name = some { x with spec := q.spec } := by
  obtain ⟨hsome, x, hx, hne, hx'⟩ :=
    reconcile_reset_refused fails hvars config orders request r hnew hin
  exact ⟨hsome, x, hx, hne, fun runs =>
    runsStore_keeps_quarksSecret hspec config (y := { x with spec := q.spec }) rfl runs _ hx'⟩

def refuseQuarksSecretStatus : Object → Option Error
  | .quarksSecret _ => some (.status .other "conflict")
  | _ => none

theorem reconcile_reset_refused_persists_sample :
    (reconcile samplePackages (sampleCollaborators [⟨"var-a", "certificate", false⟩])
        (failingCluster refuseQuarksSecretStatus) sampleConfig sampleOrders sampleDeployment.key
        ⟨generatedStore, []⟩).1.2.isSome ∧
      ∃ x, generatedStore.quarksSecrets "var-a" = some x ∧ x.spec ≠ "certificate" ∧
        ∀ runs, (runsStore samplePackages (sampleCollaborators [⟨"var-a", "certificate", false⟩])
          sampleConfig runs (reconcile samplePackages
            (sampleCollaborators [⟨"var-a", "certificate", false⟩])
            (failingCluster refuseQuarksSecretStatus) sampleConfig sampleOrders sampleDeployment.key
            ⟨generatedStore, []⟩).2.store).quarksSecrets "var-a" =
          some { x with spec := "certificate" } :=
  reconcile_reset_refused_persists (q := ⟨"var-a", "certificate", false⟩)
    refuseQuarksSecretStatus (sampleCollaborators_vars_nodup _)
    (fun _ _ _ h v hv _ => by
      obtain rfl := Except.ok.inj h
      obtain rfl := List.mem_singleton.mp hv
      rfl)
    sampleConfig sampleOrders sampleDeployment.key ⟨generatedStore, []⟩
    (show refusedReset _ (.status .other "conflict") ∉ [] from List.not_mem_nil _) (by decide)

end CfOperator.Reset
