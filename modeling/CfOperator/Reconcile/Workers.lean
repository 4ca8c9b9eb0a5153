import CfOperator.Reconcile.Interleave
import CfOperator.Reconcile.Converge

namespace CfOperator.Workers

open Steps Writes Scan Spec Results Congr Fixpoint Idempotence Apply Regenerate Converge
open Handshake (World generate)
open Effects (withOpsKey)
open Interleave (Move Interleaves)

/-- `m` run from a state related by `R` to the one `m'` runs from answers as `m'` does, makes the
same calls, and ends in a state related by `R'` to the one `m'` ends in; or it stops early, on a
write the shared API server refused, with an answer `stop` holds of. -/
def Simulates {σ τ α : Type} (stop : α → Prop) (R R' : σ → τ → Prop) (m : ReconcileM σ α)
    (m' : ReconcileM τ α) : Prop :=
  ∀ r r', R r.store r'.store → r.events = r'.events →
    ((m r).1 = (m' r').1 ∧ R' (m r).2.store (m' r').2.store ∧ (m r).2.events = (m' r').2.events) ∨
      stop (m r).1

namespace Simulates

variable {σ τ α β : Type} {stop : α → Prop} {stop' : β → Prop} {R R₁ R₂ R₃ : σ → τ → Prop}

theorem pure (a : α) : Simulates stop R R (Pure.pure a : ReconcileM σ α) (Pure.pure a) :=
  fun _ _ h he => .inl ⟨rfl, h, he⟩

theorem bind {m : ReconcileM σ α} {m' : ReconcileM τ α} {f : α → ReconcileM σ β}
    {f' : α → ReconcileM τ β} (hm : Simulates stop R₁ R₂ m m')
    (hf : ∀ a, Simulates stop' R₂ R₃ (f a) (f' a)) (hstop : ∀ a, stop a → ∀ r, stop' (f a r).1) :
    Simulates stop' R₁ R₃ (m >>= f) (m' >>= f') := fun r r' hr he => by
  simp only [ReconcileM.bind_run]
  rcases hm r r' hr he with ⟨h₁, h₂, h₃⟩ | hs
  · rw [h₁]
    exact hf _ _ _ h₂ h₃
  · exact .inr (hstop _ hs _)

theorem ite {c : Prop} [Decidable c] {m₁ m₂ : ReconcileM σ α} {m₁' m₂' : ReconcileM τ α}
    (h₁ : Simulates stop R₁ R₂ m₁ m₁') (h₂ : Simulates stop R₁ R₂ m₂ m₂') :
    Simulates stop R₁ R₂ (if c then m₁ else m₂) (if c then m₁' else m₂') := by
  split
  exacts [h₁, h₂]

end Simulates

section Calls

variable {σ τ : Type} {K : Cluster σ} {K' : Cluster τ} {R R' : σ → τ → Prop}

theorem timeNow_simulates (h : ∀ s t, R s t → K.now s = K'.now t) :
    Simulates (fun _ => False) R R (timeNow K) (timeNow K') := fun _ _ hr he =>
  .inl ⟨h _ _ hr, hr, he⟩

theorem setReference_simulates (C : Collaborators) (owner object : Object) :
    Simulates (fun _ => False) R R (setReference C owner object : ReconcileM σ _)
      (setReference C owner object) :=
  fun _ _ hr he => .inl ⟨rfl, hr, by simp only [setReference_run, he]⟩

theorem createOrUpdate_simulates {object : Object}
    (h : ∀ s t, R s t → ((K.createOrUpdate object s).1 = (K'.createOrUpdate object t).1 ∧
      R' (K.createOrUpdate object s).2 (K'.createOrUpdate object t).2) ∨
      (K.createOrUpdate object s).1.toBool = false) :
    Simulates (fun res => res.toBool = false) R R' (createOrUpdate K object)
      (createOrUpdate K' object) := fun _ _ hr he => by
  rcases h _ _ hr with ⟨h₁, h₂⟩ | h
  · exact .inl ⟨h₁, h₂, by simp only [createOrUpdate_run, he, h₁]⟩
  · exact .inr h

theorem updateStatus_simulates {object : Object} (stop : Option Error → Prop)
    (h : ∀ s t, R s t → ((K.updateStatus object s).1 = (K'.updateStatus object t).1 ∧
      R' (K.updateStatus object s).2 (K'.updateStatus object t).2) ∨
      stop (K.updateStatus object s).1) :
    Simulates stop R R' (updateStatus K object) (updateStatus K' object) :=
  fun _ _ hr he => by
    rcases h _ _ hr with ⟨h₁, h₂⟩ | h
    · exact .inl ⟨h₁, h₂, by simp only [updateStatus_run, he, h₁]⟩
    · exact .inr h

theorem updateStatus_simulates_of_eq {object : Object}
    (h : ∀ s t, R s t → (K.updateStatus object s).1 = (K'.updateStatus object t).1 ∧
      R' (K.updateStatus object s).2 (K'.updateStatus object t).2) :
    Simulates (fun _ => False) R R' (updateStatus K object) (updateStatus K' object) :=
  updateStatus_simulates _ fun s t hr => .inl (h s t hr)

end Calls

/-- An object a reconcile of `deployment` writes: its with-ops secret, a QuarksSecret under a name
its collaborators give, one of its QuarksJobs, and the deployment itself, for its status. -/
inductive ObjectOf (P : Packages) (C : Collaborators) (deployment : BOSHDeployment) : Object → Prop
  | secret (manifestBytes : String) :
    ObjectOf P C deployment (.secret (manifestWithOpsSecret P deployment manifestBytes))
  | quarksSecret {q : QuarksSecret} (h : ∃ q₀, VarOf C deployment.name q₀ ∧ q₀.name = q.name) :
    ObjectOf P C deployment (.quarksSecret q)
  | quarksJob {j : QuarksJob} (h : JobOf C deployment.name j) :
    ObjectOf P C deployment (.quarksJob j)
  | status (lastReconcile : Option Time) :
    ObjectOf P C deployment (.deployment { deployment with lastReconcile })

section Functions

variable {σ τ : Type} {P : Packages} {C : Collaborators} {K : Cluster σ} {K' : Cluster τ}
  {R : σ → τ → Prop} {deployment : BOSHDeployment}
  (hcu : ∀ object, ObjectOf P C deployment object → ∀ s t, R s t →
    ((K.createOrUpdate object s).1 = (K'.createOrUpdate object t).1 ∧
      R (K.createOrUpdate object s).2 (K'.createOrUpdate object t).2) ∨
      (K.createOrUpdate object s).1.toBool = false)
  (hus : ∀ object, ObjectOf P C deployment object → ∀ s t, R s t →
    ((K.updateStatus object s).1 = (K'.updateStatus object t).1 ∧
      R (K.updateStatus object s).2 (K'.updateStatus object t).2) ∨
      (K.updateStatus object s).1.isSome ∧ ∀ d, object ≠ .deployment d)
  (hnow : ∀ s t, R s t → K.now s = K'.now t)

include hcu

theorem createQuarksJob_simulates {qJob : QuarksJob} (hj : JobOf C deployment.name qJob) :
    Simulates (fun res => res.isSome) R R (createQuarksJob C K deployment qJob)
      (createQuarksJob C K' deployment qJob) := by
  refine .bind (setReference_simulates C _ _) (fun ref => ?_) nofun
  rcases ref with _ | err
  · refine .bind (createOrUpdate_simulates (hcu _ (.quarksJob hj))) (fun res => ?_) ?_
    · rcases res with err | op <;> exact .pure _
    · rintro (err | op) h _
      · rfl
      · exact nomatch h
  · exact .pure _

theorem createManifestWithOps_simulates (manifest : Manifest) :
    Simulates (fun res => res.toBool = false) R R (createManifestWithOps P C K deployment manifest)
      (createManifestWithOps P C K' deployment manifest) := by
  unfold createManifestWithOps
  rcases P.marshal manifest with err | bytes
  · exact .pure _
  refine .bind (setReference_simulates C _ _) (fun ref => ?_) nofun
  rcases ref with _ | err
  · refine .bind (createOrUpdate_simulates (hcu _ (.secret bytes))) (fun res => ?_) ?_
    · rcases res with err | op <;> exact .pure _
    · rintro (err | op) h _
      · rfl
      · exact nomatch h
  · exact .pure _

include hus

theorem createQuarksSecrets_simulates (manifestSecret : Secret) :
    ∀ vars : List QuarksSecret, (∀ q ∈ vars, VarOf C deployment.name q) →
      Simulates (fun res => res.isSome) R R (createQuarksSecrets C K manifestSecret vars)
        (createQuarksSecrets C K' manifestSecret vars)
  | [], _ => .pure _
  | var :: vars, hv => by
    rw [createQuarksSecrets, createQuarksSecrets]
    have hvar : ObjectOf P C deployment (.quarksSecret var) :=
      .quarksSecret ⟨var, hv var (List.mem_cons_self _ _), rfl⟩
    have hnext := createQuarksSecrets_simulates manifestSecret vars
      fun q hq => hv q (List.mem_cons_of_mem _ hq)
    refine .bind (setReference_simulates C _ _) (fun ref => ?_) nofun
    rcases ref with _ | err
    · refine .bind (createOrUpdate_simulates (hcu _ hvar)) (fun res => ?_) ?_
      · rcases res with err | op
        · exact .pure _
        · have hreset : ObjectOf P C deployment (.quarksSecret { var with generated := false }) :=
            .quarksSecret ⟨var, hv var (List.mem_cons_self _ _), rfl⟩
          refine .ite (.bind (updateStatus_simulates (fun res => res.isSome)
            fun s t hr => (hus _ hreset s t hr).imp_right And.left) (fun reset => ?_) ?_) hnext
          · rcases reset with _ | err
            exacts [hnext, .pure _]
          · rintro (_ | err) h _
            · exact nomatch h
            · rfl
      · rintro (err | op) h _
        · rfl
        · exact nomatch h
    · exact .pure _

include hnow

theorem syncJobs_simulates (request : NamespacedName) (manifest : Manifest)
    (linkInfos : LinkInfos) :
    Simulates (fun res => res.2.isSome) R R (syncJobs C K request deployment manifest linkInfos)
      (syncJobs C K' request deployment manifest linkInfos) := by
  unfold syncJobs
  rcases h₁ : C.variableInterpolationJob deployment.name manifest with err | job₁
  · exact .pure _
  refine .bind (createQuarksJob_simulates hcu (.inl ⟨_, h₁⟩)) (fun res₁ => ?_) ?_
  · rcases res₁ with _ | err
    swap
    · exact .pure _
    rcases h₂ : C.instanceGroupManifestJob deployment.name manifest linkInfos
      (deployment.generation == 1) with err | job₂
    · exact .pure _
    refine .bind (createQuarksJob_simulates hcu (.inr ⟨_, _, _, h₂⟩)) (fun res₂ => ?_) ?_
    · rcases res₂ with _ | err
      swap
      · exact .pure _
      refine .bind (timeNow_simulates hnow) (fun now => ?_) nofun
      -- The deployment's own status update is never refused.
      refine .bind (updateStatus_simulates_of_eq fun s t hr =>
        (hus _ (.status _) s t hr).resolve_right fun ⟨_, h⟩ => h _ rfl) (fun res => ?_) nofun
      rcases res with _ | err <;> exact .pure _
    · rintro (_ | err) h _
      · exact nomatch h
      · rfl
  · rintro (_ | err) h _
    · exact nomatch h
    · rfl

theorem syncDerived_simulates (request : NamespacedName) (manifest : Manifest)
    (linkInfos : LinkInfos) :
    Simulates (fun res => res.2.isSome) R R
      (syncDerived P C K request deployment manifest linkInfos)
      (syncDerived P C K' request deployment manifest linkInfos) := by
  unfold syncDerived
  refine .bind (createManifestWithOps_simulates hcu manifest) (fun ms => ?_) ?_
  · rcases ms with err | ms
    · exact .pure _
    rcases hv : C.convertVariables deployment.name manifest.vars with err | vars
    · exact .pure _
    refine .bind (.ite (createQuarksSecrets_simulates hcu hus ms vars fun q hq => ⟨_, _, hv, hq⟩)
      (.pure _)) (fun res => ?_) ?_
    · rcases res with _ | err
      exacts [syncJobs_simulates hcu hus hnow request manifest linkInfos, .pure _]
    · rintro (_ | err) h _
      · exact nomatch h
      · rfl
  · rintro (err | ms) h _
    · rfl
    · exact nomatch h

end Functions

theorem find?_upsert_of_ne {secrets : List Secret} {s : Secret} {key : NamespacedName}
    (h : s.key ≠ key) :
    (Store.upsert secrets s).find? (·.key = key) = secrets.find? (·.key = key) := by
  rw [← List.filter_head?, ← List.filter_head?, Store.filter_upsert (by simpa using h)]
  intro x _ hx
  simpa [hx] using h

theorem find?_upsert_self (secrets : List Secret) (s : Secret) :
    (Store.upsert secrets s).find? (·.key = s.key) = some s := by
  unfold Store.upsert
  split_ifs with hs
  · have hp : (fun x : Secret => decide (x.key = s.key)) ∘
        (fun y => if y.key = s.key then s else y) = fun x : Secret => decide (x.key = s.key) := by
      funext y
      by_cases h : y.key = s.key <;> simp [h]
    obtain ⟨x, hx⟩ := Option.isSome_iff_exists.mp
      (List.find?_isSome.mpr (by simpa using hs) : (secrets.find? (·.key = s.key)).isSome)
    have hk : x.key = s.key := by simpa using List.find?_some hx
    rw [List.find?_map, hp, hx]
    simp [hk]
  · rw [List.find?_append, List.find?_eq_none.mpr (by simpa using hs)]
    simp

theorem createOrUpdate_quarksSecret_fst (q : QuarksSecret) (st : Store) :
    (Store.createOrUpdate (.quarksSecret q) st).1 =
      match (st.quarksSecrets q.name).map QuarksSecret.spec with
      | none => .ok .created
      | some spec => if spec = q.spec then .ok .none else .ok .updated := by
  simp only [Store.createOrUpdate]
  rcases st.quarksSecrets q.name with _ | x
  · rfl
  · simp only [Option.map_some']
    split_ifs <;> rfl

/-- `st'` agrees with `st` on all that a reconcile of `deployment` reads or writes: its entry,
the secrets of its namespace that declare its links, the services and pods, the secret under its
with-ops key, the specs of the QuarksSecrets and the QuarksJobs under the names its collaborators
give, and the clock. -/
structure Agree (P : Packages) (C : Collaborators) (deployment : BOSHDeployment)
    (st st' : Store) : Prop where
  entry : st'.deployments deployment.key = st.deployments deployment.key
  links : (st'.secrets.filter (·.ns = deployment.ns)).filter (Matching P deployment) =
    (st.secrets.filter (·.ns = deployment.ns)).filter (Matching P deployment)
  services : st'.services = st.services
  pods : st'.pods = st.pods
  withOps : st'.secrets.find? (·.key = withOpsKey P deployment.key) =
    st.secrets.find? (·.key = withOpsKey P deployment.key)
  quarksSecrets : ∀ q, VarOf C deployment.name q →
    (st'.quarksSecrets q.name).map QuarksSecret.spec =
      (st.quarksSecrets q.name).map QuarksSecret.spec
  quarksJobs : ∀ j, JobOf C deployment.name j → st'.quarksJobs j.name = st.quarksJobs j.name
  clock : st'.clock = st.clock

namespace Agree

variable {P : Packages} {C : Collaborators} {deployment : BOSHDeployment} {st st₁ st₂ : Store}

theorem refl (st : Store) : Agree P C deployment st st :=
  ⟨rfl, rfl, rfl, rfl, rfl, fun _ _ => rfl, fun _ _ => rfl, rfl⟩

theorem trans (h₁ : Agree P C deployment st st₁) (h₂ : Agree P C deployment st₁ st₂) :
    Agree P C deployment st st₂ :=
  ⟨h₂.entry.trans h₁.entry, h₂.links.trans h₁.links, h₂.services.trans h₁.services,
    h₂.pods.trans h₁.pods, h₂.withOps.trans h₁.withOps,
    fun q hq => (h₂.quarksSecrets q hq).trans (h₁.quarksSecrets q hq),
    fun j hj => (h₂.quarksJobs j hj).trans (h₁.quarksJobs j hj), h₂.clock.trans h₁.clock⟩

theorem of_key {deployment' : BOSHDeployment} (hk : deployment'.key = deployment.key)
    (h : Agree P C deployment st st₁) : Agree P C deployment' st st₁ := by
  obtain ⟨name, ns, _, _⟩ := deployment
  obtain ⟨name', ns', _, _⟩ := deployment'
  obtain ⟨rfl, rfl⟩ : ns' = ns ∧ name' = name := by simpa [BOSHDeployment.key] using hk
  exact ⟨h.entry, h.links, h.services, h.pods, h.withOps, h.quarksSecrets, h.quarksJobs, h.clock⟩

theorem holds {manifest : Manifest} {linkInfos : LinkInfos} (h : Agree P C deployment st st₁)
    (hp : Holds (Plan.of P C deployment manifest linkInfos) st) :
    Holds (Plan.of P C deployment manifest linkInfos) st₁ where
  manifestSecret s hms := by
    have hs := hp.manifestSecret s hms
    have hkey : s.key = withOpsKey P deployment.key := by
      simp only [Plan.of] at hms
      rcases hm : P.marshal manifest with err | bytes <;> rw [hm] at hms <;> cases hms
      rfl
    obtain ⟨x, hx⟩ := Option.isSome_iff_exists.mp
      (List.find?_isSome.mpr ⟨s, hs, by simp [hkey]⟩ :
        (st.secrets.find? (·.key = withOpsKey P deployment.key)).isSome)
    have hxs := List.inj_on_of_nodup_map st.secrets_nodup (List.mem_of_find?_eq_some hx) hs
      (by simpa [hkey] using List.find?_some hx)
    exact List.mem_of_find?_eq_some (h.withOps.trans (hxs ▸ hx))
  quarksSecrets vars hv q hq := by
    obtain ⟨x, hx, hxs⟩ := hp.quarksSecrets vars hv q hq
    have hq' := h.quarksSecrets q ⟨_, _, hv, hq⟩
    rw [hx, Option.map_some'] at hq'
    obtain ⟨x', hx', hs'⟩ := Option.map_eq_some'.mp hq'
    exact ⟨x', hx', hs'.trans hxs⟩
  interpolationJob j hj := h.quarksJobs j (.inl ⟨_, hj⟩) ▸ hp.interpolationJob j hj
  instanceGroupJob j hj := h.quarksJobs j (.inr ⟨_, _, _, hj⟩) ▸ hp.instanceGroupJob j hj

theorem convergedAt (hag : Agree P C deployment st st₁) (h : ConvergedAt P C deployment.key st) :
    ConvergedAt P C deployment.key st₁ := by
  intro orders d m hg hres hl'
  have hag' := hag.of_key (st₁.deployments_key _ _ (Store.get_eq_ok.mp hg))
  have hg₀ : Store.get deployment.key st = .ok d :=
    Store.get_eq_ok.mpr (hag.entry ▸ Store.get_eq_ok.mp hg)
  have hv : (Store.listing st).services d.ns = (Store.listing st₁).services d.ns :=
    congrFun hag'.services.symm _
  have hp : (Store.listing st).pods d.ns = (Store.listing st₁).pods d.ns :=
    congrFun hag'.pods.symm _
  have hl := (err_congr orders m rfl rfl hag'.links.symm hv hp).mpr hl'
  obtain ⟨hli, hman⟩ := linked_congr orders orders m rfl rfl hag'.links.symm hv hp hl hl'
  rw [hli, hman]
  exact hag'.holds (h orders d m hg₀ hres hl)

theorem withLastReconcile (h : Agree P C deployment st st₁) (key : NamespacedName)
    (lastReconcile : Option Time) :
    Agree P C deployment (st.withLastReconcile key lastReconcile)
      (st₁.withLastReconcile key lastReconcile) := by
  refine ⟨?_, h.links, h.services, h.pods, h.withOps, h.quarksSecrets, h.quarksJobs, h.clock⟩
  by_cases hk : deployment.key = key
  · subst hk
    simp only [Store.withLastReconcile, Function.update_same, h.entry]
  · simp only [Store.withLastReconcile, Function.update_noteq hk, h.entry]

theorem update_quarksSecrets (h : Agree P C deployment st st₁) (name : String)
    {x x₁ : Option QuarksSecret} (hx : x₁.map QuarksSecret.spec = x.map QuarksSecret.spec) :
    Agree P C deployment { st with quarksSecrets := Function.update st.quarksSecrets name x }
      { st₁ with quarksSecrets := Function.update st₁.quarksSecrets name x₁ } := by
  refine ⟨h.entry, h.links, h.services, h.pods, h.withOps, fun q hq => ?_, h.quarksJobs, h.clock⟩
  by_cases hn : q.name = name
  · subst hn
    simp only [Function.update_same]
    exact hx
  · simp only [Function.update_noteq hn, h.quarksSecrets q hq]

theorem update_quarksJobs (h : Agree P C deployment st st₁) (name : String)
    (x : Option QuarksJob) :
    Agree P C deployment { st with quarksJobs := Function.update st.quarksJobs name x }
      { st₁ with quarksJobs := Function.update st₁.quarksJobs name x } := by
  refine ⟨h.entry, h.links, h.services, h.pods, h.withOps, h.quarksSecrets, fun j hj => ?_, h.clock⟩
  by_cases hn : j.name = name
  · subst hn
    simp only [Function.update_same]
  · simp only [Function.update_noteq hn, h.quarksJobs j hj]

end Agree

theorem links_withSecret {st : Store} (ha : Apart P st) (deployment other : BOSHDeployment)
    (manifestBytes : String) :
    ((st.withSecret (manifestWithOpsSecret P other manifestBytes)).secrets.filter
        (·.ns = deployment.ns)).filter (Matching P deployment) =
      (st.secrets.filter (·.ns = deployment.ns)).filter (Matching P deployment) := by
  simp only [Store.withSecret]
  rw [List.filter_filter, List.filter_filter, Store.filter_upsert]
  · simp [not_matching_manifestWithOpsSecret]
  · intro x hx hk
    simp [ha.not_matching hx hk]

theorem Agree.withSecret {P : Packages} {C : Collaborators} {deployment : BOSHDeployment}
    {st st₁ : Store} (h : Agree P C deployment st st₁) (ha : Apart P st) (ha₁ : Apart P st₁)
    (other : BOSHDeployment) (manifestBytes : String) :
    Agree P C deployment (st.withSecret (manifestWithOpsSecret P other manifestBytes))
      (st₁.withSecret (manifestWithOpsSecret P other manifestBytes)) := by
  refine ⟨h.entry, ?_, h.services, h.pods, ?_, h.quarksSecrets, h.quarksJobs, h.clock⟩
  · rw [links_withSecret ha₁, links_withSecret ha, h.links]
  · by_cases hk : withOpsKey P other.key = withOpsKey P deployment.key
    · simp only [Store.withSecret, ← hk]
      exact (find?_upsert_self _ (manifestWithOpsSecret P other manifestBytes)).trans
        (find?_upsert_self _ _).symm
    · simp only [Store.withSecret,
        find?_upsert_of_ne (s := manifestWithOpsSecret P other manifestBytes) hk, h.withOps]

section Own

variable {P : Packages} {C : Collaborators} {deployment : BOSHDeployment} {st st₁ : Store}

theorem apart_withLastReconcile (ha : Apart P st) (key : NamespacedName)
    (lastReconcile : Option Time) : Apart P (st.withLastReconcile key lastReconcile) := by
  refine ⟨fun key key' d d' hd hd' hn => ?_, ha.unlinked⟩
  obtain ⟨d₀, hd₀, hn₀⟩ := exists_of_withLastReconcile hd
  obtain ⟨d₀', hd₀', hn₀'⟩ := exists_of_withLastReconcile hd'
  exact ha.names key key' d₀ d₀' hd₀ hd₀' (hn₀.trans (hn.trans hn₀'.symm))

theorem apart_createOrUpdate {object : Object} (h : ObjectOf P C deployment object)
    (ha : Apart P st) : Apart P (Store.createOrUpdate object st).2 := by
  cases h with
  | secret bytes => exact ha.apply (C := C) (.secret bytes)
  | @quarksSecret q =>
    obtain ⟨x, -, he⟩ := Store.createOrUpdate_quarksSecret q st
    rw [he]
    exact ⟨ha.names, ha.unlinked⟩
  | quarksJob hj => exact ha.apply (.quarksJob hj)
  | status => exact ha

theorem apart_updateStatus {object : Object} (h : ObjectOf P C deployment object)
    (ha : Apart P st) : Apart P (Store.updateStatus object st).2 := by
  cases h with
  | secret | quarksJob => exact ha
  | @quarksSecret q =>
    rcases hx : st.quarksSecrets q.name with _ | x
    · simp only [Store.updateStatus, hx]
      exact ha
    · rw [Store.updateStatus_quarksSecret hx]
      exact ⟨ha.names, ha.unlinked⟩
  | status =>
    rw [Store.updateStatus_deployment_store]
    exact apart_withLastReconcile ha _ _

theorem agree_createOrUpdate {object : Object} (h : ObjectOf P C deployment object)
    (hag : Agree P C deployment st st₁) (ha : Apart P st) (ha₁ : Apart P st₁) :
    (Store.createOrUpdate object st₁).1 = (Store.createOrUpdate object st).1 ∧
      Agree P C deployment (Store.createOrUpdate object st).2
        (Store.createOrUpdate object st₁).2 := by
  cases h with
  | secret bytes =>
    refine ⟨?_, ?_⟩
    · simp only [Store.createOrUpdate]
      rw [show (manifestWithOpsSecret P deployment bytes).key = withOpsKey P deployment.key from rfl,
        hag.withOps]
      rcases List.find? _ st.secrets with _ | x
      · rfl
      · dsimp only
        split_ifs <;> rfl
    · rw [Store.createOrUpdate_secret, Store.createOrUpdate_secret]
      exact hag.withSecret ha ha₁ deployment bytes
  | @quarksSecret q hq =>
    obtain ⟨q₀, hq₀, hname⟩ := hq
    have hspec := hag.quarksSecrets q₀ hq₀
    rw [hname] at hspec
    refine ⟨by rw [createOrUpdate_quarksSecret_fst, createOrUpdate_quarksSecret_fst, hspec], ?_⟩
    obtain ⟨x, hx, he⟩ := Store.createOrUpdate_quarksSecret q st
    obtain ⟨x₁, hx₁, he₁⟩ := Store.createOrUpdate_quarksSecret q st₁
    rw [he, he₁]
    exact hag.update_quarksSecrets q.name (by simp [hx, hx₁])
  | @quarksJob j hj =>
    simp only [Store.createOrUpdate]
    rw [hag.quarksJobs j hj]
    rcases st.quarksJobs j.name with _ | x
    · exact ⟨rfl, hag.update_quarksJobs _ _⟩
    · dsimp only
      split_ifs
      exacts [⟨rfl, hag⟩, ⟨rfl, hag.update_quarksJobs _ _⟩]
  | status => exact ⟨rfl, hag⟩

theorem agree_updateStatus {object : Object} (h : ObjectOf P C deployment object)
    (hag : Agree P C deployment st st₁) :
    (Store.updateStatus object st₁).1 = (Store.updateStatus object st).1 ∧
      Agree P C deployment (Store.updateStatus object st).2 (Store.updateStatus object st₁).2 := by
  cases h with
  | secret | quarksJob => exact ⟨rfl, hag⟩
  | @quarksSecret q hq =>
    obtain ⟨q₀, hq₀, hname⟩ := hq
    have hspec := hag.quarksSecrets q₀ hq₀
    rw [hname] at hspec
    rcases hx : st.quarksSecrets q.name with _ | x <;>
      rcases hx₁ : st₁.quarksSecrets q.name with _ | x₁ <;> rw [hx, hx₁] at hspec
    · simp only [Store.updateStatus, hx, hx₁]
      exact ⟨trivial, hag⟩
    · cases hspec
    · cases hspec
    · rw [Store.updateStatus_quarksSecret hx, Store.updateStatus_quarksSecret hx₁]
      exact ⟨rfl, hag.update_quarksSecrets _ hspec⟩
  | status lastReconcile =>
    refine ⟨?_, ?_⟩
    · simp only [Store.updateStatus]
      rw [show ({ deployment with lastReconcile } : BOSHDeployment).key = deployment.key from rfl,
        hag.entry]
      rcases st.deployments deployment.key <;> rfl
    · rw [Store.updateStatus_deployment_store, Store.updateStatus_deployment_store]
      exact hag.withLastReconcile _ _

end Own

/-- A call that a reconcile of a deployment of another name than `deployment` makes. -/
inductive Interferes (P : Packages) (C : Collaborators) (deployment : BOSHDeployment) :
    Store → Store → Prop
  | createOrUpdate {other : BOSHDeployment} {object : Object} (hn : other.name ≠ deployment.name)
      (h : ObjectOf P C other object) (st : Store) :
      Interferes P C deployment st (Store.createOrUpdate object st).2
  | updateStatus {other : BOSHDeployment} {object : Object} (hn : other.name ≠ deployment.name)
      (h : ObjectOf P C other object) (st : Store) :
      Interferes P C deployment st (Store.updateStatus object st).2

/-- An API server whose reads answer from the store its state shows. The calls of the other
workers between two reads are those made before the next write. -/
structure ReadsStore {σ : Type} (view : σ → World) (K : Cluster σ) : Prop where
  get : ∀ key s, K.get key s = Store.get key (view s).store
  listing : ∀ s, K.listing s = Store.listing (view s).store
  now : ∀ s, K.now s = (view s).store.clock

def Related {σ : Type} (P : Packages) (C : Collaborators) (deployment : BOSHDeployment)
    (view : σ → World) (s : σ) (st : Store) : Prop :=
  Agree P C deployment st (view s).store ∧ Apart P (view s).store ∧ Apart P st

section Apartness

variable {P : Packages} {C : Collaborators} {deployment : BOSHDeployment}
  (hvarsApart : ∀ name name' q q', name ≠ name' → VarOf C name q → VarOf C name' q' →
    q.name ≠ q'.name)
  (hjobsApart : ∀ name name' j j', name ≠ name' → JobOf C name j → JobOf C name' j' →
    j.name ≠ j'.name)
  (hsecretName : ∀ name name',
    P.deploymentSecretName P.deploymentSecretTypeManifestWithOps name "" =
      P.deploymentSecretName P.deploymentSecretTypeManifestWithOps name' "" → name = name')
include hvarsApart hjobsApart hsecretName

/-- The step lemma of the other workers: a call of a reconcile of another deployment changes
nothing a reconcile of `deployment` reads or writes, and keeps the store's names apart. -/
theorem agree_interferes {st st' : Store} (h : Interferes P C deployment st st')
    (ha : Apart P st) : Agree P C deployment st st' ∧ Apart P st' := by
  cases h with
  | @createOrUpdate other object hn h =>
    refine ⟨?_, apart_createOrUpdate h ha⟩
    cases h with
    | secret bytes =>
      rw [Store.createOrUpdate_secret]
      refine ⟨rfl, links_withSecret ha deployment other bytes, rfl, rfl, ?_, fun _ _ => rfl,
        fun _ _ => rfl, rfl⟩
      exact find?_upsert_of_ne (s := manifestWithOpsSecret P other bytes)
        fun he => hn (hsecretName _ _ (congrArg NamespacedName.name he))
    | @quarksSecret q hq =>
      obtain ⟨q₀, hq₀, hname⟩ := hq
      obtain ⟨x, -, he⟩ := Store.createOrUpdate_quarksSecret q st
      rw [he]
      refine ⟨rfl, rfl, rfl, rfl, rfl, fun q' hq' => ?_, fun _ _ => rfl, rfl⟩
      exact congrArg _ (Function.update_noteq (hname ▸ hvarsApart _ _ _ _ hn.symm hq' hq₀) _ _)
    | @quarksJob j hj =>
      obtain ⟨x, -, he⟩ := Store.createOrUpdate_quarksJob j st
      rw [he]
      exact ⟨rfl, rfl, rfl, rfl, rfl, fun _ _ => rfl,
        fun _ hj' => Function.update_noteq (hjobsApart _ _ _ _ hn.symm hj' hj) _ _, rfl⟩
    | status => exact .refl st
  | @updateStatus other object hn h =>
    refine ⟨?_, apart_updateStatus h ha⟩
    cases h with
    | secret | quarksJob => exact .refl st
    | @quarksSecret q hq =>
      obtain ⟨q₀, hq₀, hname⟩ := hq
      rcases hx : st.quarksSecrets q.name with _ | x
      · simp only [Store.updateStatus, hx]
        exact .refl st
      · rw [Store.updateStatus_quarksSecret hx]
        refine ⟨rfl, rfl, rfl, rfl, rfl, fun q' hq' => ?_, fun _ _ => rfl, rfl⟩
        exact congrArg _ (Function.update_noteq (hname ▸ hvarsApart _ _ _ _ hn.symm hq' hq₀) _ _)
    | status =>
      rw [Store.updateStatus_deployment_store]
      exact ⟨Function.update_noteq (fun he => hn (congrArg NamespacedName.name he).symm) _ _,
        rfl, rfl, rfl, rfl, fun _ _ => rfl, fun _ _ => rfl, rfl⟩

theorem agree_move {w w' : World} (h : Move (Interferes P C deployment) w w')
    (ha : Apart P w.store) : Agree P C deployment w.store w'.store ∧ Apart P w'.store := by
  cases h with
  | generate name =>
    unfold generate
    rcases hx : w.store.quarksSecrets name with _ | x
    · exact ⟨.refl _, ha⟩
    refine ⟨⟨rfl, rfl, rfl, rfl, rfl, fun q _ => ?_, fun _ _ => rfl, rfl⟩, ⟨ha.names, ha.unlinked⟩⟩
    by_cases hn : q.name = name
    · subst hn
      simp [hx]
    · simp only [Function.update_noteq hn]
  | env store h => exact agree_interferes hvarsApart hjobsApart hsecretName h ha

theorem agree_moves {w w' : World}
    (h : Relation.ReflTransGen (Move (Interferes P C deployment)) w w') (ha : Apart P w.store) :
    Agree P C deployment w.store w'.store ∧ Apart P w'.store := by
  induction h with
  | refl => exact ⟨.refl _, ha⟩
  | tail _ hm ih =>
    obtain ⟨hag', ha'⟩ := agree_move hvarsApart hjobsApart hsecretName hm ih.2
    exact ⟨ih.1.trans hag', ha'⟩

variable {σ : Type} {view : σ → World} {K : Cluster σ}
  (hK : Interleaves (Interferes P C deployment) view K)
include hK

theorem related_createOrUpdate {object : Object} (h : ObjectOf P C deployment object) (s : σ)
    (st : Store) (hr : Related P C deployment view s st) :
    ((K.createOrUpdate object s).1 = (Store.cluster.createOrUpdate object st).1 ∧
      Related P C deployment view (K.createOrUpdate object s).2
        (Store.cluster.createOrUpdate object st).2) ∨
      (K.createOrUpdate object s).1.toBool = false := by
  obtain ⟨w, hm, he | ⟨-, hfail, -⟩⟩ := hK.createOrUpdate object s
  swap
  · exact .inr hfail
  obtain ⟨h₁, h₂⟩ := Prod.mk.inj he
  obtain ⟨hag, haw⟩ := agree_moves hvarsApart hjobsApart hsecretName hm hr.2.1
  obtain ⟨hres, hag'⟩ := agree_createOrUpdate h (hr.1.trans hag) hr.2.2 haw
  unfold Related
  rw [h₂]
  exact .inl ⟨h₁.trans hres, hag', apart_createOrUpdate h haw, apart_createOrUpdate h hr.2.2⟩

theorem related_updateStatus {object : Object} (h : ObjectOf P C deployment object) (s : σ)
    (st : Store) (hr : Related P C deployment view s st) :
    ((K.updateStatus object s).1 = (Store.cluster.updateStatus object st).1 ∧
      Related P C deployment view (K.updateStatus object s).2
        (Store.cluster.updateStatus object st).2) ∨
      (K.updateStatus object s).1.isSome ∧ ∀ d, object ≠ .deployment d := by
  obtain ⟨w, hm, he | ⟨hne, hfail, -⟩⟩ := hK.updateStatus object s
  all_goals obtain ⟨hag, haw⟩ := agree_moves hvarsApart hjobsApart hsecretName hm hr.2.1
  · obtain ⟨h₁, h₂⟩ := Prod.mk.inj he
    obtain ⟨hres, hag'⟩ := agree_updateStatus h (hr.1.trans hag)
    unfold Related
    rw [h₂]
    exact .inl ⟨h₁.trans hres, hag', apart_updateStatus h haw, apart_updateStatus h hr.2.2⟩
  · refine .inr ⟨hfail, ?_⟩
    rintro d rfl
    cases h
    exact hne (congrArg (Option.map Object.deployment) hag.entry)

/-- From a store that holds `deployment` and keeps its names apart, its reconcile on the shared
API server answers as the reconcile on the store alone, makes the same calls, and ends in a state
related to the store that one leaves, unless a refused write makes it report an error. -/
theorem reconcile_simulates (hR : ReadsStore view K) (config : Config) (orders : RangeOrders) :
    Simulates (fun res => res.2.isSome)
      (fun s st => st = (view s).store ∧ st.deployments deployment.key = some deployment ∧
        Apart P st) (Related P C deployment view)
      (reconcile P C K config orders deployment.key)
      (reconcile P C Store.cluster config orders deployment.key) := by
  rintro ⟨s, events⟩ ⟨_, _⟩ ⟨rfl, hd, ha⟩ (rfl : events = _)
  have hr : Related P C deployment view s (view s).store := ⟨.refl _, ha, ha⟩
  have hg : K.get deployment.key s = .ok deployment := (hR.get _ _).trans (Store.get_eq_ok.mpr hd)
  unfold reconcile
  simp only [ReconcileM.bind_run, getDeployment_run, hg, Store.cluster_get,
    Store.get_eq_ok.mpr hd, timeNow_run, hR.now, Store.cluster_now]
  by_cases hm : P.meltdownContains config.meltdownDuration deployment.lastReconcile
    (view s).store.clock
  · simp only [hm, if_true]
    exact .inl ⟨rfl, hr, rfl⟩
  simp only [hm, Bool.false_eq_true, if_false, ReconcileM.bind_run, ReconcileM.pure_run]
  rcases resolveManifest C deployment with err | manifest
  · exact .inl ⟨rfl, hr, rfl⟩
  simp only [ReconcileM.bind_run, withListing_run, hR.listing, Store.cluster_listing]
  rcases (listLinkInfos P deployment orders manifest (Store.listing (view s).store)).1.err with
    _ | err
  · exact syncDerived_simulates
      (fun _ h s st hr => related_createOrUpdate hvarsApart hjobsApart hsecretName hK h s st hr)
      (fun _ h s st hr => related_updateStatus hvarsApart hjobsApart hsecretName hK h s st hr)
      (fun s st hr => (hR.now s).trans hr.1.clock) _ _ _ _ _ hr rfl
  · exact .inl ⟨rfl, hr, rfl⟩

section Runs

variable
  (hwithOps : ∀ d lastReconcile ns,
    C.withOpsManifest { d with lastReconcile } ns = C.withOpsManifest d ns)
  (hvars : ∀ name vars quarksSecrets, C.convertVariables name vars = .ok quarksSecrets →
    (quarksSecrets.map QuarksSecret.name).Nodup)
  (hjobs : ∀ name manifest manifest' linkInfos firstGeneration j₁ j₂,
    C.variableInterpolationJob name manifest = .ok j₁ →
    C.instanceGroupManifestJob name manifest' linkInfos firstGeneration = .ok j₂ →
    j₁.name ≠ j₂.name)
include hwithOps hvars hjobs

/-- A reconcile of a deployment that runs while the reconciles of deployments of other names and
the QuarksSecret controller write to the same API server, and that reaches its status update,
leaves the deployment converged, and it stays so whatever those workers write after it. -/
theorem reconcile_shared_convergedAt (hR : ReadsStore view K) (config : Config)
    (orders : RangeOrders) (s : σ)
    (hd : (view s).store.deployments deployment.key = some deployment)
    (ha : Apart P (view s).store)
    (hstatus : ∃ d result, Event.updateStatus (.deployment d) result ∈
      (reconcile P C K config orders deployment.key ⟨s, []⟩).2.events)
    (w : World) (hw : Relation.ReflTransGen (Move (Interferes P C deployment))
      (view (reconcile P C K config orders deployment.key ⟨s, []⟩).2.store) w) :
    ConvergedAt P C deployment.key w.store := by
  obtain ⟨-, hrel, hev⟩ | herr := reconcile_simulates hvarsApart hjobsApart hsecretName hK hR
    config orders ⟨s, []⟩ ⟨(view s).store, []⟩ ⟨rfl, hd, ha⟩ rfl
  swap
  · -- A run that reaches its status update reports no error, so no write of it was refused.
    simp [reconcile_succeeds_of_status config orders deployment.key ⟨s, []⟩ nofun hstatus] at herr
  have halone := convergedAt_reconcile hvarsApart hjobsApart hsecretName hwithOps hvars hjobs
    config orders deployment.key _ ha deployment.key (.inr ⟨rfl, hev ▸ hstatus⟩)
  exact (agree_moves hvarsApart hjobsApart hsecretName hw hrel.2.1).1.convergedAt
    (hrel.1.convergedAt halone)

end Runs

end Apartness

def otherFirst (other : Object) : Cluster World where
  get key w := Store.get key w.store
  listing w := Store.listing w.store
  now w := w.store.clock
  createOrUpdate object w := Interleave.World.call (Store.createOrUpdate object)
    ⟨(Store.createOrUpdate other w.store).2, w.generatedFor⟩
  updateStatus object w := Interleave.World.call (Store.updateStatus object)
    ⟨(Store.createOrUpdate other w.store).2, w.generatedFor⟩

theorem readsStore_otherFirst (other : Object) : ReadsStore id (otherFirst other) :=
  ⟨fun _ _ => rfl, fun _ => rfl, fun _ => rfl⟩

theorem interleaves_otherFirst {P : Packages} {C : Collaborators}
    {deployment other : BOSHDeployment} {object : Object} (hn : other.name ≠ deployment.name)
    (h : ObjectOf P C other object) :
    Interleaves (Interferes P C deployment) id (otherFirst object) where
  createOrUpdate _ w := ⟨_, .single (.env w _ (.createOrUpdate hn h w.store)), .inl rfl⟩
  updateStatus _ w := ⟨_, .single (.env w _ (.createOrUpdate hn h w.store)), .inl rfl⟩

def uaaFirst : Cluster World :=
  otherFirst (.secret (manifestWithOpsSecret linklessPackages uaaDeployment "uaa"))

/- The error is no artefact: where the QuarksSecret controller marks `var-a` generated just before
the reconciler resets it, the reset is refused with a conflict and the shared run reports it,
while the run alone succeeds. -/
example :
    (reconcile samplePackages (sampleCollaborators [⟨"var-a", "certificate", false⟩])
      Interleave.generateBeforeReset sampleConfig sampleOrders sampleDeployment.key
      ⟨⟨{ generatedStore with quarksSecrets := fun name =>
        if name = "var-a" then some ⟨"var-a", "password", false⟩ else none }, fun _ => none⟩,
        []⟩).1.2.isSome ∧
    (reconcile samplePackages (sampleCollaborators [⟨"var-a", "certificate", false⟩])
      Store.cluster sampleConfig sampleOrders sampleDeployment.key
      ⟨{ generatedStore with quarksSecrets := fun name =>
        if name = "var-a" then some ⟨"var-a", "password", false⟩ else none }, []⟩).1.2 = none := by
  decide

theorem reconcile_shared_convergedAt_sample :
    ConvergedAt linklessPackages namedCollaborators sampleDeployment.key
      (reconcile linklessPackages namedCollaborators uaaFirst sampleConfig sampleOrders
        sampleDeployment.key ⟨⟨pairStore, fun _ => none⟩, []⟩).2.store.store :=
  reconcile_shared_convergedAt namedCollaborators_varsApart namedCollaborators_jobsApart
    linklessPackages_secretName (interleaves_otherFirst (by decide) (.secret "uaa"))
    namedCollaborators_withOpsManifest namedCollaborators_vars_nodup namedCollaborators_jobs_ne
    (readsStore_otherFirst _) sampleConfig sampleOrders ⟨pairStore, fun _ => none⟩
    (show pairStore.deployments sampleDeployment.key = some sampleDeployment from rfl)
    pairStore_apart
    ⟨{ sampleDeployment with lastReconcile := some (100 * second) }, none, by decide⟩ _ .refl

end CfOperator.Workers
