import CfOperator.Reconcile.Steps
import CfOperator.LinkInfos.Congr

namespace CfOperator.Determinism

open Steps Spec Congr

variable {σ : Type}

/-- `m` reads only the store: run after any calls, it answers as it does after none, and adds its
own calls after them. -/
def Oblivious {α : Type} (m : ReconcileM σ α) : Prop :=
  ∀ r : Run σ, m r = ((m ⟨r.store, []⟩).1,
    ⟨(m ⟨r.store, []⟩).2.store, r.events ++ (m ⟨r.store, []⟩).2.events⟩)

namespace Oblivious

variable {α β : Type}

theorem pure (a : α) : Oblivious (Pure.pure a : ReconcileM σ α) := fun r => by
  simp

theorem bind {m : ReconcileM σ α} {f : α → ReconcileM σ β} (hm : Oblivious m)
    (hf : ∀ a, Oblivious (f a)) : Oblivious (m >>= f) := fun r => by
  simp only [ReconcileM.bind_run]
  rw [hm r, hf _ ⟨_, r.events ++ _⟩, hf _ (m ⟨r.store, []⟩).2, List.append_assoc]

theorem runs_congr {m : ReconcileM σ α} (h : Oblivious m) (st : σ) (events events' : List Event) :
    (m ⟨st, events'⟩).2.store = (m ⟨st, events⟩).2.store ∧
      (m ⟨st, events'⟩).1 = (m ⟨st, events⟩).1 ∧
    ∃ rest, (m ⟨st, events⟩).2.events = events ++ rest ∧
      (m ⟨st, events'⟩).2.events = events' ++ rest := by
  rw [h ⟨st, events⟩, h ⟨st, events'⟩]
  exact ⟨rfl, rfl, _, rfl, rfl⟩

theorem ite {c : Prop} [Decidable c] {m m' : ReconcileM σ α} (hm : Oblivious m)
    (hm' : Oblivious m') : Oblivious (if c then m else m') := by
  split
  exacts [hm, hm']

end Oblivious

section

variable (P : Packages) (C : Collaborators) (cluster : Cluster σ)

theorem timeNow_oblivious : Oblivious (timeNow cluster) := fun _ => by simp

theorem setReference_oblivious (owner object : Object) :
    Oblivious (setReference C owner object : ReconcileM σ _) := fun _ => by simp

theorem createOrUpdate_oblivious (object : Object) : Oblivious (createOrUpdate cluster object) :=
  fun _ => by simp

theorem updateStatus_oblivious (object : Object) : Oblivious (updateStatus cluster object) :=
  fun _ => by simp

theorem createQuarksSecrets_oblivious (manifestSecret : Secret) :
    ∀ vars, Oblivious (createQuarksSecrets C cluster manifestSecret vars)
  | [] => .pure _
  | var :: vars => by
    rw [createQuarksSecrets]
    refine .bind (setReference_oblivious C _ _) fun ref => ?_
    rcases ref with _ | err
    · refine .bind (createOrUpdate_oblivious cluster _) fun res => ?_
      rcases res with err | op
      · exact .pure _
      · refine .ite (.bind (updateStatus_oblivious cluster _) fun reset => ?_)
          (createQuarksSecrets_oblivious manifestSecret vars)
        rcases reset with _ | err
        exacts [createQuarksSecrets_oblivious manifestSecret vars, .pure _]
    · exact .pure _

theorem createQuarksJob_oblivious (deployment : BOSHDeployment) (qJob : QuarksJob) :
    Oblivious (createQuarksJob C cluster deployment qJob) := by
  refine .bind (setReference_oblivious C _ _) fun ref => ?_
  rcases ref with _ | err
  · refine .bind (createOrUpdate_oblivious cluster _) fun res => ?_
    rcases res with err | op <;> exact .pure _
  · exact .pure _

theorem createManifestWithOps_oblivious (deployment : BOSHDeployment) (manifest : Manifest) :
    Oblivious (createManifestWithOps P C cluster deployment manifest) := by
  unfold createManifestWithOps
  rcases P.marshal manifest with err | bytes
  · exact .pure _
  refine .bind (setReference_oblivious C _ _) fun ref => ?_
  rcases ref with _ | err
  · refine .bind (createOrUpdate_oblivious cluster _) fun res => ?_
    rcases res with err | op <;> exact .pure _
  · exact .pure _

theorem syncJobs_oblivious (request : NamespacedName) (deployment : BOSHDeployment)
    (manifest : Manifest) (linkInfos : LinkInfos) :
    Oblivious (syncJobs C cluster request deployment manifest linkInfos) := by
  unfold syncJobs
  rcases C.variableInterpolationJob deployment.name manifest with err | job₁
  · exact .pure _
  refine .bind (createQuarksJob_oblivious C cluster deployment job₁) fun res₁ => ?_
  rcases res₁ with _ | err
  swap
  · exact .pure _
  rcases C.instanceGroupManifestJob deployment.name manifest linkInfos
    (deployment.generation == 1) with err | job₂
  · exact .pure _
  refine .bind (createQuarksJob_oblivious C cluster deployment job₂) fun res₂ => ?_
  rcases res₂ with _ | err
  swap
  · exact .pure _
  refine .bind (timeNow_oblivious cluster) fun now => ?_
  refine .bind (updateStatus_oblivious cluster _) fun res => ?_
  rcases res with _ | err <;> exact .pure _

theorem syncDerived_oblivious (request : NamespacedName) (deployment : BOSHDeployment)
    (manifest : Manifest) (linkInfos : LinkInfos) :
    Oblivious (syncDerived P C cluster request deployment manifest linkInfos) := by
  unfold syncDerived
  refine .bind (createManifestWithOps_oblivious P C cluster deployment manifest) fun ms => ?_
  rcases ms with err | ms
  · exact .pure _
  rcases C.convertVariables deployment.name manifest.vars with err | vars
  · exact .pure _
  refine .bind (.ite (createQuarksSecrets_oblivious C cluster ms vars) (.pure _)) fun res => ?_
  rcases res with _ | err
  exacts [syncJobs_oblivious C cluster request deployment manifest linkInfos, .pure _]

end

section Orders

variable {P : Packages} {deployment : BOSHDeployment}

theorem err_orders_congr (orders orders' : RangeOrders) (manifest : Manifest) (l : Listing) :
    (listLinkInfos P deployment orders manifest l).1.err = none ↔
      (listLinkInfos P deployment orders' manifest l).1.err = none := by
  by_cases h : P.listMissingProviders manifest = ∅
  · simp [listLinkInfos_of_empty _ h]
  rw [err_eq_none_iff orders h, err_eq_none_iff orders' h]

theorem linked_orders_congr (orders orders' : RangeOrders) (manifest : Manifest) (l : Listing)
    (hl : (listLinkInfos P deployment orders manifest l).1.err = none)
    (hl' : (listLinkInfos P deployment orders' manifest l).1.err = none) :
    (listLinkInfos P deployment orders' manifest l).1.linkInfos =
      (listLinkInfos P deployment orders manifest l).1.linkInfos ∧
    (listLinkInfos P deployment orders' manifest l).1.manifest =
      (listLinkInfos P deployment orders manifest l).1.manifest := by
  by_cases h : P.listMissingProviders manifest = ∅
  · simp [listLinkInfos_of_empty _ h]
  obtain ⟨_, _, hs, -⟩ := (err_eq_none_iff orders h l).mp hl
  exact linked_congr orders orders' manifest hs hs rfl rfl rfl hl hl'

end Orders

variable {P : Packages} {C : Collaborators} {cluster : Cluster σ}

/-- The orders of the map iterations decide neither what a reconcile leaves in the store, nor the
result it returns, nor whether it fails; its calls differ at most in the `List` calls of link
resolution. -/
theorem reconcile_orders_independent (config : Config) (orders orders' : RangeOrders)
    (request : NamespacedName) (r : Run σ) :
    (reconcile P C cluster config orders' request r).2.store =
      (reconcile P C cluster config orders request r).2.store ∧
    (reconcile P C cluster config orders' request r).1.1 =
      (reconcile P C cluster config orders request r).1.1 ∧
    ((reconcile P C cluster config orders' request r).1.2 = none ↔
      (reconcile P C cluster config orders request r).1.2 = none) ∧
    ∃ (calls calls' : List ListCall) (rest : List Event),
      (reconcile P C cluster config orders request r).2.events =
        r.events ++ [.get request] ++ calls.map .list ++ rest ∧
      (reconcile P C cluster config orders' request r).2.events =
        r.events ++ [.get request] ++ calls'.map .list ++ rest := by
  -- Both runs take the same branch: the tests before link resolution read only the store, and
  -- whether link resolution fails does not depend on the orders.
  rcases @reconcile_cases σ P C cluster config orders request r with
    ⟨err, hg, h₁, h₂⟩ | ⟨d, hg, hm, h₁, h₂⟩ | ⟨d, err, hg, hm, hres, h₁, h₂⟩ |
      ⟨d, m, err, hg, hm, hres, hl, h₁, h₂⟩ | ⟨d, m, hg, hm, hres, hl, he⟩ <;>
  rcases @reconcile_cases σ P C cluster config orders' request r with
    ⟨err', hg', h₁', h₂'⟩ | ⟨d', hg', hm', h₁', h₂'⟩ | ⟨d', err', hg', hm', hres', h₁', h₂'⟩ |
      ⟨d', m', err', hg', hm', hres', hl', h₁', h₂'⟩ | ⟨d', m', hg', hm', hres', hl', he'⟩ <;>
  rw [hg] at hg' <;> cases hg'
  all_goals try (rw [hm] at hm'; cases hm')
  all_goals try (rw [hres] at hres'; cases hres')
  iterate 3
    rw [h₁, h₁', h₂, h₂']
    exact ⟨rfl, rfl, Iff.rfl, [], [], [], by simp, by simp⟩
  · rw [h₁, h₁', h₂, h₂']
    exact ⟨rfl, rfl, by simp, _, _, [], (List.append_nil _).symm, (List.append_nil _).symm⟩
  · exact absurd ((err_orders_congr orders orders' m _).mpr hl') (by simp [hl])
  · exact absurd ((err_orders_congr orders orders' m _).mp hl) (by simp [hl'])
  · set linked := listLinkInfos P d orders m (cluster.listing r.store)
    set linked' := listLinkInfos P d orders' m (cluster.listing r.store)
    obtain ⟨hli, hman⟩ := linked_orders_congr orders orders' m _ hl hl'
    rw [he, he', hli, hman]
    obtain ⟨hs, hr, rest, he₁, he₂⟩ :=
      (syncDerived_oblivious P C cluster request d linked.1.manifest linked.1.linkInfos).runs_congr
        r.store (r.events ++ [.get request] ++ linked.2.map .list)
        (r.events ++ [.get request] ++ linked'.2.map .list)
    exact ⟨hs, by rw [hr], by rw [hr], _, _, rest, he₁, he₂⟩

end CfOperator.Determinism
