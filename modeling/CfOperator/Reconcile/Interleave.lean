import CfOperator.Reconcile.Handshake
import CfOperator.Reconcile.Reset

namespace CfOperator.Interleave

open Steps Effects Results Idempotence Regenerate
open Handshake (World generate Honest Tick honest_of_regenerates)

/-- A step of the other controllers: the QuarksSecret controller on any name, and any change `E`
allows the rest of the cluster. -/
inductive Move (E : Store → Store → Prop) : World → World → Prop
  | generate (w : World) (name : String) : Move E w (generate w name)
  | env (w : World) (store : Store) (h : E w.store store) : Move E w ⟨store, w.generatedFor⟩

def World.call {α : Type} (f : Store → α × Store) (w : World) : α × World :=
  ((f w.store).1, ⟨(f w.store).2, w.generatedFor⟩)

/-- The object the store holds under `object`'s key: a write of `object` prepared against one
store fails on its resourceVersion against a store where this has changed. -/
def stored : Object → Store → Option Object
  | .secret x, st => (st.secrets.find? (·.key = x.key)).map .secret
  | .quarksSecret q, st => (st.quarksSecrets q.name).map .quarksSecret
  | .quarksJob j, st => (st.quarksJobs j.name).map .quarksJob
  | .deployment d, st => (st.deployments d.key).map .deployment

/-- The API server the reconciler shares with the other controllers. A state `s` of the server
shows the world `view s`, and before each write the other controllers may take any moves. The
write then applies to the world they leave, or, when they changed the object it writes, fails
with a conflict and changes nothing. -/
structure Interleaves {σ : Type} (E : Store → Store → Prop) (view : σ → World) (K : Cluster σ) :
    Prop where
  createOrUpdate : ∀ object s, ∃ w, Relation.ReflTransGen (Move E) (view s) w ∧
    (((K.createOrUpdate object s).1, view (K.createOrUpdate object s).2) =
        World.call (Store.createOrUpdate object) w ∨
      stored object w.store ≠ stored object (view s).store ∧
        (K.createOrUpdate object s).1.toBool = false ∧ view (K.createOrUpdate object s).2 = w)
  updateStatus : ∀ object s, ∃ w, Relation.ReflTransGen (Move E) (view s) w ∧
    (((K.updateStatus object s).1, view (K.updateStatus object s).2) =
        World.call (Store.updateStatus object) w ∨
      stored object w.store ≠ stored object (view s).store ∧
        (K.updateStatus object s).1.isSome ∧ view (K.updateStatus object s).2 = w)

def HonestAt (name : String) (w : World) : Prop :=
  ∀ x, w.store.quarksSecrets name = some x → x.generated = true → w.generatedFor name = some x.spec

def HonestBut (name : String) (w : World) : Prop := ∀ name', name' ≠ name → HonestAt name' w

theorem honest_of_honestBut {w : World} {name : String} (h : HonestBut name w)
    (hat : HonestAt name w) : Honest w := fun name' =>
  if hn : name' = name then hn ▸ hat else h name' hn

variable {E : Store → Store → Prop}
  (hE : ∀ st st', E st st' → ∀ name x, st'.quarksSecrets name = some x →
    st.quarksSecrets name = some x)

include hE in
theorem honestAt_move {w w' : World} (h : Move E w w') {name : String} (hw : HonestAt name w) :
    HonestAt name w' := by
  cases h with
  | generate name' =>
    unfold generate
    rcases hx : w.store.quarksSecrets name' with _ | x
    · exact hw
    by_cases hn : name = name'
    · subst hn
      intro y hy _
      simp only [Function.update_same, Option.some.injEq] at hy ⊢
      exact hy ▸ rfl
    · intro y hy hg
      simp only [Function.update_noteq hn] at hy ⊢
      exact hw y hy hg
  | env store h => exact fun x hx => hw x (hE _ _ h name x hx)

include hE in
theorem honestAt_moves {w w' : World} (h : Relation.ReflTransGen (Move E) w w') {name : String}
    (hw : HonestAt name w) : HonestAt name w' := by
  induction h with
  | refl => exact hw
  | tail _ hm ih => exact honestAt_move hE hm ih

include hE in
theorem honestAt_move_of_changed {w w' : World} (h : Move E w w') {name : String}
    (hc : w'.store.quarksSecrets name ≠ w.store.quarksSecrets name) : HonestAt name w' := by
  cases h with
  | generate name' =>
    unfold generate at hc ⊢
    rcases hx : w.store.quarksSecrets name' with _ | x <;> simp only [hx] at hc ⊢
    · exact absurd rfl hc
    by_cases hn : name = name'
    · subst hn
      intro y hy _
      simp only [Function.update_same, Option.some.injEq] at hy ⊢
      exact hy ▸ rfl
    · simp only [Function.update_noteq hn] at hc
      exact absurd rfl hc
  | env store h => exact fun x hx _ => absurd (hx.trans (hE _ _ h name x hx).symm) hc

include hE in
theorem honestAt_of_changed {w w' : World} (h : Relation.ReflTransGen (Move E) w w')
    {q : QuarksSecret}
    (hc : stored (.quarksSecret q) w'.store ≠ stored (.quarksSecret q) w.store) :
    HonestAt q.name w' := by
  induction h with
  | refl => exact absurd rfl hc
  | @tail w₁ w₂ _ hm ih =>
    by_cases h₁ : stored (.quarksSecret q) w₁.store = stored (.quarksSecret q) w.store
    · exact honestAt_move_of_changed hE hm fun h =>
        hc ((congrArg (Option.map Object.quarksSecret) h).trans h₁)
    · exact honestAt_move hE hm (ih h₁)

theorem honestAt_call_of_same {α : Type} {f : Store → α × Store}
    (hf : ∀ st, SameQuarksSecrets st (f st).2) {w : World} {name : String}
    (hw : HonestAt name w) : HonestAt name (World.call f w).2 := fun x hx =>
  hw x ((congrFun (hf w.store) name).symm.trans hx)

theorem honestBut_createOrUpdate {w : World} (hw : Honest w) (q : QuarksSecret) :
    HonestBut q.name (World.call (Store.createOrUpdate (.quarksSecret q)) w).2 :=
  fun name hn x hx =>
    hw name x ((Store.quarksSecrets_createOrUpdate_of_ne hn w.store).symm.trans hx)

theorem honest_createOrUpdate {w : World} (hw : Honest w) {q : QuarksSecret} {op : OperationResult}
    (hc : (Store.createOrUpdate (.quarksSecret q) w.store).1 = .ok op) (hop : op ≠ .updated) :
    Honest (World.call (Store.createOrUpdate (.quarksSecret q)) w).2 := by
  have hs := (Store.createOrUpdate_quarksSecret_turn (Prod.ext hc rfl :
    Store.createOrUpdate (.quarksSecret q) w.store =
      (.ok op, (Store.createOrUpdate (.quarksSecret q) w.store).2))).2 hop
  refine honest_of_regenerates (w := w) ?_ hw
  rw [hs]
  exact regenerates_turn _ q

theorem honest_reset {q : QuarksSecret} {w : World} (hw : HonestBut q.name w) :
    Honest (World.call (Store.updateStatus (.quarksSecret { q with generated := false })) w).2 := by
  intro name x hx hg
  rcases hq : w.store.quarksSecrets q.name with _ | y
  · have hs : (Store.updateStatus (.quarksSecret { q with generated := false }) w.store).2 =
        w.store := Store.updateStatus_of_isSome (by simp [Store.updateStatus, hq])
    simp only [World.call, hs] at hx ⊢
    by_cases hn : name = q.name
    · rw [hn, hq] at hx
      cases hx
    · exact hw name hn x hx hg
  · rw [World.call, Store.updateStatus_quarksSecret (q := { q with generated := false }) hq] at hx
    by_cases hn : name = q.name
    · subst hn
      simp only [Function.update_same, Option.some.injEq] at hx
      rw [← hx] at hg
      cases hg
    · simp only [Function.update_noteq hn] at hx
      exact hw name hn x hx hg

section Shared

variable {σ : Type} {P : Packages} {C : Collaborators} {view : σ → World} {K : Cluster σ}
  (hK : Interleaves E view K)

def KeepsHonest (view : σ → World) (s s' : σ) : Prop := Honest (view s) → Honest (view s')

instance isPreorder_keepsHonest : IsPreorder σ (KeepsHonest view) where
  refl _ := id
  trans _ _ _ h₁ h₂ h := h₂ (h₁ h)

include hE

theorem honest_moves {w w' : World} (h : Relation.ReflTransGen (Move E) w w') (hw : Honest w) :
    Honest w' := fun name => honestAt_moves hE h (hw name)

theorem honestBut_moves {w w' : World} (h : Relation.ReflTransGen (Move E) w w') {name : String}
    (hw : HonestBut name w) : HonestBut name w' := fun name' hn => honestAt_moves hE h (hw name' hn)

include hK

theorem keepsHonest_createOrUpdate {object : Object}
    (hf : ∀ st, SameQuarksSecrets st (Store.createOrUpdate object st).2) (s : σ) :
    KeepsHonest view s (K.createOrUpdate object s).2 := fun hs => by
  obtain ⟨w, hm, he | ⟨-, -, hv⟩⟩ := hK.createOrUpdate object s
  · rw [(Prod.mk.inj he).2]
    exact fun name => honestAt_call_of_same hf (honest_moves hE hm hs name)
  · exact hv ▸ honest_moves hE hm hs

theorem keepsHonest_updateStatus {object : Object}
    (hf : ∀ st, SameQuarksSecrets st (Store.updateStatus object st).2) (s : σ) :
    KeepsHonest view s (K.updateStatus object s).2 := fun hs => by
  obtain ⟨w, hm, he | ⟨-, -, hv⟩⟩ := hK.updateStatus object s
  · rw [(Prod.mk.inj he).2]
    exact fun name => honestAt_call_of_same hf (honest_moves hE hm hs name)
  · exact hv ▸ honest_moves hE hm hs

theorem reset_honest {var : QuarksSecret} {s : σ} (hbut : HonestBut var.name (view s)) :
    Honest (view (K.updateStatus (.quarksSecret { var with generated := false }) s).2) := by
  obtain ⟨w, hm, he | ⟨hc, -, hv⟩⟩ :=
    hK.updateStatus (.quarksSecret { var with generated := false }) s
  · rw [(Prod.mk.inj he).2]
    exact honest_reset (honestBut_moves hE hm hbut)
  · rw [hv]
    exact honest_of_honestBut (honestBut_moves hE hm hbut) (honestAt_of_changed hE hm hc)

theorem createQuarksSecrets_honest (manifestSecret : Secret) :
    ∀ (vars : List QuarksSecret) (r : Run σ), Honest (view r.store) →
      Honest (view (createQuarksSecrets C K manifestSecret vars r).2.store)
  | [], _, hr => hr
  | var :: vars, r, hr => by
    obtain ⟨w, hm, he | ⟨-, herr, hview⟩⟩ := hK.createOrUpdate (.quarksSecret var) r.store
    · obtain ⟨hres, hview⟩ := Prod.mk.inj he
      have hw := honest_moves hE hm hr
      rcases createQuarksSecrets_cons manifestSecret var vars r with
        ⟨hnw, -, hstop⟩ | ⟨op, s, -, hc, h⟩
      · -- An applied write succeeds, so only a reference fails, before any write.
        rw [hstop]
        unfold storeAfter
        split
        · exact hr
        · rename_i href
          obtain ⟨op, hop⟩ := Store.createOrUpdate_ok (.quarksSecret var) w.store
          exact absurd ⟨href, by rw [hres, hop]; rfl⟩ hnw
      rw [hc] at hres hview
      split_ifs at h with hop
      · -- The window: `var` holds its new spec with its old status until the reset.
        have hbut : HonestBut var.name (view s) := hview ▸ honestBut_createOrUpdate hw var
        have hreset := reset_honest hE hK hbut
        rcases h with ⟨-, -, he⟩ | ⟨-, he⟩ <;> rw [he]
        · exact hreset
        · exact createQuarksSecrets_honest manifestSecret vars _ hreset
      · rw [h]
        exact createQuarksSecrets_honest manifestSecret vars _
          (hview ▸ honest_createOrUpdate hw hres.symm hop)
    · -- A write refused on a conflict stops the loop in the world the moves left.
      rcases createQuarksSecrets_cons manifestSecret var vars r with
        ⟨-, -, hstop⟩ | ⟨op, s, -, hc, -⟩
      · rw [hstop]
        unfold storeAfter
        split
        · exact hr
        · exact hview ▸ honest_moves hE hm hr
      · rw [hc] at herr
        cases herr

theorem syncDerived_honest (request : NamespacedName) (deployment : BOSHDeployment)
    (manifest : Manifest) (linkInfos : LinkInfos) (r : Run σ) (hr : Honest (view r.store)) :
    Honest (view (syncDerived P C K request deployment manifest linkInfos r).2.store) := by
  unfold syncDerived
  have h₀ : KeepsHonest view r.store (createManifestWithOps P C K deployment manifest r).2.store :=
    createManifestWithOps_keeps
      (fun _ => keepsHonest_createOrUpdate hE hK (sameQuarksSecrets_createOrUpdate_secret _))
      manifest r
  replace h₀ := h₀ hr
  simp only [ReconcileM.bind_run]
  rcases (createManifestWithOps P C K deployment manifest r).1 with err | ms
  · exact h₀
  rcases C.convertVariables deployment.name manifest.vars with err | vars
  · exact h₀
  simp only [ite_createQuarksSecrets, ReconcileM.bind_run]
  have h₁ := createQuarksSecrets_honest hE hK (C := C) ms vars _ h₀
  rcases (createQuarksSecrets C K ms vars _).1 with _ | err
  · exact syncJobs_keeps (R := KeepsHonest view)
      (fun _ => keepsHonest_updateStatus hE hK (sameQuarksSecrets_updateStatus_deployment _))
      (fun _ => keepsHonest_createOrUpdate hE hK (sameQuarksSecrets_createOrUpdate_quarksJob _))
      request manifest linkInfos _ h₁
  · exact h₁

theorem reconcile_honest (config : Config) (orders : RangeOrders) (request : NamespacedName)
    (r : Run σ) (hr : Honest (view r.store)) :
    Honest (view (reconcile P C K config orders request r).2.store) := by
  rcases @reconcile_cases σ P C K config orders request r with
    ⟨_, -, -, he⟩ | ⟨_, -, -, -, he⟩ | ⟨_, _, -, -, -, -, he⟩ | ⟨_, _, _, -, -, -, -, -, he⟩ |
      ⟨deployment, manifest, -, -, -, -, he⟩ <;> rw [he]
  iterate 4 exact hr
  exact syncDerived_honest hE hK request deployment _ _ _ hr

end Shared

/-- The steps of the system where the other controllers also act within a reconcile: a reconcile
of any request on an API server shared with them, and any move of theirs. -/
inductive Step (P : Packages) (C : Collaborators) (config : Config) (E : Store → Store → Prop) :
    World → World → Prop
  | reconcile {σ : Type} (view : σ → World) (K : Cluster σ) (hK : Interleaves E view K) (s : σ)
      (orders : RangeOrders) (request : NamespacedName) :
      Step P C config E (view s)
        (view (CfOperator.reconcile P C K config orders request ⟨s, []⟩).2.store)
  | move (w w' : World) (h : Move E w w') : Step P C config E w w'

variable {P : Packages} {C : Collaborators} {config : Config}

include hE

theorem honest_of_step {w w' : World} (h : Step P C config E w w') (hw : Honest w) : Honest w' := by
  cases h with
  | reconcile view K hK s orders request => exact reconcile_honest hE hK config orders request _ hw
  | move _ _ h => exact fun name => honestAt_move hE h (hw name)

omit hE

/-- The API server on which the QuarksSecret controller runs on each QuarksSecret just before the
reconciler resets its status; the reset fails with a conflict when that changed the
QuarksSecret. -/
def generateBeforeReset : Cluster World where
  get key w := Store.get key w.store
  listing w := Store.listing w.store
  now w := w.store.clock
  createOrUpdate object := World.call (Store.createOrUpdate object)
  updateStatus object w :=
    match object with
    | .quarksSecret q =>
      if stored object (generate w q.name).store = stored object w.store then
        World.call (Store.updateStatus object) (generate w q.name)
      else (some (.status .other "conflict"), generate w q.name)
    | _ => World.call (Store.updateStatus object) w

theorem interleaves_generateBeforeReset (E : Store → Store → Prop) :
    Interleaves E id generateBeforeReset where
  createOrUpdate _ w := ⟨w, .refl, .inl rfl⟩
  updateStatus object w := by
    cases object with
    | quarksSecret q =>
      refine ⟨generate w q.name, .single (.generate w q.name), ?_⟩
      by_cases hc : stored (.quarksSecret q) (generate w q.name).store =
          stored (.quarksSecret q) w.store
      · exact .inl (by simp only [generateBeforeReset, hc, if_true, id])
      · exact .inr ⟨hc, by simp only [generateBeforeReset, hc, if_false]; rfl,
          by simp only [generateBeforeReset, hc, if_false, id]⟩
    | secret | quarksJob | deployment => exact ⟨w, .refl, .inl rfl⟩

def generatedWorld : World :=
  ⟨generatedStore, fun name => if name = "var-a" then some "password" else none⟩

theorem generatedWorld_honest : Honest generatedWorld := by
  intro name x hx _
  simp only [generatedWorld, generatedStore] at hx ⊢
  split_ifs at hx ⊢ with h
  cases hx
  rfl

/- In that run the QuarksSecret controller generates `var-a` for its new spec inside the window,
and the reset then leaves it to be generated once more. -/
example : (reconcile samplePackages (sampleCollaborators [⟨"var-a", "certificate", false⟩])
      generateBeforeReset sampleConfig sampleOrders sampleDeployment.key
      ⟨generatedWorld, []⟩).2.store.generatedFor "var-a" = some "certificate" ∧
    (reconcile samplePackages (sampleCollaborators [⟨"var-a", "certificate", false⟩])
      generateBeforeReset sampleConfig sampleOrders sampleDeployment.key
      ⟨generatedWorld, []⟩).2.store.store.quarksSecrets "var-a" =
      some ⟨"var-a", "certificate", false⟩ := by
  decide

end CfOperator.Interleave
