import CfOperator.Reconcile.Regenerate

namespace CfOperator.Handshake

open Writes Fixpoint Regenerate Results Idempotence

/-- The store, and per QuarksSecret name the spec its secret was last generated for. -/
structure World where
  store : Store
  generatedFor : String → Option String

/-- The QuarksSecret controller on `name`: it generates the secret for the stored spec and marks
the QuarksSecret generated. -/
def generate (w : World) (name : String) : World :=
  match w.store.quarksSecrets name with
  | none => w
  | some x =>
    ⟨{ w.store with
        quarksSecrets :=
          Function.update w.store.quarksSecrets name (some { x with generated := true }) },
      Function.update w.generatedFor name (some x.spec)⟩

/-- The steps of the system: a reconcile of any request on any cached client `L` allows, the
QuarksSecret controller on any name, and any change `E` allows the rest of the cluster (users,
the garbage collector, the clock). -/
inductive Step (P : Packages) (C : Collaborators) (config : Config)
    (L : (Store → Listing) → Prop) (E : Store → Store → Prop) : World → World → Prop
  | reconcile (w : World) (cached : Store → Listing) (hL : L cached) (orders : RangeOrders)
      (request : NamespacedName) :
      Step P C config L E w
        ⟨(CfOperator.reconcile P C (Store.cachedCluster cached) config orders request
          ⟨w.store, []⟩).2.store, w.generatedFor⟩
  | generate (w : World) (name : String) : Step P C config L E w (generate w name)
  | env (w : World) (store : Store) (h : E w.store store) :
      Step P C config L E w ⟨store, w.generatedFor⟩

def Tick (st st' : Store) : Prop := ∃ clock, st' = { st with clock }

/-- Every QuarksSecret marked generated has its secret generated for its current spec. -/
def Honest (w : World) : Prop :=
  ∀ name x, w.store.quarksSecrets name = some x → x.generated = true →
    w.generatedFor name = some x.spec

variable {P : Packages} {C : Collaborators} {config : Config} {L : (Store → Listing) → Prop}
  {E : Store → Store → Prop}

theorem honest_of_regenerates {w : World} {store : Store}
    (h : Regenerates w.store.quarksSecrets store.quarksSecrets) (hw : Honest w) :
    Honest ⟨store, w.generatedFor⟩ := by
  intro name x' hx' hg
  obtain ⟨x, hx, hs, hg'⟩ := h name x' hx' hg
  exact hs ▸ hw name x hx hg'

theorem honest_generate {w : World} (hw : Honest w) (name : String) : Honest (generate w name) := by
  unfold generate
  rcases hx : w.store.quarksSecrets name with _ | x
  · exact hw
  intro name' x' hx' hg
  by_cases hn : name' = name
  · subst hn
    simp only [Function.update_same, Option.some.injEq] at hx' ⊢
    exact hx' ▸ rfl
  · simp only [Function.update_noteq hn] at hx' ⊢
    exact hw name' x' hx' hg

theorem honest_step
    (hE : ∀ st st', E st st' → ∀ name x, st'.quarksSecrets name = some x →
      st.quarksSecrets name = some x)
    {w w' : World} (h : Step P C config L E w w') (hw : Honest w) : Honest w' := by
  cases h with
  | reconcile cached _ orders request =>
    obtain ⟨pre, -, hs⟩ := reconcile_quarksSecrets (P := P) (C := C) cached config orders request
      ⟨w.store, []⟩
    refine honest_of_regenerates ?_ hw
    rw [hs]
    exact regenerates_foldl pre _
  | generate name => exact honest_generate hw name
  | env store h => exact fun name x hx => hw name x (hE _ _ h name x hx)

/-- Across any interleaving of reconciles of any requests on any cached clients, the QuarksSecret
controller and changes of the rest of the cluster that keep or delete each QuarksSecret, a
QuarksSecret marked generated has had its secret generated for its current spec: the reconciler
never leaves a stale secret marked generated for a spec it wrote. -/
theorem reachable_honest
    (hE : ∀ st st', E st st' → ∀ name x, st'.quarksSecrets name = some x →
      st.quarksSecrets name = some x)
    {w w' : World} (hw : Honest w) (h : Relation.ReflTransGen (Step P C config L E) w w') :
    Honest w' := by
  induction h with
  | refl => exact hw
  | tail _ hs ih => exact honest_step hE hs ih

def sampleWorld : World := ⟨sampleStore, fun _ => none⟩

theorem sampleWorld_honest : Honest sampleWorld := fun _ _ h => nomatch h

theorem reachable_honest_sample :
    Honest (generate
      ⟨(reconcile samplePackages (sampleCollaborators [⟨"var-a", "password", false⟩])
        (Store.cachedCluster reversedListing) sampleConfig sampleOrders sampleDeployment.key
        ⟨sampleStore, []⟩).2.store, fun _ => none⟩ "var-a") :=
  reachable_honest (L := fun _ => True) (E := Tick) (w := sampleWorld)
    (fun _ _ ⟨_, h⟩ _ _ hx => by subst h; exact hx) sampleWorld_honest
    (.tail (.single (.reconcile _ _ trivial _ _)) (.generate _ _))

theorem holds_of_specs {plan : Plan} {st st' : Store} (h : Holds plan st)
    (hs : st'.secrets = st.secrets)
    (hq : ∀ name x, st.quarksSecrets name = some x →
      ∃ x', st'.quarksSecrets name = some x' ∧ x'.spec = x.spec)
    (hj : st'.quarksJobs = st.quarksJobs) : Holds plan st' where
  manifestSecret _ hm := hs ▸ h.manifestSecret _ hm
  quarksSecrets vars hv q hmem :=
    let ⟨x, hx, hxs⟩ := h.quarksSecrets vars hv q hmem
    let ⟨x', hx', hs'⟩ := hq _ x hx
    ⟨x', hx', hs'.trans hxs⟩
  interpolationJob _ hm := hj ▸ h.interpolationJob _ hm
  instanceGroupJob _ hm := hj ▸ h.instanceGroupJob _ hm

theorem converged_generate {w : World} (h : Converged P C w.store) (name : String) :
    Converged P C (generate w name).store := by
  unfold generate
  rcases hx : w.store.quarksSecrets name with _ | x
  · exact h
  intro request orders d m hg hres hl
  refine holds_of_specs (h request orders d m hg hres hl) rfl (fun name' x' hx' => ?_) rfl
  by_cases hn : name' = name
  · subst hn
    rw [hx, Option.some.injEq] at hx'
    exact ⟨_, Function.update_same _ _ _, hx' ▸ rfl⟩
  · exact ⟨x', (Function.update_noteq hn _ _).trans hx', rfl⟩

section Converged

variable (hwithOps : ∀ d lastReconcile ns,
    C.withOpsManifest { d with lastReconcile } ns = C.withOpsManifest d ns)
  (hlinkOrder : ∀ name manifest linkInfos linkInfos' firstGeneration,
    linkInfos.Perm linkInfos' → C.instanceGroupManifestJob name manifest linkInfos
      firstGeneration = C.instanceGroupManifestJob name manifest linkInfos' firstGeneration)
  (hL : ∀ cached, L cached → Reorders cached ∧ ∀ st, (cached st).pods = st.pods)
  (hE : ∀ st st', E st st' → Converged P C st → Converged P C st')

include hwithOps hlinkOrder hL hE

theorem converged_step {w w' : World} (h : Step P C config L E w w')
    (hw : Converged P C w.store) : Converged P C w'.store := by
  cases h with
  | reconcile cached hc orders request =>
    exact (converged_quiet config orders request hwithOps hlinkOrder (hL cached hc).1
      ((hL cached hc).2 _) hw).2
  | generate name => exact converged_generate hw name
  | env store h => exact hE _ _ h hw

theorem reachable_converged {w w' : World} (hw : Converged P C w.store)
    (h : Relation.ReflTransGen (Step P C config L E) w w') : Converged P C w'.store := by
  induction h with
  | refl => exact hw
  | tail _ hs ih => exact converged_step hwithOps hlinkOrder hL hE hs ih

/-- From a converged store, across any interleaving of reconciles on cached clients that list the
pods as the store keeps them, the QuarksSecret controller and changes of the rest of the cluster
that keep the store converged, every reconcile of any request on such a client writes nothing
new and resets no status: marking secrets generated never sets the reconciler writing again,
and the reconciler never undoes the controller's work. -/
theorem reachable_quiet {w w' : World} (hw : Converged P C w.store)
    (h : Relation.ReflTransGen (Step P C config L E) w w') (cached : Store → Listing)
    (hc : L cached) (orders : RangeOrders) (request : NamespacedName) :
    Quiet (reconcile P C (Store.cachedCluster cached) config orders request
      ⟨w'.store, []⟩).2.events :=
  (converged_quiet config orders request hwithOps hlinkOrder (hL cached hc).1 ((hL cached hc).2 _)
    (reachable_converged hwithOps hlinkOrder hL hE hw h)).1

end Converged

def convergedWorld : World :=
  ⟨(reconcile linkedPackages linkedCollaborators (Store.cachedCluster Store.listing) sampleConfig
    sampleOrders sampleDeployment.key ⟨linkedStore, []⟩).2.store, fun _ => none⟩

def SampleClient (cached : Store → Listing) : Prop :=
  cached = Store.listing ∨ cached = reversedListing

theorem sampleClient_keepsPods :
    ∀ cached, SampleClient cached → Reorders cached ∧ ∀ st, (cached st).pods = st.pods := by
  rintro _ (rfl | rfl)
  exacts [⟨.self, fun _ => rfl⟩, ⟨reorders_reversedListing, fun _ => rfl⟩]

theorem reachable_quiet_sample :
    Quiet (reconcile linkedPackages linkedCollaborators (Store.cachedCluster reversedListing)
      sampleConfig sampleOrders sampleDeployment.key
      ⟨(generate convergedWorld "var-a").store, []⟩).2.events :=
  reachable_quiet (E := Tick) (w := convergedWorld) (fun _ _ _ => rfl)
    linkedCollaborators_linkOrder sampleClient_keepsPods
    (fun _ _ ⟨clock, h⟩ hc => h ▸ hc.withClock clock)
    (converged_first sampleConfig Store.listing sampleOrders sampleDeployment.key linkedStore
      linkedCollaborators_vars_nodup linkedCollaborators_jobs_apart linkedStore_withOpsKey_free
      linkedStore_first_status (fun _ _ _ => rfl) linkedCollaborators_linkOrder Reorders.self rfl
      fun key hk => by simp [linkedStore, sampleStore, hk])
    (.single (.generate _ _)) _ (.inr rfl) _ _

end CfOperator.Handshake
