import CfOperator.LinkInfos.Results

namespace CfOperator.Failures

open Scan Services Pods Spec Results

variable (P : Packages) (deployment : BOSHDeployment)

def UnparsedSecret (secrets : List Secret) : Prop :=
  ∃ s ∈ secrets, Matching P deployment s ∧ ∃ err, P.newLinkProvider s.annotations = .error err

/-- Two entries of the secret listing, both of the deployment, that parse to one provider
of `M`. -/
def DuplicateSecrets (M : StringMap Bool) (secrets : List Secret) : Prop :=
  ∃ s₁ s₂ lp₁ lp₂, [s₁, s₂].Sublist secrets ∧ Matching P deployment s₁ ∧
    Matching P deployment s₂ ∧ P.newLinkProvider s₁.annotations = .ok lp₁ ∧
    P.newLinkProvider s₂.annotations = .ok lp₂ ∧ lp₁.name = lp₂.name ∧ lp₁.name ∈ M

def DuplicateServices (services : List Service) : Prop :=
  ∃ svc₁ svc₂ p, [svc₁, svc₂].Sublist services ∧
    servedProvider P deployment.name svc₁ = some p ∧ servedProvider P deployment.name svc₂ = some p

/-- A secret of the deployment provides a provider of `M` with a type, a service of the
deployment serves its link, and the pods behind that service cannot be listed, are none, or
include one without an address. -/
def UnusablePods (l : Listing) (M : StringMap Bool) (secrets : List Secret)
    (services : List Service) : Prop :=
  ∃ s ∈ secrets, ∃ lp, Matching P deployment s ∧ P.newLinkProvider s.annotations = .ok lp ∧
    lp.name ∈ M ∧ lp.providerType ≠ "" ∧
    ∃ svc ∈ services, servedProvider P deployment.name svc = some s.name ∧
      ((∃ err, l.pods deployment.ns svc.selector = .error err) ∨
        l.pods deployment.ns svc.selector = .ok [] ∨
        ∃ pods, l.pods deployment.ns svc.selector = .ok pods ∧ ∃ p ∈ pods, p.podIP = "")

def Unprovided (M : StringMap Bool) (secrets : List Secret) (m : String) : Prop :=
  m ∈ M ∧ ¬ ∃ s ∈ secrets, ∃ lp, Matching P deployment s ∧
    P.newLinkProvider s.annotations = .ok lp ∧ lp.name = m

variable {P deployment}

section

variable {M : StringMap Bool} (hM : ∀ m ∈ M, M.lookup m = some false)

include hM

theorem clean_iff (secrets : List Secret) :
    Clean P deployment M secrets ↔
      ¬ UnparsedSecret P deployment secrets ∧ ¬ DuplicateSecrets P deployment M secrets := by
  have hparse : (∀ s ∈ secrets, Matching P deployment s →
      (P.newLinkProvider s.annotations).toBool) ↔ ¬ UnparsedSecret P deployment secrets := by
    simp only [UnparsedSecret, not_exists, not_and]
    refine forall₂_congr fun s _ => imp_congr_right fun _ => ?_
    cases P.newLinkProvider s.annotations <;> simp [Except.toBool]
  have hnodup : ((claims P deployment M secrets).map (·.2.name)).Nodup ↔
      ¬ DuplicateSecrets P deployment M secrets := by
    rw [claims, List.Nodup, List.pairwise_map, List.pairwise_filterMap,
      List.pairwise_iff_forall_sublist]
    simp only [DuplicateSecrets, Option.mem_def, Option.bind_eq_some, provider_eq_some,
      not_exists, not_and]
    constructor
    · intro h s₁ s₂ lp₁ lp₂ hsub hm₁ hm₂ hp₁ hp₂ he hn
      exact h hsub (s₁, lp₁) ⟨lp₁, ⟨hm₁, hp₁⟩, by simp [hn]⟩ (s₂, lp₂)
        ⟨lp₂, ⟨hm₂, hp₂⟩, by simp [← he, hn]⟩ he
    · rintro h s₁ s₂ hsub c₁ ⟨lp₁, ⟨hm₁, hp₁⟩, hc₁⟩ c₂ ⟨lp₂, ⟨hm₂, hp₂⟩, hc₂⟩ he
      split_ifs at hc₁ hc₂ with hn₁ hn₂
      cases hc₁
      cases hc₂
      exact h s₁ s₂ lp₁ lp₂ hsub hm₁ hm₂ hp₁ hp₂ he hn₁
  have hfalse : ∀ c ∈ claims P deployment M secrets, M.lookup c.2.name = some false :=
    fun c hc => hM _ (mem_claims.mp hc).2.2
  simp only [Clean, hparse, hnodup, and_iff_left hfalse]

theorem missing_iff (secrets : List Secret) :
    (∀ k, M.lookup k = some false → k ∈ (claims P deployment M secrets).map (·.2.name)) ↔
      ¬ ∃ m, Unprovided P deployment M secrets m := by
  refine ⟨fun h ⟨m, hm, hno⟩ => hno ?_, fun h k hk => ?_⟩
  · obtain ⟨s, hs, lp, hm', hp, -, rfl⟩ := mem_claims_names_iff.mp (h m (hM m hm))
    exact ⟨s, hs, lp, hm', hp, rfl⟩
  · have hk' := Finmap.mem_of_lookup_eq_some hk
    rw [mem_claims_names_iff]
    by_contra hno
    exact h ⟨k, hk', fun ⟨s, hs, lp, hm, hp, he⟩ => hno ⟨s, hs, lp, hm, hp, he ▸ hk', he⟩⟩

theorem scan_missing_false_iff (secrets : List Secret) (k : String) :
    (scanResult ⟨[], M, ∅⟩ (claims P deployment M secrets)).missingProviders.lookup k =
      some false ↔ Unprovided P deployment M secrets k := by
  rw [scanResult_missingProviders, Unprovided]
  split_ifs with hk
  · obtain ⟨s, hs, lp, hm, hp, -, rfl⟩ := mem_claims_names_iff.mp hk
    exact ⟨nofun, fun ⟨_, hno⟩ => absurd ⟨s, hs, lp, hm, hp, rfl⟩ hno⟩
  · refine ⟨fun hl => ⟨Finmap.mem_of_lookup_eq_some hl, fun ⟨s, hs, lp, hm, hp, he⟩ => hk ?_⟩,
      fun hu => hM k hu.1⟩
    exact mem_claims_names_iff.mpr ⟨s, hs, lp, hm, hp, he ▸ Finmap.mem_of_lookup_eq_some hl, he⟩

end

theorem nodup_servedProviders_iff (services : List Service) :
    (servedProviders P deployment.name services).Nodup ↔
      ¬ DuplicateServices P deployment services := by
  rw [servedProviders, List.Nodup, List.pairwise_filterMap, List.pairwise_iff_forall_sublist]
  simp only [DuplicateServices, Option.mem_def, not_exists, not_and]
  exact ⟨fun h svc₁ svc₂ p hsub h₁ h₂ => h hsub p h₁ p h₂ rfl,
    fun h svc₁ svc₂ hsub p₁ h₁ p₂ h₂ he => h svc₁ svc₂ p₁ hsub h₁ (he ▸ h₂)⟩

theorem usable_iff_not (pods : Except Error (List Pod)) :
    Usable pods ↔ ¬ ((∃ err, pods = .error err) ∨ pods = .ok [] ∨
      ∃ ps, pods = .ok ps ∧ ∃ p ∈ ps, p.podIP = "") := by
  rw [usable_iff]
  rcases pods with err | _ | ⟨p, ps⟩ <;> simp

theorem pods_iff (l : Listing) (M : StringMap Bool) (secrets : List Secret)
    (services : List Service) :
    (∀ c ∈ claims P deployment M secrets, c.2.providerType ≠ "" →
      ∀ svc ∈ services, servedProvider P deployment.name svc = some c.1.name →
        Usable (l.pods deployment.ns svc.selector)) ↔
      ¬ UnusablePods P deployment l M secrets services := by
  simp only [UnusablePods, usable_iff_not, not_exists, not_and, Prod.forall, mem_claims_iff]
  exact ⟨fun h s hs lp hm hp hn ht svc hsvc hserve => h s lp ⟨hs, hm, hp, hn⟩ ht svc hsvc hserve,
    fun h s lp ⟨hs, hm, hp, hn⟩ ht svc hsvc hserve => h s hs lp hm hp hn ht svc hsvc hserve⟩

theorem passes_iff {M : StringMap Bool} (hM : ∀ m ∈ M, M.lookup m = some false) (l : Listing)
    (secrets : List Secret) (services : List Service) :
    Passes P deployment l M secrets services ↔
      ¬ (UnparsedSecret P deployment secrets ∨ DuplicateSecrets P deployment M secrets ∨
        DuplicateServices P deployment services ∨ UnusablePods P deployment l M secrets services ∨
        ∃ m, Unprovided P deployment M secrets m) := by
  rw [Passes, clean_iff hM, nodup_servedProviders_iff, pods_iff, missing_iff hM]
  simp only [not_or, and_assoc]

theorem listLinkInfos_err_iff (orders : RangeOrders) (manifest : Manifest)
    (h : P.listMissingProviders manifest ≠ ∅)
    (hM : ∀ m ∈ P.listMissingProviders manifest,
      (P.listMissingProviders manifest).lookup m = some false) (l : Listing) :
    ((listLinkInfos P deployment orders manifest l).1.err ≠ none ↔
      (∃ err, l.secrets deployment.ns = .error err) ∨
      (∃ err, l.services deployment.ns = .error err) ∨
      ∃ secrets : SecretList, ∃ services, l.secrets deployment.ns = .ok secrets ∧
        l.services deployment.ns = .ok services ∧
        (UnparsedSecret P deployment secrets.items ∨
          DuplicateSecrets P deployment (P.listMissingProviders manifest) secrets.items ∨
          DuplicateServices P deployment services ∨
          UnusablePods P deployment l (P.listMissingProviders manifest) secrets.items services ∨
          ∃ m, Unprovided P deployment (P.listMissingProviders manifest) secrets.items m)) ∧
    ∀ secrets : SecretList, ∀ services, l.secrets deployment.ns = .ok secrets →
      l.services deployment.ns = .ok services →
      ¬ UnparsedSecret P deployment secrets.items →
      ¬ DuplicateSecrets P deployment (P.listMissingProviders manifest) secrets.items →
      ¬ DuplicateServices P deployment services →
      ¬ UnusablePods P deployment l (P.listMissingProviders manifest) secrets.items services →
      (∃ m, Unprovided P deployment (P.listMissingProviders manifest) secrets.items m) →
      ∃ L : List String, L.Nodup ∧
        (∀ m, m ∈ L ↔ Unprovided P deployment (P.listMissingProviders manifest) secrets.items m) ∧
        (listLinkInfos P deployment orders manifest l).1.err =
          some (.text ("missing link secrets for providers: " ++ ", ".intercalate L)) := by
  refine ⟨?_, fun secrets services hs hv hb hc hd he hf => ?_⟩
  · rw [ne_eq, err_eq_none_iff orders h l]
    rcases l.secrets deployment.ns with err | secrets
    · simp
    rcases l.services deployment.ns with err | services
    · simp
    simp only [Except.ok.injEq, exists_and_left, exists_eq_left', passes_iff hM, not_not]
    simp
  obtain ⟨records, hr⟩ := getServiceRecords_ok ((nodup_servedProviders_iff services).mpr hd)
  obtain ⟨links, -, heq⟩ := eq_reportMissingProviders orders h hs hv
    ((clean_iff hM secrets.items).mpr ⟨hb, hc⟩) hr ((pods_iff l _ _ _).mpr he)
  obtain ⟨-, hnone, -, herr⟩ := reportMissingProviders_spec orders.missingProviders
    (scanResult ⟨[], P.listMissingProviders manifest, ∅⟩
      (claims P deployment (P.listMissingProviders manifest) secrets.items)).missingProviders
    links _ manifest
  obtain ⟨m, hm⟩ := hf
  obtain ⟨-, L, hnd, hL, hmsg⟩ := herr fun hn =>
    hnone.mp hn m ((scan_missing_false_iff hM secrets.items m).mpr hm)
  exact ⟨L, hnd, fun k => (hL k).trans (scan_missing_false_iff hM _ k), heq ▸ hmsg⟩

theorem listLinkInfos_err_iff_sample :
    samplePackages.listMissingProviders ⟨none, []⟩ ≠ ∅ ∧
    ∃ L : List String, L.Nodup ∧
      (listLinkInfos samplePackages sampleDeployment sampleOrders ⟨none, []⟩
        (sampleListing ⟨[], by decide⟩)).1.err =
          some (.text ("missing link secrets for providers: " ++ ", ".intercalate L)) :=
  have h : samplePackages.listMissingProviders ⟨none, []⟩ ≠ ∅ := by decide
  have ⟨L, hnd, _, herr⟩ := (listLinkInfos_err_iff sampleOrders ⟨none, []⟩ h sample_missing_all_false
    (sampleListing ⟨[], by decide⟩)).2 ⟨[], by decide⟩ _ rfl rfl
    (fun ⟨_, hs, _⟩ => nomatch hs) (fun ⟨_, _, _, _, hsub, _⟩ => by simpa using hsub.length_le)
    (fun ⟨_, _, _, hsub, _⟩ => by simpa using hsub.length_le) (fun ⟨_, hs, _⟩ => nomatch hs)
    ⟨"nats", by simp [samplePackages], fun ⟨_, hs, _⟩ => nomatch hs⟩
  ⟨h, L, hnd, herr⟩

end CfOperator.Failures
