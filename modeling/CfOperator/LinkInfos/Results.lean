import CfOperator.LinkInfos.Spec

namespace CfOperator.Results

open Scan Services Pods Spec

def samplePackages : Packages where
  labelDeploymentName := "deployment-name"
  labelDeploymentSecretType := "secret-type"
  annotationLinkProviderService := "link-provider-name"
  deploymentSecretTypeManifestWithOps := "with-ops"
  deploymentSecretName := fun t n _ => n ++ "." ++ t
  clusterDomain := "cluster.local"
  listMissingProviders := fun _ => (∅ : StringMap Bool).insert "nats" false
  newLinkProvider := fun a => match a.lookup "link" with
    | some n => .ok ⟨n, (a.lookup "link-type").getD ""⟩
    | none => .error (.text "no link")
  marshal := fun _ => .ok "manifest"
  formatSelector := fun _ => "map[]"
  meltdownContains := fun d t now => t.any fun t => t ≤ now ∧ now < t + d

def sampleDeployment : BOSHDeployment := ⟨"cf", "default", 1, none⟩

def sampleOrders : RangeOrders := ⟨.ascending, .ascending⟩

def natsSecret (type : String) : Secret :=
  ⟨"nats-secret", "default", ∅, (((∅ : StringMap String).insert "deployment-name" "cf").insert
    "link" "nats").insert "link-type" type, ∅⟩

def sampleListing (secrets : SecretList) : Listing where
  secrets := fun _ => .ok secrets
  services := fun _ => .ok [⟨"nats", ((∅ : StringMap String).insert "deployment-name" "cf").insert
    "link-provider-name" "nats-secret", ∅⟩]
  pods := fun _ _ => .ok [⟨"nats-0", "default", "uid-0", "10.0.0.1"⟩,
    ⟨"nats-1", "default", "uid-1", "10.0.0.2"⟩]

/-- The links `listLinkInfos` resolves from a namespace's secrets and services: one for every
typed secret of a missing provider, under the secret's name, with the provider type and, when a
service serves it, the service's DNS address and one instance per pod of its selector. -/
structure ResolvedLinks (P : Packages) (deployment : BOSHDeployment) (l : Listing)
    (M : StringMap Bool) (secrets : SecretList) (services : List Service)
    (links : StringMap QuarksLink) : Prop where
  keys : ∀ q, q ∈ links ↔ ∃ s ∈ secrets.items, ∃ lp, Matching P deployment s ∧
    P.newLinkProvider s.annotations = .ok lp ∧ lp.name ∈ M ∧ lp.providerType ≠ "" ∧ s.name = q
  values : ∀ s ∈ secrets.items, ∀ lp, Matching P deployment s →
    P.newLinkProvider s.annotations = .ok lp → lp.name ∈ M → lp.providerType ≠ "" →
    ∃ link, links.lookup s.name = some link ∧ link.type = lp.providerType ∧
      (∀ svc ∈ services, servedProvider P deployment.name svc = some s.name →
        link.address = svc.name ++ "." ++ deployment.ns ++ ".svc." ++ P.clusterDomain ∧
        ∃ pods, l.pods deployment.ns svc.selector = .ok pods ∧
          ∀ i : Nat, link.instances[i]? =
            pods[i]?.map fun p => ⟨s.name, p.uid, i, p.podIP, i == 0⟩) ∧
      ((∀ svc ∈ services, servedProvider P deployment.name svc ≠ some s.name) →
        link.address = "" ∧ link.instances = [])

variable {P : Packages} {deployment : BOSHDeployment}

theorem mem_resolved_links_iff {M : StringMap Bool} {secrets : SecretList} {l : Listing}
    {records : StringMap ServiceRecord} {links : StringMap QuarksLink}
    (hlinks : ∀ q, links.lookup q = ((scanResult ⟨[], M, ∅⟩
      (claims P deployment M secrets.items)).quarksLinks.lookup q).map
        (resolvedLink deployment l records q)) (q : String) :
    q ∈ links ↔ ∃ s ∈ secrets.items, ∃ lp, Matching P deployment s ∧
      P.newLinkProvider s.annotations = .ok lp ∧ lp.name ∈ M ∧ lp.providerType ≠ "" ∧
      s.name = q := by
  rw [← Finmap.lookup_isSome, hlinks, Option.isSome_map', Finmap.lookup_isSome,
    mem_scan_quarksLinks]
  constructor
  · rintro ⟨⟨s, lp⟩, hc, rfl, ht⟩
    obtain ⟨hs, hm, hp, hn⟩ := mem_claims_iff.mp hc
    exact ⟨s, hs, lp, hm, hp, hn, ht, rfl⟩
  · rintro ⟨s, hs, lp, hm, hp, hn, ht, rfl⟩
    exact ⟨(s, lp), mem_claims_iff.mpr ⟨hs, hm, hp, hn⟩, rfl, ht⟩

theorem listLinkInfos_one_info_per_provider (orders : RangeOrders) (manifest : Manifest)
    (hM : ∀ m ∈ P.listMissingProviders manifest,
      (P.listMissingProviders manifest).lookup m = some false) (l : Listing) :
    ((listLinkInfos P deployment orders manifest l).1.err = none →
      ((listLinkInfos P deployment orders manifest l).1.linkInfos.map LinkInfo.providerName :
        Multiset String) = (P.listMissingProviders manifest).keys.val ∧
      ∀ info ∈ (listLinkInfos P deployment orders manifest l).1.linkInfos,
        ∃ secrets : SecretList, l.secrets deployment.ns = .ok secrets ∧
        ∃ s ∈ secrets.items, ∃ lp, Matching P deployment s ∧
          P.newLinkProvider s.annotations = .ok lp ∧ info = ⟨s.name, lp.name, lp.providerType⟩ ∧
          ∀ s' ∈ secrets.items, ∀ lp', Matching P deployment s' →
            P.newLinkProvider s'.annotations = .ok lp' → lp'.name = lp.name → s' = s) ∧
    (P.listMissingProviders manifest = ∅ →
      listLinkInfos P deployment orders manifest l = (⟨[], manifest, none⟩, [])) := by
  refine ⟨fun hok => ?_, fun h => listLinkInfos_of_empty orders h l⟩
  by_cases h : P.listMissingProviders manifest = ∅
  · rw [listLinkInfos_of_empty orders h l, h]
    simp
  obtain ⟨secrets, services, hs, hv, hclean, hsvc, -, hmissing⟩ :=
    (err_eq_none_iff orders h l).mp hok
  obtain ⟨records, hr⟩ := getServiceRecords_ok hsvc
  rw [(of_err_eq_none orders h hs hv hr hok).1, List.map_map]
  have hnd := hclean.2.1
  refine ⟨(Multiset.Nodup.ext (Multiset.coe_nodup.mpr hnd) (Finset.nodup _)).mpr fun m => ?_,
    fun info hinfo => ?_⟩
  · simp only [Multiset.mem_coe, Finset.mem_val, Finmap.mem_keys]
    refine ⟨fun hm => ?_, fun hm => hmissing m (hM m hm)⟩
    obtain ⟨c, hc, rfl⟩ := List.mem_map.mp hm
    exact (mem_claims.mp hc).2.2
  · obtain ⟨⟨s, lp⟩, hc, rfl⟩ := List.mem_map.mp hinfo
    obtain ⟨hs', hm, hp, hn⟩ := mem_claims_iff.mp hc
    refine ⟨secrets, hs, s, hs', lp, hm, hp, rfl, fun s' hs'' lp' hm' hp' he => ?_⟩
    have hc' := mem_claims_iff.mpr ⟨hs'', hm', hp', he ▸ hn⟩
    exact congrArg Prod.fst (List.inj_on_of_nodup_map hnd hc' hc he)

theorem sample_missing_all_false : ∀ m ∈ samplePackages.listMissingProviders ⟨none, []⟩,
    (samplePackages.listMissingProviders ⟨none, []⟩).lookup m = some false := fun m hm => by
  simp only [samplePackages, Finmap.mem_insert, Finmap.not_mem_empty, or_false] at hm
  subst hm
  rfl

theorem listLinkInfos_one_info_per_provider_sample :
    (∀ m ∈ samplePackages.listMissingProviders ⟨none, []⟩,
      (samplePackages.listMissingProviders ⟨none, []⟩).lookup m = some false) ∧
    ((listLinkInfos samplePackages sampleDeployment sampleOrders ⟨none, []⟩
      (sampleListing ⟨[natsSecret "nats"], by decide⟩)).1.linkInfos.map LinkInfo.providerName :
        Multiset String) = (samplePackages.listMissingProviders ⟨none, []⟩).keys.val :=
  ⟨sample_missing_all_false, ((@listLinkInfos_one_info_per_provider samplePackages sampleDeployment
    sampleOrders ⟨none, []⟩ sample_missing_all_false _).1 (by decide)).1⟩

theorem exists_stored_links (orders : RangeOrders) {manifest : Manifest}
    (h : P.listMissingProviders manifest ≠ ∅) {l : Listing}
    (hok : (listLinkInfos P deployment orders manifest l).1.err = none) :
    ∃ secrets : SecretList, ∃ services : List Service, ∃ records links,
      l.secrets deployment.ns = .ok secrets ∧ l.services deployment.ns = .ok services ∧
      Passes P deployment l (P.listMissingProviders manifest) secrets.items services ∧
      getServiceRecords P deployment.ns deployment.name services = .ok records ∧
      (∀ q, links.lookup q = ((scanResult ⟨[], P.listMissingProviders manifest, ∅⟩
        (claims P deployment (P.listMissingProviders manifest) secrets.items)).quarksLinks.lookup
          q).map (resolvedLink deployment l records q)) ∧
      (listLinkInfos P deployment orders manifest l).1.manifest = storeQuarksLinks links manifest := by
  obtain ⟨secrets, services, hs, hv, hp⟩ := (err_eq_none_iff orders h l).mp hok
  obtain ⟨records, hr⟩ := getServiceRecords_ok hp.2.1
  obtain ⟨-, links, hlinks, hman⟩ := of_err_eq_none orders h hs hv hr hok
  exact ⟨secrets, services, records, links, hs, hv, hp, hr, hlinks, hman⟩

theorem resolvedLinks_of_lookup {l : Listing} {M : StringMap Bool} {secrets : SecretList}
    {services : List Service} {records : StringMap ServiceRecord} {links : StringMap QuarksLink}
    (hp : Passes P deployment l M secrets.items services)
    (hr : getServiceRecords P deployment.ns deployment.name services = .ok records)
    (hlinks : ∀ q, links.lookup q = ((scanResult ⟨[], M, ∅⟩
      (claims P deployment M secrets.items)).quarksLinks.lookup q).map
        (resolvedLink deployment l records q)) :
    ResolvedLinks P deployment l M secrets services links := by
  have hrec := (@getServiceRecords_spec P deployment.ns deployment.name services).2 records hr
  refine ⟨mem_resolved_links_iff hlinks, fun s hs' lp hm hlp hn ht => ?_⟩
  have hc := mem_claims_iff.mpr ⟨hs', hm, hlp, hn⟩
  rw [hlinks, scanResult_quarksLinks_of_typed _ (nodup_claims_names _ secrets) hc ht]
  refine ⟨_, rfl, resolvedLink_type .., fun svc hsvc hserve => ?_, fun hnone => ?_⟩
  · obtain ⟨pods, hpods, -, -⟩ := hp.2.2.1 _ hc ht svc hsvc hserve
    have hrl := (hrec s.name _).mpr ⟨svc, hsvc, hserve, rfl⟩
    refine ⟨by simp [resolvedLink, hrl, hpods, serviceRecord], pods, hpods, fun i => ?_⟩
    simp [resolvedLink, hrl, hpods, serviceRecord, getElem?_instancesOf]
  · have hrl : records.lookup s.name = none := by
      rcases hl : records.lookup s.name with _ | r
      · rfl
      · obtain ⟨svc, hsvc, hserve, -⟩ := (hrec _ _).mp hl
        exact absurd hserve (hnone svc hsvc)
    simp [resolvedLink, hrl]

theorem listLinkInfos_stored_links (orders : RangeOrders) (manifest : Manifest)
    (h : P.listMissingProviders manifest ≠ ∅) (l : Listing)
    (hok : (listLinkInfos P deployment orders manifest l).1.err = none) :
    ∃ secrets : SecretList, ∃ services : List Service, l.secrets deployment.ns = .ok secrets ∧
      l.services deployment.ns = .ok services ∧ ∃ links : StringMap QuarksLink,
      ResolvedLinks P deployment l (P.listMissingProviders manifest) secrets services links ∧
      (listLinkInfos P deployment orders manifest l).1.manifest.property "quarks_links" =
        if links ≠ ∅ then some (.quarksLinks links) else manifest.property "quarks_links" := by
  obtain ⟨secrets, services, records, links, hs, hv, hp, hr, hlinks, hman⟩ :=
    exists_stored_links orders h hok
  refine ⟨secrets, services, hs, hv, links, resolvedLinks_of_lookup hp hr hlinks, ?_⟩
  rw [hman, property_storeQuarksLinks]
  simp

theorem listLinkInfos_stored_links_sample :
    samplePackages.listMissingProviders ⟨none, []⟩ ≠ ∅ ∧
    (listLinkInfos samplePackages sampleDeployment sampleOrders ⟨none, []⟩
      (sampleListing ⟨[natsSecret "nats"], by decide⟩)).1.err = none ∧
    ∃ links : StringMap QuarksLink, ∃ link : QuarksLink,
      (listLinkInfos samplePackages sampleDeployment sampleOrders ⟨none, []⟩
        (sampleListing ⟨[natsSecret "nats"], by decide⟩)).1.manifest.property "quarks_links" =
          some (.quarksLinks links) ∧
      links.lookup "nats-secret" = some link ∧ link.type = "nats" ∧
      link.address = "nats.default.svc.cluster.local" ∧
      link.instances[1]? = some ⟨"nats-secret", "uid-1", 1, "10.0.0.2", false⟩ := by
  have h : samplePackages.listMissingProviders ⟨none, []⟩ ≠ ∅ := by decide
  have hok : (listLinkInfos samplePackages sampleDeployment sampleOrders ⟨none, []⟩
      (sampleListing ⟨[natsSecret "nats"], by decide⟩)).1.err = none := by decide
  obtain ⟨secrets, services, hs, hv, links, hlinks, hprop⟩ :=
    listLinkInfos_stored_links sampleOrders ⟨none, []⟩ h _ hok
  cases hs
  cases hv
  obtain ⟨link, hlink, htype, hserved, -⟩ := hlinks.values (natsSecret "nats")
    (List.mem_singleton_self _) ⟨"nats", "nats"⟩ (by decide) (by decide) (by decide) (by decide)
  obtain ⟨haddr, pods, hpods, hinst⟩ := hserved _ (List.mem_singleton_self _) (by decide)
  cases hpods
  have hne : links ≠ ∅ := fun he => by simp [he] at hlink
  exact ⟨h, hok, links, link, by rw [hprop, if_pos hne], hlink, htype, haddr, hinst 1⟩

def staleManifest : Manifest :=
  ⟨some ((∅ : StringMap PropertyValue).insert "quarks_links"
    (.quarksLinks ((∅ : StringMap QuarksLink).insert "old-secret" ⟨"old", "", []⟩))), []⟩

theorem stale_quarks_links_kept :
    (listLinkInfos samplePackages sampleDeployment sampleOrders staleManifest
      (sampleListing ⟨[natsSecret ""], by decide⟩)).1.err = none ∧
    ((listLinkInfos samplePackages sampleDeployment sampleOrders staleManifest
      (sampleListing ⟨[natsSecret ""], by decide⟩)).1.manifest.property "quarks_links").isSome ∧
    ∀ secrets : SecretList,
      (sampleListing ⟨[natsSecret ""], by decide⟩).secrets sampleDeployment.ns = .ok secrets →
      ∀ s ∈ secrets.items, ∀ lp, Matching samplePackages sampleDeployment s →
        samplePackages.newLinkProvider s.annotations = .ok lp → lp.providerType = "" := by
  refine ⟨by decide, by decide, fun secrets hs s hs' lp _ hlp => ?_⟩
  cases hs
  rw [List.mem_singleton.mp hs'] at hlp
  have h : samplePackages.newLinkProvider (natsSecret "").annotations = .ok ⟨"nats", ""⟩ := by
    decide
  rw [h] at hlp
  cases hlp
  rfl

theorem listLinkInfos_properties_frame (orders : RangeOrders) (manifest : Manifest)
    (l : Listing) :
    ((listLinkInfos P deployment orders manifest l).1.err ≠ none →
      (listLinkInfos P deployment orders manifest l).1.manifest = manifest) ∧
    ((listLinkInfos P deployment orders manifest l).1.err = none →
      (∀ key, key ≠ "quarks_links" →
        (listLinkInfos P deployment orders manifest l).1.manifest.property key =
          manifest.property key) ∧
      ∃ links : StringMap QuarksLink,
        (P.listMissingProviders manifest = ∅ → links = ∅) ∧
        (P.listMissingProviders manifest ≠ ∅ → ∃ secrets : SecretList, ∃ services : List Service,
          l.secrets deployment.ns = .ok secrets ∧ l.services deployment.ns = .ok services ∧
          ResolvedLinks P deployment l (P.listMissingProviders manifest) secrets services links) ∧
        (listLinkInfos P deployment orders manifest l).1.manifest.property "quarks_links" =
          if links ≠ ∅ then some (.quarksLinks links) else manifest.property "quarks_links") := by
  refine ⟨manifest_of_err orders l, fun hok => ?_⟩
  have hstore : ∃ links : StringMap QuarksLink,
      (P.listMissingProviders manifest = ∅ → links = ∅) ∧
      (P.listMissingProviders manifest ≠ ∅ → ∃ secrets : SecretList, ∃ services : List Service,
        l.secrets deployment.ns = .ok secrets ∧ l.services deployment.ns = .ok services ∧
        ResolvedLinks P deployment l (P.listMissingProviders manifest) secrets services links) ∧
      (listLinkInfos P deployment orders manifest l).1.manifest =
        storeQuarksLinks links manifest := by
    by_cases h : P.listMissingProviders manifest = ∅
    · exact ⟨∅, fun _ => rfl, fun h' => absurd h h', by rw [listLinkInfos_of_empty orders h l]; rfl⟩
    · obtain ⟨secrets, services, _, links, hs, hv, hp, hr, hlinks, hman⟩ :=
        exists_stored_links orders h hok
      exact ⟨links, fun h' => absurd h' h,
        fun _ => ⟨secrets, services, hs, hv, resolvedLinks_of_lookup hp hr hlinks⟩, hman⟩
  obtain ⟨links, hempty, hres, hman⟩ := hstore
  refine ⟨fun key hk => ?_, links, hempty, hres, ?_⟩ <;> rw [hman, property_storeQuarksLinks]
  · simp [hk]
  · simp

end CfOperator.Results
