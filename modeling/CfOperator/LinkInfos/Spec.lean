import CfOperator.LinkInfos.Scan
import CfOperator.LinkInfos.Services
import CfOperator.LinkInfos.Pods

namespace CfOperator.Spec

open Scan Services Pods

variable {P : Packages} {deployment : BOSHDeployment}

theorem reportMissingProviders_empty (order : RangeOrder) (manifest : Manifest) :
    reportMissingProviders order ∅ ∅ [] manifest = ⟨[], manifest, none⟩ := by
  simp [reportMissingProviders, storeQuarksLinks, Finmap.keys_empty, RangeOrder.keys_empty]

theorem listLinkInfos_of_empty (orders : RangeOrders) {manifest : Manifest}
    (h : P.listMissingProviders manifest = ∅) (l : Listing) :
    listLinkInfos P deployment orders manifest l = (⟨[], manifest, none⟩, []) := by
  simp only [listLinkInfos, h, if_true, reportMissingProviders_empty]
  rfl

theorem listLinkInfos_fst (orders : RangeOrders) {manifest : Manifest}
    (h : P.listMissingProviders manifest ≠ ∅) (l : Listing) :
    (listLinkInfos P deployment orders manifest l).1 =
      match l.secrets deployment.ns with
      | .error err => ⟨[], manifest, some (.wrap
          ("listing secrets for link in deployment '" ++ deployment.name ++ "':") err)⟩
      | .ok secrets =>
      match l.services deployment.ns with
      | .error err => ⟨[], manifest, some (.wrap
          ("listing services for link in deployment '" ++ deployment.name ++ "':") err)⟩
      | .ok services =>
      match scanSecrets P deployment ⟨[], P.listMissingProviders manifest, ∅⟩ secrets.items with
      | (scan, some err) => ⟨scan.linkInfos, manifest, some err⟩
      | (scan, none) =>
      match getServiceRecords P deployment.ns deployment.name services with
      | .error err => ⟨scan.linkInfos, manifest, some (.wrap
          ("failed to get link services for '" ++ deployment.name ++ "'") err)⟩
      | .ok serviceRecords =>
      match (resolveLinks P deployment serviceRecords scan.quarksLinks
          (orders.quarksLinks.keys scan.quarksLinks.keys) l).1 with
      | .error err => ⟨scan.linkInfos, manifest, some err⟩
      | .ok quarksLinks => reportMissingProviders orders.missingProviders
          scan.missingProviders quarksLinks scan.linkInfos manifest := by
  simp only [listLinkInfos, h, if_false]
  rcases hs : l.secrets deployment.ns with err | secrets
  · simp only [LinkM.bind_fst, listSecrets, hs]
    rfl
  rcases hv : l.services deployment.ns with err | services
  · simp only [LinkM.bind_fst, listSecrets, listServices, hs, hv]
    rfl
  rcases hc : scanSecrets P deployment ⟨[], P.listMissingProviders manifest, ∅⟩ secrets.items with
    ⟨scan, _ | err⟩
  · rcases hr : getServiceRecords P deployment.ns deployment.name services with err | records
    · simp only [LinkM.bind_fst, listSecrets, listServices, hs, hv, hc, hr]
      rfl
    · rcases hl : (resolveLinks P deployment records scan.quarksLinks
        (orders.quarksLinks.keys scan.quarksLinks.keys) l).1 with err | links <;>
      simp only [LinkM.bind_fst, listSecrets, listServices, hs, hv, hc, hr, hl] <;> rfl
  · simp only [LinkM.bind_fst, listSecrets, listServices, hs, hv, hc]
    rfl

theorem reportMissingProviders_spec (order : RangeOrder) (M : StringMap Bool)
    (quarksLinks : StringMap QuarksLink) (linkInfos : LinkInfos) (manifest : Manifest) :
    let r := reportMissingProviders order M quarksLinks linkInfos manifest
    r.linkInfos = linkInfos ∧
    (r.err = none ↔ ∀ k, M.lookup k ≠ some false) ∧
    (r.err = none → r.manifest = storeQuarksLinks quarksLinks manifest) ∧
    (r.err ≠ none → r.manifest = manifest ∧ ∃ L, L.Nodup ∧ (∀ k, k ∈ L ↔ M.lookup k = some false) ∧
      r.err = some (.text ("missing link secrets for providers: " ++ ", ".intercalate L))) := by
  have hmem : ∀ k, k ∈ (order.keys M.keys).filter (fun key => !(M.lookup key).getD false) ↔
      M.lookup k = some false := fun k => by
    rw [List.mem_filter, order.mem_keys, Finmap.mem_keys]
    rcases h : M.lookup k with _ | b
    · simp [Finmap.lookup_eq_none.mp h]
    · simp [Finmap.mem_of_lookup_eq_some h]
  dsimp only [reportMissingProviders]
  split_ifs with hne
  · obtain ⟨k, hk⟩ := List.exists_mem_of_ne_nil _ hne
    refine ⟨rfl, ⟨nofun, fun hall => absurd ((hmem k).mp hk) (hall k)⟩, nofun,
      fun _ => ⟨rfl, _, (order.nodup_keys _).filter _, hmem, rfl⟩⟩
  · refine ⟨rfl, ⟨fun _ k hk => ?_, fun _ => rfl⟩, fun _ => rfl, fun h => absurd rfl h⟩
    rw [← hmem k, not_not.mp hne] at hk
    cases hk

variable (P deployment) in
/-- The listed objects pass every check of `listLinkInfos`: the secrets are clean, no two
services serve one provider, every typed claim that a service serves has usable pods, and
every provider still unfound is claimed. -/
def Passes (l : Listing) (M : StringMap Bool) (secrets : List Secret) (services : List Service) :
    Prop :=
  Clean P deployment M secrets ∧
  (servedProviders P deployment.name services).Nodup ∧
  (∀ c ∈ claims P deployment M secrets, c.2.providerType ≠ "" →
    ∀ svc ∈ services, servedProvider P deployment.name svc = some c.1.name →
      Usable (l.pods deployment.ns svc.selector)) ∧
  ∀ k, M.lookup k = some false → k ∈ (claims P deployment M secrets).map (·.2.name)

theorem mem_scan_quarksLinks (infos : LinkInfos) (M : StringMap Bool)
    (cs : List (Secret × LinkProvider)) (q : String) :
    q ∈ (scanResult ⟨infos, M, ∅⟩ cs).quarksLinks ↔ ∃ c ∈ cs, c.1.name = q ∧ c.2.providerType ≠ "" := by
  rw [mem_scanResult_quarksLinks]
  simp [Finmap.not_mem_empty]

theorem pods_check_iff (l : Listing) {services : List Service}
    {records : StringMap ServiceRecord}
    (hr : getServiceRecords P deployment.ns deployment.name services = .ok records)
    (order : RangeOrder) (M : StringMap Bool) (cs : List (Secret × LinkProvider)) :
    (∀ q ∈ order.keys (scanResult ⟨[], M, ∅⟩ cs).quarksLinks.keys, ∀ r,
        records.lookup q = some r → Usable (l.pods deployment.ns r.selector)) ↔
      ∀ c ∈ cs, c.2.providerType ≠ "" → ∀ svc ∈ services,
        servedProvider P deployment.name svc = some c.1.name →
          Usable (l.pods deployment.ns svc.selector) := by
  have hl := (@getServiceRecords_spec P deployment.ns deployment.name services).2 records hr
  simp only [order.mem_keys, Finmap.mem_keys, mem_scan_quarksLinks, hl]
  constructor
  · intro h c hc ht svc hs hsv
    exact h c.1.name ⟨c, hc, rfl, ht⟩ _ ⟨svc, hs, hsv, rfl⟩
  · rintro h q ⟨c, hc, rfl, ht⟩ r ⟨svc, hs, hsv, rfl⟩
    exact h c hc ht svc hs hsv

theorem missing_check_iff (M : StringMap Bool) (cs : List (Secret × LinkProvider)) :
    (∀ k, (scanResult ⟨[], M, ∅⟩ cs).missingProviders.lookup k ≠ some false) ↔
      ∀ k, M.lookup k = some false → k ∈ cs.map (·.2.name) := by
  simp only [scanResult_missingProviders]
  refine forall_congr' fun k => ?_
  split_ifs with hk <;> simp [hk]

theorem scanSecrets_error {st : SecretScan} {secrets : List Secret}
    (h : (scanSecrets P deployment st secrets).2.isSome) :
    ∃ err, scanSecrets P deployment st secrets = ((scanSecrets P deployment st secrets).1, some err) := by
  rcases hx : scanSecrets P deployment st secrets with ⟨scan, _ | err⟩
  · rw [hx] at h
    cases h
  · exact ⟨err, rfl⟩

theorem err_eq_none_iff_passes (orders : RangeOrders) {manifest : Manifest}
    (h : P.listMissingProviders manifest ≠ ∅) {l : Listing} {secrets : SecretList}
    {services : List Service} (hs : l.secrets deployment.ns = .ok secrets)
    (hv : l.services deployment.ns = .ok services) :
    (listLinkInfos P deployment orders manifest l).1.err = none ↔
      Passes P deployment l (P.listMissingProviders manifest) secrets.items services := by
  rw [listLinkInfos_fst orders h l, hs, hv]
  dsimp only
  rcases @scanSecrets_spec P deployment
      ⟨[], P.listMissingProviders manifest, ∅⟩ secrets.items with ⟨hclean, hscan⟩ | ⟨hnot, hsome⟩
  · rw [hscan]
    dsimp only
    have hrb := (@getServiceRecords_spec P deployment.ns deployment.name services).1
    rcases hr : getServiceRecords P deployment.ns deployment.name services with err | records
    · rw [hr] at hrb
      exact ⟨nofun, fun hp => absurd (hrb.mpr hp.2.1) (by simp [Except.toBool])⟩
    · dsimp only
      obtain ⟨hlb, -⟩ := @resolveLinks_spec P deployment l records
        (scanResult ⟨[], P.listMissingProviders manifest, ∅⟩
          (claims P deployment (P.listMissingProviders manifest) secrets.items)).quarksLinks
        (orders.quarksLinks.keys _) (orders.quarksLinks.nodup_keys _)
        (fun q hq => Finmap.mem_keys.mp (orders.quarksLinks.mem_keys.mp hq))
      rw [pods_check_iff l hr] at hlb
      rcases hq : (resolveLinks P deployment records _ (orders.quarksLinks.keys _) l).1 with
        err | links
      · rw [hq] at hlb
        exact ⟨nofun, fun hp => absurd (hlb.mpr hp.2.2.1) (by simp [Except.toBool])⟩
      · rw [hq] at hlb
        dsimp only
        rw [(reportMissingProviders_spec _ _ _ _ _).2.1, missing_check_iff]
        exact ⟨fun hm => ⟨hclean, hrb.mp (by rw [hr]; rfl), hlb.mp rfl, hm⟩, fun hp => hp.2.2.2⟩
  · obtain ⟨err, hsc⟩ := scanSecrets_error hsome
    rw [hsc]
    exact ⟨nofun, fun hp => absurd hp.1 hnot⟩

theorem err_eq_none_iff (orders : RangeOrders) {manifest : Manifest}
    (h : P.listMissingProviders manifest ≠ ∅) (l : Listing) :
    (listLinkInfos P deployment orders manifest l).1.err = none ↔
      ∃ secrets services, l.secrets deployment.ns = .ok secrets ∧
        l.services deployment.ns = .ok services ∧
        Passes P deployment l (P.listMissingProviders manifest) secrets.items services := by
  rcases hs : l.secrets deployment.ns with err | secrets
  · rw [listLinkInfos_fst orders h l, hs]
    simp
  rcases hv : l.services deployment.ns with err | services
  · rw [listLinkInfos_fst orders h l, hs, hv]
    simp
  rw [err_eq_none_iff_passes orders h hs hv]
  simp

theorem manifest_of_err (orders : RangeOrders) {manifest : Manifest} (l : Listing)
    (herr : (listLinkInfos P deployment orders manifest l).1.err ≠ none) :
    (listLinkInfos P deployment orders manifest l).1.manifest = manifest := by
  by_cases h : P.listMissingProviders manifest = ∅
  · rw [listLinkInfos_of_empty orders h l]
  revert herr
  rw [listLinkInfos_fst orders h l]
  rcases l.secrets deployment.ns with err | secrets
  · exact fun _ => rfl
  rcases l.services deployment.ns with err | services
  · exact fun _ => rfl
  dsimp only
  rcases scanSecrets P deployment ⟨[], P.listMissingProviders manifest, ∅⟩ secrets.items with
    ⟨scan, _ | err⟩
  · dsimp only
    rcases getServiceRecords P deployment.ns deployment.name services with err | records
    · exact fun _ => rfl
    · dsimp only
      rcases (resolveLinks P deployment records scan.quarksLinks
          (orders.quarksLinks.keys scan.quarksLinks.keys) l).1 with err | links
      · exact fun _ => rfl
      · exact fun herr => ((reportMissingProviders_spec _ _ _ _ _).2.2.2 herr).1
  · exact fun _ => rfl

theorem eq_reportMissingProviders (orders : RangeOrders) {manifest : Manifest}
    (h : P.listMissingProviders manifest ≠ ∅) {l : Listing} {secrets : SecretList}
    {services : List Service} {records : StringMap ServiceRecord}
    (hs : l.secrets deployment.ns = .ok secrets) (hv : l.services deployment.ns = .ok services)
    (hclean : Clean P deployment (P.listMissingProviders manifest) secrets.items)
    (hr : getServiceRecords P deployment.ns deployment.name services = .ok records)
    (hpods : ∀ c ∈ claims P deployment (P.listMissingProviders manifest) secrets.items,
      c.2.providerType ≠ "" → ∀ svc ∈ services, servedProvider P deployment.name svc = some c.1.name →
        Usable (l.pods deployment.ns svc.selector)) :
    let scan := scanResult ⟨[], P.listMissingProviders manifest, ∅⟩
      (claims P deployment (P.listMissingProviders manifest) secrets.items)
    ∃ links : StringMap QuarksLink,
      (∀ q, links.lookup q = (scan.quarksLinks.lookup q).map (resolvedLink deployment l records q)) ∧
      (listLinkInfos P deployment orders manifest l).1 = reportMissingProviders
        orders.missingProviders scan.missingProviders links scan.linkInfos manifest := by
  intro scan
  rw [listLinkInfos_fst orders h l, hs, hv]
  dsimp only
  rcases @scanSecrets_spec P deployment
      ⟨[], P.listMissingProviders manifest, ∅⟩ secrets.items with ⟨-, hscan⟩ | ⟨hnot, -⟩
  swap
  · exact absurd hclean hnot
  rw [hscan, hr]
  dsimp only
  obtain ⟨hlb, hll⟩ := @resolveLinks_spec P deployment l records scan.quarksLinks
    (orders.quarksLinks.keys _) (orders.quarksLinks.nodup_keys _)
    (fun q hq => Finmap.mem_keys.mp (orders.quarksLinks.mem_keys.mp hq))
  rw [pods_check_iff l hr] at hlb
  rcases hq : (resolveLinks P deployment records scan.quarksLinks
      (orders.quarksLinks.keys scan.quarksLinks.keys) l).1 with err | links
  · rw [hq] at hlb
    exact absurd (hlb.mpr hpods) (by simp [Except.toBool])
  refine ⟨links, fun q => ?_, rfl⟩
  rw [hll links hq q]
  split_ifs with hk
  · rfl
  · rw [Finmap.lookup_eq_none.mpr (fun hm => hk (orders.quarksLinks.mem_keys.mpr
      (Finmap.mem_keys.mpr hm)))]
    rfl

theorem of_err_eq_none (orders : RangeOrders) {manifest : Manifest}
    (h : P.listMissingProviders manifest ≠ ∅) {l : Listing} {secrets : SecretList}
    {services : List Service} {records : StringMap ServiceRecord}
    (hs : l.secrets deployment.ns = .ok secrets) (hv : l.services deployment.ns = .ok services)
    (hr : getServiceRecords P deployment.ns deployment.name services = .ok records)
    (hok : (listLinkInfos P deployment orders manifest l).1.err = none) :
    (listLinkInfos P deployment orders manifest l).1.linkInfos =
      (claims P deployment (P.listMissingProviders manifest) secrets.items).map
        (fun c => ⟨c.1.name, c.2.name, c.2.providerType⟩) ∧
    ∃ links : StringMap QuarksLink,
      (∀ q, links.lookup q = ((scanResult ⟨[], P.listMissingProviders manifest, ∅⟩
        (claims P deployment (P.listMissingProviders manifest) secrets.items)).quarksLinks.lookup q).map
          (resolvedLink deployment l records q)) ∧
      (listLinkInfos P deployment orders manifest l).1.manifest = storeQuarksLinks links manifest := by
  obtain ⟨hclean, -, hpods, -⟩ := (err_eq_none_iff_passes orders h hs hv).mp hok
  obtain ⟨links, hlinks, heq⟩ := eq_reportMissingProviders orders h hs hv hclean hr hpods
  obtain ⟨h1, -, h3, -⟩ := reportMissingProviders_spec orders.missingProviders
    (scanResult ⟨[], P.listMissingProviders manifest, ∅⟩
      (claims P deployment (P.listMissingProviders manifest) secrets.items)).missingProviders
    links _ manifest
  rw [heq] at hok ⊢
  exact ⟨by rw [h1, scanResult_linkInfos]; rfl, links, hlinks, h3 hok⟩

theorem property_storeQuarksLinks (links : StringMap QuarksLink) (manifest : Manifest)
    (key : String) :
    (storeQuarksLinks links manifest).property key =
      if links ≠ ∅ ∧ key = "quarks_links" then some (.quarksLinks links)
      else manifest.property key := by
  unfold storeQuarksLinks Manifest.property
  by_cases hl : links = ∅
  · simp [hl]
  · by_cases hk : key = "quarks_links"
    · subst hk
      simp [hl, Finmap.lookup_insert]
    · simp [hl, hk, Finmap.lookup_insert_of_ne _ hk]

end CfOperator.Spec
