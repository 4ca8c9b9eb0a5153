import CfOperator.LinkInfos.Results

namespace CfOperator.Order

open Scan Services Pods Spec Results

/-- Two answers to one `List` call that hold the same objects, maybe in another order, or
that both fail. -/
def SameItems {α β : Type} (items : α → List β) : Except Error α → Except Error α → Prop
  | .ok a, .ok b => (items a).Perm (items b)
  | .error _, .error _ => True
  | _, _ => False

variable {P : Packages} {deployment : BOSHDeployment}

theorem passes_perm {l l' : Listing} {M : StringMap Bool} {secrets secrets' : List Secret}
    {services services' : List Service} (hs : secrets.Perm secrets')
    (hv : services.Perm services') (hp : l.pods deployment.ns = l'.pods deployment.ns) :
    Passes P deployment l M secrets services ↔ Passes P deployment l' M secrets' services' := by
  have hc := @claims_perm P deployment M _ _ hs
  simp only [Passes, servedProviders, clean_perm hs, (hv.filterMap _).nodup_iff, hc.mem_iff,
    hv.mem_iff, (hc.map _).mem_iff, hp]

theorem getServiceRecords_perm {ns name : String} {services services' : List Service}
    (hv : services.Perm services') {records records' : StringMap ServiceRecord}
    (hr : getServiceRecords P ns name services = .ok records)
    (hr' : getServiceRecords P ns name services' = .ok records') :
    records = records' := by
  refine Finmap.ext_lookup fun p => Option.ext fun r => ?_
  rw [Option.mem_def, Option.mem_def, ((getServiceRecords_spec services).2 records hr p r),
    ((getServiceRecords_spec services').2 records' hr' p r)]
  exact exists_congr fun svc => and_congr_left' hv.mem_iff

theorem scanResult_quarksLinks_perm (st : SecretScan) {cs cs' : List (Secret × LinkProvider)}
    (h : cs.Perm cs') (hnd : (cs.map (·.1.name)).Nodup) (q : String) :
    (scanResult st cs).quarksLinks.lookup q = (scanResult st cs').quarksLinks.lookup q := by
  by_cases ht : ∃ c ∈ cs, c.1.name = q ∧ c.2.providerType ≠ ""
  · obtain ⟨c, hc, rfl, ht⟩ := ht
    rw [scanResult_quarksLinks_of_typed st hnd hc ht,
      scanResult_quarksLinks_of_typed st ((h.map _).nodup_iff.mp hnd) (h.mem_iff.mp hc) ht]
  · push_neg at ht
    rw [scanResult_quarksLinks_of_untyped st cs q ht, scanResult_quarksLinks_of_untyped st cs' q
      fun c hc => ht c (h.mem_iff.mpr hc)]

theorem resolvedLink_congr {l l' : Listing} (hp : l.pods deployment.ns = l'.pods deployment.ns) :
    resolvedLink deployment l = resolvedLink deployment l' := by
  funext records q link
  simp only [resolvedLink, hp]

theorem exists_passes_iff {l l' : Listing} {M : StringMap Bool}
    (hs : SameItems SecretList.items (l.secrets deployment.ns) (l'.secrets deployment.ns))
    (hv : SameItems id (l.services deployment.ns) (l'.services deployment.ns))
    (hp : l.pods deployment.ns = l'.pods deployment.ns) :
    (∃ secrets services, l.secrets deployment.ns = .ok secrets ∧
      l.services deployment.ns = .ok services ∧ Passes P deployment l M secrets.items services) ↔
    (∃ secrets services, l'.secrets deployment.ns = .ok secrets ∧
      l'.services deployment.ns = .ok services ∧ Passes P deployment l' M secrets.items services) := by
  revert hs hv
  rcases l.secrets deployment.ns with _ | secrets <;> rcases l'.secrets deployment.ns with _ | secrets' <;>
    rcases l.services deployment.ns with _ | services <;>
    rcases l'.services deployment.ns with _ | services' <;> simp only [SameItems] <;> simp
  exact fun hs hv => passes_perm hs hv hp

theorem listLinkInfos_order_independent (orders orders' : RangeOrders) (manifest : Manifest)
    (l l' : Listing)
    (hs : SameItems SecretList.items (l.secrets deployment.ns) (l'.secrets deployment.ns))
    (hv : SameItems id (l.services deployment.ns) (l'.services deployment.ns))
    (hp : l.pods deployment.ns = l'.pods deployment.ns) :
    ((listLinkInfos P deployment orders manifest l).1.err = none ↔
      (listLinkInfos P deployment orders' manifest l').1.err = none) ∧
    ((listLinkInfos P deployment orders manifest l).1.err = none →
      (listLinkInfos P deployment orders' manifest l').1.err = none →
      (listLinkInfos P deployment orders manifest l).1.linkInfos.Perm
        (listLinkInfos P deployment orders' manifest l').1.linkInfos ∧
      (listLinkInfos P deployment orders manifest l).1.manifest =
        (listLinkInfos P deployment orders' manifest l').1.manifest) := by
  by_cases h : P.listMissingProviders manifest = ∅
  · simp [listLinkInfos_of_empty _ h]
  refine ⟨by rw [err_eq_none_iff orders h l, err_eq_none_iff orders' h l', exists_passes_iff hs hv hp],
    fun hok hok' => ?_⟩
  obtain ⟨secrets, services, records, links, hls, hlv, -, hr, hlinks, hman⟩ :=
    exists_stored_links orders h hok
  obtain ⟨secrets', services', records', links', hls', hlv', -, hr', hlinks', hman'⟩ :=
    exists_stored_links orders' h hok'
  rw [hls, hls'] at hs
  rw [hlv, hlv'] at hv
  have hc := @claims_perm P deployment (P.listMissingProviders manifest) _ _ hs
  refine ⟨?_, ?_⟩
  · rw [(of_err_eq_none orders h hls hlv hr hok).1, (of_err_eq_none orders' h hls' hlv' hr' hok').1]
    exact hc.map _
  · rw [hman, hman', getServiceRecords_perm hv hr hr', resolvedLink_congr hp] at *
    congr 1
    refine Finmap.ext_lookup fun q => ?_
    rw [hlinks, hlinks', scanResult_quarksLinks_perm _ hc (nodup_claims_names _ secrets)]

def otherSecret : Secret :=
  ⟨"other-secret", "default", ∅, (∅ : StringMap String).insert "deployment-name" "other", ∅⟩

theorem listLinkInfos_order_independent_sample :
    SameItems SecretList.items
      ((sampleListing ⟨[natsSecret "nats", otherSecret], by decide⟩).secrets sampleDeployment.ns)
      ((sampleListing ⟨[otherSecret, natsSecret "nats"], by decide⟩).secrets sampleDeployment.ns) ∧
    ((listLinkInfos samplePackages sampleDeployment sampleOrders ⟨none, []⟩
        (sampleListing ⟨[natsSecret "nats", otherSecret], by decide⟩)).1.err = none ↔
      (listLinkInfos samplePackages sampleDeployment sampleOrders ⟨none, []⟩
        (sampleListing ⟨[otherSecret, natsSecret "nats"], by decide⟩)).1.err = none) :=
  have hs : SameItems SecretList.items
      ((sampleListing ⟨[natsSecret "nats", otherSecret], by decide⟩).secrets sampleDeployment.ns)
      ((sampleListing ⟨[otherSecret, natsSecret "nats"], by decide⟩).secrets sampleDeployment.ns) :=
    List.Perm.swap _ _ _
  ⟨hs, (listLinkInfos_order_independent sampleOrders sampleOrders ⟨none, []⟩ _ _ hs
    (List.Perm.refl _) rfl).1⟩

end CfOperator.Order
