import CfOperator.LinkInfos.Order

namespace CfOperator.Congr

open Scan Spec Results Order

variable {P : Packages}

section

variable {deployment deployment' : BOSHDeployment}

theorem scanSecrets_deployment_congr (hname : deployment.name = deployment'.name) :
    scanSecrets P deployment = scanSecrets P deployment' := by
  funext st secrets
  induction secrets generalizing st with
  | nil => rfl
  | cons s secrets ih => simp only [scanSecrets, scanSecret, hname, ih]

theorem resolveLinks_deployment_congr (hname : deployment.name = deployment'.name)
    (hns : deployment.ns = deployment'.ns) :
    resolveLinks P deployment = resolveLinks P deployment' := by
  funext records links qNames
  induction qNames generalizing links with
  | nil => rfl
  | cons qName qNames ih => simp only [resolveLinks, resolveLink, hname, hns, ih]

theorem listLinkInfos_deployment_congr (hname : deployment.name = deployment'.name)
    (hns : deployment.ns = deployment'.ns) :
    listLinkInfos P deployment = listLinkInfos P deployment' := by
  funext orders manifest
  simp only [listLinkInfos, hname, hns, scanSecrets_deployment_congr hname,
    resolveLinks_deployment_congr hname hns]

end

variable {deployment : BOSHDeployment}

theorem claims_filter_matching (M : StringMap Bool) (secrets : List Secret) :
    claims P deployment M (secrets.filter (Matching P deployment)) =
      claims P deployment M secrets := by
  induction secrets with
  | nil => rfl
  | cons s secrets ih =>
    by_cases h : Matching P deployment s
    · rw [List.filter_cons_of_pos (by simpa using h), claims_cons, ih, ← claims_cons]
    · rw [List.filter_cons_of_neg (by simpa using h), ih]
      simp [claims, provider, h]

theorem linked_congr (orders orders' : RangeOrders) (manifest : Manifest) {l l' : Listing}
    {secrets secrets' : SecretList} (hs : l.secrets deployment.ns = .ok secrets)
    (hs' : l'.secrets deployment.ns = .ok secrets')
    (hm : secrets.items.filter (Matching P deployment) =
      secrets'.items.filter (Matching P deployment))
    (hv : l.services deployment.ns = l'.services deployment.ns)
    (hp : l.pods deployment.ns = l'.pods deployment.ns)
    (hok : (listLinkInfos P deployment orders manifest l).1.err = none)
    (hok' : (listLinkInfos P deployment orders' manifest l').1.err = none) :
    (listLinkInfos P deployment orders' manifest l').1.linkInfos =
      (listLinkInfos P deployment orders manifest l).1.linkInfos ∧
    (listLinkInfos P deployment orders' manifest l').1.manifest =
      (listLinkInfos P deployment orders manifest l).1.manifest := by
  by_cases h : P.listMissingProviders manifest = ∅
  · simp [listLinkInfos_of_empty _ h]
  obtain ⟨_, services, records, links, hs₁, hv₁, -, hr, hlinks, hman⟩ :=
    exists_stored_links orders h hok
  obtain ⟨_, services', records', links', hs₂, hv₂, -, hr', hlinks', hman'⟩ :=
    exists_stored_links orders' h hok'
  obtain rfl := Except.ok.inj (hs.symm.trans hs₁)
  obtain rfl := Except.ok.inj (hs'.symm.trans hs₂)
  obtain rfl := Except.ok.inj (hv₁.symm.trans (hv.trans hv₂))
  obtain rfl := Except.ok.inj (hr.symm.trans hr')
  have hc : claims P deployment (P.listMissingProviders manifest) secrets'.items =
      claims P deployment (P.listMissingProviders manifest) secrets.items := by
    rw [← claims_filter_matching, ← hm, claims_filter_matching]
  refine ⟨?_, ?_⟩
  · rw [(of_err_eq_none orders' h hs' hv₂ hr hok').1, (of_err_eq_none orders h hs hv₁ hr hok).1, hc]
  · rw [hman, hman']
    congr 1
    refine Finmap.ext_lookup fun q => ?_
    rw [hlinks, hlinks', hc, resolvedLink_congr hp]

/-- Two listings agree on what link resolution reads for `deployment`: its secrets and the
services of its namespace, each in any order, and the pods of its namespace in one order. -/
structure SameLinks (P : Packages) (deployment : BOSHDeployment) (l l' : Listing) : Prop where
  secrets : SameItems (fun secrets : SecretList => secrets.items.filter (Matching P deployment))
    (l.secrets deployment.ns) (l'.secrets deployment.ns)
  services : SameItems id (l.services deployment.ns) (l'.services deployment.ns)
  pods : l.pods deployment.ns = l'.pods deployment.ns

theorem sameItems_refl {α β : Type} {items : α → List β} (a : Except Error α) :
    SameItems items a a := by
  rcases a with _ | a
  exacts [trivial, List.Perm.refl _]

theorem sameItems_symm {α β : Type} {items : α → List β} {a b : Except Error α}
    (h : SameItems items a b) : SameItems items b a := by
  rcases a with _ | a <;> rcases b with _ | b <;> first | exact h | exact List.Perm.symm h

theorem sameItems_trans {α β : Type} {items : α → List β} {a b c : Except Error α}
    (h₁ : SameItems items a b) (h₂ : SameItems items b c) : SameItems items a c := by
  rcases a with _ | a <;> rcases b with _ | b <;> rcases c with _ | c <;>
    first | exact h₁.trans h₂ | trivial

theorem sameItems_filter {p : Secret → Bool} {a b : Except Error SecretList}
    (h : SameItems SecretList.items a b) :
    SameItems (fun secrets : SecretList => secrets.items.filter p) a b := by
  rcases a with _ | a <;> rcases b with _ | b <;> first | exact h.filter p | exact h

namespace SameLinks

variable {l l' l'' : Listing}

theorem refl (l : Listing) : SameLinks P deployment l l :=
  ⟨sameItems_refl _, sameItems_refl _, rfl⟩

theorem symm (h : SameLinks P deployment l l') : SameLinks P deployment l' l :=
  ⟨sameItems_symm h.secrets, sameItems_symm h.services, h.pods.symm⟩

theorem trans (h₁ : SameLinks P deployment l l') (h₂ : SameLinks P deployment l' l'') :
    SameLinks P deployment l l'' :=
  ⟨sameItems_trans h₁.secrets h₂.secrets, sameItems_trans h₁.services h₂.services,
    h₁.pods.trans h₂.pods⟩

end SameLinks

theorem passes_filter_matching (l : Listing) (M : StringMap Bool) (secrets : List Secret)
    (services : List Service) :
    Passes P deployment l M (secrets.filter (Matching P deployment)) services ↔
      Passes P deployment l M secrets services := by
  simp only [Passes, Clean, claims_filter_matching, List.mem_filter, decide_eq_true_eq, and_imp]
  exact and_congr_left' (and_congr_left' (forall_congr' fun s =>
    ⟨fun h hs hm => h hs hm hm, fun h hs hm _ => h hs hm⟩))

theorem passes_sameLinks {l l' : Listing} {M : StringMap Bool} {secrets secrets' : List Secret}
    {services services' : List Service}
    (hm : (secrets.filter (Matching P deployment)).Perm (secrets'.filter (Matching P deployment)))
    (hv : services.Perm services') (hp : l.pods deployment.ns = l'.pods deployment.ns) :
    Passes P deployment l M secrets services ↔ Passes P deployment l' M secrets' services' := by
  rw [← passes_filter_matching, ← passes_filter_matching l' M secrets']
  exact passes_perm hm hv hp

namespace SameLinks

variable {l l' : Listing}

theorem err_iff (h : SameLinks P deployment l l') (orders orders' : RangeOrders)
    (manifest : Manifest) :
    (listLinkInfos P deployment orders manifest l).1.err = none ↔
      (listLinkInfos P deployment orders' manifest l').1.err = none := by
  by_cases hM : P.listMissingProviders manifest = ∅
  · simp [listLinkInfos_of_empty _ hM]
  rw [err_eq_none_iff orders hM l, err_eq_none_iff orders' hM l']
  have hs := h.secrets
  have hv := h.services
  revert hs hv
  rcases l.secrets deployment.ns with _ | secrets <;>
    rcases l'.secrets deployment.ns with _ | secrets' <;>
    rcases l.services deployment.ns with _ | services <;>
    rcases l'.services deployment.ns with _ | services' <;> simp only [SameItems] <;> simp
  exact fun hs hv => passes_sameLinks hs hv h.pods

theorem linked (h : SameLinks P deployment l l') (orders orders' : RangeOrders)
    (manifest : Manifest) (hok : (listLinkInfos P deployment orders manifest l).1.err = none)
    (hok' : (listLinkInfos P deployment orders' manifest l').1.err = none) :
    (listLinkInfos P deployment orders manifest l).1.linkInfos.Perm
        (listLinkInfos P deployment orders' manifest l').1.linkInfos ∧
      (listLinkInfos P deployment orders manifest l).1.manifest =
        (listLinkInfos P deployment orders' manifest l').1.manifest := by
  by_cases hM : P.listMissingProviders manifest = ∅
  · simp [listLinkInfos_of_empty _ hM]
  obtain ⟨secrets, services, records, links, hls, hlv, -, hr, hlinks, hman⟩ :=
    exists_stored_links orders hM hok
  obtain ⟨secrets', services', records', links', hls', hlv', -, hr', hlinks', hman'⟩ :=
    exists_stored_links orders' hM hok'
  have hs := h.secrets
  have hv := h.services
  rw [hls, hls'] at hs
  rw [hlv, hlv'] at hv
  have hc : (claims P deployment (P.listMissingProviders manifest) secrets.items).Perm
      (claims P deployment (P.listMissingProviders manifest) secrets'.items) := by
    rw [← claims_filter_matching, ← claims_filter_matching _ secrets'.items]
    exact claims_perm _ hs
  refine ⟨?_, ?_⟩
  · rw [(of_err_eq_none orders hM hls hlv hr hok).1, (of_err_eq_none orders' hM hls' hlv' hr' hok').1]
    exact hc.map _
  · rw [hman, hman', getServiceRecords_perm hv hr hr', resolvedLink_congr h.pods] at *
    congr 1
    refine Finmap.ext_lookup fun q => ?_
    rw [hlinks, hlinks', scanResult_quarksLinks_perm _ hc (nodup_claims_names _ secrets)]

end SameLinks

end CfOperator.Congr
