import CfOperator.LinkInfos

namespace CfOperator.Services

variable (P : Packages) (ns name : String)

def servedProvider (svc : Service) : Option String :=
  if svc.annotations.lookup P.labelDeploymentName = some name then
    svc.annotations.lookup P.annotationLinkProviderService
  else none

def servedProviders (svcs : List Service) : List String :=
  svcs.filterMap (servedProvider P name)

def serviceRecord (svc : Service) : ServiceRecord :=
  ⟨svc.selector, svc.name ++ "." ++ ns ++ ".svc." ++ P.clusterDomain⟩

variable {P ns name}

theorem go_cons (acc : StringMap ServiceRecord) (svc : Service) (svcs : List Service) :
    getServiceRecords.go P ns name acc (svc :: svcs) =
      match servedProvider P name svc with
      | none => getServiceRecords.go P ns name acc svcs
      | some p =>
        if p ∈ acc then .error (.text ("duplicated services of provider: " ++ p))
        else getServiceRecords.go P ns name (acc.insert p (serviceRecord P ns svc)) svcs := by
  unfold servedProvider
  split_ifs with hm
  · rcases hp : svc.annotations.lookup P.annotationLinkProviderService with _ | p <;>
      simp [getServiceRecords.go, hm, hp, serviceRecord]
  · simp [getServiceRecords.go, hm]

theorem go_toBool (acc : StringMap ServiceRecord) (svcs : List Service) :
    (getServiceRecords.go P ns name acc svcs).toBool ↔
      (servedProviders P name svcs).Nodup ∧ ∀ p ∈ servedProviders P name svcs, p ∉ acc := by
  induction svcs generalizing acc with
  | nil => simp [getServiceRecords.go, servedProviders, Except.toBool]
  | cons svc svcs ih =>
      rw [go_cons]
      rcases hs : servedProvider P name svc with _ | p
      · simp [servedProviders, List.filterMap_cons, hs, ih]
      · simp only [servedProviders, List.filterMap_cons, hs, List.nodup_cons,
          List.forall_mem_cons]
        split_ifs with hp
        · simp [Except.toBool, hp]
        · rw [ih]
          simp only [servedProviders, Finmap.mem_insert, not_or]
          constructor
          · rintro ⟨hnd, hall⟩
            exact ⟨⟨fun h => (hall p h).1 rfl, hnd⟩, hp, fun q hq => (hall q hq).2⟩
          · rintro ⟨⟨hnot, hnd⟩, -, hall⟩
            exact ⟨hnd, fun q hq => ⟨fun he => hnot (he ▸ hq), hall q hq⟩⟩

theorem lookup_go {acc records : StringMap ServiceRecord} {svcs : List Service}
    (h : getServiceRecords.go P ns name acc svcs = .ok records) (p : String) (r : ServiceRecord) :
    records.lookup p = some r ↔
      acc.lookup p = some r ∨
        ∃ svc ∈ svcs, servedProvider P name svc = some p ∧ r = serviceRecord P ns svc := by
  induction svcs generalizing acc with
  | nil => cases h; simp
  | cons svc svcs ih =>
      rw [go_cons] at h
      rcases hs : servedProvider P name svc with _ | q
      · rw [hs] at h
        simp [ih h, hs]
      · rw [hs] at h
        dsimp only at h
        split_ifs at h with hq
        rw [ih h]
        by_cases hpq : p = q
        · subst hpq
          have hnone : ∀ svc' ∈ svcs, servedProvider P name svc' ≠ some p := fun svc' hm he =>
            ((go_toBool _ _).mp (by rw [h]; rfl)).2 p
              (List.mem_filterMap.mpr ⟨svc', hm, he⟩) (Finmap.mem_insert.mpr (.inl rfl))
          simp only [Finmap.lookup_insert, Option.some.injEq, List.mem_cons, exists_eq_or_imp,
            hs, true_and, Finmap.lookup_eq_none.mpr hq]
          constructor
          · rintro (rfl | ⟨svc', hm, he, _⟩)
            · exact .inr (.inl rfl)
            · exact absurd he (hnone svc' hm)
          · rintro (h | h | ⟨svc', hm, he, _⟩)
            · cases h
            · exact .inl h.symm
            · exact absurd he (hnone svc' hm)
        · simp [Finmap.lookup_insert_of_ne _ hpq, hs, Ne.symm hpq]

theorem getServiceRecords_spec (svcs : List Service) :
    ((getServiceRecords P ns name svcs).toBool ↔ (servedProviders P name svcs).Nodup) ∧
    ∀ records, getServiceRecords P ns name svcs = .ok records → ∀ p r,
      (records.lookup p = some r ↔
        ∃ svc ∈ svcs, servedProvider P name svc = some p ∧ r = serviceRecord P ns svc) := by
  refine ⟨by simp [getServiceRecords, go_toBool, Finmap.not_mem_empty], fun records h p r => ?_⟩
  simpa using lookup_go h p r

theorem getServiceRecords_ok {svcs : List Service} (h : (servedProviders P name svcs).Nodup) :
    ∃ records, getServiceRecords P ns name svcs = .ok records := by
  have hb := (@getServiceRecords_spec P ns name svcs).1.mpr h
  revert hb
  cases getServiceRecords P ns name svcs <;> simp [Except.toBool]

end CfOperator.Services
